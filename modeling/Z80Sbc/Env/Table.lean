import Mathlib.Data.List.Nodup
import Z80Sbc.Env.Store

/-! # The entry table

The table of `environment_io.c`, its keys, and the payload it is saved as: the
entries one after the other, a NUL after every key and every value. The payload
of a well-formed table that fits a snapshot is read back as that table, and what
is read back is the payload of the table read. -/

namespace Z80Sbc.Env
open Z80Sbc.Storage

def envMaxEntries : Nat := 128
def envKeySize : Nat := 17
def envValueSize : Nat := 256

def envStatusOk : Int := 0
def envStatusRead : Int := -2
def envStatusWrite : Int := -3
def envStatusFull : Int := -4
def envStatusNotFound : Int := -5

/-- The C strings in the two fields of an `env_entry_t`. -/
structure Entry where
  key : List UInt8
  value : List UInt8
  deriving DecidableEq

/-- The C string at the front of some bytes; behind them stands a NUL. -/
def cstr (text : List UInt8) : List UInt8 := text.takeWhile (· ≠ 0)

/-- `strncpy(dst, src, size - 1); dst[size - 1] = 0`. -/
def copyText (size : Nat) (src : List UInt8) : List UInt8 := (cstr src).take (size - 1)

def toupper (c : UInt8) : UInt8 := if 0x61 ≤ c ∧ c ≤ 0x7A then c - 0x20 else c

/-- `env_normalize_key` for a buffer of `ENV_KEY_SIZE` bytes. -/
def normalizeKey (key : List UInt8) : List UInt8 :=
  ((cstr key).take (envKeySize - 1)).map toupper

def keyValid (key : List UInt8) : Bool := decide (key ≠ [] ∧ key.length < envKeySize)

def findIndex (entries : List Entry) (key : List UInt8) : Option Nat :=
  entries.findIdx? fun e => e.key = key

/-- `memchr(bytes, 0, length)`: what stands before the first NUL and behind it. -/
def untilNul : List UInt8 → Option (List UInt8 × List UInt8)
  | [] => none
  | b :: bytes =>
    if b = 0 then some ([], bytes)
    else (untilNul bytes).map fun (before, behind) => (b :: before, behind)

theorem untilNul_iff {bytes before behind : List UInt8} :
    untilNul bytes = some (before, behind) ↔ bytes = before ++ 0 :: behind ∧ 0 ∉ before := by
  induction bytes generalizing before with
  | nil => simp [untilNul]
  | cons b bytes ih =>
    by_cases hb : b = 0
    · subst hb
      cases before with
      | nil => simp [untilNul, eq_comm]
      | cons c before =>
        simp only [untilNul, if_true, Option.some.injEq, Prod.mk.injEq, List.cons_append,
          List.cons.injEq, List.mem_cons, not_or]
        exact ⟨nofun, fun h => absurd h.1.1 h.2.1⟩
    · simp only [untilNul, if_neg hb, Option.map_eq_some_iff, Prod.exists, Prod.mk.injEq]
      cases before with
      | nil => simp [hb]
      | cons c before =>
        constructor
        · rintro ⟨s, r, h, he, rfl⟩
          obtain ⟨rfl, rfl⟩ := List.cons.inj he
          obtain ⟨rfl, hn⟩ := ih.mp h
          exact ⟨rfl, by simp [hn, Ne.symm hb]⟩
        · rintro ⟨h, hn⟩
          obtain ⟨rfl, rfl⟩ := List.cons.inj h
          exact ⟨_, _, ih.mpr ⟨rfl, fun hm => hn (List.mem_cons_of_mem _ hm)⟩, rfl, rfl⟩

/-! ## The payload -/

def Entry.bytes (e : Entry) : List UInt8 := e.key ++ 0 :: (e.value ++ [0])

/-- The loop of `env_save_file`; none when the snapshot is full. -/
def encode (snapshot : List UInt8) : List Entry → Option (List UInt8)
  | [] => some snapshot
  | e :: entries =>
    if z80EnvSnapshotBytes - snapshot.length < e.key.length + 1 + (e.value.length + 1) then none
    else encode (snapshot ++ e.bytes) entries

/-- One round of the loop of `env_load_file`: the entry at the front of the payload
and what is left behind it, none where the loop returns `ENV_STATUS_READ`. -/
def decodeEntry (entries : List Entry) (snapshot : List UInt8) : Option (Entry × List UInt8) :=
  if entries.length = envMaxEntries then none
  else
    match untilNul snapshot with
    | none => none
    | some (key, rest) =>
      if key = [] ∨ envKeySize ≤ key.length then none
      else
        match untilNul rest with
        | none => none
        | some (value, rest) =>
          if envValueSize ≤ value.length then none
          else if (findIndex entries key).isSome then none
          else some (⟨key, value⟩, rest)

/-- What one entry must be to be read. -/
structure Entry.Valid (e : Entry) : Prop where
  key : e.key ≠ [] ∧ e.key.length < envKeySize ∧ 0 ∉ e.key
  value : e.value.length < envValueSize ∧ 0 ∉ e.value

theorem decodeEntry_iff {entries : List Entry} {snapshot rest : List UInt8} {e : Entry} :
    decodeEntry entries snapshot = some (e, rest) ↔ snapshot = e.bytes ++ rest ∧ e.Valid ∧
      entries.length ≠ envMaxEntries ∧ findIndex entries e.key = none := by
  constructor
  · intro h
    unfold decodeEntry at h
    split at h
    · cases h
    · rename_i hroom
      split at h
      · cases h
      · rename_i key rest₁ hkey
        split at h
        · cases h
        · rename_i hshort
          split at h
          · cases h
          · rename_i value rest₂ hvalue
            split at h
            · cases h
            · rename_i hvshort
              split at h
              · cases h
              · rename_i hnew
                obtain ⟨rfl, rfl⟩ := Prod.mk.inj (Option.some.inj h)
                obtain ⟨rfl, hknul⟩ := untilNul_iff.mp hkey
                obtain ⟨rfl, hvnul⟩ := untilNul_iff.mp hvalue
                rw [not_or, Nat.not_le] at hshort
                exact ⟨by simp [Entry.bytes], ⟨⟨hshort.1, hshort.2, hknul⟩,
                  ⟨Nat.lt_of_not_le hvshort, hvnul⟩⟩, hroom, by simpa using hnew⟩
  · rintro ⟨rfl, ⟨⟨hne, hshort, hknul⟩, ⟨hvshort, hvnul⟩⟩, hroom, hnew⟩
    have hkey : untilNul (e.bytes ++ rest) = some (e.key, e.value ++ 0 :: rest) :=
      untilNul_iff.mpr ⟨by simp [Entry.bytes], hknul⟩
    have hvalue : untilNul (e.value ++ 0 :: rest) = some (e.value, rest) :=
      untilNul_iff.mpr ⟨rfl, hvnul⟩
    have hvalid : ¬(e.key = [] ∨ envKeySize ≤ e.key.length) := by simp [hne, hshort]
    simp only [decodeEntry, if_neg hroom, hkey, if_neg hvalid, hvalue, hnew]
    rw [if_neg (by omega), if_neg (by simp)]

/-- The loop of `env_load_file` over the payload that is left: the status, and the
table, which keeps what was read before an error. -/
def decode (entries : List Entry) (snapshot : List UInt8) : Int × List Entry :=
  if snapshot = [] then (envStatusOk, entries)
  else
    match _ : decodeEntry entries snapshot with
    | none => (envStatusRead, entries)
    | some (e, rest) => decode (entries ++ [e]) rest
termination_by snapshot.length
decreasing_by
  rename_i h
  rw [(decodeEntry_iff.mp h).1]
  simp only [Entry.bytes, List.length_append, List.length_cons]
  omega

theorem decode_nil (entries : List Entry) : decode entries [] = (envStatusOk, entries) := by
  rw [decode, if_pos rfl]

theorem decode_none {entries : List Entry} {snapshot : List UInt8} (hne : snapshot ≠ [])
    (h : decodeEntry entries snapshot = none) :
    decode entries snapshot = (envStatusRead, entries) := by
  rw [decode, if_neg hne]
  split
  · rfl
  · rename_i hs
    rw [h] at hs
    cases hs

theorem decode_some {entries : List Entry} {snapshot rest : List UInt8} {e : Entry}
    (hne : snapshot ≠ []) (h : decodeEntry entries snapshot = some (e, rest)) :
    decode entries snapshot = decode (entries ++ [e]) rest := by
  rw [decode, if_neg hne]
  split
  · rename_i hs
    rw [h] at hs
    cases hs
  · rename_i hs
    rw [h] at hs
    obtain ⟨rfl, rfl⟩ := Prod.mk.inj (Option.some.inj hs)
    rfl

/-! ## Well-formed tables -/

structure WellFormed (entries : List Entry) : Prop where
  room : entries.length ≤ envMaxEntries
  distinct : (entries.map Entry.key).Nodup
  valid : ∀ e ∈ entries, e.Valid

theorem WellFormed.nil : WellFormed [] := ⟨by decide, List.nodup_nil, nofun⟩

/-- Dropping entries keeps a table well formed. -/
theorem WellFormed.sublist {entries more : List Entry} (h : WellFormed more)
    (hs : entries.Sublist more) : WellFormed entries :=
  ⟨Nat.le_trans hs.length_le h.room, (hs.map Entry.key).nodup h.distinct,
    fun e he => h.valid e (hs.subset he)⟩

theorem findIndex_none {entries : List Entry} {key : List UInt8} :
    findIndex entries key = none ↔ key ∉ entries.map Entry.key := by
  simp only [findIndex, List.findIdx?_eq_none_iff, decide_eq_false_iff_not, List.mem_map,
    not_exists, not_and]

/-- A new entry goes to the end. -/
theorem WellFormed.append {entries : List Entry} {e : Entry} (h : WellFormed entries)
    (hroom : entries.length ≠ envMaxEntries) (hnew : findIndex entries e.key = none)
    (hvalid : e.Valid) : WellFormed (entries ++ [e]) := by
  obtain ⟨hr, hd, hv⟩ := h
  refine ⟨?_, ?_, fun x hx => ?_⟩
  · rw [List.length_append, List.length_singleton]
    omega
  · rw [List.map_append, List.map_singleton, List.nodup_append_comm]
    exact List.nodup_cons.mpr ⟨findIndex_none.mp hnew, hd⟩
  · rcases List.mem_append.mp hx with hx | hx
    · exact hv x hx
    · rw [List.mem_singleton.mp hx]
      exact hvalid

/-- The last entry of a well-formed table is one that could be added to the rest. -/
theorem WellFormed.last {entries : List Entry} {e : Entry} (h : WellFormed (entries ++ [e])) :
    e.Valid ∧ entries.length ≠ envMaxEntries ∧ findIndex entries e.key = none := by
  obtain ⟨hr, hd, hv⟩ := h
  rw [List.length_append, List.length_singleton] at hr
  rw [List.map_append, List.map_singleton, List.nodup_append_comm] at hd
  exact ⟨hv e (by simp), by omega, findIndex_none.mpr (List.nodup_cons.mp hd).1⟩

/-- A new value for an entry that is there. -/
theorem WellFormed.modify {entries : List Entry} (h : WellFormed entries) (i : Nat)
    {value : List UInt8} (hvalue : value.length < envValueSize ∧ 0 ∉ value) :
    WellFormed (entries.modify i fun e => { e with value }) := by
  obtain ⟨hr, hd, hv⟩ := h
  have hkeys : (entries.modify i fun e => { e with value }).map Entry.key =
      entries.map Entry.key := by
    refine List.ext_getElem (by simp) fun j h₁ h₂ => ?_
    simp only [List.getElem_map, List.getElem_modify]
    split <;> rfl
  refine ⟨by rwa [List.length_modify], by rwa [hkeys], fun e he => ?_⟩
  obtain ⟨j, hj, rfl⟩ := List.getElem_of_mem he
  rw [List.length_modify] at hj
  have hold := hv entries[j] (List.getElem_mem hj)
  rw [List.getElem_modify]
  split
  · exact ⟨hold.key, hvalue⟩
  · exact hold

/-! ## Round trips -/

/-- What fits is saved as the entries one after the other. -/
theorem encode_eq {snapshot payload : List UInt8} {entries : List Entry}
    (h : encode snapshot entries = some payload) (hle : snapshot.length ≤ z80EnvSnapshotBytes) :
    payload = snapshot ++ entries.flatMap Entry.bytes ∧ payload.length ≤ z80EnvSnapshotBytes := by
  induction entries generalizing snapshot with
  | nil =>
    obtain rfl : snapshot = payload := Option.some.inj h
    exact ⟨by simp, hle⟩
  | cons e entries ih =>
    rw [encode] at h
    split at h
    · cases h
    · rename_i hfits
      have hlen : (snapshot ++ e.bytes).length ≤ z80EnvSnapshotBytes := by
        simp only [Entry.bytes, List.length_append, List.length_cons, List.length_nil]
        omega
      obtain ⟨hp, hl⟩ := ih h hlen
      exact ⟨by rw [hp, List.flatMap_cons, List.append_assoc], hl⟩

theorem Entry.bytes_ne_nil (e : Entry) (rest : List UInt8) : e.bytes ++ rest ≠ [] := by
  simp [Entry.bytes]

/-- Entries that make a well-formed table with those read so far are read back. -/
theorem decode_flatMap {entries more : List Entry} (h : WellFormed (entries ++ more)) :
    decode entries (more.flatMap Entry.bytes) = (envStatusOk, entries ++ more) := by
  induction more generalizing entries with
  | nil => rw [List.flatMap_nil, decode_nil, List.append_nil]
  | cons e more ih =>
    rw [List.append_cons] at h ⊢
    obtain ⟨hvalid, hroom, hnew⟩ := (h.sublist (List.sublist_append_left _ more)).last
    have hone : decodeEntry entries ((e :: more).flatMap Entry.bytes) =
        some (e, more.flatMap Entry.bytes) :=
      decodeEntry_iff.mpr ⟨List.flatMap_cons, hvalid, hroom, hnew⟩
    rw [decode_some (by rw [List.flatMap_cons]; exact e.bytes_ne_nil _) hone]
    exact ih h

/-- Whatever the payload, the table read is well formed. -/
theorem decode_wellFormed {entries : List Entry} {snapshot : List UInt8}
    (h : WellFormed entries) : WellFormed (decode entries snapshot).2 := by
  induction entries, snapshot using decode.induct with
  | case1 entries => rwa [decode_nil]
  | case2 entries snapshot hne hno => rwa [decode_none hne hno]
  | case3 entries snapshot hne e rest hsome ih =>
    obtain ⟨-, hvalid, hroom, hnew⟩ := decodeEntry_iff.mp hsome
    rw [decode_some hne hsome]
    exact ih (h.append hroom hnew hvalid)

/-- What is read without an error is the payload of what was read. -/
theorem decode_sound {entries table : List Entry} {snapshot : List UInt8}
    (h : decode entries snapshot = (envStatusOk, table)) :
    ∃ more, table = entries ++ more ∧ snapshot = more.flatMap Entry.bytes := by
  induction entries, snapshot using decode.induct with
  | case1 entries =>
    rw [decode_nil] at h
    exact ⟨[], by simpa using (Prod.mk.inj h).2.symm, rfl⟩
  | case2 entries snapshot hne hno =>
    rw [decode_none hne hno] at h
    exact absurd (Prod.mk.inj h).1 (by decide)
  | case3 entries snapshot hne e rest hsome ih =>
    rw [decode_some hne hsome] at h
    obtain ⟨more, rfl, rfl⟩ := ih h
    obtain ⟨rfl, -⟩ := decodeEntry_iff.mp hsome
    exact ⟨e :: more, by simp, by simp⟩

end Z80Sbc.Env
