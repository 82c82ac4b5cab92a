import Z80Sbc.Env.TableDurability

/-! # A command line and the variable it names

`env_execute_cli` decides on one change of the table, to the variable named in the command
with its name cut to 16 bytes, and then saves the table. A name that fits is the key of the
one entry that can change. -/

namespace Z80Sbc.Env.CommandFrame
open Z80Sbc.Storage Z80Sbc.Flash Z80Sbc.Env Z80Sbc.Env.SnapshotSafety
open Z80Sbc.Env.TableDurability

/-! ## Failed saves -/

/-- A sector write leaves the flash as it was or writes the sector. -/
theorem writeSnapshot_run (bus : BusOutcome) {f : Flash} {slot : Int} {previous : EnvHeader}
    {data : List UInt8} (h : currentSlot f = (slot, previous)) (hne : slot ≠ -2)
    (hlen : data.length ≤ z80EnvSnapshotBytes) :
    ((writeSnapshot bus slot previous data).run f).2 = f ∨
      snapshotLoad z80EnvSnapshotBytes ((writeSnapshot bus slot previous data).run f).2 =
        (0, data) := by
  obtain ⟨w, hw, hwrite, hkept⟩ := currentSlot_other h hne
  unfold writeSnapshot
  rw [hwrite, Prog.run_bind]
  obtain ⟨hdone, hfailed, -⟩ := (envWrite_safe bus (f := f) hw
    (snapshotSector (snapshotHeader previous.sequence data) data)).run
  generalize (envWrite bus w _).run f = r at hdone hfailed
  obtain ⟨ok, f'⟩ := r
  have hwritten : SameSector f' f (1 - w) ∧ SectorIs f' w
      (snapshotSector (snapshotHeader previous.sequence data) data) →
      snapshotLoad z80EnvSnapshotBytes f' = (0, data) := by
    rintro ⟨hsame, himage⟩
    have hcur : Current f' w (previous.sequence + 1) data := by
      refine ⟨hw, himage.holds hlen, fun hv => ?_⟩
      rw [validSlot_congr hsame] at hv ⊢
      rw [hkept hv]
    exact Durable.load (Or.inr ⟨w, _, hcur⟩) (le_refl _)
  cases ok with
  | true => exact Or.inr (hwritten (hdone rfl))
  | false =>
    rcases hfailed rfl with rfl | hlate
    · exact Or.inl rfl
    · exact Or.inr (hwritten hlate)

theorem fresh_of_current {f : Flash} (h : (currentSlot f).1 = -1) : Fresh f := by
  have hzero : (0 : Int) ≠ -1 := by decide
  have hone : (1 : Int) ≠ -1 := by decide
  unfold currentSlot at h
  dsimp only at h
  split at h
  · split at h
    next hblank => exact fresh_iff.mpr hblank
    · exact absurd h (by decide)
  split at h
  · exact absurd h hone
  split at h
  · exact absurd h hzero
  split at h
  · exact absurd h hone
  · exact absurd h hzero

/-- Behind a save the flash loads as before or as what was saved. -/
theorem snapshotSave_run (bus : Nat → BusOutcome) (f : Flash) {data : List UInt8}
    (hlen : data.length ≤ z80EnvSnapshotBytes) :
    let f' := ((snapshotSave bus data).run f).2
    snapshotLoad z80EnvSnapshotBytes f' = snapshotLoad z80EnvSnapshotBytes f ∨
      snapshotLoad z80EnvSnapshotBytes f' = (0, data) := by
  have hwrite (bus : BusOutcome) (f : Flash) (data : List UInt8)
      (hlen : data.length ≤ z80EnvSnapshotBytes) (hne : (currentSlot f).1 ≠ -2) :
      let f' := ((writeSnapshot bus (currentSlot f).1 (currentSlot f).2 data).run f).2
      snapshotLoad z80EnvSnapshotBytes f' = snapshotLoad z80EnvSnapshotBytes f ∨
        snapshotLoad z80EnvSnapshotBytes f' = (0, data) := by
    rcases writeSnapshot_run bus (rfl : currentSlot f = (_, _)) hne hlen with h | h
    · exact Or.inl (congrArg _ h)
    · exact Or.inr h
  have hbaseline (bus : Nat → BusOutcome) (f : Flash) :
      let f' := ((snapshotSave bus []).run f).2
      snapshotLoad z80EnvSnapshotBytes f' = snapshotLoad z80EnvSnapshotBytes f ∨
        snapshotLoad z80EnvSnapshotBytes f' = (0, []) := by
    rw [snapshotSave_empty]
    simp only [Prog.run_read]
    split
    · exact Or.inl rfl
    next hne =>
    split
    · exact Or.inl rfl
    · exact hwrite (bus 0) f [] (Nat.zero_le _) hne
  rw [snapshotSave, if_neg (by omega)]
  simp only [Prog.contents_bind, Prog.run_read]
  split
  · exact Or.inl rfl
  next hne =>
  split
  · exact Or.inl rfl
  split
  next hfresh =>
    -- the baseline is saved first
    have hblank : snapshotLoad z80EnvSnapshotBytes f = (0, []) :=
      Durable.load (Or.inl ⟨fresh_of_current hfresh.1, rfl⟩) (le_refl _)
    have hbase := hbaseline (fun n => bus (n + 1)) f
    rw [Prog.run_bind]
    generalize (snapshotSave (fun n => bus (n + 1)) []).run f = r at hbase ⊢
    obtain ⟨status, f₁⟩ := r
    have hsame : snapshotLoad z80EnvSnapshotBytes f₁ = snapshotLoad z80EnvSnapshotBytes f := by
      rcases hbase with h | h
      · exact h
      · exact h.trans hblank.symm
    dsimp only
    split
    · exact Or.inl hsame
    · simp only [Prog.run_read]
      split
      · exact Or.inl hsame
      next hslot =>
        rw [← hsame]
        exact hwrite (bus 0) f₁ data hlen fun h => hslot (by rw [h]; decide)
  · exact hwrite (bus 0) f data hlen hne

/-- Behind a commit the table is the old or the new one, and the new one on success. -/
theorem commit_run (bus : Nat → BusOutcome) {f : Flash} {entries entries' : List Entry}
    (h : entries = (loadFile f).2) (hw : WellFormed entries') :
    let r := ((commit bus entries').run f).1
    (r.2 = entries ∨ r.2 = entries') ∧ (r.1 = envStatusOk → r.2 = entries') := by
  have hload : let f' := ((saveFile bus entries').run f).2
      (loadFile f').2 = entries ∨ (loadFile f').2 = entries' := by
    unfold saveFile
    cases hsnap : encode [] entries' with
    | none => exact Or.inl h.symm
    | some snapshot =>
      obtain ⟨hp, hlen⟩ := encode_eq hsnap (Nat.zero_le _)
      rw [List.nil_append] at hp
      rcases snapshotSave_run bus f hlen with hsame | hnew
      · left
        rw [h]
        unfold loadFile
        rw [hsame]
      · right
        unfold loadFile
        rw [hnew]
        dsimp only
        rw [if_neg (by decide), hp]
        exact congrArg Prod.snd (@decode_flatMap [] entries' hw)
  unfold commit
  rw [Prog.run_bind]
  generalize (saveFile bus entries').run f = r at hload ⊢
  obtain ⟨status, f'⟩ := r
  dsimp only at hload ⊢
  split
  next hfailed =>
    simp only [Prog.contents_bind, Prog.run_read]
    refine ⟨hload, fun hok => ?_⟩
    exfalso
    change (if (loadFile f').1 ≠ envStatusOk then envStatusRead else status) = envStatusOk at hok
    split at hok
    · exact absurd hok (by decide)
    · exact hfailed hok
  · exact ⟨Or.inr rfl, fun _ => rfl⟩

/-- On a flash as it left the factory, with the bus granted, what fits is saved. -/
theorem commit_fresh {bus : Nat → BusOutcome} (hbus : ∀ n, busGranted (bus n) = true)
    {f : Flash} (hf : Fresh f) {entries : List Entry} {snapshot : List UInt8}
    (hfits : encode [] entries = some snapshot) :
    ((commit bus entries).run f).1 = (envStatusOk, entries) := by
  obtain ⟨-, hlen⟩ := encode_eq hfits (Nat.zero_le _)
  have hsaved := (Durable.save bus (Or.inl ⟨hf, rfl⟩) hlen).granted (by rw [hbus, hbus]; rfl)
  unfold commit saveFile
  rw [hfits, Prog.run_bind]
  dsimp only
  rw [hsaved, if_neg (by decide)]
  rfl

/-! ## Changes of the table -/

/-- What a command does to the table before it is saved. -/
inductive Change where
  | none
  | set (key value : List UInt8)
  | delete (key : List UInt8)

def Change.apply (entries : List Entry) : Change → List Entry
  | .none => entries
  | .set key value =>
    if !keyValid key then entries
    else
      match findIndex entries key with
      | some i => entries.modify i fun e => { e with value := copyText envValueSize value }
      | .none =>
        if envMaxEntries ≤ entries.length then entries
        else entries ++ [⟨key, copyText envValueSize value⟩]
  | .delete key =>
    if !keyValid key then entries
    else
      match findIndex entries key with
      | some i => entries.eraseIdx i
      | .none => entries

/-- The change is none: it deletes a variable that is not there, sets one to the value it has, or
makes one where there is no room. -/
def Change.Idle (entries : List Entry) : Change → Prop
  | .none => True
  | .set key value =>
    keyValid key = false ∨
      match findIndex entries key with
      | some i => entries[i]?.map Entry.value = some (copyText envValueSize value)
      | .none => envMaxEntries ≤ entries.length
  | .delete key => keyValid key = false ∨ findIndex entries key = .none

theorem findIndex_lt {entries : List Entry} {key : List UInt8} {i : Nat}
    (h : findIndex entries key = some i) : i < entries.length :=
  (List.findIdx?_eq_some_iff_getElem.mp h).choose

theorem Change.apply_eq_iff (entries : List Entry) (c : Change) :
    c.apply entries = entries ↔ c.Idle entries := by
  cases c with
  | none => simp [Change.apply, Change.Idle]
  | set key value =>
    dsimp only [Change.apply, Change.Idle]
    cases hv : keyValid key with
    | false => simp
    | true =>
      simp only [Bool.not_true, Bool.false_eq_true, if_false, Bool.true_eq_false, false_or]
      cases hi : findIndex entries key with
      | none => simp
      | some i =>
        have hlt := findIndex_lt hi
        dsimp only
        constructor
        · intro h
          have hat := congrArg (fun l => l[i]?.map Entry.value) h
          rw [List.getElem?_modify_eq, List.getElem?_eq_getElem hlt] at hat
          rw [List.getElem?_eq_getElem hlt]
          exact hat.symm
        · intro h
          rw [List.getElem?_eq_getElem hlt, Option.map_some] at h
          refine List.ext_getElem (List.length_modify ..) fun j hj hj' => ?_
          rw [List.getElem_modify]
          split
          · rename_i hij
            subst hij
            exact congrArg (Entry.mk entries[i].key) (Option.some.inj h).symm
          · rfl
  | delete key =>
    dsimp only [Change.apply, Change.Idle]
    cases hv : keyValid key with
    | false => simp
    | true =>
      simp only [Bool.not_true, Bool.false_eq_true, if_false, Bool.true_eq_false, false_or]
      cases hi : findIndex entries key with
      | none => simp
      | some i =>
        have hlt := findIndex_lt hi
        refine iff_of_false (fun h => ?_) (fun h => by cases h)
        have hlen := congrArg List.length h
        rw [List.length_eraseIdx_of_lt hlt] at hlen
        omega

/-- The key that is acted on. -/
def Change.key : Change → List UInt8
  | .none => []
  | .set key _ => key
  | .delete key => key

/-- Everything but one variable is as before, in the same order. -/
def Frame (key : List UInt8) (before after : List Entry) : Prop :=
  after.filter (fun e => e.key ≠ key) = before.filter (fun e => e.key ≠ key)

theorem findIndex_split {entries : List Entry} {key : List UInt8} {i : Nat}
    (h : findIndex entries key = some i) :
    ∃ front e rest, entries = front ++ e :: rest ∧ front.length = i ∧ e.key = key := by
  obtain ⟨hi, hkey, -⟩ := List.findIdx?_eq_some_iff_getElem.mp h
  refine ⟨entries.take i, entries[i], entries.drop (i + 1), ?_, ?_, of_decide_eq_true hkey⟩
  · rw [List.getElem_cons_drop, List.take_append_drop]
  · rw [List.length_take]
    omega

theorem modify_split (front rest : List Entry) (e : Entry) (g : Entry → Entry) :
    (front ++ e :: rest).modify front.length g = front ++ g e :: rest := by
  induction front with
  | nil => rfl
  | cons x front ih => exact congrArg (x :: ·) ih

theorem eraseIdx_split (front rest : List Entry) (e : Entry) :
    (front ++ e :: rest).eraseIdx front.length = front ++ rest := by
  induction front with
  | nil => rfl
  | cons x front ih => exact congrArg (x :: ·) ih

theorem Change.apply_frame (c : Change) (entries : List Entry) :
    Frame c.key entries (c.apply entries) := by
  unfold Frame
  cases c with
  | none => rfl
  | set key value =>
    unfold Change.apply Change.key
    dsimp only
    split
    · rfl
    split
    next i hi =>
      obtain ⟨front, e, rest, rfl, rfl, hkey⟩ := findIndex_split hi
      rw [modify_split, List.filter_append, List.filter_append, List.filter_cons_of_neg,
        List.filter_cons_of_neg]
      · simp [hkey]
      · simp [hkey]
    split
    · rfl
    · rw [List.filter_append, List.filter_singleton]
      simp
  | delete key =>
    unfold Change.apply Change.key
    dsimp only
    split
    · rfl
    split
    next i hi =>
      obtain ⟨front, e, rest, rfl, rfl, hkey⟩ := findIndex_split hi
      rw [eraseIdx_split, List.filter_append, List.filter_append, List.filter_cons_of_neg]
      simp [hkey]
    · rfl

theorem Change.apply_wellFormed {c : Change} {entries : List Entry} (h : WellFormed entries)
    (hnul : 0 ∉ c.key) : WellFormed (c.apply entries) := by
  cases c with
  | none => exact h
  | set key value =>
    unfold Change.apply
    dsimp only
    split
    · exact h
    next hkey =>
    rw [Bool.not_eq_true', Bool.not_eq_false, keyValid_iff] at hkey
    split
    · exact h.modify _ (copyText_valid value)
    next hnew =>
    split
    · exact h
    · exact h.append (by omega) hnew ⟨⟨hkey.1, hkey.2, hnul⟩, copyText_valid value⟩
  | delete key =>
    unfold Change.apply
    dsimp only
    split
    · exact h
    split
    · exact h.sublist (entries.eraseIdx_sublist _)
    · exact h

/-! ## What a command decides -/

def plannedDelta (entries : List Entry) (key delta : List UInt8) : Change :=
  match strtoll delta with
  | (_, true, _) => .none
  | (delta, false, _) =>
    let update (current : Int) : Change :=
      match calculate current delta false with
      | .none => .none
      | some updated => .set key (printInt updated)
    match getValue entries key envValueSize with
    | .none => update 0
    | some value =>
      if !isNumber value then .none
      else
        match strtoll value with
        | (_, true, _) => .none
        | (current, false, _) => update current

/-- The change that `env_execute_cli` comes to. -/
def planned (entries : List Entry) (millis : Nat → Nat) (request : List UInt8) : Change :=
  let (arg1, rest) := nextToken envValueSize (cstr request)
  if arg1 = [] then .none
  else if isHelp arg1 then .none
  else if isOption 'N' arg1 then .none
  else if isOption 'D' arg1 then
    let (arg2, _) := nextToken envValueSize rest
    if arg2 = [] then .none else .delete (normalizeKey arg2)
  else if isOption 'I' arg1 then
    let (arg2, rest) := nextToken envValueSize rest
    match parseAssignment arg2 rest with
    | (.none, _) => .none
    | (some (key, value), _) =>
      match getValue entries key envValueSize with
      | some _ => .none
      | .none => .set key value
  else
    match parseAssignment arg1 rest with
    | (some (key, value), _) =>
      match evalValue entries millis value with
      | .error _ => .none
      | .value evaled => .set key (copyText envValueSize evaled)
      | .unchanged => .set key value
    | (.none, name) =>
      match parseDelta name rest with
      | some (key, delta) => plannedDelta entries key delta
      | .none => .none

theorem bind_done {α β : Type} {p : Prog α} {k : α → Prog β} {b : β} (h : p >>= k = .done b) :
    ∃ a, p = .done a ∧ k a = .done b := by
  cases p with
  | done a => exact ⟨a, rfl, h⟩
  | call c rest => cases h
  | read rest => cases h

/-- A commit looks at the flash in any case. -/
theorem commit_reads (bus : Nat → BusOutcome) (entries : List Entry) (x : Int × List Entry) :
    commit bus entries ≠ .done x := by
  intro h
  obtain ⟨status, hsave, hrest⟩ := bind_done h
  have hfailed : status ≠ envStatusOk := by
    unfold saveFile at hsave
    split at hsave
    · cases hsave
      decide
    next snapshot _ =>
      rw [snapshotSave] at hsave
      split at hsave
      · cases hsave
        decide
      · cases hsave
  rw [if_pos hfailed] at hrest
  cases hrest

/-- The program `p` makes the change to a table that is the one in the flash; if the save
fails the table is the old or the new one. Without the flash nothing changes. -/
structure Performed (d : Driver) (c : Change) (f : Flash) (p : Prog (Driver × Response)) :
    Prop where
  table : (p.run f).1.1.entries = d.entries ∨ (p.run f).1.1.entries = c.apply d.entries
  done : (p.run f).1.1.status = envStatusOk → (p.run f).1.1.entries = c.apply d.entries
  untouched : ∀ x, p = .done x → x.1.entries = d.entries

/-- The same of the status and the table alone. -/
structure Stored (d : Driver) (c : Change) (f : Flash) (p : Prog (Int × List Entry)) : Prop where
  table : (p.run f).1.2 = d.entries ∨ (p.run f).1.2 = c.apply d.entries
  done : (p.run f).1.1 = envStatusOk → (p.run f).1.2 = c.apply d.entries
  untouched : ∀ x, p = .done x → x.2 = d.entries

theorem Stored.refused {d : Driver} {c : Change} {f : Flash} (status : Int)
    (happly : c.apply d.entries = d.entries) : Stored d c f (.done (status, d.entries)) :=
  ⟨Or.inl rfl, fun _ => happly.symm, fun _ h => by cases h; rfl⟩

theorem Stored.commit {d : Driver} {c : Change} {f : Flash} (bus : Nat → BusOutcome)
    (h : d.entries = (loadFile f).2) (hnul : 0 ∉ c.key) :
    Stored d c f (commit bus (c.apply d.entries)) := by
  have hw := Change.apply_wellFormed (h ▸ loadFile_wellFormed f : WellFormed d.entries) hnul
  obtain ⟨htable, hdone⟩ := commit_run bus h hw
  exact ⟨htable, hdone, fun x hx => absurd hx (commit_reads bus _ x)⟩

theorem Stored.report {d : Driver} {c : Change} {f : Flash} {p : Prog (Int × List Entry)}
    (h : Stored d c f p) (r : Int → Response) :
    Performed d c f (p >>= fun x => return d.answer x.1 x.2 (r x.1)) := by
  refine ⟨?_, ?_, fun x hx => ?_⟩
  · rw [Prog.run_bind]
    exact h.table
  · rw [Prog.run_bind]
    exact h.done
  · obtain ⟨a, ha, hrest⟩ := bind_done hx
    cases hrest
    exact h.untouched a ha

section
variable {f : Flash} {d : Driver} {io : Io} (h : d.entries = (loadFile f).2)
include h

theorem setAndReport_run {key value : List UInt8} (hnul : 0 ∉ key) :
    Performed d (.set key value) f (setAndReport io d key value) := by
  suffices hstored : Stored d (.set key value) f (setValue io.bus d.entries key value) from
    hstored.report fun status => formatResponse io.capacity {}
      (if status = envStatusOk then key ++ ascii "=" ++ value ++ ascii "\r\n"
        else ascii "Error setting " ++ key ++ ascii "\r\n")
  cases hkey : keyValid key with
  | false =>
    have hrun : setValue io.bus d.entries key value = .done (envStatusWrite, d.entries) := by
      simp [setValue, hkey]
    rw [hrun]
    exact .refused _ (by simp [Change.apply, hkey])
  | true =>
    have hcommit := Stored.commit (c := .set key value) io.bus h hnul
    cases hi : findIndex d.entries key with
    | some i =>
      have hrun : setValue io.bus d.entries key value =
          commit io.bus (Change.apply d.entries (.set key value)) := by
        simp [setValue, Change.apply, hkey, hi]
      rw [hrun]
      exact hcommit
    | none =>
      by_cases hroom : envMaxEntries ≤ d.entries.length
      · have hrun : setValue io.bus d.entries key value = .done (envStatusFull, d.entries) := by
          simp [setValue, hkey, hi, hroom]
        rw [hrun]
        exact .refused _ (by simp [Change.apply, hkey, hi, hroom])
      · have hrun : setValue io.bus d.entries key value =
            commit io.bus (Change.apply d.entries (.set key value)) := by
          simp [setValue, Change.apply, hkey, hi, hroom]
        rw [hrun]
        exact hcommit

theorem deleteAndReport_run {key : List UInt8} (hnul : 0 ∉ key) :
    Performed d (.delete key) f (deleteAndReport io d key) := by
  suffices hstored : Stored d (.delete key) f (deleteValue io.bus d.entries key) from
    hstored.report fun status => formatResponse io.capacity {}
      (if status = envStatusOk then key ++ ascii " deleted\r\n"
        else if status = envStatusNotFound then key ++ ascii " not found\r\n"
        else ascii "Error deleting " ++ key ++ ascii "\r\n")
  cases hkey : keyValid key with
  | false =>
    have hrun : deleteValue io.bus d.entries key = .done (envStatusNotFound, d.entries) := by
      simp [deleteValue, hkey]
    rw [hrun]
    exact .refused _ (by simp [Change.apply, hkey])
  | true =>
    cases hi : findIndex d.entries key with
    | none =>
      have hrun : deleteValue io.bus d.entries key = .done (envStatusNotFound, d.entries) := by
        simp [deleteValue, hkey, hi]
      rw [hrun]
      exact .refused _ (by simp [Change.apply, hkey, hi])
    | some i =>
      have hrun : deleteValue io.bus d.entries key =
          commit io.bus (Change.apply d.entries (.delete key)) := by
        simp [deleteValue, Change.apply, hkey, hi]
      rw [hrun]
      exact Stored.commit io.bus h hnul

omit h in
theorem done_run (status : Int) (r : Response) :
    Performed d .none f (.done (d.answer status d.entries r)) :=
  ⟨Or.inl rfl, fun _ => rfl, fun _ h => by cases h; rfl⟩

theorem executeDelta_run {key delta : List UInt8} (hnul : 0 ∉ key) :
    Performed d (plannedDelta d.entries key delta) f (executeDelta io d key delta) := by
  have hsame (status : Int) (r : Response) := @done_run f d status r
  unfold executeDelta plannedDelta
  rcases strtoll delta with ⟨value, erange, rest⟩
  cases erange with
  | true => exact hsame _ _
  | false =>
  have hupdate (current : Int) : Performed d
      (match calculate current value false with
        | none => Change.none
        | some updated => .set key (printInt updated)) f
      (match calculate current value false with
        | none => pure (d.answer envStatusRead d.entries (writeText io.capacity {} overflowText))
        | some updated => setAndReport io d key (printInt updated)) := by
    cases calculate current value false with
    | none => exact hsame _ _
    | some updated => exact setAndReport_run h hnul
  dsimp only
  cases getValue d.entries key envValueSize with
  | none => exact hupdate 0
  | some text =>
    dsimp only
    by_cases hnumber : (!isNumber text) = true
    · rw [if_pos hnumber, if_pos hnumber]
      exact hsame _ _
    · rw [if_neg hnumber, if_neg hnumber]
      rcases strtoll text with ⟨current, erange, rest⟩
      cases erange with
      | true => exact hsame _ _
      | false => exact hupdate current

theorem executeCli_run :
    Performed d (planned d.entries io.millis d.request) f (executeCli io d) := by
  have hsame (status : Int) (r : Response) := @done_run f d status r
  unfold executeCli planned
  rcases nextToken envValueSize (cstr d.request) with ⟨arg1, rest⟩
  dsimp only
  by_cases hnone : arg1 = []
  · simp only [if_pos hnone]
    exact hsame _ _
  by_cases hhelp : isHelp arg1 = true
  · simp only [if_neg hnone, if_pos hhelp]
    exact hsame _ _
  by_cases hcount : isOption 'N' arg1 = true
  · simp only [if_neg hnone, if_neg hhelp, if_pos hcount]
    exact hsame _ _
  by_cases hdelete : isOption 'D' arg1 = true
  · simp only [if_neg hnone, if_neg hhelp, if_neg hcount, if_pos hdelete]
    rcases nextToken envValueSize rest with ⟨arg2, rest⟩
    dsimp only
    by_cases hname : arg2 = []
    · simp only [if_pos hname]
      exact hsame _ _
    · simp only [if_neg hname]
      exact deleteAndReport_run h (normalizeKey_nul _)
  by_cases hinsert : isOption 'I' arg1 = true
  · simp only [if_neg hnone, if_neg hhelp, if_neg hcount, if_neg hdelete, if_pos hinsert]
    rcases nextToken envValueSize rest with ⟨arg2, rest⟩
    rcases hparse : parseAssignment arg2 rest with ⟨_ | ⟨key, value⟩, name⟩
    · exact hsame _ _
    · dsimp only
      cases getValue d.entries key envValueSize with
      | some _ => exact hsame _ _
      | none => exact setAndReport_run h (parseAssignment_nul hparse)
  simp only [if_neg hnone, if_neg hhelp, if_neg hcount, if_neg hdelete, if_neg hinsert]
  rcases hparse : parseAssignment arg1 rest with ⟨_ | ⟨key, value⟩, name⟩
  · dsimp only
    rcases hdelta : parseDelta name rest with _ | ⟨key, delta⟩
    · dsimp only
      split
      · exact hsame _ _
      · cases getValue d.entries (normalizeKey (cstr name)) envValueSize with
        | some _ => exact hsame _ _
        | none => exact hsame _ _
    · exact executeDelta_run h (parseDelta_nul hdelta)
  · have hnul := parseAssignment_nul hparse
    dsimp only
    cases evalValue d.entries io.millis value with
    | error message => exact hsame _ _
    | value evaled => exact setAndReport_run h hnul
    | unchanged => exact setAndReport_run h hnul

end

/-! ## The name that was typed -/

/-- The name in front of the first `=`, which may be a word of its own. -/
def assignedName (name : List UInt8) : List UInt8 :=
  match name.findIdx? (· = '='.toUInt8) with
  | some equals => name.take equals
  | none => name

/-- The name in front of the sign of `NAME+N`, `NAME+ N`, `NAME + N` or in front of `N`. -/
def deltaName (name rest : List UInt8) : List UInt8 :=
  if (splitDelta name).isSome then name.take (((name.drop 1).findIdx? isSign).getD 0 + 1)
  else if 1 < name.length ∧ isSign (name.getLastD 0) ∧ skipSpaces rest ≠ [] then name.dropLast
  else name

/-- The full name typed in a command that may change a variable. -/
def typedName (request : List UInt8) : List UInt8 :=
  let (arg1, rest) := nextToken envValueSize (cstr request)
  if isOption 'D' arg1 then (nextToken envValueSize rest).1
  else if isOption 'I' arg1 then assignedName (nextToken envValueSize rest).1
  else if arg1.contains '='.toUInt8 ∨ (skipSpaces rest).head? = some '='.toUInt8 then
    assignedName arg1
  else deltaName arg1 rest

/-- A word of a command line. -/
structure Word (name : List UInt8) : Prop where
  nul : 0 ∉ name
  blank : ∀ c ∈ name, isBlank c = false

theorem nextToken_word {size : Nat} {text : List UInt8} (h : 0 ∉ text) :
    Word (nextToken size text).1 ∧ 0 ∉ (nextToken size text).2 := by
  have hskip : 0 ∉ skipSpaces text := fun h0 => h ((List.dropWhile_sublist _).subset h0)
  refine ⟨⟨fun h0 => ?_, fun c hc => ?_⟩, fun h0 => ?_⟩
  · exact hskip ((List.takeWhile_sublist _).subset (List.mem_of_mem_take h0))
  · have hword := List.mem_takeWhile_imp (List.mem_of_mem_take hc)
    simpa using hword
  · exact hskip ((List.dropWhile_sublist _).subset ((List.dropWhile_sublist _).subset h0))

theorem Word.take {name : List UInt8} (h : Word name) (n : Nat) : Word (name.take n) :=
  ⟨fun h0 => h.nul (List.mem_of_mem_take h0), fun c hc => h.blank c (List.mem_of_mem_take hc)⟩

theorem Word.cstr {name : List UInt8} (h : Word name) : cstr name = name := by
  refine List.takeWhile_eq_self_iff.mpr fun c hc => ?_
  rw [decide_eq_true_eq]
  rintro rfl
  exact h.nul hc

theorem Word.trim {name : List UInt8} (h : Word name) : trimText name = name := by
  have hskip : skipSpaces name = name := by
    cases name with
    | nil => rfl
    | cons c name =>
      exact List.dropWhile_cons_of_neg (by simp [h.blank c (List.mem_cons_self ..)])
  unfold trimText
  rw [hskip]
  refine List.rdropWhile_eq_self_iff.mpr fun hne => ?_
  simp [h.blank _ (List.getLast_mem hne)]

/-- Cutting a name to the size of a key and then to fewer bytes makes no difference. -/
theorem Word.normalizeKey_take {name : List UInt8} (h : Word name) (n : Nat) :
    normalizeKey (name.take (if envKeySize ≤ n then envKeySize - 1 else n)) =
      normalizeKey (name.take n) := by
  unfold normalizeKey
  rw [(h.take _).cstr, (h.take n).cstr]
  split
  next hlong => rw [List.take_take, List.take_take, Nat.min_self, Nat.min_eq_left (by
      simp only [envKeySize] at hlong ⊢
      omega)]
  · rfl

theorem parseAssignment_name {name rest name' key value : List UInt8}
    (h : parseAssignment name rest = (some (key, value), name')) :
    key = normalizeKey (assignedName name) ∧
      (name.contains '='.toUInt8 = true ∨ (skipSpaces rest).head? = some '='.toUInt8) := by
  unfold parseAssignment at h
  unfold assignedName
  cases hequals : name.findIdx? (· = '='.toUInt8) with
  | some equals =>
    simp only [hequals] at h
    have hkey := (Prod.mk.inj h).1
    split at hkey
    · refine ⟨(Prod.mk.inj (Option.some.inj hkey)).1.symm, Or.inl ?_⟩
      obtain ⟨hlt, heq, -⟩ := List.findIdx?_eq_some_iff_getElem.mp hequals
      rw [List.contains_iff_mem, ← of_decide_eq_true heq]
      exact List.getElem_mem hlt
    · cases hkey
  | none =>
    simp only [hequals] at h
    split at h
    · cases (Prod.mk.inj h).1
    next hhead =>
      have hkey := (Prod.mk.inj h).1
      split at hkey
      · exact ⟨(Prod.mk.inj (Option.some.inj hkey)).1.symm, Or.inr (not_not.mp hhead)⟩
      · cases hkey

/-- An assignment that is none leaves the name as it was, or with a NUL for its first byte
when that is `=`. -/
theorem parseAssignment_none {name rest name' : List UInt8} (hw : Word name) (hne : name ≠ [])
    (h : parseAssignment name rest = (none, name')) :
    (name' = name ∧ ¬(name.contains '='.toUInt8 = true ∨
      (skipSpaces rest).head? = some '='.toUInt8)) ∨
    (name' = 0 :: name.drop 1 ∧ name.contains '='.toUInt8 = true ∧ assignedName name = []) := by
  have hkeep (n : Nat) (hn : normalizeKey (name.take n) = []) : name.take n = [] := by
    unfold normalizeKey at hn
    rw [(hw.take n).cstr, List.map_eq_nil_iff, List.take_eq_nil_iff] at hn
    exact hn.resolve_left (by decide)
  unfold parseAssignment at h
  unfold assignedName
  cases hequals : name.findIdx? (· = '='.toUInt8) with
  | some equals =>
    obtain ⟨hlt, heq, -⟩ := List.findIdx?_eq_some_iff_getElem.mp hequals
    simp only [hequals] at h ⊢
    obtain ⟨hkey, rfl⟩ := Prod.mk.inj h
    split at hkey
    · cases hkey
    next hnil =>
      have htake := hkeep equals (not_not.mp hnil)
      have hzero : equals = 0 := by
        rcases List.take_eq_nil_iff.mp htake with h0 | h0
        · exact h0
        · exact absurd h0 hne
      refine Or.inr ⟨?_, ?_, htake⟩
      · rw [hzero]
        cases name with
        | nil => exact absurd rfl hne
        | cons c name => rfl
      · rw [List.contains_iff_mem, ← of_decide_eq_true heq]
        exact List.getElem_mem hlt
  | none =>
    have hnot : ¬name.contains '='.toUInt8 = true := by
      rw [List.contains_iff_mem]
      intro hmem
      have hall := List.findIdx?_eq_none_iff.mp hequals _ hmem
      simp at hall
    simp only [hequals] at h ⊢
    split at h
    next hhead => exact Or.inl ⟨(Prod.mk.inj h).2.symm, not_or.mpr ⟨hnot, hhead⟩⟩
    · obtain ⟨hkey, rfl⟩ := Prod.mk.inj h
      split at hkey
      · cases hkey
      next hnil =>
        have htake := hkeep name.length (by rw [List.take_length]; exact not_not.mp hnil)
        rw [List.take_length] at htake
        exact absurd htake hne

theorem parseDelta_name {name rest key delta : List UInt8} (hw : Word name)
    (h : parseDelta name rest = some (key, delta)) : key = normalizeKey (deltaName name rest) := by
  have hdrop : cstr (name.drop 1) = name.drop 1 :=
    Word.cstr ⟨fun h0 => hw.nul (List.mem_of_mem_drop h0),
      fun c hc => hw.blank c (List.mem_of_mem_drop hc)⟩
  unfold parseDelta at h
  unfold deltaName
  cases hsplit : splitDelta name with
  | some found =>
    obtain ⟨key', delta'⟩ := found
    simp only [hsplit] at h
    obtain ⟨rfl, -⟩ := Prod.mk.inj (Option.some.inj h)
    rw [Option.isSome_some, if_pos rfl]
    unfold splitDelta at hsplit
    rw [hdrop] at hsplit
    cases hsign : (name.drop 1).findIdx? isSign with
    | none =>
      rw [hsign] at hsplit
      cases hsplit
    | some i =>
      rw [hsign] at hsplit
      dsimp only at hsplit
      split at hsplit
      · cases hsplit
      split at hsplit
      · obtain ⟨rfl, -⟩ := Prod.mk.inj (Option.some.inj hsplit)
        rw [(hw.take _).cstr, (hw.take _).trim, hw.normalizeKey_take]
        rfl
      · cases hsplit
  | none =>
    simp only [hsplit, hw.cstr] at h
    rw [Option.isSome_none, if_neg Bool.false_ne_true]
    split at h
    next htrailing =>
      rw [if_pos htrailing]
      split at h
      · exact (Prod.mk.inj (Option.some.inj h)).1.symm
      · cases h
    next htrailing =>
    rw [if_neg htrailing]
    split at h
    · split at h
      · exact (Prod.mk.inj (Option.some.inj h)).1.symm
      · cases h
    · split at h
      · exact (Prod.mk.inj (Option.some.inj h)).1.symm
      · cases h

/-- Behind a NUL no name is found. -/
theorem parseDelta_zero {name rest key delta : List UInt8}
    (h : parseDelta (0 :: name) rest = some (key, delta)) : key = [] := by
  have hnil (n : Nat) : cstr ((0 :: name).take n) = [] := by
    cases n with
    | zero => rfl
    | succ n => rfl
  unfold parseDelta at h
  cases hsplit : splitDelta (0 :: name) with
  | some found =>
    obtain ⟨key', delta'⟩ := found
    simp only [hsplit] at h
    obtain ⟨rfl, -⟩ := Prod.mk.inj (Option.some.inj h)
    unfold splitDelta at hsplit
    split at hsplit
    · cases hsplit
    dsimp only at hsplit
    split at hsplit
    · cases hsplit
    split at hsplit
    · obtain ⟨rfl, -⟩ := Prod.mk.inj (Option.some.inj hsplit)
      rw [hnil]
      rfl
    · cases hsplit
  | none =>
    have hcstr : cstr (0 :: name) = [] := rfl
    simp only [hsplit, hcstr] at h
    split at h
    next htrailing => exact absurd htrailing.1 (by decide)
    split at h
    · split at h
      · exact (Prod.mk.inj (Option.some.inj h)).1.symm
      · cases h
    · split at h
      · exact (Prod.mk.inj (Option.some.inj h)).1.symm
      · cases h

theorem assignedName_word {name : List UInt8} (h : Word name) : Word (assignedName name) := by
  unfold assignedName
  split
  · exact h.take _
  · exact h

theorem typedName_word (request : List UInt8) : Word (typedName request) := by
  unfold typedName
  obtain ⟨hw, hrest⟩ := @nextToken_word envValueSize _ (cstr_nul request)
  generalize nextToken envValueSize (cstr request) = token at hw hrest ⊢
  obtain ⟨arg1, rest⟩ := token
  have hw2 := (@nextToken_word envValueSize _ hrest).1
  dsimp only at hw ⊢
  split
  · exact hw2
  split
  · exact assignedName_word hw2
  split
  · exact assignedName_word hw
  · unfold deltaName
    split
    · exact hw.take _
    split
    · rw [List.dropLast_eq_take]
      exact hw.take _
    · exact hw

theorem plannedDelta_key (entries : List Entry) (key delta : List UInt8) :
    plannedDelta entries key delta = .none ∨ (plannedDelta entries key delta).key = key := by
  unfold plannedDelta
  split
  · exact Or.inl rfl
  next value rest _ =>
  have hupdate (current : Int) :
      (match calculate current value false with
        | none => Change.none
        | some updated => .set key (printInt updated)) = .none ∨
      (match calculate current value false with
        | none => Change.none
        | some updated => .set key (printInt updated)).key = key := by
    cases calculate current value false with
    | none => exact Or.inl rfl
    | some updated => exact Or.inr rfl
  dsimp only
  cases getValue entries key envValueSize with
  | none => exact hupdate 0
  | some text =>
    dsimp only
    split
    · exact Or.inl rfl
    · rcases strtoll text with ⟨current, erange, rest⟩
      cases erange with
      | true => exact Or.inl rfl
      | false => exact hupdate current

/-- The change is one to the variable that is named, with its name cut to 16 bytes. -/
theorem planned_key (entries : List Entry) (millis : Nat → Nat) (request : List UInt8) :
    planned entries millis request = .none ∨
      (planned entries millis request).key = normalizeKey (typedName request) := by
  unfold planned typedName
  obtain ⟨hw, -⟩ := @nextToken_word envValueSize _ (cstr_nul request)
  generalize nextToken envValueSize (cstr request) = token at hw ⊢
  obtain ⟨arg1, rest⟩ := token
  dsimp only at hw ⊢
  by_cases hnone : arg1 = []
  · exact Or.inl (if_pos hnone)
  rw [if_neg hnone]
  split
  · exact Or.inl rfl
  split
  · exact Or.inl rfl
  by_cases hdelete : isOption 'D' arg1 = true
  · rw [if_pos hdelete, if_pos hdelete]
    split
    · exact Or.inl rfl
    · exact Or.inr rfl
  rw [if_neg hdelete, if_neg hdelete]
  by_cases hinsert : isOption 'I' arg1 = true
  · rw [if_pos hinsert, if_pos hinsert]
    rcases nextToken envValueSize rest with ⟨arg2, rest⟩
    rcases hparse : parseAssignment arg2 rest with ⟨_ | ⟨key, value⟩, name⟩
    · exact Or.inl rfl
    · dsimp only
      cases getValue entries key envValueSize with
      | some _ => exact Or.inl rfl
      | none => exact Or.inr (parseAssignment_name hparse).1
  rw [if_neg hinsert, if_neg hinsert]
  rcases hparse : parseAssignment arg1 rest with ⟨_ | ⟨key, value⟩, name⟩
  · dsimp only
    rcases hdelta : parseDelta name rest with _ | ⟨key, delta⟩
    · exact Or.inl rfl
    · dsimp only
      rcases parseAssignment_none hw hnone hparse with ⟨rfl, hno⟩ | ⟨rfl, hyes, hnil⟩
      · rw [if_neg hno, ← parseDelta_name hw hdelta]
        exact plannedDelta_key entries key delta
      · rw [if_pos (Or.inl hyes), hnil]
        obtain rfl := parseDelta_zero hdelta
        exact plannedDelta_key entries [] delta
  · obtain ⟨hkey, hassigned⟩ := parseAssignment_name hparse
    rw [if_pos hassigned, ← hkey]
    dsimp only
    cases evalValue entries millis value with
    | error message => exact Or.inl rfl
    | value evaled => exact Or.inr rfl
    | unchanged => exact Or.inr rfl

/-! ## The command line -/

/-- Command EXECUTE. -/
def envCommandExecute : Nat := 9

/-- What the command should do to the table: change the named variable only, nothing when the
name is too long for a key, and nothing when the flash was not used. -/
structure OnlyNamed (io : Io) (d : Driver) (f : Flash) : Prop where
  wellFormed : WellFormed ((executeCommand io d envCommandExecute).run f).1.1.entries
  frame : Frame ((typedName d.request).map toupper) d.entries
    ((executeCommand io d envCommandExecute).run f).1.1.entries
  long : envKeySize ≤ (typedName d.request).length →
    ((executeCommand io d envCommandExecute).run f).1.1.entries = d.entries
  untouched : ∀ x, executeCommand io d envCommandExecute = .done x → x.1.entries = d.entries

/-- The name is short enough for a key, or the command does not change the variable with the
name's first 16 bytes. -/
def Spared (io : Io) (d : Driver) : Prop :=
  (typedName d.request).length < envKeySize ∨
    (planned d.entries io.millis d.request).Idle d.entries

theorem executeCommand_eq (io : Io) (d : Driver) :
    executeCommand io d envCommandExecute = executeCli io d >>= fun x =>
      return ({ x.1 with status := if x.2.overflow then envStatusFull else x.1.status }, x.2) := by
  unfold executeCommand commandSwitch envCommandExecute
  dsimp only
  induction executeCli io d with
  | done x => rfl
  | call c rest ih => exact congrArg (Prog.call c) ih
  | read rest ih => exact congrArg Prog.read (funext ih)

theorem executeCommand_entries (io : Io) (d : Driver) (f : Flash) :
    ((executeCommand io d envCommandExecute).run f).1.1.entries =
      ((executeCli io d).run f).1.1.entries := by
  rw [executeCommand_eq, Prog.run_bind]
  rfl

theorem upper_of_short {name : List UInt8} (hw : Word name) (h : name.length < envKeySize) :
    normalizeKey name = name.map toupper := by
  unfold normalizeKey
  rw [hw.cstr, List.take_of_length_le]
  simp only [envKeySize] at h ⊢
  omega

theorem only_of_spared {d : Driver} {f : Flash} {io : Io} (h : d.entries = (loadFile f).2)
    (hspared : Spared io d) : OnlyNamed io d f := by
  have hperformed : Performed d (planned d.entries io.millis d.request) f (executeCli io d) :=
    executeCli_run h
  have hsame : (planned d.entries io.millis d.request).Idle d.entries →
      ((executeCli io d).run f).1.1.entries = d.entries := fun hidle => by
    rcases hperformed.table with htable | htable
    · exact htable
    · exact htable.trans ((Change.apply_eq_iff _ _).mpr hidle)
  refine ⟨?_, ?_, fun hlong => ?_, fun x hx => ?_⟩
  · have hw : WellFormed d.entries := h ▸ loadFile_wellFormed f
    rw [executeCommand_entries]
    rcases hperformed.table with htable | htable
    · rw [htable]
      exact hw
    · rw [htable]
      refine Change.apply_wellFormed hw ?_
      rcases planned_key d.entries io.millis d.request with hnone | hkey
      · rw [hnone]
        exact List.not_mem_nil
      · rw [hkey]
        exact normalizeKey_nul _
  · rw [executeCommand_entries]
    rcases hspared with hshort | hidle
    · rcases hperformed.table with htable | htable
      · rw [htable]
        rfl
      · rw [htable]
        rcases planned_key d.entries io.millis d.request with hnone | hkey
        · rw [hnone]
          rfl
        · rw [← upper_of_short (typedName_word _) hshort, ← hkey]
          exact Change.apply_frame _ _
    · rw [hsame hidle]
      rfl
  · rw [executeCommand_entries]
    rcases hspared with hshort | hidle
    · exact absurd hshort (Nat.not_lt.mpr hlong)
    · exact hsame hidle
  · rw [executeCommand_eq] at hx
    obtain ⟨a, ha, hrest⟩ := bind_done hx
    cases hrest
    exact hperformed.untouched a ha

/-- **A command line touches only the variable it names** as far as the name fits a key, or the
command leaves the variable that the cut name names as it is; and when it ends with status 0,
only then. -/
theorem command_touches_named {d : Driver} {f : Flash} (h : d.entries = (loadFile f).2) (io : Io) :
    (Spared io d → OnlyNamed io d f) ∧
      (((executeCommand io d envCommandExecute).run f).1.1.status = envStatusOk →
        (OnlyNamed io d f ↔ Spared io d)) := by
  refine ⟨only_of_spared h, fun hstatus => ⟨fun honly => ?_, only_of_spared h⟩⟩
  have hperformed : Performed d (planned d.entries io.millis d.request) f (executeCli io d) :=
    executeCli_run h
  by_cases hshort : (typedName d.request).length < envKeySize
  · exact Or.inl hshort
  · right
    have hlong := honly.long (Nat.le_of_not_lt hshort)
    rw [executeCommand_entries] at hlong
    have hok : ((executeCli io d).run f).1.1.status = envStatusOk := by
      rw [executeCommand_eq, Prog.run_bind] at hstatus
      change (if ((executeCli io d).run f).1.2.overflow then envStatusFull
        else ((executeCli io d).run f).1.1.status) = envStatusOk at hstatus
      split at hstatus
      · exact absurd hstatus (by decide)
      · exact hstatus
    exact (Change.apply_eq_iff _ _).mp ((hperformed.done hok).symm.trans hlong)

/-- A flash as it left the factory, a bus that is always granted, and a driver with the command
in its request. -/
def freshFlash : Flash := fun _ => 0xFF
def freshIo : Io := ⟨fun _ => ⟨true, true⟩, 2048, fun _ => 0, []⟩
def freshDriver (request : List UInt8) : Driver :=
  { Driver.closed with request, initialized := true }

theorem freshFlash_fresh : Fresh freshFlash := ⟨fun _ _ => rfl, fun _ _ => rfl⟩

theorem freshDriver_table (request : List UInt8) :
    (freshDriver request).entries = (loadFile freshFlash).2 := by
  unfold loadFile
  rw [Durable.load (Or.inl ⟨freshFlash_fresh, rfl⟩) (le_refl _)]
  dsimp only
  rw [if_neg (by decide), decode_nil]
  rfl

theorem command_touches_named_short :
    OnlyNamed freshIo (freshDriver (ascii "A=1")) freshFlash :=
  (command_touches_named (freshDriver_table _) freshIo).1 (Or.inl (by decide))

/-- The name has 17 bytes, and a variable with its first 16 is made. -/
theorem command_touches_named_cut :
    ¬OnlyNamed freshIo (freshDriver (ascii "ABCDEFGHIJKLMNOPQ=1")) freshFlash := by
  intro honly
  have hlong := honly.long (by decide)
  have hcli : executeCli freshIo (freshDriver (ascii "ABCDEFGHIJKLMNOPQ=1")) =
      setAndReport freshIo (freshDriver (ascii "ABCDEFGHIJKLMNOPQ=1"))
        (ascii "ABCDEFGHIJKLMNOP") (ascii "1") := rfl
  have hset : setValue freshIo.bus [] (ascii "ABCDEFGHIJKLMNOP") (ascii "1") =
      commit freshIo.bus [⟨ascii "ABCDEFGHIJKLMNOP", ascii "1"⟩] := rfl
  have hcommit : ((commit freshIo.bus [⟨ascii "ABCDEFGHIJKLMNOP", ascii "1"⟩]).run freshFlash).1 =
      (envStatusOk, [⟨ascii "ABCDEFGHIJKLMNOP", ascii "1"⟩]) :=
    commit_fresh (fun _ => rfl) freshFlash_fresh rfl
  have hentries : (freshDriver (ascii "ABCDEFGHIJKLMNOPQ=1")).entries = [] := rfl
  rw [executeCommand_entries, hcli, setAndReport, hentries, hset, Prog.run_bind, hcommit] at hlong
  cases hlong

end Z80Sbc.Env.CommandFrame
