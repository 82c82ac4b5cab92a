import Z80Sbc.Concurrent.Seqlock
import Z80Sbc.Disk.Linearizable

/-! # A read-ahead slot between the cores

`prefetch_take` on core 0 and `prefetch_publish` on core 1, each as the single atomic loads and
stores it makes, on one slot. Core 1 is its only writer. -/

namespace Z80Sbc.Disk.Prefetch
open Concurrent Seqlock
open Linearizable (recordKey_inj recordKey_ne_zero)

def recordWords : Nat := 32

/-- A slot apart from its sequence. -/
inductive Cell where
  | key
  | word (index : Fin recordWords)
  deriving DecidableEq

abbrev Words := Fin recordWords → UInt32

abbrev Code (ρ : Type) := Prog 32 Cell UInt32 ρ

/-! ## Core 0 -/

/-- The loop over the words, and the last load. -/
def copyWords (sequence : BitVec 32) : List (Fin recordWords) → Words → Code (Bool × Words)
  | [], record => .loadSequence fun last => .ret (last == sequence, record)
  | index :: rest, record =>
    .loadCell (.word index) fun word => copyWords sequence rest (Function.update record index word)

def prefetchTake (key : UInt32) (record : Words) : Code (Bool × Words) :=
  .loadSequence fun sequence =>
    if sequence &&& 1 ≠ 0 then .ret (false, record)
    else .loadCell .key fun found =>
      if found ≠ key then .ret (false, record)
      else copyWords sequence (List.finRange recordWords) record

/-! ## Core 1 -/

def storeWords (sequence : BitVec 32) (words : Words) : List (Fin recordWords) → Code Unit
  | [] => .storeSequence (sequence + 2) (.ret ())
  | index :: rest => .storeCell (.word index) (words index) (storeWords sequence words rest)

def prefetchPublish (key : UInt32) (words : Option Words) : Code Unit :=
  .loadSequence fun sequence =>
    .storeSequence (sequence + 1) <| .storeCell .key key <|
      match words with
      | none => .storeSequence (sequence + 2) (.ret ())
      | some words => storeWords sequence words (List.finRange recordWords)

/-- The calls of `prefetch_publish`: `prefetch_service` has read a record, `prefetch_invalidate`
and `z80_flash_storage_init` pass no words and no key. -/
inductive Publication where
  | service (drive : UInt8) (lba : UInt16) (words : Words)
  | invalidate

def Publication.key : Publication → UInt32
  | service drive lba _ => recordKey drive lba
  | invalidate => 0

def Publication.words : Publication → Option Words
  | service _ _ words => some words
  | invalidate => none

/-! ## Interleavings -/

/-- The slot, what is left of the call on each core, and the drive and record of the last READ.
What was published so far, what `disk_record` held before the READ, and how many publications
were done then, are kept for what is said of it. -/
structure Cores where
  slot : Slot 32 Cell UInt32
  core0 : Code (Bool × Words)
  core1 : Code Unit
  drive : UInt8
  lba : UInt16
  record : Words
  published : List Publication
  done : Nat

inductive Action where
  | read (drive : UInt8) (lba : UInt16) (record : Words)
  | core0
  | publish (p : Publication)
  | core1

/-- A core calls when its last call has returned, and makes one access at a time. -/
def step (s : Cores) : Action → Cores
  | .read drive lba record =>
    match s.core0 with
    | .ret _ =>
      { s with
        core0 := prefetchTake (recordKey drive lba) record, drive := drive, lba := lba
        record := record, done := s.published.length - s.core1.pending }
    | _ => s
  | .core0 =>
    let next := s.core0.step s.slot
    { s with slot := next.1, core0 := next.2 }
  | .publish p =>
    match s.core1 with
    | .ret _ =>
      { s with core1 := prefetchPublish p.key p.words, published := s.published ++ [p] }
    | _ => s
  | .core1 =>
    let next := s.core1.step s.slot
    { s with slot := next.1, core1 := next.2 }

/-- The slots are zeroed memory. -/
def initial : Cores where
  slot := ⟨0, fun _ => 0⟩
  core0 := .ret (false, fun _ => 0)
  core1 := .ret ()
  drive := 0
  lba := 0
  record := fun _ => 0
  published := []
  done := 0

/-- Fewer than 2^31 publications overlap a take: those that were not done when it was called. -/
def Few (s : Cores) (_ : Action) : Prop :=
  s.core0.pending = 1 → s.published.length < s.done + 2 ^ 31

instance (s : Cores) (a : Action) : Decidable (Few s a) :=
  inferInstanceAs (Decidable (_ → _))

/-! ## The slot is a sequence lock -/

/-- Where a loaded value goes. -/
def put (record : Words) : Cell → UInt32 → Words
  | .key, _ => record
  | .word index, word => Function.update record index word

def wordLoads (rest : List (Fin recordWords)) : Plan Cell UInt32 :=
  rest.map fun index => (.word index, fun _ => true)

def takePlan (key : UInt32) : Plan Cell UInt32 :=
  (.key, fun found => found == key) :: wordLoads (List.finRange recordWords)

def wordStores (words : Words) (rest : List (Fin recordWords)) : Update Cell UInt32 :=
  rest.map fun index => (.word index, words index)

def Publication.update : Publication → Update Cell UInt32
  | service drive lba words =>
    (.key, recordKey drive lba) :: wordStores words (List.finRange recordWords)
  | invalidate => [(.key, 0)]

theorem copyWords_eq (sequence : BitVec 32) (rest : List (Fin recordWords)) (record : Words) :
    copyWords sequence rest record = loads put sequence (wordLoads rest) record := by
  induction rest generalizing record with
  | nil => rfl
  | cons index rest ih =>
    exact congrArg (Prog.loadCell (Cell.word index)) (funext fun word => ih _)

theorem odd_iff (sequence : BitVec 32) :
    sequence &&& 1 ≠ 0 ↔ sequence.toNat % 2 = 1 := by
  have hand : (sequence &&& 1).toNat = sequence.toNat % 2 := Nat.and_one_is_mod _
  constructor
  · intro h
    have hne : (sequence &&& 1).toNat ≠ 0 := fun hzero => h (BitVec.eq_of_toNat_eq hzero)
    omega
  · intro h hzero
    rw [← hand, hzero] at h
    cases h

theorem prefetchTake_eq (key : UInt32) (record : Words) :
    prefetchTake key record = take put (takePlan key) record := by
  unfold prefetchTake take
  congr 1
  funext sequence
  by_cases hodd : sequence &&& 1 ≠ 0
  · rw [if_pos hodd, if_pos ((odd_iff sequence).mp hodd)]
  · rw [if_neg hodd, if_neg fun h => hodd ((odd_iff sequence).mpr h)]
    show Prog.loadCell _ _ = Prog.loadCell _ _
    congr 1
    funext found
    by_cases hkey : found = key
    · rw [if_neg (not_not_intro hkey), if_pos (beq_iff_eq.mpr hkey)]
      exact copyWords_eq sequence _ record
    · rw [if_pos hkey, if_neg fun h => hkey (beq_iff_eq.mp h)]

theorem storeWords_eq (sequence : BitVec 32) (words : Words) (rest : List (Fin recordWords)) :
    storeWords sequence words rest = stores sequence (wordStores words rest) := by
  induction rest with
  | nil => rfl
  | cons index rest ih => exact congrArg (Prog.storeCell (Cell.word index) (words index)) ih

theorem prefetchPublish_eq (p : Publication) :
    prefetchPublish p.key p.words = publish p.update := by
  cases p with
  | service drive lba words =>
    unfold prefetchPublish publish
    refine congrArg Prog.loadSequence (funext fun sequence => ?_)
    exact congrArg (fun code => Prog.storeSequence _ (Prog.storeCell _ _ code))
      (storeWords_eq sequence words _)
  | invalidate => rfl

/-- The slot as a sequence lock. -/
def Cores.lock (s : Cores) : System 32 Cell UInt32 Words where
  slot := s.slot
  writer := s.core1
  reader := s.core0
  calls := s.published.map Publication.update
  plan := takePlan (recordKey s.drive s.lba)
  buffer := s.record
  done := s.done

def Action.lock : Action → Seqlock.Action Cell UInt32 Words
  | read drive lba record => .take (takePlan (recordKey drive lba)) record
  | core0 => .read
  | publish p => .publish p.update
  | core1 => .write

theorem lock_step (s : Cores) (a : Action) : (step s a).lock = Seqlock.step put s.lock a.lock := by
  obtain ⟨slot, core0, core1, drive, lba, record, published, done⟩ := s
  cases a with
  | read drive lba record =>
    cases core0 with
    | ret _ =>
      have hcall := prefetchTake_eq (recordKey drive lba) record
      have hlength : (published.map Publication.update).length = published.length :=
        List.length_map _
      exact congrArg₂ (fun code length => System.mk slot core1 code _ _ record (length - _)) hcall
        hlength.symm
    | loadSequence _ => rfl
    | storeSequence _ _ => rfl
    | loadCell _ _ => rfl
    | storeCell _ _ _ => rfl
  | core0 => rfl
  | publish p =>
    cases core1 with
    | ret _ =>
      have hcalls : (published ++ [p]).map Publication.update =
          published.map Publication.update ++ [p.update] := List.map_append
      exact congrArg₂ (fun code calls => System.mk slot code core0 calls _ record done)
        (prefetchPublish_eq p) hcalls
    | loadSequence _ => rfl
    | storeSequence _ _ => rfl
    | loadCell _ _ => rfl
    | storeCell _ _ _ => rfl
  | core1 => rfl

/-! ## What a publication leaves -/

section
variable (c : Cell → UInt32) (words : Words) (rest : List (Fin recordWords)) (p : Publication)

theorem wordStores_key : apply c (wordStores words rest) .key = c .key := by
  induction rest generalizing c with
  | nil => rfl
  | cons index rest ih =>
    refine (ih _).trans ?_
    exact Function.update_of_ne (fun h => by cases h) _ _

theorem wordStores_word (index : Fin recordWords)
    (h : index ∈ rest ∨ c (.word index) = words index) :
    apply c (wordStores words rest) (.word index) = words index := by
  induction rest generalizing c with
  | nil => exact h.resolve_left List.not_mem_nil
  | cons first rest ih =>
    refine ih _ ?_
    by_cases heq : index = first
    · subst heq
      exact Or.inr (Function.update_self _ _ _)
    · refine h.imp (fun hmem => (List.mem_cons.mp hmem).resolve_left heq) fun hword => ?_
      exact (Function.update_of_ne (fun h => heq (Cell.word.inj h)) _ _).trans hword

theorem update_key : apply c p.update .key = p.key := by
  cases p with
  | service drive lba words =>
    exact (wordStores_key _ words _).trans (Function.update_self _ _ _)
  | invalidate => exact Function.update_self Cell.key 0 c

theorem update_word (index : Fin recordWords) {drive : UInt8} {lba : UInt16} :
    apply c (Publication.service drive lba words).update (.word index) = words index :=
  wordStores_word _ words _ index (Or.inl (List.mem_finRange index))

/-- A take of cells that stay as they are collects their words. -/
theorem collected_words (record : Words) (index : Fin recordWords)
    (h : index ∈ rest ∨ record index = c (.word index)) :
    collected put c (wordLoads rest) record index = c (.word index) := by
  induction rest generalizing record with
  | nil => exact h.resolve_left List.not_mem_nil
  | cons first rest ih =>
    refine ih _ ?_
    by_cases heq : index = first
    · subst heq
      exact Or.inr (Function.update_self _ _ _)
    · refine h.imp (fun hmem => (List.mem_cons.mp hmem).resolve_left heq) fun hword => ?_
      exact (Function.update_of_ne heq _ _).trans hword

theorem collected_take (key : UInt32) (record : Words) :
    collected put c (takePlan key) record = fun index => c (.word index) :=
  funext fun index => collected_words c _ record index (Or.inl (List.mem_finRange index))

end

/-- A slot with the key of a record holds the words that were last published, for that record. -/
theorem content_of_key {cells : Cell → UInt32} {drive : UInt8} {lba : UInt16}
    {published : List Publication} (hcells : cells .key = 0)
    (h : content cells (published.map Publication.update) .key = recordKey drive lba) :
    ∃ words, published.getLast? = some (.service drive lba words) ∧
      ∀ index, content cells (published.map Publication.update) (.word index) = words index := by
  have hkey := recordKey_ne_zero drive lba
  rcases List.eq_nil_or_concat published with rfl | ⟨before, p, rfl⟩
  · exact absurd (h.symm.trans hcells) hkey
  rw [List.concat_eq_append, List.map_append, List.map_singleton, content_concat] at h ⊢
  rw [update_key] at h
  cases p with
  | service drive' lba' words =>
    obtain ⟨rfl, rfl⟩ := recordKey_inj h
    exact ⟨words, List.getLast?_concat, fun index => update_word _ words index⟩
  | invalidate => exact absurd h.symm hkey

/-! ## Runs -/

/-- In every interleaving a take that returns true has copied the words of one publication, for
the record that was asked for. It was the last one when some number were done, no fewer than at
the call. -/
theorem prefetch_take_whole {actions : List Action} {record : Words}
    (hfew : Along step Few initial actions)
    (h : (run step initial actions).core0 = .ret (true, record)) :
    let s := run step initial actions
    ∃ n, s.done ≤ n ∧ n ≤ s.published.length ∧
      (s.published.take n).getLast? = some (.service s.drive s.lba record) := by
  intro s
  have hrun := run_map (f := Cores.lock) (g := Action.lock) lock_step initial actions
  have hfew' : Along (Seqlock.step put) (Seqlock.Few (2 ^ 31)) initial.lock
      (actions.map Action.lock) := by
    refine hfew.map lock_step fun s a hs hpending => ?_
    show (s.published.map Publication.update).length < _
    rw [List.length_map]
    exact hs hpending
  obtain ⟨n, hdone, hle, hrecord, hpasses⟩ := taken_of_accepted (by decide) hrun.symm hfew' h
  have hcalls : s.lock.calls.take n = (s.published.take n).map Publication.update :=
    List.map_take.symm
  rw [hcalls] at hrecord hpasses
  have hkey := beq_iff_eq.mp (hpasses _ List.mem_cons_self)
  obtain ⟨words, hlast, hwords⟩ := content_of_key rfl hkey
  refine ⟨n, hdone, by simpa [Cores.lock] using hle, ?_⟩
  have heq : record = words := by
    rw [hrecord]
    exact (collected_take _ _ _).trans (funext hwords)
  rw [heq]
  exact hlast

/-- A record is published and taken, while the next call of core 1 has loaded the sequence. -/
def sampleRun : List Action :=
  .publish .invalidate :: List.replicate 4 .core1 ++
    .publish (.service 1 5 fun index => index.val.toUInt32 + 1) :: List.replicate 36 .core1 ++
    .read 1 5 (fun _ => 0) :: List.replicate 20 .core0 ++
    .publish .invalidate :: .core1 :: List.replicate 15 .core0

theorem prefetch_take_whole_sample : ∃ record n, (run step initial sampleRun).done ≤ n ∧
    n ≤ (run step initial sampleRun).published.length ∧
    ((run step initial sampleRun).published.take n).getLast? = some (.service 1 5 record) :=
  ⟨_, prefetch_take_whole (by decide +kernel) rfl⟩

end Z80Sbc.Disk.Prefetch
