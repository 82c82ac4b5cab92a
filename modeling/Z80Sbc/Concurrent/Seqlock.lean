import Mathlib.Algebra.Group.Nat.Defs
import Mathlib.Logic.Function.Basic
import Z80Sbc.Concurrent.Run

/-! # Sequence locks

One writer and one reader share some cells and a sequence number, by single loads and stores that
may interleave in any way. The writer makes the number odd while it stores, and even and greater
by two when it is done. A read that finds the same even number before and after has seen what
some number of publications, taken whole, have left. -/

namespace Z80Sbc.Concurrent.Seqlock

/-- What the two sides share. -/
structure Slot (w : Nat) (ι α : Type) where
  sequence : BitVec w
  cells : ι → α

/-- A program of single loads and stores. -/
inductive Prog (w : Nat) (ι α ρ : Type) where
  | ret (result : ρ)
  | loadSequence (next : BitVec w → Prog w ι α ρ)
  | storeSequence (value : BitVec w) (next : Prog w ι α ρ)
  | loadCell (cell : ι) (next : α → Prog w ι α ρ)
  | storeCell (cell : ι) (value : α) (next : Prog w ι α ρ)

variable {w : Nat} {ι α ρ β κ : Type} [DecidableEq ι]

/-- One access. -/
def Prog.step (slot : Slot w ι α) : Prog w ι α ρ → Slot w ι α × Prog w ι α ρ
  | ret r => (slot, ret r)
  | loadSequence next => (slot, next slot.sequence)
  | storeSequence v next => ({ slot with sequence := v }, next)
  | loadCell i next => (slot, next (slot.cells i))
  | storeCell i v next => ({ slot with cells := Function.update slot.cells i v }, next)

/-- One for a call that has not returned. -/
def Prog.pending : Prog w ι α ρ → Nat
  | ret _ => 0
  | _ => 1

/-! ## The two sides -/

/-- The stores of a publication, in their order. -/
abbrev Update (ι α : Type) := List (ι × α)

def stores (first : BitVec w) : Update ι α → Prog w ι α Unit
  | [] => .storeSequence (first + 2) (.ret ())
  | (i, v) :: rest => .storeCell i v (stores first rest)

def publish (u : Update ι α) : Prog w ι α Unit :=
  .loadSequence fun first => .storeSequence (first + 1) (stores first u)

/-- The loads of a read, each with the values that it goes on with. -/
abbrev Plan (ι α : Type) := List (ι × (α → Bool))

def loads (put : β → ι → α → β) (first : BitVec w) : Plan ι α → β → Prog w ι α (Bool × β)
  | [], b => .loadSequence fun last => .ret (last == first, b)
  | (i, check) :: rest, b => .loadCell i fun v =>
      if check v then loads put first rest (put b i v) else .ret (false, b)

/-- An odd number is being written under. -/
def take (put : β → ι → α → β) (plan : Plan ι α) (b : β) : Prog w ι α (Bool × β) :=
  .loadSequence fun first =>
    if first.toNat % 2 = 1 then .ret (false, b) else loads put first plan b

/-! ## Interleavings -/

/-- The slot and what is left of the call on each side. The publications that were called, the
plan and the first buffer of the last read, and how many publications were done when it was
called, are kept for what is said of them. -/
structure System (w : Nat) (ι α β : Type) where
  slot : Slot w ι α
  writer : Prog w ι α Unit
  reader : Prog w ι α (Bool × β)
  calls : List (Update ι α)
  plan : Plan ι α
  buffer : β
  done : Nat

inductive Action (ι α β : Type) where
  | publish (u : Update ι α)
  | write
  | take (plan : Plan ι α) (b : β)
  | read

/-- A call begins when the one before has returned. -/
def step (put : β → ι → α → β) (s : System w ι α β) : Action ι α β → System w ι α β
  | .publish u =>
    match s.writer with
    | .ret _ => { s with writer := publish u, calls := s.calls ++ [u] }
    | _ => s
  | .write =>
    let next := s.writer.step s.slot
    { s with slot := next.1, writer := next.2 }
  | .take plan b =>
    match s.reader with
    | .ret _ =>
      { s with
        reader := take put plan b, plan := plan, buffer := b
        done := s.calls.length - s.writer.pending }
    | _ => s
  | .read =>
    let next := s.reader.step s.slot
    { s with slot := next.1, reader := next.2 }

def initial (cells : ι → α) (plan : Plan ι α) (b : β) : System w ι α β :=
  { slot := ⟨0, cells⟩, writer := .ret (), reader := .ret (false, b), calls := [], plan := plan
    buffer := b, done := 0 }

/-! ## What the writer leaves -/

def apply (c : ι → α) (u : Update ι α) : ι → α :=
  u.foldl (fun c p => Function.update c p.1 p.2) c

/-- The cells after these publications. -/
def content (cells : ι → α) (us : List (Update ι α)) : ι → α := us.foldl apply cells

/-- What a read collects from cells that stay as they are. -/
def collected (put : β → ι → α → β) (c : ι → α) (plan : Plan ι α) (b : β) : β :=
  plan.foldl (fun b p => put b p.1 (c p.1)) b

def Passes (c : ι → α) (plan : Plan ι α) : Prop := ∀ p ∈ plan, p.2 (c p.1) = true

/-- The slot is what the first `m` publications have left. -/
structure Settled (cells : ι → α) (calls : List (Update ι α)) (slot : Slot w ι α) (m : Nat) :
    Prop where
  sequence : slot.sequence = BitVec.ofNat w (2 * m)
  cells : slot.cells = content cells (calls.take m)

/-- How far the writer is: `m` publications are done, and while the next one stores the slot is
torn. -/
inductive Writing (cells : ι → α) :
    List (Update ι α) → Slot w ι α → Prog w ι α Unit → Nat → Bool → Prop where
  | idle {calls : List (Update ι α)} {slot : Slot w ι α}
      (settled : Settled cells calls slot calls.length) :
      Writing cells calls slot (.ret ()) calls.length false
  | called {calls : List (Update ι α)} {u : Update ι α} {slot : Slot w ι α}
      (settled : Settled cells calls slot calls.length) :
      Writing cells (calls ++ [u]) slot (publish u) calls.length false
  | loaded {calls : List (Update ι α)} {u : Update ι α} {slot : Slot w ι α}
      (settled : Settled cells calls slot calls.length) :
      Writing cells (calls ++ [u]) slot
        (.storeSequence (slot.sequence + 1) (stores slot.sequence u)) calls.length false
  | storing {calls : List (Update ι α)} {stored rest : Update ι α} {slot : Slot w ι α}
      (sequence : slot.sequence = BitVec.ofNat w (2 * calls.length + 1))
      (torn : slot.cells = apply (content cells calls) stored) :
      Writing cells (calls ++ [stored ++ rest]) slot
        (stores (BitVec.ofNat w (2 * calls.length)) rest) calls.length true

/-- A read that was accepted has seen what some number of publications have left, and no fewer
than were done when it was called. -/
def Taken (put : β → ι → α → β) (cells : ι → α) (plan : Plan ι α) (buffer : β) (done : Nat)
    (calls : List (Update ι α)) (b : β) : Prop :=
  ∃ m, done ≤ m ∧ m ≤ calls.length ∧
    b = collected put (content cells (calls.take m)) plan buffer ∧
    Passes (content cells (calls.take m)) plan

/-- How far the reader is. As long as nothing was stored since its first load, it has seen what
the first `first` publications have left. -/
inductive Reading (put : β → ι → α → β) (cells : ι → α) (plan : Plan ι α) (buffer : β)
    (done : Nat) (calls : List (Update ι α)) (m : Nat) (torn : Bool) :
    Prog w ι α (Bool × β) → Prop where
  | called : Reading put cells plan buffer done calls m torn (take put plan buffer)
  | loading {seen rest : Plan ι α} {first : Nat} {b : β} (split : plan = seen ++ rest)
      (after : done ≤ first) (before : first ≤ m)
      (whole : first = m → torn = false →
        b = collected put (content cells (calls.take first)) seen buffer ∧
          Passes (content cells (calls.take first)) seen) :
      Reading put cells plan buffer done calls m torn
        (loads put (BitVec.ofNat w (2 * first)) rest b)
  | returned {ok : Bool} {b : β}
      (taken : ok = true → Taken put cells plan buffer done calls b) :
      Reading put cells plan buffer done calls m torn (.ret (ok, b))

structure Inv (put : β → ι → α → β) (cells : ι → α) (s : System w ι α β) (m : Nat) (torn : Bool) :
    Prop where
  writing : Writing cells s.calls s.slot s.writer m torn
  done : s.done ≤ m
  reading : Reading put cells s.plan s.buffer s.done s.calls m torn s.reader

section
variable {put : β → ι → α → β} {cells : ι → α} {calls : List (Update ι α)} {slot : Slot w ι α}
  {writer : Prog w ι α Unit} {reader : Prog w ι α (Bool × β)} {plan : Plan ι α} {buffer : β}
  {done m : Nat} {torn : Bool}

theorem Writing.le (h : Writing cells calls slot writer m torn) : m ≤ calls.length := by
  cases h with
  | idle _ => exact Nat.le_refl _
  | called _ => rw [List.length_append]; exact Nat.le_add_right _ _
  | loaded _ => rw [List.length_append]; exact Nat.le_add_right _ _
  | storing _ _ => rw [List.length_append]; exact Nat.le_add_right _ _

theorem Writing.settled (h : Writing cells calls slot writer m false) :
    Settled cells calls slot m := by
  have hcall {calls : List (Update ι α)} {u : Update ι α}
      (h : Settled cells calls slot calls.length) :
      Settled cells (calls ++ [u]) slot calls.length := by
    refine ⟨h.sequence, ?_⟩
    rw [List.take_left' rfl, h.cells, List.take_length]
  cases h with
  | idle settled => exact settled
  | called settled => exact hcall settled
  | loaded settled => exact hcall settled

/-- The reader does not mind another call. -/
theorem Reading.call (h : Reading put cells plan buffer done calls m torn reader)
    (hm : m ≤ calls.length) (u : Update ι α) :
    Reading put cells plan buffer done (calls ++ [u]) m torn reader := by
  cases h with
  | called => exact .called
  | loading split after before whole =>
    refine .loading split after before ?_
    rwa [List.take_append_of_le_length (Nat.le_trans before hm)]
  | returned taken =>
    refine .returned fun hok => ?_
    obtain ⟨k, hk, hle, htaken⟩ := taken hok
    refine ⟨k, hk, ?_, ?_⟩
    · rw [List.length_append]
      omega
    · rwa [List.take_append_of_le_length hle]

theorem Reading.tear (h : Reading put cells plan buffer done calls m torn reader) :
    Reading put cells plan buffer done calls m true reader := by
  cases h with
  | called => exact .called
  | loading split after before _ => exact .loading split after before fun _ hno => by cases hno
  | returned taken => exact .returned taken

/-- What an accepted read has returned. -/
theorem Reading.taken {b : β} (h : Reading put cells plan buffer done calls m torn reader)
    (hreader : reader = .ret (true, b)) : Taken put cells plan buffer done calls b := by
  cases h with
  | called => cases hreader
  | @loading _ rest _ _ _ _ _ _ =>
    cases rest with
    | nil => cases hreader
    | cons p rest => cases hreader
  | returned taken =>
    cases hreader
    exact taken rfl

theorem Reading.finish (h : Reading put cells plan buffer done calls m torn reader) :
    Reading put cells plan buffer done calls (m + 1) false reader := by
  cases h with
  | called => exact .called
  | loading split after before _ =>
    exact .loading split after (Nat.le_succ_of_le before) fun hno => by omega
  | returned taken => exact .returned taken

end

/-! ## One step -/

section
variable {put : β → ι → α → β} {cells : ι → α} {s : System w ι α β} {m : Nat} {torn : Bool}

theorem apply_concat (c : ι → α) (u : Update ι α) (i : ι) (v : α) :
    apply c (u ++ [(i, v)]) = Function.update (apply c u) i v := by
  unfold apply
  rw [List.foldl_append]
  rfl

theorem content_concat (cells : ι → α) (calls : List (Update ι α)) (u : Update ι α) :
    content cells (calls ++ [u]) = apply (content cells calls) u := by
  unfold content
  rw [List.foldl_append]
  rfl

theorem ofNat_succ (n : Nat) : BitVec.ofNat w n + 1 = BitVec.ofNat w (n + 1) :=
  (BitVec.ofNat_add ..).symm

theorem Inv.publish (h : Inv put cells s m torn) (u : Update ι α) :
    ∃ m torn, Inv put cells (step put s (.publish u)) m torn := by
  obtain ⟨slot, writer, reader, calls, plan, buffer, done⟩ := s
  obtain ⟨hwriting, hdone, hreading⟩ := h
  dsimp only at hwriting hdone hreading
  cases hwriting with
  | idle settled =>
    exact ⟨_, _, .called settled, hdone, hreading.call (Nat.le_refl _) u⟩
  | called settled => exact ⟨_, _, .called settled, hdone, hreading⟩
  | loaded settled => exact ⟨_, _, .loaded settled, hdone, hreading⟩
  | @storing calls stored rest _ sequence torn =>
    have hwriting : Writing cells (calls ++ [stored ++ rest]) slot
      (stores (BitVec.ofNat w (2 * calls.length)) rest) calls.length true := .storing sequence torn
    cases rest with
    | nil => exact ⟨_, _, hwriting, hdone, hreading⟩
    | cons p rest => exact ⟨_, _, hwriting, hdone, hreading⟩

theorem Inv.write (h : Inv put cells s m torn) :
    ∃ m torn, Inv put cells (step put s .write) m torn := by
  obtain ⟨slot, writer, reader, calls, plan, buffer, done⟩ := s
  obtain ⟨hwriting, hdone, hreading⟩ := h
  dsimp only at hwriting hdone hreading
  cases hwriting with
  | idle settled => exact ⟨_, _, .idle settled, hdone, hreading⟩
  | called settled => exact ⟨_, _, .loaded settled, hdone, hreading⟩
  | @loaded calls u _ settled =>
    refine ⟨calls.length, true, ?_, hdone, hreading.tear⟩
    show Writing cells (calls ++ [[] ++ u]) ⟨slot.sequence + 1, slot.cells⟩
      (stores slot.sequence u) _ _
    rw [settled.sequence, ofNat_succ]
    refine .storing rfl ?_
    rw [settled.cells, List.take_length]
    rfl
  | @storing calls stored rest _ sequence hcells =>
    cases rest with
    | nil =>
      refine ⟨calls.length + 1, false, ?_, Nat.le_succ_of_le hdone, hreading.finish⟩
      show Writing cells (calls ++ [stored ++ []])
        ⟨BitVec.ofNat w (2 * calls.length) + 2, slot.cells⟩ (.ret ()) _ _
      rw [List.append_nil]
      have hlength : calls.length + 1 = (calls ++ [stored]).length := by
        rw [List.length_append, List.length_singleton]
      rw [hlength]
      refine .idle ⟨?_, ?_⟩
      · rw [← hlength, Nat.mul_succ]
        exact (BitVec.ofNat_add ..).symm
      · rw [List.take_length, content_concat]
        exact hcells
    | cons p rest =>
      obtain ⟨i, v⟩ := p
      refine ⟨calls.length, true, ?_, hdone, hreading⟩
      have happend : stored ++ (i, v) :: rest = (stored ++ [(i, v)]) ++ rest := by
        rw [List.append_assoc, List.singleton_append]
      show Writing cells (calls ++ [stored ++ (i, v) :: rest])
        ⟨slot.sequence, Function.update slot.cells i v⟩ (stores _ rest) _ _
      rw [happend]
      refine .storing sequence ?_
      rw [apply_concat, hcells]

theorem Writing.pending {slot : Slot w ι α} {writer : Prog w ι α Unit}
    {calls : List (Update ι α)} (h : Writing cells calls slot writer m torn) :
    calls.length - writer.pending = m := by
  have hcall {calls : List (Update ι α)} {u : Update ι α} :
      (calls ++ [u]).length - 1 = calls.length := by
    rw [List.length_append, List.length_singleton, Nat.add_sub_cancel]
  cases h with
  | idle _ => rfl
  | called _ => exact hcall
  | loaded _ => exact hcall
  | @storing _ stored rest _ _ _ =>
    cases rest with
    | nil => exact hcall
    | cons p rest => exact hcall

theorem Inv.take (h : Inv put cells s m torn) (plan : Plan ι α) (b : β) :
    ∃ m torn, Inv put cells (step put s (.take plan b)) m torn := by
  obtain ⟨slot, writer, reader, calls, plan', buffer, done⟩ := s
  obtain ⟨hwriting, hdone, hreading⟩ := h
  dsimp only at hwriting hdone hreading
  have hpending := hwriting.pending
  cases hreading with
  | called => exact ⟨_, _, hwriting, hdone, .called⟩
  | @loading seen rest first b' split after before whole =>
    have hsame :=
      @Reading.loading w _ _ _ _ put cells _ _ _ _ _ _ _ rest _ _ split after before whole
    cases rest with
    | nil => exact ⟨_, _, hwriting, hdone, hsame⟩
    | cons p rest => exact ⟨_, _, hwriting, hdone, hsame⟩
  | returned _ =>
    refine ⟨m, torn, hwriting, ?_, .called⟩
    show calls.length - writer.pending ≤ m
    exact Nat.le_of_eq hpending

theorem even_ofNat {M : Nat} (hM : 2 ^ w = 2 * M) (n : Nat) :
    (BitVec.ofNat w n).toNat % 2 = n % 2 := by
  rw [BitVec.toNat_ofNat, hM]
  exact Nat.mod_mul_right_mod n 2 M

/-- Two even numbers that are less than a round apart. -/
theorem same_round {M m first : Nat} (hM : 2 ^ w = 2 * M) (hle : first ≤ m) (hlt : m < first + M)
    (h : BitVec.ofNat w (2 * m) = BitVec.ofNat w (2 * first)) : m = first := by
  have htoNat := congrArg BitVec.toNat h
  rw [BitVec.toNat_ofNat, BitVec.toNat_ofNat, hM, Nat.mul_mod_mul_left, Nat.mul_mod_mul_left]
    at htoNat
  have hzero := Nat.sub_mod_eq_zero_of_mod_eq (Nat.eq_of_mul_eq_mul_left Nat.two_pos htoNat)
  rw [Nat.mod_eq_of_lt (by omega)] at hzero
  omega

theorem Writing.even {M : Nat} (hM : 2 ^ w = 2 * M) {slot : Slot w ι α}
    {writer : Prog w ι α Unit} {calls : List (Update ι α)}
    (h : Writing cells calls slot writer m torn) (heven : slot.sequence.toNat % 2 ≠ 1) :
    torn = false := by
  cases h with
  | idle _ => rfl
  | called _ => rfl
  | loaded _ => rfl
  | storing sequence _ =>
    rw [sequence, even_ofNat hM] at heven
    omega

theorem Inv.read {M : Nat} (hM : 2 ^ w = 2 * M) (h : Inv put cells s m torn)
    (hfew : s.reader.pending = 1 → s.calls.length < s.done + M) :
    ∃ m torn, Inv put cells (step put s .read) m torn := by
  obtain ⟨slot, writer, reader, calls, plan, buffer, done⟩ := s
  obtain ⟨hwriting, hdone, hreading⟩ := h
  dsimp only at hwriting hdone hreading hfew
  have hle := hwriting.le
  have hrefused {b : β} : Reading put cells plan buffer done calls m torn
      (.ret (false, b) : Prog w ι α (Bool × β)) := .returned fun hno => by cases hno
  refine ⟨m, torn, ?_⟩
  cases hreading with
  | called =>
    refine ⟨hwriting, hdone, ?_⟩
    show Reading put cells plan buffer done calls m torn (if slot.sequence.toNat % 2 = 1 then
      .ret (false, buffer) else loads put slot.sequence plan buffer)
    by_cases hodd : slot.sequence.toNat % 2 = 1
    · rw [if_pos hodd]
      exact hrefused
    · rw [if_neg hodd]
      obtain rfl := hwriting.even hM hodd
      rw [hwriting.settled.sequence]
      exact .loading (List.nil_append plan).symm hdone (Nat.le_refl m) fun _ _ =>
        ⟨rfl, fun p hp => absurd hp List.not_mem_nil⟩
  | @loading seen rest first b split after before whole =>
    cases rest with
    | nil =>
      have hfew := hfew rfl
      refine ⟨hwriting, hdone, .returned fun hok => ?_⟩
      have hsame : slot.sequence = BitVec.ofNat w (2 * first) := beq_iff_eq.mp hok
      have heven : slot.sequence.toNat % 2 ≠ 1 := by
        rw [hsame, even_ofNat hM]
        omega
      obtain rfl := hwriting.even hM heven
      have hround := hwriting.settled.sequence.symm.trans hsame
      obtain rfl := same_round hM before (by omega) hround
      obtain ⟨hb, hpasses⟩ := whole rfl rfl
      rw [List.append_nil] at split
      exact ⟨m, after, hle, split ▸ hb, split ▸ hpasses⟩
    | cons p rest =>
      obtain ⟨i, check⟩ := p
      refine ⟨hwriting, hdone, ?_⟩
      show Reading put cells plan buffer done calls m torn (if check (slot.cells i) then
        loads put _ rest (put b i (slot.cells i)) else .ret (false, b))
      by_cases hcheck : check (slot.cells i) = true
      swap
      · rw [if_neg hcheck]
        exact hrefused
      rw [if_pos hcheck]
      have hsplit : plan = (seen ++ [(i, check)]) ++ rest := by
        rw [split, List.append_assoc, List.singleton_append]
      refine .loading hsplit after before fun hfirst htorn => ?_
      obtain ⟨hb, hpasses⟩ := whole hfirst htorn
      subst hfirst htorn
      rw [hwriting.settled.cells] at hcheck ⊢
      refine ⟨?_, fun q hq => ?_⟩
      · rw [hb]
        unfold collected
        rw [List.foldl_append]
        rfl
      · rcases List.mem_append.mp hq with hq | hq
        · exact hpasses q hq
        · rw [List.mem_singleton.mp hq]
          exact hcheck
  | returned taken => exact ⟨hwriting, hdone, .returned taken⟩

end

/-! ## Runs -/

/-- While a read goes on, fewer than `M` publications overlap it: those that were not done when
it was called. -/
def Few (M : Nat) (s : System w ι α β) (_ : Action ι α β) : Prop :=
  s.reader.pending = 1 → s.calls.length < s.done + M

theorem initial_inv (put : β → ι → α → β) (cells : ι → α) (plan : Plan ι α) (b : β) :
    Inv put cells (initial cells plan b : System w ι α β) 0 false :=
  ⟨Writing.idle (⟨rfl, rfl⟩ : Settled cells [] _ 0), Nat.le_refl 0, .returned fun h => by cases h⟩

theorem step_inv {M : Nat} (hM : 2 ^ w = 2 * M) {put : β → ι → α → β} {cells : ι → α}
    {s : System w ι α β} (a : Action ι α β) (hfew : Few M s a)
    (h : ∃ m torn, Inv put cells s m torn) : ∃ m torn, Inv put cells (step put s a) m torn := by
  obtain ⟨m, torn, h⟩ := h
  cases a with
  | publish u => exact h.publish u
  | write => exact h.write
  | take plan b => exact h.take plan b
  | read => exact h.read hM hfew

/-- In every interleaving a read that is accepted has seen whole publications. -/
theorem taken_of_accepted {M : Nat} (hM : 2 ^ w = 2 * M) {put : β → ι → α → β} {cells : ι → α}
    {plan : Plan ι α} {b b' : β} {actions : List (Action ι α β)} {s : System w ι α β}
    (hrun : run (step put) (initial cells plan b) actions = s)
    (hfew : Along (step put) (Few M) (initial cells plan b : System w ι α β) actions)
    (h : s.reader = .ret (true, b')) : Taken put cells s.plan s.buffer s.done s.calls b' := by
  obtain ⟨m, torn, hinv⟩ := Along.invariant (I := fun s => ∃ m torn, Inv put cells s m torn)
    (fun _ a hgood hs => step_inv hM a hgood hs) ⟨0, false, initial_inv put cells plan b⟩ hfew
  rw [hrun] at hinv
  exact hinv.reading.taken h

end Z80Sbc.Concurrent.Seqlock
