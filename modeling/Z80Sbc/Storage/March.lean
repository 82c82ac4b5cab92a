import Mathlib.Tactic.Common
import Mathlib.Data.List.Nodup
import Mathlib.Data.List.Permutation

/-! # March tests of a memory

A march test is a list of sweeps over the addresses of a memory, up or down, and at
each address a sweep reads, expecting a value, or writes one. A faulty memory is an
ordinary one but for the cells its fault names: a stuck cell, a cell that cannot rise or
fall, two coupled cells, or an address that reaches the wrong cells. A fault is found on
its own cells: a run on the whole memory passes only when the run on two cells of one
bit does (`run_project`), and those are few enough to try. -/

namespace Z80Sbc.Storage.March

/-- A memory under test. -/
structure Ram (σ A V : Type) where
  read : σ → A → V
  write : σ → A → V → σ

/-- What is done at one address; a read expects its value. -/
inductive Op (V : Type) where
  | read (v : V)
  | write (v : V)

structure Sweep (V : Type) where
  down : Bool
  ops : List (Op V)

section
variable {σ A V : Type}

def Sweep.steps (addresses : List A) (s : Sweep V) : List (A × Op V) :=
  (if s.down then addresses.reverse else addresses).flatMap fun a => s.ops.map (a, ·)

/-- The steps of a whole test. -/
def march (addresses : List A) (test : List (Sweep V)) : List (A × Op V) :=
  test.flatMap (Sweep.steps addresses)

def Ram.op [DecidableEq V] (r : Ram σ A V) (s : σ) : A × Op V → Option σ
  | (a, .read v) => if r.read s a = v then some s else none
  | (a, .write v) => some (r.write s a v)

/-- The memory after the steps, or none when a read found another value. -/
def Ram.run [DecidableEq V] (r : Ram σ A V) : List (A × Op V) → σ → Option σ
  | [], s => some s
  | step :: steps, s =>
    match r.op s step with
    | none => none
    | some s => r.run steps s

variable [DecidableEq V] {r : Ram σ A V}

@[simp] theorem run_nil (s : σ) : r.run [] s = some s := rfl

@[simp] theorem run_read (s : σ) (a : A) (v : V) (steps : List (A × Op V)) :
    r.run ((a, .read v) :: steps) s = if r.read s a = v then r.run steps s else none := by
  by_cases h : r.read s a = v
  · simp [Ram.run, Ram.op, h]
  · simp [Ram.run, Ram.op, h]

@[simp] theorem run_write (s : σ) (a : A) (v : V) (steps : List (A × Op V)) :
    r.run ((a, .write v) :: steps) s = r.run steps (r.write s a v) := rfl

theorem run_append (steps later : List (A × Op V)) (s : σ) :
    r.run (steps ++ later) s = (r.run steps s).bind (r.run later) := by
  induction steps generalizing s with
  | nil => rfl
  | cons step steps ih =>
    simp only [List.cons_append, Ram.run]
    cases r.op s step with
    | none => rfl
    | some s' => exact ih s'

/-- The run stops at a read of `a`: the steps before it went through and left `m`, in which `a`
does not have the expected value `v`. -/
def Ram.Stops (r : Ram σ A V) (steps : List (A × Op V)) (s : σ) (a : A) (v : V) (m : σ) : Prop :=
  ∃ before rest, steps = before ++ (a, .read v) :: rest ∧ r.run before s = some m ∧ r.read m a ≠ v

theorem Ram.Stops.none {steps : List (A × Op V)} {s m : σ} {a : A} {v : V}
    (h : r.Stops steps s a v m) : r.run steps s = none := by
  obtain ⟨before, rest, rfl, hrun, hne⟩ := h
  rw [run_append, hrun, Option.bind_some, run_read, if_neg hne]

/-- Steps that go through are before the one at which the run stops. -/
theorem Ram.Stops.after {steps front : List (A × Op V)} {s s' m : σ} {a : A} {v : V}
    (hfront : r.run front s = some s') (h : r.Stops steps s' a v m) :
    r.Stops (front ++ steps) s a v m := by
  obtain ⟨before, rest, rfl, hrun, hne⟩ := h
  refine ⟨front ++ before, rest, (List.append_assoc ..).symm, ?_, hne⟩
  rw [run_append, hfront, Option.bind_some, hrun]

end

/-- A memory without a fault. -/
def plain {A V : Type} [DecidableEq A] : Ram (A → V) A V where
  read m a := m a
  write m a v := Function.update m a v

/-! ## One memory inside another -/

/-- Memory `small` is what memory `r` shows of the addresses that `addr` keeps. -/
structure Shows {σ τ A B V W : Type} (r : Ram σ A V) (small : Ram τ B W) (proj : σ → τ)
    (addr : A → Option B) (val : B → V → W) : Prop where
  write : ∀ s a b v, addr a = some b → proj (r.write s a v) = small.write (proj s) b (val b v)
  aside : ∀ s a v, addr a = none → proj (r.write s a v) = proj s
  read : ∀ s a b, addr a = some b → val b (r.read s a) = small.read (proj s) b

def Op.map {V W : Type} (f : V → W) : Op V → Op W
  | .read v => .read (f v)
  | .write v => .write (f v)

/-- A step, as the kept addresses see it. -/
def keep {A B V W : Type} (addr : A → Option B) (val : B → V → W) (step : A × Op V) :
    Option (B × Op W) :=
  (addr step.1).map fun b => (b, step.2.map (val b))

section
variable {σ τ A B V W : Type} [DecidableEq V] [DecidableEq W] {r : Ram σ A V} {small : Ram τ B W}
  {proj : σ → τ} {addr : A → Option B} {val : B → V → W}

/-- A run that passes also passes on the kept addresses. -/
theorem Shows.run_project (h : Shows r small proj addr val) {steps : List (A × Op V)} {s s' : σ}
    (hrun : r.run steps s = some s') :
    small.run (steps.filterMap (keep addr val)) (proj s) = some (proj s') := by
  induction steps generalizing s with
  | nil =>
    simp only [run_nil, Option.some.injEq] at hrun
    simp [hrun]
  | cons step steps ih =>
    obtain ⟨a, o⟩ := step
    cases o with
    | read v =>
      rw [run_read] at hrun
      split at hrun
      · rename_i hv
        cases hb : addr a with
        | none => simpa [List.filterMap_cons, keep, hb] using ih hrun
        | some b =>
          have hsmall := h.read s a b hb
          rw [hv] at hsmall
          simpa [List.filterMap_cons, keep, hb, hsmall, Op.map] using ih hrun
      · contradiction
    | write v =>
      rw [run_write] at hrun
      have hnext := ih hrun
      cases hb : addr a with
      | none =>
        rw [h.aside s a v hb] at hnext
        simpa [List.filterMap_cons, keep, hb] using hnext
      | some b =>
        rw [h.write s a b v hb] at hnext
        simpa [List.filterMap_cons, keep, hb, Op.map] using hnext

end

def Sweep.map {V W : Type} (f : V → W) (s : Sweep V) : Sweep W := ⟨s.down, s.ops.map (Op.map f)⟩

section
variable {A B V W : Type}

theorem filterMap_flatMap {C D : Type} (f : C → Option D) (g : A → List C) (addr : A → Option B)
    (g' : B → List D) (h : ∀ a, (g a).filterMap f = ((addr a).map g').getD []) (as : List A) :
    (as.flatMap g).filterMap f = (as.filterMap addr).flatMap g' := by
  induction as with
  | nil => rfl
  | cons a as ih =>
    rw [List.flatMap_cons, List.filterMap_append, ih, h, List.filterMap_cons]
    cases addr a <;> simp

/-- The kept steps of a sweep are the steps of the sweep over the kept addresses. -/
theorem filterMap_steps {addr : A → Option B} {val : B → V → W} {val' : V → W} {s : Sweep V}
    (hval : ∀ b, ∀ o ∈ s.ops, o.map (val b) = o.map val') (addresses : List A) :
    (s.steps addresses).filterMap (keep addr val) =
      (s.map val').steps (addresses.filterMap addr) := by
  have hops (a : A) : (s.ops.map fun o => (a, o)).filterMap (keep addr val) =
      ((addr a).map fun b => (s.map val').ops.map fun o => (b, o)).getD [] := by
    cases hb : addr a with
    | none => simp [List.filterMap_map, Function.comp_def, keep, hb]
    | some b =>
      simp only [Sweep.map, List.filterMap_map, Function.comp_def, keep, hb, Option.map_some,
        Option.getD_some, List.map_map, List.filterMap_eq_map']
      exact List.map_congr_left fun o ho => by rw [hval b o ho]
  cases hd : s.down with
  | false => simpa [Sweep.steps, Sweep.map, hd] using filterMap_flatMap _ _ addr _ hops addresses
  | true =>
    simpa [Sweep.steps, Sweep.map, hd, List.filterMap_reverse] using
      filterMap_flatMap _ _ addr _ hops addresses.reverse

/-- The kept steps of a test are the steps of the test over the kept addresses. -/
theorem filterMap_march {addr : A → Option B} {val : B → V → W} (val' : V → W)
    {test : List (Sweep V)} (hval : ∀ b, ∀ s ∈ test, ∀ o ∈ s.ops, o.map (val b) = o.map val')
    (addresses : List A) :
    (march addresses test).filterMap (keep addr val) =
      march (addresses.filterMap addr) (test.map (Sweep.map val')) := by
  induction test with
  | nil => rfl
  | cons s test ih =>
    have hrest := ih fun b s' hs' => hval b s' (List.mem_cons_of_mem _ hs')
    simp only [march, List.flatMap_cons, List.map_cons, List.filterMap_append] at hrest ⊢
    rw [hrest, filterMap_steps fun b => hval b s List.mem_cons_self]

end

/-! ## Faults -/

section
variable {A : Type} {w : Nat}

/-- Bit `i` of a word replaced. -/
def setBit (v : BitVec w) (i : Nat) (b : Bool) : BitVec w :=
  if b then v ||| BitVec.twoPow w i else v &&& ~~~BitVec.twoPow w i

theorem getLsbD_setBit {v : BitVec w} {i j : Nat} {b : Bool} (hi : i < w) :
    (setBit v i b).getLsbD j = if i = j then b else v.getLsbD j := by
  by_cases h : i = j
  · subst h
    cases b <;> simp [setBit, hi]
  · have hji : j ≠ i := Ne.symm h
    by_cases hj : j < w
    · cases b <;> simp [setBit, hj, h, hji]
    · cases b <;> simp [setBit, BitVec.getLsbD_of_ge _ _ (Nat.le_of_not_lt hj), h]

/-- One bit of one word. -/
structure Cell (A : Type) where
  address : A
  bit : Nat

/-- What may be wrong with a memory. A coupling fault has an aggressor, whose writes or
whose value act on a victim. -/
inductive Fault (A : Type) (w : Nat) where
  /-- The cell always reads as `value`. -/
  | stuck (victim : Cell A) (value : Bool)
  /-- The cell does not change to `value`. -/
  | transition (victim : Cell A) (value : Bool)
  /-- The victim flips when the aggressor changes to `edge`. -/
  | inversion (aggressor victim : Cell A) (edge : Bool)
  /-- The victim becomes `value` when the aggressor changes to `edge`. -/
  | idempotent (aggressor victim : Cell A) (edge value : Bool)
  /-- A write to either address that leaves the aggressor at `level` leaves the victim
  at `value`. -/
  | state (aggressor victim : Cell A) (level value : Bool)
  /-- The address reaches no cell and reads as `floating`. -/
  | silent (address : A) (floating : BitVec w)
  /-- The address reaches the cells of another one instead of its own. -/
  | astray (address other : A)
  /-- The address reaches the cells of another one and its own; a read of both gives
  their AND or their OR. -/
  | both (address other : A) (wiredOr : Bool)

/-- The fault's addresses and bits are ones of the memory, and a coupling is between two
addresses. Two bits of one address are written together, and a test that writes only zeros and
ones passes over a coupling between them. -/
def Fault.On (addresses : List A) : Fault A w → Prop
  | .stuck c _ | .transition c _ => c.address ∈ addresses ∧ c.bit < w
  | .inversion a v _ | .idempotent a v _ _ | .state a v _ _ =>
    a.address ∈ addresses ∧ a.bit < w ∧ v.address ∈ addresses ∧ v.bit < w ∧ a.address ≠ v.address
  | .silent a _ => a ∈ addresses ∧ 0 < w
  | .astray a b | .both a b _ => a ∈ addresses ∧ b ∈ addresses ∧ a ≠ b ∧ 0 < w

variable [DecidableEq A]

abbrev Cells (A : Type) (w : Nat) := A → BitVec w

def Cells.bit (m : Cells A w) (c : Cell A) : Bool := (m c.address).getLsbD c.bit

def Cells.force (m : Cells A w) (c : Cell A) (b : Bool) : Cells A w :=
  Function.update m c.address (setBit (m c.address) c.bit b)

/-- What a coupling fault leaves of the victim after the write from `m` to `m'`. -/
def Cells.coupled (m m' : Cells A w) (aggressor victim : Cell A) (edge value : Bool) : Cells A w :=
  if m.bit aggressor ≠ edge ∧ m'.bit aggressor = edge then m'.force victim value else m'

def Fault.read (m : Cells A w) (a : A) : Fault A w → BitVec w
  | .stuck c value => if a = c.address then setBit (m a) c.bit value else m a
  | .silent x floating => if a = x then floating else m a
  | .astray x y => if a = x then m y else m a
  | .both x y wiredOr => if a = x then (if wiredOr then m x ||| m y else m x &&& m y) else m a
  | _ => m a

def Fault.write (m : Cells A w) (a : A) (v : BitVec w) : Fault A w → Cells A w
  | .stuck _ _ => Function.update m a v
  | .transition c value =>
    let m' := Function.update m a v
    if m.bit c ≠ value ∧ Cells.bit m' c = value then Cells.force m' c (!value) else m'
  | .inversion aggressor victim edge =>
    let m' := Function.update m a v
    m.coupled m' aggressor victim edge (!Cells.bit m' victim)
  | .idempotent aggressor victim edge value =>
    m.coupled (Function.update m a v) aggressor victim edge value
  | .state aggressor victim level value =>
    let m' := Function.update m a v
    if (a = aggressor.address ∨ a = victim.address) ∧ Cells.bit m' aggressor = level then
      Cells.force m' victim value
    else m'
  | .silent x _ => if a = x then m else Function.update m a v
  | .astray x y => Function.update m (if a = x then y else a) v
  | .both x y _ =>
    if a = x then Function.update (Function.update m x v) y v else Function.update m a v

/-- The memory with a fault. -/
def faulty (f : Fault A w) : Ram (Cells A w) A (BitVec w) where
  read m a := f.read m a
  write m a v := f.write m a v

end

/-! ## What a few cells show of a fault -/

/-- Kept cells, at most one of an address. -/
structure View (A B : Type) where
  addr : A → Option B
  cell : B → Cell A
  addr_iff : ∀ a b, addr a = some b ↔ (cell b).address = a

section
variable {A B : Type} {w : Nat} (view : View A B)

/-- The kept cells as a memory of words of one bit. -/
def View.proj (m : Cells A w) : Cells B 1 := fun b => BitVec.ofBool (m.bit (view.cell b))

def View.val (b : B) (v : BitVec w) : BitVec 1 := BitVec.ofBool (v.getLsbD (view.cell b).bit)

variable {view}

theorem View.address {a : A} {b : B} (h : view.addr a = some b) : (view.cell b).address = a :=
  (view.addr_iff a b).1 h

@[simp] theorem View.bit_proj {m : Cells A w} {b : B} :
    (view.proj m).bit ⟨b, 0⟩ = m.bit (view.cell b) := by
  simp [Cells.bit, View.proj]

theorem View.address_eq_iff {a : A} {b c : B} (h : view.addr a = some b) :
    a = (view.cell c).address ↔ b = c := by
  rw [eq_comm, ← view.addr_iff, h, Option.some.injEq]

theorem View.address_ne {a : A} {c : B} (h : view.addr a = none) :
    a ≠ (view.cell c).address := fun hac => by
  simp [(view.addr_iff a c).2 hac.symm] at h

theorem View.val_read {m : Cells A w} {a : A} {b : B} (h : view.addr a = some b) :
    view.val b (m a) = view.proj m b := by
  rw [← View.address h]
  rfl

theorem View.val_setBit {m : Cells A w} {b : B} {x : Bool} (hw : (view.cell b).bit < w) :
    view.val b (setBit (m (view.cell b).address) (view.cell b).bit x) =
      setBit (view.proj m b) 0 x := by
  apply BitVec.eq_of_getLsbD_eq
  intro i hi
  have hi0 : i = 0 := by omega
  subst hi0
  rw [getLsbD_setBit Nat.zero_lt_one]
  simp [View.val, getLsbD_setBit hw]

variable [DecidableEq A]

theorem View.bit_aside {m : Cells A w} {a : A} {b : B} {v : BitVec w} (h : view.addr a = none) :
    Cells.bit (Function.update m a v) (view.cell b) = m.bit (view.cell b) := by
  rw [Cells.bit, Function.update_of_ne (View.address_ne h).symm, Cells.bit]

theorem View.proj_aside {m : Cells A w} {a : A} {v : BitVec w} (h : view.addr a = none) :
    view.proj (Function.update m a v) = view.proj m := by
  funext c
  rw [View.proj, View.bit_aside h, View.proj]

theorem View.proj_coupled_aside {m : Cells A w} {c : A} {x : BitVec w} {a v : B}
    {edge value : Bool} (h : view.addr c = none) :
    view.proj (m.coupled (Function.update m c x) (view.cell a) (view.cell v) edge value) =
      view.proj m := by
  rw [Cells.coupled, View.bit_aside h, if_neg (by simp), View.proj_aside h]

variable [DecidableEq B]

theorem View.proj_update {m : Cells A w} {a : A} {b : B} {v : BitVec w}
    (h : view.addr a = some b) :
    view.proj (Function.update m a v) = Function.update (view.proj m) b (view.val b v) := by
  funext c
  by_cases hc : c = b
  · subst hc
    simp [View.proj, View.val, Cells.bit, View.address h]
  · have hne : (view.cell c).address ≠ a := fun hca =>
      hc (Option.some.inj (((view.addr_iff a c).2 hca).symm.trans h))
    simp [View.proj, Cells.bit, Function.update_of_ne hc, Function.update_of_ne hne]

theorem View.proj_force {m : Cells A w} {b : B} {x : Bool} (hw : (view.cell b).bit < w) :
    view.proj (m.force (view.cell b) x) = (view.proj m).force ⟨b, 0⟩ x := by
  rw [Cells.force, View.proj_update ((view.addr_iff _ b).2 rfl), View.val_setBit hw, Cells.force]

theorem View.proj_coupled {m m' : Cells A w} {a v : B} {edge value : Bool}
    (hv : (view.cell v).bit < w) :
    view.proj (m.coupled m' (view.cell a) (view.cell v) edge value) =
      (view.proj m).coupled (view.proj m') ⟨a, 0⟩ ⟨v, 0⟩ edge value := by
  simp only [Cells.coupled, View.bit_proj]
  split
  · exact View.proj_force hv
  · rfl

/-- The fault on the kept cells that a view shows of a fault among them. -/
inductive View.Sees (s : View A B) : Fault A w → Fault B 1 → Prop where
  | stuck (v : B) (value : Bool) (hv : (s.cell v).bit < w) :
    Sees s (.stuck (s.cell v) value) (.stuck ⟨v, 0⟩ value)
  | transition (v : B) (value : Bool) (hv : (s.cell v).bit < w) :
    Sees s (.transition (s.cell v) value) (.transition ⟨v, 0⟩ value)
  | inversion (a v : B) (edge : Bool) (hv : (s.cell v).bit < w) :
    Sees s (.inversion (s.cell a) (s.cell v) edge) (.inversion ⟨a, 0⟩ ⟨v, 0⟩ edge)
  | idempotent (a v : B) (edge value : Bool) (hv : (s.cell v).bit < w) :
    Sees s (.idempotent (s.cell a) (s.cell v) edge value)
      (.idempotent ⟨a, 0⟩ ⟨v, 0⟩ edge value)
  | state (a v : B) (level value : Bool) (hv : (s.cell v).bit < w) :
    Sees s (.state (s.cell a) (s.cell v) level value) (.state ⟨a, 0⟩ ⟨v, 0⟩ level value)
  | silent (a : B) (floating : BitVec w) :
    Sees s (.silent (s.cell a).address floating) (.silent a (s.val a floating))
  | astray (a b : B) (hbit : (s.cell a).bit = (s.cell b).bit) :
    Sees s (.astray (s.cell a).address (s.cell b).address) (.astray a b)
  | both (a b : B) (wiredOr : Bool) (hbit : (s.cell a).bit = (s.cell b).bit) :
    Sees s (.both (s.cell a).address (s.cell b).address wiredOr) (.both a b wiredOr)

/-- A view of a fault among its cells shows that fault on a smaller memory. -/
theorem View.Sees.shows {f : Fault A w} {g : Fault B 1} (h : view.Sees f g) :
    Shows (faulty f) (faulty g) view.proj view.addr view.val := by
  cases h with
  | stuck v value hv =>
    refine ⟨fun m a b x hb => View.proj_update hb, fun m a x hb => View.proj_aside hb,
      fun m a b hb => ?_⟩
    simp only [faulty, Fault.read, View.address_eq_iff hb]
    split
    · rename_i hbv
      subst hbv
      rw [← View.address hb]
      exact View.val_setBit hv
    · exact View.val_read hb
  | transition v value hv =>
    refine ⟨fun m a b x hb => ?_, fun m a x hb => ?_, fun m a b hb => View.val_read hb⟩
    · simp only [faulty, Fault.write, ← View.proj_update hb, View.bit_proj]
      split
      · exact View.proj_force hv
      · rfl
    · have hsame := View.bit_aside (v := x) (m := m) (b := v) hb
      simp only [faulty, Fault.write, hsame]
      rw [if_neg (by simp_all)]
      exact View.proj_aside hb
  | inversion a v edge hv =>
    refine ⟨fun m c b x hb => ?_, fun m c x hb => ?_, fun m c b hb => View.val_read hb⟩
    · simp only [faulty, Fault.write, ← View.proj_update hb, View.bit_proj]
      exact View.proj_coupled hv
    · exact View.proj_coupled_aside hb
  | idempotent a v edge value hv =>
    refine ⟨fun m c b x hb => ?_, fun m c x hb => ?_, fun m c b hb => View.val_read hb⟩
    · simp only [faulty, Fault.write, ← View.proj_update hb]
      exact View.proj_coupled hv
    · exact View.proj_coupled_aside hb
  | state a v level value hv =>
    refine ⟨fun m c b x hb => ?_, fun m c x hb => ?_, fun m c b hb => View.val_read hb⟩
    · simp only [faulty, Fault.write, ← View.proj_update hb, View.bit_proj, View.address_eq_iff hb]
      split
      · exact View.proj_force hv
      · rfl
    · simp only [faulty, Fault.write, View.address_ne hb, or_self, false_and, if_false]
      exact View.proj_aside hb
  | silent a floating =>
    refine ⟨fun m c b x hb => ?_, fun m c x hb => ?_, fun m c b hb => ?_⟩
    · simp only [faulty, Fault.write, View.address_eq_iff hb]
      split
      · rfl
      · exact View.proj_update hb
    · simpa [faulty, Fault.write, View.address_ne hb] using View.proj_aside hb
    · simp only [faulty, Fault.read, View.address_eq_iff hb]
      split
      · rename_i hba
        rw [hba]
      · exact View.val_read hb
  | astray a b' hbit =>
    refine ⟨fun m c b x hb => ?_, fun m c x hb => ?_, fun m c b hb => ?_⟩
    · simp only [faulty, Fault.write, View.address_eq_iff hb]
      split
      · rename_i hba
        subst hba
        rw [View.proj_update ((view.addr_iff _ b').2 rfl), View.val, View.val, hbit]
      · exact View.proj_update hb
    · simpa [faulty, Fault.write, View.address_ne hb] using View.proj_aside hb
    · simp only [faulty, Fault.read, View.address_eq_iff hb]
      split
      · rename_i hba
        subst hba
        simp [View.val, View.proj, Cells.bit, hbit]
      · exact View.val_read hb
  | both a b' wiredOr hbit =>
    refine ⟨fun m c b x hb => ?_, fun m c x hb => ?_, fun m c b hb => ?_⟩
    · simp only [faulty, Fault.write, View.address_eq_iff hb]
      split
      · rename_i hba
        subst hba
        rw [View.proj_update ((view.addr_iff _ b').2 rfl),
          View.proj_update ((view.addr_iff _ b).2 rfl), View.val, View.val, hbit]
      · exact View.proj_update hb
    · simpa [faulty, Fault.write, View.address_ne hb] using View.proj_aside hb
    · simp only [faulty, Fault.read, View.address_eq_iff hb]
      split
      · rename_i hba
        subst hba
        split <;> simp [View.val, View.proj, Cells.bit, hbit]
      · exact View.val_read hb

end

/-! ## March C- -/

section
variable {A V : Type}

/-- March C-, over a word `zero` and its complement `one`. -/
def marchCMinus (zero one : V) : List (Sweep V) :=
  [⟨false, [.write zero]⟩, ⟨false, [.read zero, .write one]⟩, ⟨false, [.read one, .write zero]⟩,
    ⟨true, [.read zero, .write one]⟩, ⟨true, [.read one, .write zero]⟩, ⟨false, [.read zero]⟩]

theorem map_marchCMinus {W : Type} {f : V → W} {zero one : V} :
    (marchCMinus zero one).map (Sweep.map f) = marchCMinus (f zero) (f one) := rfl

/-- A fault that is found on the kept cells is found. -/
theorem View.Sees.run_none {B : Type} [DecidableEq A] [DecidableEq B] {w : Nat} {view : View A B}
    {f : Fault A w} {g : Fault B 1} (h : view.Sees f g) (hw : 0 < w)
    (hbits : ∀ b, (view.cell b).bit < w) {addresses : List A}
    (hsmall : ∀ m, (faulty g).run (march (addresses.filterMap view.addr) (marchCMinus 0 1)) m =
      none) (m : Cells A w) :
    (faulty f).run (march addresses (marchCMinus 0 (BitVec.allOnes w))) m = none := by
  cases hrun : (faulty f).run (march addresses (marchCMinus 0 (BitVec.allOnes w))) m with
  | none => rfl
  | some m' =>
    have hproj := h.shows.run_project hrun
    rw [filterMap_march (fun v => BitVec.ofBool (v.getLsbD 0)) fun b s hs o ho => by
      have hone := hbits b
      simp only [marchCMinus, List.mem_cons, List.not_mem_nil, or_false] at hs
      rcases hs with rfl | rfl | rfl | rfl | rfl | rfl <;>
        simp only [List.mem_cons, List.not_mem_nil, or_false] at ho <;>
        rcases ho with rfl | rfl <;> simp [Op.map, View.val, hone, hw],
      map_marchCMinus] at hproj
    have hone : BitVec.ofBool ((BitVec.allOnes w).getLsbD 0) = 1 := by simp [hw]
    have hzero : BitVec.ofBool ((0 : BitVec w).getLsbD 0) = 0 := by simp
    rw [hzero, hone, hsmall] at hproj
    contradiction

/-- Of two kept addresses one comes first. -/
theorem filterMap_pair {addresses : List A} {addr : A → Option Bool} (hnodup : addresses.Nodup)
    (hinj : ∀ a a' b, addr a = some b → addr a' = some b → a = a')
    (hall : ∀ b, ∃ a ∈ addresses, addr a = some b) :
    addresses.filterMap addr = [true, false] ∨ addresses.filterMap addr = [false, true] := by
  refine List.perm_pair.1 ((List.perm_ext_iff_of_nodup
    (hnodup.filterMap fun a a' b h h' => hinj a a' b h h') (by simp)).2 fun b => ?_)
  obtain ⟨a, ha, hab⟩ := hall b
  have hmem : b ∈ addresses.filterMap addr := List.mem_filterMap.2 ⟨a, ha, hab⟩
  simp [hmem]

theorem filterMap_single {addresses : List A} {addr : A → Option Unit} (hnodup : addresses.Nodup)
    (hinj : ∀ a a', addr a = some () → addr a' = some () → a = a')
    (hall : ∃ a ∈ addresses, addr a = some ()) : addresses.filterMap addr = [()] := by
  refine List.perm_singleton.1 ((List.perm_ext_iff_of_nodup
    (hnodup.filterMap fun a a' b h h' => hinj a a' h h') (by simp)).2 fun b => ?_)
  obtain ⟨a, ha, hab⟩ := hall
  have hmem : b ∈ addresses.filterMap addr := List.mem_filterMap.2 ⟨a, ha, hab⟩
  simp [hmem]

/-! The faults of one cell of one bit, and of two. -/

theorem detects_stuck (value : Bool) (m : Cells Unit 1) :
    (faulty (.stuck ⟨(), 0⟩ value)).run (march [()] (marchCMinus 0 1)) m = none := by
  have hall : ∀ value : Bool, ∀ x : BitVec 1,
      (faulty (.stuck ⟨(), 0⟩ value)).run (march [()] (marchCMinus 0 1)) (fun _ => x) = none := by
    decide +kernel
  exact hall value (m ())

theorem detects_transition (value : Bool) (m : Cells Unit 1) :
    (faulty (.transition ⟨(), 0⟩ value)).run (march [()] (marchCMinus 0 1)) m = none := by
  have hall : ∀ value : Bool, ∀ x : BitVec 1,
      (faulty (.transition ⟨(), 0⟩ value)).run (march [()] (marchCMinus 0 1)) (fun _ => x) =
        none := by
    decide +kernel
  exact hall value (m ())

theorem detects_silent (floating : BitVec 1) (m : Cells Unit 1) :
    (faulty (.silent () floating)).run (march [()] (marchCMinus 0 1)) m = none := by
  have hall : ∀ floating x : BitVec 1,
      (faulty (.silent () floating)).run (march [()] (marchCMinus 0 1)) (fun _ => x) = none := by
    decide +kernel
  exact hall floating (m ())

/-- The two orders in which a sweep up meets two cells. -/
def orders : List (List Bool) := [[true, false], [false, true]]

/-- A fault that every order finds from every content of the two cells. -/
def Found (g : Fault Bool 1) : Prop :=
  ∀ order ∈ orders, ∀ x y : BitVec 1,
    (faulty g).run (march order (marchCMinus 0 1)) (fun b => if b then x else y) = none

theorem Found.run_none {g : Fault Bool 1} (h : Found g) {order : List Bool}
    (horder : order = [true, false] ∨ order = [false, true]) (m : Cells Bool 1) :
    (faulty g).run (march order (marchCMinus 0 1)) m = none := by
  have hm : m = fun b => if b then m true else m false := by
    funext b
    cases b <;> rfl
  rw [hm]
  exact h order (by simpa [orders] using horder) _ _

instance (g : Fault Bool 1) : Decidable (Found g) :=
  inferInstanceAs (Decidable (∀ order ∈ orders, ∀ x y : BitVec 1,
    (faulty g).run (march order (marchCMinus 0 1)) (fun b => if b then x else y) = none))

theorem found_inversion : ∀ edge, Found (.inversion ⟨true, 0⟩ ⟨false, 0⟩ edge) := by
  decide +kernel

theorem found_idempotent :
    ∀ edge value, Found (.idempotent ⟨true, 0⟩ ⟨false, 0⟩ edge value) := by
  decide +kernel

theorem found_state : ∀ level value, Found (.state ⟨true, 0⟩ ⟨false, 0⟩ level value) := by
  decide +kernel

theorem found_astray : Found (.astray true false) := by
  decide +kernel

theorem found_both : ∀ wiredOr, Found (.both true false wiredOr) := by
  decide +kernel

/-- The view of one cell. -/
def View.one [DecidableEq A] (c : Cell A) : View A Unit where
  addr a := if a = c.address then some () else none
  cell _ := c
  addr_iff a b := by
    by_cases h : a = c.address
    · simp [h]
    · simp [h, Ne.symm h]

/-- The view of an aggressor and a victim. -/
def View.two [DecidableEq A] (a v : Cell A) (hne : a.address ≠ v.address) : View A Bool where
  addr x := if x = a.address then some true else if x = v.address then some false else none
  cell b := if b then a else v
  addr_iff x b := by
    by_cases ha : x = a.address
    · subst ha
      cases b <;> simp [hne.symm]
    · by_cases hv : x = v.address
      · subst hv
        cases b <;> simp [Ne.symm ha, ha]
      · cases b <;> simp [ha, hv, Ne.symm ha, Ne.symm hv]

variable [DecidableEq A] {w : Nat} {addresses : List A}

theorem View.one_order {c : Cell A} (hnodup : addresses.Nodup) (hc : c.address ∈ addresses) :
    addresses.filterMap (View.one c).addr = [()] :=
  filterMap_single hnodup
    (fun a a' h h' => by
      have hcell := View.address h'
      exact (View.address h).symm.trans hcell)
    ⟨c.address, hc, by simp [View.one]⟩

theorem View.two_order {a v : Cell A} {hne : a.address ≠ v.address} (hnodup : addresses.Nodup)
    (ha : a.address ∈ addresses) (hv : v.address ∈ addresses) :
    addresses.filterMap (View.two a v hne).addr = [true, false] ∨
      addresses.filterMap (View.two a v hne).addr = [false, true] := by
  refine filterMap_pair hnodup
    (fun x x' b h h' => (View.address h).symm.trans (View.address h')) fun b => ?_
  cases b with
  | true => exact ⟨a.address, ha, by simp [View.two]⟩
  | false => exact ⟨v.address, hv, by simp [View.two, hne.symm]⟩

/-- March C- finds every fault of its addresses, whatever the memory held. -/
theorem marchCMinus_detects {f : Fault A w} (hnodup : addresses.Nodup) (hf : f.On addresses)
    (m : Cells A w) :
    (faulty f).run (march addresses (marchCMinus 0 (BitVec.allOnes w))) m = none := by
  cases f with
  | stuck c value =>
    obtain ⟨hc, hbit⟩ := hf
    refine View.Sees.run_none (View.Sees.stuck (s := View.one c) () value hbit)
      (Nat.zero_lt_of_lt hbit) (fun _ => hbit) (fun m => ?_) m
    rw [View.one_order hnodup hc]
    exact detects_stuck value m
  | transition c value =>
    obtain ⟨hc, hbit⟩ := hf
    refine View.Sees.run_none (View.Sees.transition (s := View.one c) () value hbit)
      (Nat.zero_lt_of_lt hbit) (fun _ => hbit) (fun m => ?_) m
    rw [View.one_order hnodup hc]
    exact detects_transition value m
  | silent a floating =>
    obtain ⟨ha, hw⟩ := hf
    refine View.Sees.run_none (View.Sees.silent (s := View.one ⟨a, 0⟩) () floating) hw
      (fun _ => hw) (fun m => ?_) m
    rw [View.one_order hnodup ha]
    exact detects_silent _ m
  | inversion a v edge =>
    obtain ⟨ha, habit, hv, hvbit, hne⟩ := hf
    refine View.Sees.run_none (View.Sees.inversion (s := View.two a v hne) true false edge hvbit)
      (Nat.zero_lt_of_lt hvbit) (fun b => ?_)
      (fun m => (found_inversion edge).run_none (View.two_order hnodup ha hv) m) m
    cases b <;> assumption
  | idempotent a v edge value =>
    obtain ⟨ha, habit, hv, hvbit, hne⟩ := hf
    refine View.Sees.run_none
      (View.Sees.idempotent (s := View.two a v hne) true false edge value hvbit)
      (Nat.zero_lt_of_lt hvbit) (fun b => ?_)
      (fun m => (found_idempotent edge value).run_none (View.two_order hnodup ha hv) m) m
    cases b <;> assumption
  | state a v level value =>
    obtain ⟨ha, habit, hv, hvbit, hne⟩ := hf
    refine View.Sees.run_none
      (View.Sees.state (s := View.two a v hne) true false level value hvbit)
      (Nat.zero_lt_of_lt hvbit) (fun b => ?_)
      (fun m => (found_state level value).run_none (View.two_order hnodup ha hv) m) m
    cases b <;> assumption
  | astray a b =>
    obtain ⟨ha, hb, hne, hw⟩ := hf
    refine View.Sees.run_none
      (View.Sees.astray (s := View.two ⟨a, 0⟩ ⟨b, 0⟩ hne) true false rfl) hw (fun c => ?_)
      (fun m => found_astray.run_none (View.two_order hnodup ha hb) m) m
    cases c <;> assumption
  | both a b wiredOr =>
    obtain ⟨ha, hb, hne, hw⟩ := hf
    refine View.Sees.run_none
      (View.Sees.both (s := View.two ⟨a, 0⟩ ⟨b, 0⟩ hne) true false wiredOr rfl) hw (fun c => ?_)
      (fun m => (found_both wiredOr).run_none (View.two_order hnodup ha hb) m) m
    cases c <;> assumption

end

/-! ## A memory without a fault -/

section
variable {A V : Type} [DecidableEq A]

/-- The memory after `value` was written at the addresses. -/
def filled (m : A → V) (addresses : List A) (value : V) : A → V :=
  fun a => if a ∈ addresses then value else m a

@[simp] theorem filled_nil {m : A → V} {value : V} : filled m [] value = m := by
  funext a
  simp [filled]

@[simp] theorem filled_mem {m : A → V} {addresses : List A} {value : V} {a : A}
    (ha : a ∈ addresses) : filled m addresses value a = value := by
  simp [filled, ha]

theorem filled_filled {m : A → V} {addresses : List A} {value value' : V} :
    filled (filled m addresses value) addresses value' = filled m addresses value' := by
  funext a
  by_cases ha : a ∈ addresses <;> simp [filled, ha]

theorem filled_reverse {m : A → V} {addresses : List A} {value : V} :
    filled m addresses.reverse value = filled m addresses value := by
  funext a
  simp [filled]

variable [DecidableEq V]

/-- A sweep that finds `before` at every address leaves `after` there. -/
theorem run_replace {before after : V} {addresses : List A} {m : A → V}
    (hnodup : addresses.Nodup) (hm : ∀ a ∈ addresses, m a = before) :
    plain.run (addresses.flatMap fun a => [(a, .read before), (a, .write after)]) m =
      some (filled m addresses after) := by
  induction addresses generalizing m with
  | nil => simp
  | cons a rest ih =>
    obtain ⟨ha, hrest⟩ := List.nodup_cons.1 hnodup
    have hread : plain.read m a = before := hm a List.mem_cons_self
    have hlater : ∀ b ∈ rest, (plain.write m a after) b = before := fun b hb => by
      have hne : b ≠ a := fun h => ha (h ▸ hb)
      simp [plain, hne, hm b (List.mem_cons_of_mem _ hb)]
    simp only [List.flatMap_cons, List.cons_append, List.nil_append, run_read, hread, if_true,
      run_write, ih hrest hlater, Option.some.injEq]
    funext b
    by_cases hb : b = a
    · simp [filled, plain, hb, ha]
    · simp [filled, plain, hb]

theorem run_fill {value : V} {addresses : List A} {m : A → V} :
    plain.run (addresses.flatMap fun a => [(a, .write value)]) m =
      some (filled m addresses value) := by
  induction addresses generalizing m with
  | nil => simp
  | cons a rest ih =>
    simp only [List.flatMap_cons, List.cons_append, List.nil_append, run_write, ih,
      Option.some.injEq]
    funext b
    by_cases hb : b = a
    · simp [filled, plain, hb]
    · simp [filled, plain, hb]

theorem run_check {value : V} (addresses : List A) {m : A → V}
    (hm : ∀ a ∈ addresses, m a = value) :
    plain.run (addresses.flatMap fun a => [(a, .read value)]) m = some m := by
  induction addresses with
  | nil => rfl
  | cons a rest ih =>
    have hread : plain.read m a = value := hm a List.mem_cons_self
    simp [hread, ih fun b hb => hm b (List.mem_cons_of_mem _ hb)]

/-- March C- passes on a memory without a fault and leaves `zero` at its addresses. -/
theorem marchCMinus_passes {addresses : List A} {zero one : V} (hnodup : addresses.Nodup)
    (m : A → V) :
    plain.run (march addresses (marchCMinus zero one)) m = some (filled m addresses zero) := by
  have hup {before after : V} :
      plain.run (addresses.flatMap fun a => [(a, .read before), (a, .write after)])
        (filled m addresses before) = some (filled m addresses after) := by
    rw [run_replace hnodup fun a ha => filled_mem ha, filled_filled]
  have hdown {before after : V} :
      plain.run (addresses.reverse.flatMap fun a => [(a, .read before), (a, .write after)])
        (filled m addresses before) = some (filled m addresses after) := by
    rw [run_replace (List.nodup_reverse.2 hnodup) fun a ha => filled_mem (by simpa using ha),
      filled_reverse, filled_filled]
  have hcheck := run_check addresses (m := filled m addresses zero) fun a ha => filled_mem ha
  simp only [march, marchCMinus, List.flatMap_cons, List.flatMap_nil, List.append_nil, Sweep.steps,
    List.map_cons, List.map_nil, Bool.false_eq_true, if_false, if_true, run_append, run_fill, hup,
    hdown, hcheck, Option.bind_some]

end

end Z80Sbc.Storage.March
