import Z80Sbc.Storage.Cells

/-! # Storage programs that can lose power

A program issues storage calls and reads the storage between them. Each call
owns one range. Three readings of the same program are used:

* `Prog.runWith` runs it to its end, where any call may misbehave and leave
  arbitrary bytes in its own range (`Prog.run` is the run with no such call);
* `Cut` is the storage a power cut leaves, between two calls or inside one.
  What a torn call may leave is a parameter;
* `Prog.Safe` and `Prog.Robust` are the matching weakest preconditions, by
  recursion on the program, and `Safe.cut`, `Safe.run` and `Robust.runWith`
  are what a proof about a program uses. -/

namespace Z80Sbc.Storage

abbrev Flash := Nat → UInt8

/-- One storage call: the range it owns and the bytes it leaves there. -/
structure Call where
  off : Nat
  len : Nat
  bytes : Nat → UInt8

/-- The storage after a call that left `g` in its range. -/
def Call.leave (c : Call) (f : Flash) (g : Nat → UInt8) : Flash := overlay f c.off c.len g

/-- The storage after a call that ran to its end. -/
def Call.apply (c : Call) (f : Flash) : Flash := c.leave f c.bytes

inductive Prog (α : Type) where
  | done (a : α)
  | call (c : Call) (rest : Prog α)
  | read (rest : Flash → Prog α)

namespace Prog
variable {α β : Type}

def bind : Prog α → (α → Prog β) → Prog β
  | .done a, k => k a
  | .call c rest, k => .call c (rest.bind k)
  | .read rest, k => .read fun f => (rest f).bind k

instance : Monad Prog where
  pure := .done
  bind := Prog.bind

/-- Set a range to FFh. -/
def erase (off len : Nat) : Prog Unit := .call ⟨off, len, fun _ => 0xFF⟩ (.done ())

/-- Set a range to the given bytes. -/
def program (off : Nat) (bytes : Nat → UInt8) (len : Nat) : Prog Unit :=
  .call ⟨off, len, bytes⟩ (.done ())

/-- The storage as it reads now. -/
def contents : Prog Flash := .read .done

@[simp] theorem pure_eq (a : α) : (pure a : Prog α) = .done a := rfl
@[simp] theorem done_bind (a : α) (k : α → Prog β) : (Prog.done a >>= k) = k a := rfl
@[simp] theorem call_bind (c : Call) (p : Prog α) (k : α → Prog β) :
    (Prog.call c p >>= k) = .call c (p >>= k) := rfl
@[simp] theorem read_bind (r : Flash → Prog α) (k : α → Prog β) :
    (Prog.read r >>= k) = .read fun f => r f >>= k := rfl
@[simp] theorem erase_bind (off len : Nat) (k : Unit → Prog β) :
    (erase off len >>= k) = .call ⟨off, len, fun _ => 0xFF⟩ (k ()) := rfl
@[simp] theorem program_bind (off len : Nat) (b : Nat → UInt8) (k : Unit → Prog β) :
    (program off b len >>= k) = .call ⟨off, len, b⟩ (k ()) := rfl
@[simp] theorem contents_bind (k : Flash → Prog β) : (contents >>= k) = .read k := rfl

/-! ## Running to the end -/

/-- The run in which call number `n` leaves `e n` in its range when that is
given, and its own bytes otherwise. -/
def runWith : Prog α → (Nat → Option (Nat → UInt8)) → Flash → α × Flash
  | .done a, _, f => (a, f)
  | .call c rest, e, f => rest.runWith (fun n => e (n + 1)) (c.leave f ((e 0).getD c.bytes))
  | .read rest, e, f => (rest f).runWith e f

/-- The run in which every call does what it was asked to. -/
def run (p : Prog α) (f : Flash) : α × Flash := p.runWith (fun _ => none) f

@[simp] theorem run_done (a : α) (f : Flash) : (Prog.done a).run f = (a, f) := rfl
@[simp] theorem run_call (c : Call) (p : Prog α) (f : Flash) :
    (Prog.call c p).run f = p.run (c.apply f) := rfl
@[simp] theorem run_read (r : Flash → Prog α) (f : Flash) :
    (Prog.read r).run f = (r f).run f := rfl

theorem run_bind (p : Prog α) (k : α → Prog β) (f : Flash) :
    (p >>= k).run f = (k (p.run f).1).run (p.run f).2 := by
  induction p generalizing f with
  | done a => rfl
  | call c rest ih => exact ih _
  | read rest ih => exact ih f f

/-- Whatever the calls leave in their ranges, the run ends in `post`. -/
def Robust : Prog α → (α → Flash → Prop) → Flash → Prop
  | .done a, post, f => post a f
  | .call c rest, post, f => ∀ g, rest.Robust post (c.leave f g)
  | .read rest, post, f => (rest f).Robust post f

theorem robust_read {r : Flash → Prog α} {post : α → Flash → Prop} {f : Flash} :
    (Prog.read r).Robust post f ↔ (r f).Robust post f := Iff.rfl

theorem robust_ite {p q : Prog α} {post : α → Flash → Prop} {f : Flash} {c : Prop} [Decidable c]
    (hp : c → p.Robust post f) (hq : ¬c → q.Robust post f) :
    (if c then p else q).Robust post f := by
  by_cases h : c
  · rw [if_pos h]; exact hp h
  · rw [if_neg h]; exact hq h

theorem Robust.runWith {p : Prog α} {post : α → Flash → Prop} {f : Flash} (h : p.Robust post f)
    (e : Nat → Option (Nat → UInt8)) : post (p.runWith e f).1 (p.runWith e f).2 := by
  induction p generalizing f e with
  | done a => exact h
  | call c rest ih => exact ih (h _) _
  | read rest ih => exact ih f h e

theorem Robust.mono {p : Prog α} {post post' : α → Flash → Prop} {f : Flash}
    (h : p.Robust post f) (hi : ∀ a f, post a f → post' a f) : p.Robust post' f := by
  induction p generalizing f with
  | done a => exact hi _ _ h
  | call c rest ih => exact fun g => ih (h g)
  | read rest ih => exact ih f h

/-- What holds of every storage holds at the end of every run. -/
theorem Robust.of_forall {p : Prog α} {post : α → Flash → Prop} (h : ∀ a f, post a f) (f : Flash) :
    p.Robust post f := by
  induction p generalizing f with
  | done a => exact h a f
  | call c rest ih => exact fun g => ih (c.leave f g)
  | read rest ih => exact ih f f

theorem Robust.bind {p : Prog α} {k : α → Prog β} {post : β → Flash → Prop} {f : Flash}
    (h : p.Robust (fun a f => (k a).Robust post f) f) : (p >>= k).Robust post f := by
  induction p generalizing f with
  | done a => exact h
  | call c rest ih => exact fun g => ih (h g)
  | read rest ih => exact ih f h

end Prog

/-! ## Power cuts -/

/-- What a cut inside a call may leave: the call, the storage before it and
the storage it leaves. -/
abbrev Tear := Call → Flash → Flash → Prop

/-- The storage a power cut leaves after `n` completed calls. -/
inductive Cut {α : Type} (tear : Tear) : Nat → Prog α → Flash → Flash → Prop where
  | between (p : Prog α) (f : Flash) : Cut tear 0 p f f
  | inside {c : Call} {rest : Prog α} {f f' : Flash} (h : tear c f f') :
      Cut tear 0 (.call c rest) f f'
  | later {n : Nat} {c : Call} {rest : Prog α} {f f' : Flash}
      (h : Cut tear n rest (c.apply f) f') : Cut tear (n + 1) (.call c rest) f f'
  | read {n : Nat} {rest : Flash → Prog α} {f f' : Flash}
      (h : Cut tear n (rest f) f f') : Cut tear n (.read rest) f f'

/-- A cut of the first of two programs is a cut of both in sequence. -/
theorem Cut.bind {α β : Type} {tear : Tear} {n : Nat} {p : Prog α} {f f' : Flash}
    (h : Cut tear n p f f') (k : α → Prog β) : Cut tear n (p >>= k) f f' := by
  induction h with
  | between p f => exact .between _ f
  | inside ht => exact .inside ht
  | later _ ih => exact .later ih
  | read _ ih => exact .read ih

/-- The run ends in `post`, and a cut after `n` calls leaves `crash n`. -/
def Prog.Safe {α : Type} (tear : Tear) :
    Prog α → (α → Flash → Prop) → (Nat → Flash → Prop) → Flash → Prop
  | .done a, post, crash, f => post a f ∧ crash 0 f
  | .call c rest, post, crash, f =>
      crash 0 f ∧ (∀ f', tear c f f' → crash 0 f') ∧
        rest.Safe tear post (fun n => crash (n + 1)) (c.apply f)
  | .read rest, post, crash, f => (rest f).Safe tear post crash f

section
variable {α : Type} {tear : Tear} {p : Prog α} {post : α → Flash → Prop}
  {crash : Nat → Flash → Prop} {f f' : Flash} {n : Nat}

theorem Prog.safe_read {r : Flash → Prog α} :
    (Prog.read r).Safe tear post crash f ↔ (r f).Safe tear post crash f := Iff.rfl

theorem Prog.safe_if_pos {c : Prop} [Decidable c] {q : Prog α} (hc : c)
    (h : p.Safe tear post crash f) : (if c then p else q).Safe tear post crash f := by
  rwa [if_pos hc]

theorem Prog.safe_if_neg {c : Prop} [Decidable c] {q : Prog α} (hc : ¬c)
    (h : q.Safe tear post crash f) : (if c then p else q).Safe tear post crash f := by
  rwa [if_neg hc]

/-- Sequencing, where the condition on a cut does not count the calls. -/
theorem Prog.Safe.bind {β : Type} {k : α → Prog β} {post : β → Flash → Prop}
    {crash : Flash → Prop}
    (h : p.Safe tear (fun a f => (k a).Safe tear post (fun _ => crash) f) (fun _ => crash) f) :
    (p >>= k).Safe tear post (fun _ => crash) f := by
  induction p generalizing f with
  | done a => exact h.1
  | call c rest ih => exact ⟨h.1, h.2.1, ih h.2.2⟩
  | read rest ih => exact ih f h

theorem Prog.Safe.crash_here (h : p.Safe tear post crash f) : crash 0 f := by
  induction p generalizing f with
  | done a => exact h.2
  | call c rest _ => exact h.1
  | read rest ih => exact ih f h

theorem Prog.Safe.mono {post' : α → Flash → Prop} (h : p.Safe tear post crash f)
    (hi : ∀ a f, post a f → post' a f) : p.Safe tear post' crash f := by
  induction p generalizing f crash with
  | done a => exact ⟨hi _ _ h.1, h.2⟩
  | call c rest ih => exact ⟨h.1, h.2.1, ih h.2.2⟩
  | read rest ih => exact ih f h

theorem Prog.Safe.weaken {crash' : Nat → Flash → Prop} (h : p.Safe tear post crash f)
    (hi : ∀ n f, crash n f → crash' n f) : p.Safe tear post crash' f := by
  induction p generalizing f crash crash' with
  | done a => exact ⟨h.1, hi _ _ h.2⟩
  | call c rest ih =>
    exact ⟨hi _ _ h.1, fun f' ht => hi _ _ (h.2.1 f' ht), ih h.2.2 fun n => hi (n + 1)⟩
  | read rest ih => exact ih f h hi

theorem Prog.Safe.run (h : p.Safe tear post crash f) : post (p.run f).1 (p.run f).2 := by
  induction p generalizing f crash with
  | done a => exact h.1
  | call c rest ih => exact ih h.2.2
  | read rest ih => exact ih f h

theorem Prog.Safe.cut (h : p.Safe tear post crash f) (hc : Cut tear n p f f') : crash n f' := by
  induction hc generalizing crash with
  | between p f => exact h.crash_here
  | inside ht => exact h.2.1 _ ht
  | later _ ih => exact ih h.2.2
  | read _ ih => exact ih h

end

end Z80Sbc.Storage
