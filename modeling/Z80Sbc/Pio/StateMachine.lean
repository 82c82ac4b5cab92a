import Mathlib.Tactic.Common

/-! # Programmable I/O

A state machine runs a program of a few instructions, one a cycle: jumps on a condition, waits,
shifts between its registers and the pins, FIFO transfers, flags. An instruction that has to
wait stalls and is tried again the next cycle; its side-set takes effect at once, and its delay
begins when it is done. What the pins, flags and FIFOs are is in a `Wiring`. -/

namespace Z80Sbc.Pio

abbrev Word := BitVec 32

inductive Condition where
  | always
  | xZero
  | xDec
  | xNotY
  | pin

inductive Source where
  | pins
  | null
  | y

inductive OutTo where
  | pins
  | pindirs
  | x
  | null

inductive MovTo where
  | osr
  | isr
  | y

inductive SetTo where
  | pins
  | pindirs
  | x
  | y

inductive Instr where
  | jmp (condition : Condition) (target : Nat)
  | waitGpio (level : Bool) (pin : Nat)
  | waitIrq (level : Bool) (flag : Nat)
  | inp (source : Source) (count : Nat)
  | out (dest : OutTo) (count : Nat)
  | push
  | pull
  | mov (dest : MovTo) (source : Source)
  | irq (level : Bool) (flag : Nat)
  | set (dest : SetTo) (data : Nat)

/-- `mov y, y` -/
def nop : Instr := .mov .y .y

structure Slot where
  instr : Instr
  side : Option Bool := none
  delay : Nat := 0

/-- A program, with the registers that configure its state machine. -/
structure Program where
  slots : List Slot
  wrapTarget : Nat
  wrap : Nat
  outRight : Bool
  inRight : Bool
  autopush : Option Nat

structure Sm where
  pc : Nat
  delay : Nat
  x : Word
  y : Word
  osr : Word
  isr : Word
  isrCount : Nat

def Sm.at (pc : Nat) : Sm := ⟨pc, 0, 0, 0, 0, 0, 0⟩

/-- What a state machine is wired to. -/
structure Wiring (ω : Type) where
  gpio : Nat → ω → Bool
  jmpPin : ω → Bool
  inPins : ω → Word
  outPins : Word → ω → ω
  outPindirs : Word → ω → ω
  setPins : Nat → ω → ω
  setPindirs : Nat → ω → ω
  sideSet : Bool → ω → ω
  flag : Nat → ω → Bool
  putFlag : Nat → Bool → ω → ω
  /-- Nothing when the FIFO is full. -/
  push : Word → ω → Option ω
  /-- Nothing when the FIFO is empty. -/
  pull : ω → Option (Word × ω)

/-! ## The shift registers -/

/-- The low `count` bits. -/
def low (count : Nat) (w : Word) : Word := (w.setWidth count).setWidth 32

/-- The word that the levels of 32 inputs make up. -/
def pinWord (levels : Nat → Bool) : Word :=
  (BitVec.iunfoldr (fun i u => (u, levels i.val)) ()).2

/-- The bits that leave the output register, and what stays in it. -/
def shiftOut (right : Bool) (count : Nat) (osr : Word) : Word × Word :=
  if right then (low count osr, osr >>> count) else (osr >>> (32 - count), osr <<< count)

def shiftIn (right : Bool) (count : Nat) (data isr : Word) : Word :=
  if right then (isr >>> count) ||| (data <<< (32 - count)) else (isr <<< count) ||| low count data

/-! ## One cycle -/

section
variable {ω : Type} (w : Wiring ω) (p : Program)

def Sm.holds (s : Sm) (e : ω) : Condition → Bool
  | .always => true
  | .xZero => s.x == 0
  | .xDec => s.x != 0
  | .xNotY => s.x != s.y
  | .pin => w.jmpPin e

def Sm.read (s : Sm) (e : ω) : Source → Word
  | .pins => w.inPins e
  | .null => 0
  | .y => s.y

/-- The instruction after the one at `pc`. -/
def Program.next (pc : Nat) : Nat := if pc = p.wrap then p.wrapTarget else pc + 1

def Sm.jump (s : Sm) (e : ω) (condition : Condition) (target : Nat) : Sm :=
  let taken := s.holds w e condition
  let s := match condition with
    | .xDec => { s with x := s.x - 1 }
    | _ => s
  { s with pc := if taken then target else p.next s.pc }

/-- An automatic push happens when enough bits came in. -/
def Sm.shifted (s : Sm) (data : Word) (count : Nat) (e : ω) : Option (Sm × ω) :=
  let isr := shiftIn p.inRight count data s.isr
  let isrCount := min 32 (s.isrCount + count)
  if p.autopush.any fun threshold => decide (threshold ≤ isrCount) then
    (w.push isr e).map fun e => ({ s with isr := 0, isrCount := 0 }, e)
  else some ({ s with isr := isr, isrCount := isrCount }, e)

def Sm.emit (s : Sm) (dest : OutTo) (count : Nat) (e : ω) : Sm × ω :=
  let (value, osr) := shiftOut p.outRight count s.osr
  let s := { s with osr := osr }
  match dest with
  | .pins => (s, w.outPins value e)
  | .pindirs => (s, w.outPindirs value e)
  | .x => ({ s with x := value }, e)
  | .null => (s, e)

/-- An instruction is done, or stalls. -/
def Sm.exec (s : Sm) (e : ω) : Instr → Option (Sm × ω)
  | .jmp condition target => some (s.jump w p e condition target, e)
  | .waitGpio level pin =>
    if w.gpio pin e = level then some ({ s with pc := p.next s.pc }, e) else none
  | .waitIrq level flag =>
    if w.flag flag e = level then
      some ({ s with pc := p.next s.pc }, if level then w.putFlag flag false e else e)
    else none
  | .inp source count => (s.shifted w p (s.read w e source) count e).map fun (s, e) =>
    ({ s with pc := p.next s.pc }, e)
  | .out dest count =>
    let (s, e) := s.emit w p dest count e
    some ({ s with pc := p.next s.pc }, e)
  | .push => (w.push s.isr e).map fun e => ({ s with pc := p.next s.pc, isr := 0, isrCount := 0 }, e)
  | .pull => (w.pull e).map fun (word, e) => ({ s with pc := p.next s.pc, osr := word }, e)
  | .mov dest source =>
    let value := s.read w e source
    let s := { s with pc := p.next s.pc }
    some (match dest with
      | .osr => { s with osr := value }
      | .isr => { s with isr := value, isrCount := 0 }
      | .y => { s with y := value }, e)
  | .irq level flag => some ({ s with pc := p.next s.pc }, w.putFlag flag level e)
  | .set dest data =>
    let s := { s with pc := p.next s.pc }
    some (match dest with
      | .pins => (s, w.setPins data e)
      | .pindirs => (s, w.setPindirs data e)
      | .x => ({ s with x := BitVec.ofNat 32 data }, e)
      | .y => ({ s with y := BitVec.ofNat 32 data }, e))

/-- The side-set comes last, for it wins over an OUT or a SET of the same pin. -/
def Slot.sideSet (slot : Slot) (e : ω) : ω :=
  match slot.side with
  | some level => w.sideSet level e
  | none => e

/-- One cycle of a state machine. -/
def Sm.cycle (s : Sm) (e : ω) : Sm × ω :=
  if s.delay ≠ 0 then ({ s with delay := s.delay - 1 }, e)
  else
    match p.slots[s.pc]? with
    | none => (s, e)
    | some slot =>
      match s.exec w p e slot.instr with
      | none => (s, slot.sideSet w e)
      | some (s, e) => ({ s with delay := slot.delay }, slot.sideSet w e)

end

/-! ## Lemmas -/

section
variable {ω : Type} {w : Wiring ω} {p : Program} {s : Sm} {e : ω}

theorem Sm.cycle_delay {n : Nat} (h : s.delay = n + 1) :
    s.cycle w p e = ({ s with delay := n }, e) := by
  simp [Sm.cycle, h]

theorem Sm.cycle_stall {slot : Slot} (hdelay : s.delay = 0) (hpc : p.slots[s.pc]? = some slot)
    (h : s.exec w p e slot.instr = none) : s.cycle w p e = (s, slot.sideSet w e) := by
  simp [Sm.cycle, hdelay, hpc, h]

section
variable {α : Type} {f : ω → α}

/-- `f` does not see what an instruction may change. -/
def Wiring.Keeps (w : Wiring ω) (f : ω → α) : Instr → Prop
  | .out .pins _ => ∀ v e, f (w.outPins v e) = f e
  | .out .pindirs _ => ∀ v e, f (w.outPindirs v e) = f e
  | .set .pins _ => ∀ n e, f (w.setPins n e) = f e
  | .set .pindirs _ => ∀ n e, f (w.setPindirs n e) = f e
  | .irq _ _ | .waitIrq _ _ => ∀ n level e, f (w.putFlag n level e) = f e
  | .inp _ _ | .push => ∀ v e e', w.push v e = some e' → f e' = f e
  | .pull => ∀ e v e', w.pull e = some (v, e') → f e' = f e
  | _ => True

def Wiring.KeepsSlot (w : Wiring ω) (f : ω → α) (slot : Slot) : Prop :=
  w.Keeps f slot.instr ∧ (slot.side = none ∨ ∀ level e, f (w.sideSet level e) = f e)

theorem Sm.exec_keeps {instr : Instr} (h : w.Keeps f instr) {s' : Sm} {e' : ω}
    (hexec : s.exec w p e instr = some (s', e')) : f e' = f e := by
  cases instr with
  | jmp => simp [Sm.exec] at hexec; simp [← hexec.2]
  | waitGpio => simp [Sm.exec] at hexec; simp [← hexec.2.2]
  | waitIrq level =>
    simp [Sm.exec] at hexec
    cases level
    · simp [← hexec.2.2]
    · simpa [← hexec.2.2] using h _ _ _
  | inp source count =>
    simp only [Sm.exec, Option.map_eq_some_iff, Sm.shifted] at hexec
    obtain ⟨⟨s1, e1⟩, hshift, heq⟩ := hexec
    simp at heq
    split at hshift
    · simp at hshift
      simpa [← heq.2] using h _ _ _ hshift.1
    · simp at hshift
      simp [← heq.2, hshift.2]
  | out dest =>
    cases dest <;> simp [Sm.exec, Sm.emit] at hexec
    · simpa [← hexec.2] using h _ _
    · simpa [← hexec.2] using h _ _
    · simp [hexec.2]
    · simp [hexec.2]
  | push =>
    simp [Sm.exec] at hexec
    exact h _ _ _ hexec.1
  | pull =>
    simp [Sm.exec] at hexec
    obtain ⟨v, hpull⟩ := hexec
    exact h _ _ _ hpull.1
  | mov dest => cases dest <;> simp [Sm.exec] at hexec <;> simp [← hexec.2]
  | irq =>
    simp [Sm.exec] at hexec
    simpa [← hexec.2] using h _ _ _
  | set dest =>
    cases dest <;> simp [Sm.exec] at hexec
    · simpa [← hexec.2] using h _ _
    · simpa [← hexec.2] using h _ _
    · simp [hexec.2]
    · simp [hexec.2]

theorem Slot.sideSet_keeps {slot : Slot} (h : w.KeepsSlot f slot) :
    f (slot.sideSet w e) = f e := by
  cases hside : slot.side with
  | none => simp [Slot.sideSet, hside]
  | some level => simp [Slot.sideSet, hside, h.2.resolve_left (by simp [hside])]

/-- The frame rule: a cycle keeps what its instruction and side-set keep. -/
theorem Sm.cycle_keeps (h : ∀ slot, p.slots[s.pc]? = some slot → w.KeepsSlot f slot) :
    f (s.cycle w p e).2 = f e := by
  simp only [Sm.cycle]
  split
  · rfl
  split
  · rfl
  rename_i slot hslot
  split
  · exact Slot.sideSet_keeps (h slot hslot)
  · rename_i hexec
    simp [Slot.sideSet_keeps (h slot hslot), Sm.exec_keeps (h slot hslot).1 hexec]

end

/-! ### Bits of a shifted word -/

theorem getLsbD_pinWord {levels : Nat → Bool} {i : Nat} (h : i < 32) :
    (pinWord levels).getLsbD i = levels i :=
  BitVec.iunfoldr_getLsbD (fun _ => ()) ⟨i, h⟩ fun _ => rfl

theorem getLsbD_low {count i : Nat} {v : Word} :
    (low count v).getLsbD i = (decide (i < count ∧ i < 32) && v.getLsbD i) := by
  by_cases hc : i < count
  · by_cases hi : i < 32
    · simp [low, hc, hi]
    · simp [low, hi]
  · simp [low, hc]

theorem getElem_low {count i : Nat} {v : Word} (h : i < 32) :
    (low count v)[i] = (decide (i < count) && v[i]) := by
  have hbit : (low count v).getLsbD i = (decide (i < count ∧ i < 32) && v.getLsbD i) :=
    getLsbD_low
  simpa [h] using hbit

theorem low_ushiftRight {count n : Nat} {v : Word} (h : count ≤ n) : low count v >>> n = 0 := by
  ext i hi
  simp [getLsbD_low]
  omega

/-- A whole word replaces what was in the input register. -/
theorem shiftIn_word {data isr : Word} : shiftIn true 32 data isr = data := by
  have h : isr >>> 32 = 0 := by
    ext i hi
    simp
  simp [shiftIn, h]

end

end Z80Sbc.Pio
