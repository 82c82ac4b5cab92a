import Z80Sbc.Z80.Memory

/-! # The Z80

The registers, the flags and the instructions that straight-line code is made of.
Port 7 selects the memory bank by its low data bit. Control flow is left to the
program: a routine is a function on `Cpu`, its labels are functions, and `call` and
`ret` go through the stack. -/

namespace Z80Sbc.Z80

/-! ## Flags -/

structure Flags where
  s : Bool
  z : Bool
  y : Bool
  h : Bool
  x : Bool
  p : Bool
  n : Bool
  c : Bool
  deriving DecidableEq

def Flags.toByte (f : Flags) : Byte :=
  BitVec.ofNat 8 (128 * f.s.toNat + 64 * f.z.toNat + 32 * f.y.toNat + 16 * f.h.toNat +
    8 * f.x.toNat + 4 * f.p.toNat + 2 * f.n.toNat + f.c.toNat)

def Flags.ofByte (b : Byte) : Flags :=
  ⟨b[7], b[6], b[5], b[4], b[3], b[2], b[1], b[0]⟩

@[simp] theorem Flags.ofByte_toByte (f : Flags) : Flags.ofByte f.toByte = f := by
  obtain ⟨_ | _, _ | _, _ | _, _ | _, _ | _, _ | _, _ | _, _ | _⟩ := f <;> rfl

@[simp] theorem Flags.toByte_ofByte (b : Byte) : (Flags.ofByte b).toByte = b := by
  revert b
  decide +kernel

/-- The number of set bits is even. -/
def parity (r : Byte) : Bool := ((List.range 8).countP fun i => r.getLsbD i) % 2 = 0

/-- Flags after an addition. -/
def addFlags (x y : Byte) (cin : Bool) : Flags :=
  let r := x + y + (if cin then 1 else 0)
  { s := r.msb, z := r = 0, y := r[5], x := r[3], n := false
    h := 16 ≤ x.toNat % 16 + y.toNat % 16 + cin.toNat
    p := x.msb == y.msb && r.msb != x.msb
    c := 256 ≤ x.toNat + y.toNat + cin.toNat }

/-- Flags after a subtraction. -/
def subFlags (x y : Byte) (cin : Bool) : Flags :=
  let r := x - y - (if cin then 1 else 0)
  { s := r.msb, z := r = 0, y := r[5], x := r[3], n := true
    h := x.toNat % 16 < y.toNat % 16 + cin.toNat
    p := x.msb != y.msb && r.msb != x.msb
    c := x.toNat < y.toNat + cin.toNat }

/-- Flags after a comparison, whose undocumented bits come from the operand. -/
def cpFlags (x y : Byte) : Flags :=
  { subFlags x y false with y := y[5], x := y[3] }

/-- Flags after AND (`half` set), OR and XOR. -/
def logicFlags (r : Byte) (half : Bool) : Flags :=
  { s := r.msb, z := r = 0, y := r[5], x := r[3], h := half, p := parity r
    n := false, c := false }

/-- Flags after an 8-bit increment to `r`; the carry stays. -/
def incFlags (r : Byte) (f : Flags) : Flags :=
  { s := r.msb, z := r = 0, y := r[5], x := r[3], h := r.toNat % 16 = 0
    p := r = 0x80, n := false, c := f.c }

/-- Flags after an 8-bit decrement to `r`; the carry stays. -/
def decFlags (r : Byte) (f : Flags) : Flags :=
  { s := r.msb, z := r = 0, y := r[5], x := r[3], h := r.toNat % 16 = 15
    p := r = 0x7F, n := true, c := f.c }

/-- Flags after ADD HL,rr and its like. -/
def add16Flags (x y : Word) (f : Flags) : Flags :=
  let r := x + y
  { f with
    y := r[13], x := r[11], n := false
    h := 4096 ≤ x.toNat % 4096 + y.toNat % 4096
    c := 65536 ≤ x.toNat + y.toNat }

/-- Flags after SBC HL,rr. -/
def sbc16Flags (x y : Word) (cin : Bool) : Flags :=
  let r := x - y - (if cin then 1 else 0)
  { s := r.msb, z := r = 0, y := r[13], x := r[11], n := true
    h := x.toNat % 4096 < y.toNat % 4096 + cin.toNat
    p := x.msb != y.msb && r.msb != x.msb
    c := x.toNat < y.toNat + cin.toNat }

/-- Flags after RLCA and RRCA. -/
def rotFlags (r : Byte) (carry : Bool) (f : Flags) : Flags :=
  { f with y := r[5], x := r[3], h := false, n := false, c := carry }

/-- Flags after BIT. -/
def bitFlags (n : Nat) (r : Byte) (f : Flags) : Flags :=
  { s := n = 7 && r[7], z := !r.getLsbD n, y := r[5], x := r[3], h := true
    p := !r.getLsbD n, n := false, c := f.c }

section
variable (x y r : Byte) (u v : Word) (cin b : Bool) (f : Flags) (n : Nat)

@[simp] theorem addFlags_c : (addFlags x y cin).c = decide (256 ≤ x.toNat + y.toNat + cin.toNat) :=
  rfl
@[simp] theorem subFlags_c : (subFlags x y cin).c = decide (x.toNat < y.toNat + cin.toNat) := rfl
@[simp] theorem cpFlags_c : (cpFlags x y).c = decide (x.toNat < y.toNat) := rfl
@[simp] theorem cpFlags_z : (cpFlags x y).z = decide (x = y) := by
  show decide (x - y - 0 = 0) = decide (x = y)
  exact decide_eq_decide.mpr ⟨fun h => by bv_omega, fun h => by bv_omega⟩
@[simp] theorem subFlags_z : (subFlags x y false).z = decide (x = y) := cpFlags_z x y
@[simp] theorem logicFlags_c : (logicFlags r b).c = false := rfl
@[simp] theorem logicFlags_z : (logicFlags r b).z = decide (r = 0) := rfl
@[simp] theorem incFlags_c : (incFlags r f).c = f.c := rfl
@[simp] theorem incFlags_z : (incFlags r f).z = decide (r = 0) := rfl
@[simp] theorem decFlags_c : (decFlags r f).c = f.c := rfl
@[simp] theorem decFlags_z : (decFlags r f).z = decide (r = 0) := rfl
@[simp] theorem add16Flags_c : (add16Flags u v f).c = decide (65536 ≤ u.toNat + v.toNat) := rfl
@[simp] theorem add16Flags_z : (add16Flags u v f).z = f.z := rfl
@[simp] theorem add16Flags_p : (add16Flags u v f).p = f.p := rfl
@[simp] theorem sbc16Flags_c : (sbc16Flags u v cin).c = decide (u.toNat < v.toNat + cin.toNat) :=
  rfl
@[simp] theorem sbc16Flags_z : (sbc16Flags u v false).z = decide (u = v) := by
  show decide (u - v - 0 = 0) = decide (u = v)
  exact decide_eq_decide.mpr ⟨fun h => by bv_omega, fun h => by bv_omega⟩
@[simp] theorem rotFlags_c : (rotFlags r b f).c = b := rfl
@[simp] theorem rotFlags_z : (rotFlags r b f).z = f.z := rfl
@[simp] theorem bitFlags_c : (bitFlags n r f).c = f.c := rfl
@[simp] theorem bitFlags_z : (bitFlags n r f).z = !r.getLsbD n := rfl

end

/-! ## The processor -/

/-- The registers (`a2` to `l2` the alternate set), the interrupt enable, the selected
bank and the two banks of memory. The program counter is what `ret` last loaded. -/
structure Cpu where
  a : Byte
  f : Flags
  b : Byte
  c : Byte
  d : Byte
  e : Byte
  h : Byte
  l : Byte
  a2 : Byte
  f2 : Flags
  b2 : Byte
  c2 : Byte
  d2 : Byte
  e2 : Byte
  h2 : Byte
  l2 : Byte
  ix : Word
  iy : Word
  sp : Word
  i : Byte
  iff : Bool
  bank : Bool
  mem : Mem
  pc : Word

/-- The port that selects the bank. -/
def bankPort : Byte := 7

namespace Cpu

def bc (s : Cpu) : Word := word s.b s.c
def de (s : Cpu) : Word := word s.d s.e
def hl (s : Cpu) : Word := word s.h s.l

def rd (s : Cpu) (a : Word) : Byte := s.mem s.bank a
def rd16 (s : Cpu) (a : Word) : Word := fetch16 s.mem s.bank a
def wr (s : Cpu) (a : Word) (v : Byte) : Cpu := { s with mem := store s.mem s.bank a v }
def wr16 (s : Cpu) (a w : Word) : Cpu := { s with mem := store16 s.mem s.bank a w }

def push (s : Cpu) (w : Word) : Cpu :=
  { s with sp := s.sp - 2, mem := store16 s.mem s.bank (s.sp - 2) w }

end Cpu

/-! ## Instructions -/

inductive Reg where
  | a | b | c | d | e | h | l

inductive Pair where
  | bc | de | hl | ix | iy | sp

/-- What PUSH and POP take. -/
inductive StackPair where
  | af | bc | de | hl | ix | iy

/-- An 8-bit operand: a register, a literal, (HL), (IX+d), (nn). -/
inductive Opnd where
  | r (r : Reg)
  | n (v : Byte)
  | hl
  | ix (d : Word)
  | m (addr : Word)

inductive Instr where
  | ld (dst src : Opnd)
  | ldAtDe (src : Reg)
  | ld16 (dst : Pair) (v : Word)
  | ldMem16 (dst : Pair) (addr : Word)
  | stMem16 (addr : Word) (src : Pair)
  | ldSp (src : Pair)
  | push (p : StackPair)
  | pop (p : StackPair)
  | exDeHl | exx | exAf
  | add (src : Opnd) | adc (src : Opnd) | sub (src : Opnd) | sbc (src : Opnd)
  | and (src : Opnd) | or (src : Opnd) | xor (src : Opnd) | cp (src : Opnd)
  | inc (dst : Opnd) | dec (dst : Opnd)
  | add16 (dst src : Pair) | sbc16 (src : Pair)
  | inc16 (p : Pair) | dec16 (p : Pair)
  | rlca | rrca | neg | scf
  | bit (n : Nat) (r : Reg) | set (n : Nat) (r : Reg) | res (n : Nat) (r : Reg)
  | di | ei | ldAI
  | out (port : Byte)
  | ldi | ldir

namespace Cpu

def get (s : Cpu) : Reg → Byte
  | .a => s.a
  | .b => s.b
  | .c => s.c
  | .d => s.d
  | .e => s.e
  | .h => s.h
  | .l => s.l

def put (s : Cpu) (r : Reg) (v : Byte) : Cpu :=
  match r with
  | .a => { s with a := v }
  | .b => { s with b := v }
  | .c => { s with c := v }
  | .d => { s with d := v }
  | .e => { s with e := v }
  | .h => { s with h := v }
  | .l => { s with l := v }

def get16 (s : Cpu) : Pair → Word
  | .bc => s.bc
  | .de => s.de
  | .hl => s.hl
  | .ix => s.ix
  | .iy => s.iy
  | .sp => s.sp

def put16 (s : Cpu) (p : Pair) (v : Word) : Cpu :=
  match p with
  | .bc => { s with b := hi v, c := lo v }
  | .de => { s with d := hi v, e := lo v }
  | .hl => { s with h := hi v, l := lo v }
  | .ix => { s with ix := v }
  | .iy => { s with iy := v }
  | .sp => { s with sp := v }

def getStack (s : Cpu) : StackPair → Word
  | .af => word s.a s.f.toByte
  | .bc => s.bc
  | .de => s.de
  | .hl => s.hl
  | .ix => s.ix
  | .iy => s.iy

def putStack (s : Cpu) (p : StackPair) (v : Word) : Cpu :=
  match p with
  | .af => { s with a := hi v, f := .ofByte (lo v) }
  | .bc => s.put16 .bc v
  | .de => s.put16 .de v
  | .hl => s.put16 .hl v
  | .ix => s.put16 .ix v
  | .iy => s.put16 .iy v

def load (s : Cpu) : Opnd → Byte
  | .r r => s.get r
  | .n v => v
  | .hl => s.rd s.hl
  | .ix d => s.rd (s.ix + d)
  | .m addr => s.rd addr

def save (s : Cpu) (o : Opnd) (v : Byte) : Cpu :=
  match o with
  | .r r => s.put r v
  | .n _ => s
  | .hl => s.wr s.hl v
  | .ix d => s.wr (s.ix + d) v
  | .m addr => s.wr addr v

/-- One round of LDI and LDIR: (DE) := (HL). -/
def moveByte (s : Cpu) : Cpu :=
  (((s.wr s.de (s.rd s.hl)).put16 .hl (s.hl + 1)).put16 .de (s.de + 1)).put16 .bc (s.bc - 1)

def moveBytes : Nat → Cpu → Cpu
  | 0, s => s
  | n + 1, s => moveBytes n s.moveByte

/-- H and N are cleared, P/V tells whether BC is left; S, Z and the carry stay. -/
def moveFlags (s : Cpu) : Cpu :=
  { s with f := { s.f with h := false, n := false, p := s.bc ≠ 0 } }

end Cpu

open Cpu in
/-- One instruction. -/
def Instr.step (s : Cpu) : Instr → Cpu
  | ld dst src => s.save dst (s.load src)
  | ldAtDe src => s.wr s.de (s.get src)
  | ld16 dst v => s.put16 dst v
  | ldMem16 dst addr => s.put16 dst (s.rd16 addr)
  | stMem16 addr src => s.wr16 addr (s.get16 src)
  | ldSp src => { s with sp := s.get16 src }
  | push p => s.push (s.getStack p)
  | pop p => { s with sp := s.sp + 2 }.putStack p (s.rd16 s.sp)
  | exDeHl => { s with d := s.h, e := s.l, h := s.d, l := s.e }
  | exx =>
    { s with
      b := s.b2, c := s.c2, d := s.d2, e := s.e2, h := s.h2, l := s.l2
      b2 := s.b, c2 := s.c, d2 := s.d, e2 := s.e, h2 := s.h, l2 := s.l }
  | exAf => { s with a := s.a2, f := s.f2, a2 := s.a, f2 := s.f }
  | add src => { s with a := s.a + s.load src, f := addFlags s.a (s.load src) false }
  | adc src =>
    { s with
      a := s.a + s.load src + (if s.f.c then 1 else 0), f := addFlags s.a (s.load src) s.f.c }
  | sub src => { s with a := s.a - s.load src, f := subFlags s.a (s.load src) false }
  | sbc src =>
    { s with
      a := s.a - s.load src - (if s.f.c then 1 else 0), f := subFlags s.a (s.load src) s.f.c }
  | and src => { s with a := s.a &&& s.load src, f := logicFlags (s.a &&& s.load src) true }
  | or src => { s with a := s.a ||| s.load src, f := logicFlags (s.a ||| s.load src) false }
  | xor src => { s with a := s.a ^^^ s.load src, f := logicFlags (s.a ^^^ s.load src) false }
  | cp src => { s with f := cpFlags s.a (s.load src) }
  | inc dst => { s.save dst (s.load dst + 1) with f := incFlags (s.load dst + 1) s.f }
  | dec dst => { s.save dst (s.load dst - 1) with f := decFlags (s.load dst - 1) s.f }
  | add16 dst src =>
    { s.put16 dst (s.get16 dst + s.get16 src) with
      f := add16Flags (s.get16 dst) (s.get16 src) s.f }
  | sbc16 src =>
    { s.put16 .hl (s.hl - s.get16 src - (if s.f.c then 1 else 0)) with
      f := sbc16Flags s.hl (s.get16 src) s.f.c }
  | inc16 p => s.put16 p (s.get16 p + 1)
  | dec16 p => s.put16 p (s.get16 p - 1)
  | rlca => { s with a := s.a.rotateLeft 1, f := rotFlags (s.a.rotateLeft 1) s.a.msb s.f }
  | rrca =>
    { s with a := s.a.rotateRight 1, f := rotFlags (s.a.rotateRight 1) s.a[0] s.f }
  | neg => { s with a := -s.a, f := subFlags 0 s.a false }
  | scf => { s with f := { s.f with y := s.a[5], x := s.a[3], h := false, n := false, c := true } }
  | bit n r => { s with f := bitFlags n (s.get r) s.f }
  | set n r => s.put r (s.get r ||| BitVec.twoPow 8 n)
  | res n r => s.put r (s.get r &&& ~~~BitVec.twoPow 8 n)
  | di => { s with iff := false }
  | ei => { s with iff := true }
  | ldAI =>
    { s with
      a := s.i
      f := { s := s.i.msb, z := s.i = 0, y := s.i[5], x := s.i[3], h := false,
             p := s.iff, n := false, c := s.f.c } }
  | out port => if port = bankPort then { s with bank := s.a[0] } else s
  | ldi => s.moveByte.moveFlags
  | ldir => (moveBytes (if s.bc = 0 then 65536 else s.bc.toNat) s).moveFlags

/-- Straight-line code. -/
def Cpu.exec (s : Cpu) (code : List Instr) : Cpu := code.foldl Instr.step s

@[simp] theorem Cpu.exec_nil (s : Cpu) : s.exec [] = s := rfl

@[simp] theorem Cpu.exec_cons (s : Cpu) (i : Instr) (code : List Instr) :
    s.exec (i :: code) = (i.step s).exec code := rfl

theorem Cpu.exec_append (s : Cpu) (code code' : List Instr) :
    s.exec (code ++ code') = (s.exec code).exec code' := List.foldl_append

-- the simp set that runs straight-line code
attribute [simp] Instr.step Cpu.get Cpu.put Cpu.get16 Cpu.put16 Cpu.getStack Cpu.putStack Cpu.load
  Cpu.save Cpu.push Cpu.rd Cpu.rd16 Cpu.wr Cpu.wr16 Cpu.bc Cpu.de Cpu.hl bankPort

/-! ## Subroutines -/

def Cpu.ret (s : Cpu) : Cpu := { s with pc := s.rd16 s.sp, sp := s.sp + 2 }

/-- Call a routine from the instruction before address `ra`; none when it does not
come back there. -/
def Cpu.call (s : Cpu) (ra : Word) (routine : Cpu → Option Cpu) : Option Cpu :=
  match routine (s.push ra) with
  | none => none
  | some s' => if s'.pc = ra then some s' else none

theorem Cpu.call_eq_some {s s' : Cpu} {ra : Word} {routine : Cpu → Option Cpu}
    (h : routine (s.push ra) = some s') (hpc : s'.pc = ra) : s.call ra routine = some s' := by
  simp only [call, h, if_pos hpc]

end Z80Sbc.Z80
