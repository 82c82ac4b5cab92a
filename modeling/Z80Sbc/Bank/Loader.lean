import Z80Sbc.Bank.Machine

/-! # The library loader

`bank1_library_loader.asm`, the code at E000h. Each label of the source is a function here;
the carry of a check is its result, true when it rejects. The loop over the records of the
file is bounded, and gives none where it would run further.

`written` is not in the source. It keeps the ranges that the image copy, the runtime words
and the BSS clearing write. -/

namespace Z80Sbc.Bank.Loader
open Z80Sbc.Z80

/-! ## Work cells -/

def action : Word := 0xE4D0
def status : Word := 0xE4D1
def exportCount : Word := 0xE4D2
def imageBytes : Word := 0xE4D4
def exportTable : Word := 0xE300
def libraryFcb : Word := 0xE500

def imageLength : Word := 0xDE92
def headerLength : Word := 0xDE94
def destination : Word := 0xDE96
def remaining : Word := 0xDE98
def source : Word := 0xDE9A
def count : Word := 0xDE9C
/-- The word that keeps the DMA pointer of the caller. -/
def callerDma : Word := 0xDE9E
def ready : Word := 0xDE9F
def brkAddress : Word := 0xDEA0
def hlimitAddress : Word := 0xDEA2
def brkOffset : Word := 0xDEA4
def hlimitOffset : Word := 0xDEA6
def bdosReady : Word := 0xDEA9
def stackBytes : Word := 0xDEAB
def heapBase : Word := 0xDEAD

structure State (δ : Type) extends Machine δ where
  written : List (Word × Nat)

variable {δ : Type}

/-- A store to a work cell. -/
def State.store (s : State δ) (a : Word) (v : Byte) : State δ := { s with mem := poke s.mem a v }

def State.store16 (s : State δ) (a w : Word) : State δ := { s with mem := poke16 s.mem a w }

def State.get (s : State δ) (a : Word) : Byte := peek s.mem a
def State.get16 (s : State δ) (a : Word) : Word := peek16 s.mem a

def State.useDma (s : State δ) (address : Word) : State δ :=
  { s with toMachine := s.toMachine.useDma address }

/-- CALL 0005h, with A as its result. -/
def State.call (bdos : Bdos δ) (s : State δ) (function : Byte) (de : Word) : Byte × State δ :=
  let (r, machine) := bdos function de s.toMachine
  (r.a, { s with toMachine := machine })

/-! ## validate_header -/

/-- Magic, format 1, ABI 1.0, call revision 1 and origin 0100h. -/
def magic : List Byte := [0x42, 0x31, 0x4C, 0x42, 1, 1, 0, 1, 0, 1]

/-- `match`: the bytes from `a` on are those of the list. -/
def matching (m : Mem) : Word → List Byte → Bool
  | _, [] => true
  | a, v :: vs => if v = peek m a then matching m (a + 1) vs else false

def validateOffset (m : Mem) (a : Word) : Bool :=
  let de := peek16 m a
  let hl := peek16 m imageLength
  decide (hl < de) || hl == de

/-- `validate_exports`, for the `n` entries whose offsets are from `a` on. -/
def validateExports (m : Mem) : Nat → Word → Bool
  | 0, _ => false
  | n + 1, a =>
    if validateOffset m a then true
    else if validateOffset m (a + 2) then true
    else validateExports m n (a + 12)

/-- From the test of the heap base on. -/
def validateHeap (s : State δ) : Bool × State δ :=
  let de := s.get16 imageLength + 0x0100
  let hl := s.get16 0xE418
  if hl < de then (true, s)
  else
    let s := s.store16 heapBase hl
    let hl := 0xC800 - s.get16 stackBytes
    let de := s.get16 heapBase
    if hl < de ∨ hl = de then (true, s)
    else (validateExports s.mem (s.get 0xE40C).toNat 0xE422, s)

/-- From the test of the header length on; `b` is the length that the exports need. -/
def validateLengths (b : Byte) (s : State δ) : Bool × State δ :=
  let hl := s.get16 0xE412
  if hi hl ≠ 0 ∨ lo hl ≠ b then (true, s)
  else
    let s := s.store16 headerLength hl
    let s := s.store16 brkOffset (s.get16 0xE414)
    let s := s.store16 hlimitOffset (s.get16 0xE416)
    let hl := s.get16 0xE410
    if lo hl ≠ 0 ∨ hi hl = 0 ∨ 9 ≤ hi hl then (true, s)
    else validateHeap (s.store16 stackBytes hl)

def validateHeader (s : State δ) : Bool × State δ :=
  if !matching s.mem dmaBuffer magic then (true, s)
  else
    let hl := s.get16 0xE40A
    if hl = 0 ∨ 0xC600 ≤ hl then (true, s)
    else
      let s := ((s.store16 imageLength hl).store16 imageBytes hl).store16 remaining hl
      if s.get 0xE40D ≠ 0 ∨ s.get 0xE40C = 0 ∨ 9 ≤ s.get 0xE40C then (true, s)
      else
        let a := s.get 0xE40C
        let s := s.store exportCount a
        let a := a + a
        let a := a + a
        let c := a
        let a := a + a
        let a := a + c
        validateLengths (a + 26) s

/-! ## copy_chunk -/

def copyChunk (s : State δ) : State δ :=
  let bc := 0xE480 - s.get16 source
  let bc := if s.get16 remaining < bc then s.get16 remaining else bc
  let s := s.store16 count bc
  let de := s.get16 destination
  let s :=
    { s with
      mem := ldir s.mem (s.get16 source) de (rounds bc)
      written := s.written ++ [(de, rounds bc)] }
  let s := s.store16 destination (de + bc)
  s.store16 remaining (s.get16 remaining - s.get16 count)

/-! ## initialize_runtime -/

/-- `valid_runtime_offset`: carry, for a word that is inside the image. -/
def validRuntimeOffset (m : Mem) (hl : Word) : Bool :=
  if hi hl &&& lo hl = 0xFF then false else decide (hl + 1 < peek16 m imageLength)

/-- Store one of the runtime words. -/
def State.storeRuntime (s : State δ) (a w : Word) : State δ :=
  { s.store16 a w with written := s.written ++ [(a, 2)] }

/-- `zero_bss`, `n` rounds of it. -/
def zeroBss (m : Mem) (hl : Word) : Nat → Mem
  | 0 => m
  | n + 1 => zeroBss (poke m hl 0) (hl + 1) n

def runtimePresent (s : State δ) : Bool × State δ :=
  let hl := s.get16 brkOffset
  if !validRuntimeOffset s.mem hl then (true, s)
  else
    let s := s.store16 brkAddress (hl + 0x0100)
    let hl := s.get16 hlimitOffset
    if !validRuntimeOffset s.mem hl then (true, s)
    else
      let s := s.store16 hlimitAddress (hl + 0x0100)
      let s := s.storeRuntime (s.get16 brkAddress) (s.get16 heapBase)
      let s := s.storeRuntime (s.get16 hlimitAddress) (0xC800 - s.get16 stackBytes)
      let de := s.get16 imageLength + 0x0100
      let bc := s.get16 heapBase - de
      (false,
        { s with
          mem := zeroBss s.mem de bc.toNat
          written := s.written ++ [(de, bc.toNat)] })

def initializeRuntime (s : State δ) : Bool × State δ :=
  let hl := s.get16 brkOffset
  if hi hl ≠ 0xFF then runtimePresent s
  else if lo hl ≠ 0xFF then (true, s)
  else
    let hl := s.get16 hlimitOffset
    (!(hi hl &&& lo hl == 0xFF), s)

/-! ## load_module -/

/-- `restore_dma`, with the status in HL. -/
def restoreDma (s : State δ) : Word × State δ :=
  let s := s.useDma (s.get16 callerDma)
  (word 0 (s.get status), s)

def closeFile (bdos : Bdos δ) (s : State δ) : Word × State δ := restoreDma (s.call bdos 16 libraryFcb).2

def badHeader (bdos : Bdos δ) (s : State δ) : Word × State δ := closeFile bdos (s.store status 2)

def imageLoaded (bdos : Bdos δ) (s : State δ) : Word × State δ :=
  let (carry, s) := initializeRuntime s
  if carry then badHeader bdos s
  else closeFile bdos ((s.store status 0).store ready 1)

/-- `read_more`; the first argument bounds the number of records. -/
def readMore (bdos : Bdos δ) : Nat → State δ → Option (Word × State δ)
  | 0, _ => none
  | n + 1, s =>
    if s.get16 remaining = 0 then some (imageLoaded bdos s)
    else
      let (a, s) := s.call bdos 20 libraryFcb
      if a ≠ 0 then some (closeFile bdos s)
      else readMore bdos n (copyChunk (s.store16 source dmaBuffer))

/-- The header is valid: the export table and the first part of the image. -/
def copyFirst (s : State δ) : State δ :=
  let bc := s.get16 headerLength - 26
  let s := { s with mem := ldir s.mem 0xE41A exportTable (rounds bc) }
  let s := s.store16 source (s.get16 headerLength + dmaBuffer)
  copyChunk (s.store16 destination 0x0100)

/-- The file is open. -/
def readFirst (bdos : Bdos δ) (fuel : Nat) (s : State δ) : Option (Word × State δ) :=
  let (a, s) := s.call bdos 20 libraryFcb
  if a ≠ 0 then some (closeFile bdos s)
  else
    let (carry, s) := validateHeader s
    if carry then some (badHeader bdos s) else readMore bdos fuel (copyFirst s)

/-- `bdos_ready` -/
def openFile (bdos : Bdos δ) (fuel : Nat) (s : State δ) : Option (Word × State δ) :=
  let s := s.store16 callerDma (s.get16 dmaPointer)
  let s := s.useDma dmaBuffer
  let (a, s) := s.call bdos 15 libraryFcb
  if a + 1 = 0 then some (restoreDma s) else readFirst bdos fuel s

/-- `load_module`; a reset of the disks is called with the DE of the caller. -/
def loadModule (bdos : Bdos δ) (fuel : Nat) (de : Word) (s : State δ) : Option (Word × State δ) :=
  let s := (s.store ready 0).store status 1
  if s.get bdosReady ≠ 0 then openFile bdos fuel s
  else openFile bdos fuel ((s.call bdos 13 de).2.store bdosReady 1)

def loader (bdos : Bdos δ) (fuel : Nat) (de : Word) (s : State δ) : Option (Word × State δ) :=
  if s.get action = 0 then loadModule bdos fuel de s
  else some (0, (s.store ready 0).store status 0)

end Z80Sbc.Bank.Loader
