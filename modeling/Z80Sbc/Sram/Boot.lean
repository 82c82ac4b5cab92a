import Z80Sbc.Sram.Loader

/-! # Boot

Loading, verifying and testing the SRAM, and the preparation of the second bank. What these
say of the SRAM holds of any memory, also of one with a fault. -/

namespace Z80Sbc.Sram
open Z80Sbc.Z80 (Byte Word word lo hi)
open Z80Sbc.Storage.March

section
variable {σ : Type} (ram : Ram σ Place Byte) (floating : Byte)

/-! ## Load, verify and tests -/

/-- The bytes of an image with their addresses. -/
def image (address : Word) (data : List Byte) : List (Word × Byte) :=
  data.zipIdx.map fun (value, index) => (address + BitVec.ofNat 16 index, value)

def writes (bytes : List (Word × Byte)) : List (Word × Op Byte) :=
  bytes.map fun (address, value) => (address, .write value)

def reads (bytes : List (Word × Byte)) : List (Word × Op Byte) :=
  bytes.map fun (address, value) => (address, .read value)

/-- The loop's first difference is reported; a loop without one leaves the buses isolated. -/
def concluded : Option Report × Board σ → Bool × Board σ
  | (some report, b) =>
    (false, Board.isolateBuses { b with failures := b.failures ++ [report] })
  | (none, b) => (true, b.isolateBuses)

def sramLoad (address : Word) (data : List Byte) (b : Board σ) : Bool × Board σ :=
  if data.length > 65536 - address.toNat then (false, b)
  else concluded (steps ram floating (writes (image address data)) b)

def sramVerify (address : Word) (data : List Byte) (b : Board σ) : Bool × Board σ :=
  if data.length > 65536 - address.toNat then (false, b)
  else concluded (steps ram floating (reads (image address data)) b)

def addresses : List Word := (List.range 65536).map (BitVec.ofNat 16)

def pattern (complement : Bool) (address : Word) : Byte :=
  let expected := lo address ^^^ hi address
  if complement then ~~~expected else expected

def patternTest (complement : Bool) (b : Board σ) : Bool × Board σ :=
  let bytes := addresses.map fun address => (address, pattern complement address)
  concluded (steps ram floating (writes bytes ++ reads bytes) b)

/-- The six loops of the test. -/
def marchTest (b : Board σ) : Bool × Board σ :=
  concluded (steps ram floating (march addresses (marchCMinus 0x00 0xFF)) b)

/-! ## The Z80 held and loaded -/

def cpuFailClosed (b : Board σ) : Board σ :=
  (b.isolateBuses.putResetN false).putBootReadDisable true

/-- BUSACK# and IORQ# are read from outside. -/
def cpuPrepareLoader (busackN iorqN : Bool) (b : Board σ) : Bool × Board σ :=
  let b := cpuFailClosed { b with available := false }
  let b := resetWithClockCycles ram floating 3 b
  if busackN && iorqN && b.rdN && b.wrN then (true, prepareLoader ram floating b) else (false, b)

def cpuLoadAndVerify (busackN iorqN : Bool) (data : List Byte) (b : Board σ) : Bool × Board σ :=
  if data.length = 0 ∨ data.length > 65536 then (false, b)
  else
    match cpuPrepareLoader ram floating busackN iorqN b with
    | (false, b) => (false, b)
    | (true, b) =>
      match sramLoad ram floating 0 data b with
      | (false, b) => (false, cpuFailClosed b)
      | (true, b) =>
        match sramVerify ram floating 0 data b with
        | (false, b) => (false, cpuFailClosed b)
        | (true, b) => (true, b)

/-! ## The second bank -/

/-- The code that is copied to the second bank. -/
structure Residents where
  service : Nat → Byte
  resident : Nat → Byte
  bdos : Nat → Byte

/-- `BANK_RUNTIME_BYTES` and `BANK_LOAD_BYTES`. -/
def bankRuntimeBytes : Nat := 0x100

def bankLoadBytes : Nat := bankRuntimeBytes + 0x2200

def bankLoadAddress (offset : Nat) : Word :=
  if offset < bankRuntimeBytes then BitVec.ofNat 16 offset
  else BitVec.ofNat 16 (0xDE00 + offset - bankRuntimeBytes)

def bankLoadValue (code : Residents) (offset : Nat) (base : Nat → Byte) : Byte :=
  if offset < bankRuntimeBytes then
    match offset with
    | 0 | 5 => 0xC3
    | 1 => 0x40
    | 2 => 0xFB
    | 6 => 0x06
    | 7 => 0xEE
    | _ => 0
  else
    let address := 0xDE00 + offset - bankRuntimeBytes
    if address < 0xE600 then code.service (address - 0xDE00)
    else if address < 0xEE00 then code.resident (address - 0xE600)
    else if address < 0xFB40 then code.bdos (address - 0xEE00)
    else if address = 0xFC03 then 0xC3
    else if address = 0xFC04 then 0x40
    else if address = 0xFC05 then 0xFB
    else base address

def bankImage (code : Residents) (base : Nat → Byte) : List (Word × Byte) :=
  (List.range bankLoadBytes).map fun offset =>
    (bankLoadAddress offset, bankLoadValue code offset base)

/-- Loads and verifies the second bank; a difference only turns it off. -/
def finishBank (bytes : List (Word × Byte)) (b : Board σ) : Board σ :=
  let (report, b) := steps ram floating (writes bytes ++ reads bytes) (b.memoryBankSelect true)
  { b.memoryBankSelect false with available := report.isNone }

def prepareBankedMemory (code : Residents) (base : Option (Nat → Byte)) (b : Board σ) :
    Board σ :=
  let b := { b with available := false }.memoryBankSelect false
  match base with
  | none => b
  | some base =>
    let (original, b) := readByte ram floating 0 b
    let b := (writeByte ram floating 0 0x5A b).memoryBankSelect true
    let b := (writeByte ram floating 0 0xA5 b).memoryBankSelect false
    let (actual, b) := readByte ram floating 0 b
    let isolated := actual = 0x5A
    let b := writeByte ram floating 0 original b
    let (actual, b) := readByte ram floating 0 b
    if actual ≠ original then b
    else if ¬isolated then b
    else finishBank ram floating (bankImage code base) b

end

end Z80Sbc.Sram
