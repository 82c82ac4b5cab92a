/-! # Values of the debugger

`DebugValue` of `dcc_host_debug_evaluator.hpp`, and its reader and writer. The memory of the
target has 64 KiB. What is done with a register is the register writer's. -/

namespace Z80Sbc.Debugger

abbrev Address := BitVec 16
abbrev Memory := Address → BitVec 8

inductive DebugLocationKind
  | optimizedOut | frame | hl | de | bc | iy | hlDe | bcIy | constant
deriving DecidableEq, Repr

structure DebugValue where
  address : Address
  type : BitVec 32
  size : Int
  immediate : Bool
  immediateValue : BitVec 32
  optimizedOut : Bool
  locationKind : DebugLocationKind
  isArray : Bool
  bitWidth : Int
  bitShift : Int

namespace DebugValue
variable (value : DebugValue)

/-- `type & 32` -/
def isUnsigned : Bool := value.type &&& 32 ≠ 0

/-- `type & 15` -/
def base : BitVec 32 := value.type &&& 15

/-- `type & 128` -/
def isStruct : Bool := value.type &&& 128 ≠ 0

/-- A bit-field that does not fit its storage unit. -/
def misfits : Bool :=
  value.bitWidth > 32 || value.bitShift < 0 || value.bitWidth + value.bitShift > value.size * 8

/-- The `bitWidth` lowest bits. -/
def mask : BitVec 32 :=
  if value.bitWidth = 32 then 0xffffffff else ((1 : BitVec 32) <<< value.bitWidth.toNat) - 1

end DebugValue

def rangeValid (address : Address) (size : Int) : Bool :=
  0 ≤ size && size ≤ 0x10000 - (address.toNat : Int)

/-- The bytes of a value, the first one lowest. -/
def loadUnit (memory : Memory) (address : Address) (size : Int) : BitVec 32 :=
  let result := (memory address).setWidth 32
  let result :=
    if size > 1 then result ||| ((memory (address + 1)).setWidth 32 <<< 8) else result
  if size > 2 then
    result ||| ((memory (address + 2)).setWidth 32 <<< 16) |||
      ((memory (address + 3)).setWidth 32 <<< 24)
  else result

def integer (memory : Memory) (value : DebugValue) : BitVec 32 :=
  let result :=
    if value.immediate then value.immediateValue else loadUnit memory value.address value.size
  if value.bitWidth > 0 then
    if value.misfits then 0
    else
      let result := (result >>> value.bitShift.toNat) &&& value.mask
      if !value.isUnsigned && decide (value.bitWidth < 32) &&
          result &&& ((1 : BitVec 32) <<< (value.bitWidth - 1).toNat) ≠ 0 then result ||| ~~~value.mask
      else result
  else if !value.isUnsigned && value.size = 1 then (result.setWidth 8).signExtend 32
  else if !value.isUnsigned && value.size = 2 then (result.setWidth 16).signExtend 32
  else result

/-- The second argument says whether there is a register writer. -/
def writable (value : DebugValue) (registerWriter : Bool) : Bool :=
  if value.optimizedOut || value.isArray || value.isStruct || value.base = 5 ||
      !(value.size = 1 || value.size = 2 || value.size = 4) then false
  else if value.immediate then
    value.locationKind ≠ .constant && value.locationKind ≠ .optimizedOut && registerWriter
  else rangeValid value.address value.size

/-- The `size` lowest bytes of `stored`, from `address` on. -/
def storeBytes (memory : Memory) (address : Address) (stored : BitVec 32) : Nat → Memory
  | 0 => memory
  | n + 1 => fun a =>
    if a = address + BitVec.ofNat 16 n then (stored >>> (n * 8)).setWidth 8
    else storeBytes memory address stored n a

/-- Whether the write succeeds, and the memory after it. -/
def write (memory : Memory) (value : DebugValue)
    (registerWriter : Option (DebugLocationKind → BitVec 32 → Bool)) (newValue : BitVec 32) :
    Bool × Memory :=
  if !writable value registerWriter.isSome then (false, memory)
  else
    let stored := if value.base = 6 then (if newValue ≠ 0 then 1 else 0) else newValue
    if value.immediate then
      let stored :=
        if value.size = 1 then
          if value.isUnsigned then stored &&& 0xff else (stored.setWidth 8).signExtend 32
        else if value.size = 2 then stored &&& 0xffff
        else stored
      (registerWriter.elim false fun writer => writer value.locationKind stored, memory)
    else if value.bitWidth > 0 then
      if value.misfits then (false, memory)
      else
        let mask := value.mask <<< value.bitShift.toNat
        let old := loadUnit memory value.address value.size
        let stored := (old &&& ~~~mask) ||| ((newValue <<< value.bitShift.toNat) &&& mask)
        (true, storeBytes memory value.address stored value.size.toNat)
    else (true, storeBytes memory value.address stored value.size.toNat)

end Z80Sbc.Debugger
