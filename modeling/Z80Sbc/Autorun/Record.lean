import Mathlib.Logic.Function.Basic
import Z80Sbc.Env.CommandLine

/-! # The autorun record

One record of 128 bytes: `autorun_record` of `build_images.py` and `AUTORUN.COM` write it, and
`load_autorun` of the BIOS reads it at a boot. Memory of the CCP is counted from `CCP_BASE`. -/

namespace Z80Sbc.Autorun
open Z80Sbc.Env (ascii toupper)

def recordBytes : Nat := 128
def maxCommand : Nat := 80
def magic : List UInt8 := ascii "ZAR1"

/-- The sum that both loops form in `A`. -/
def sum (bytes : List UInt8) : UInt8 := bytes.foldl (· + ·) 0

/-- Bytes stored from an offset on. -/
def put (record : List UInt8) (offset : Nat) (bytes : List UInt8) : List UInt8 :=
  record.take offset ++ (bytes ++ record.drop (offset + bytes.length))

def zeros : List UInt8 := List.replicate recordBytes 0

/-! ## The writer in Python -/

/-- `command.encode("ascii")` -/
def encodeAscii (command : List Char) : Option (List UInt8) :=
  if command.all fun c => decide (c.toNat < 128) then some (command.map Char.toUInt8) else none

/-- None for a `ValueError`. -/
def autorunRecord (mode : Int) (command : List Char) : Option (List UInt8) :=
  match encodeAscii command with
  | none => none
  | some encoded =>
    if ¬(0 ≤ mode ∧ mode < 4) ∨ maxCommand < encoded.length then none
    else if encoded.any fun value => value < 0x20 || 0x7E < value then none
    else if mode ≠ 0 ∧ encoded = [] then none
    else
      let record := put zeros 0 magic
      let record := put record 4 [mode.toNat.toUInt8, encoded.length.toUInt8]
      let record := put record 6 (encoded.map toupper)
      some (put record 127 [-sum record])

/-! ## AUTORUN.COM -/

/-- `validate_config` -/
def validateConfig (config : List UInt8) : Bool :=
  let mode := config.getD 4 0
  let length := config.getD 5 0
  if sum config ≠ 0 then false
  else if config.take 4 ≠ magic then false
  else if 4 ≤ mode.toNat then false
  else if maxCommand + 1 ≤ length.toNat then false
  else if length = 0 then decide (mode = 0)
  else ((config.drop 6).take length.toNat).all fun c => 0x20 ≤ c && c < 0x7F

/-- What BDOS function 10 leaves in the input buffer. -/
structure Line where
  bytes : List UInt8
  fits : bytes.length ≤ maxCommand

/-- The configuration that is edited: what does not validate is replaced. -/
def loadedConfig (record : List UInt8) : List UInt8 :=
  if validateConfig record then record else put zeros 0 magic

/-- The mode that is asked for; none leaves without saving. -/
def newMode (option : Line) (mode : UInt8) : Option UInt8 :=
  match option.bytes with
  | [] => some mode
  | [key] => if key < '1'.toUInt8 ∨ '5'.toUInt8 ≤ key then none else some ((key - '0'.toUInt8) &&& 3)
  | _ => none

def storeCharacter (c : UInt8) : UInt8 :=
  if c < 'a'.toUInt8 then c else if 'z'.toUInt8 + 1 ≤ c then c else c &&& 0x5F

/-- The loop `copy_command`. -/
def copyCommand : List UInt8 → Option (List UInt8)
  | [] => some []
  | c :: rest =>
    if c < 0x20 ∨ 0x7F ≤ c then none else (copyCommand rest).map (storeCharacter c :: ·)

def newCommand (command : Line) (config : List UInt8) : Option (List UInt8) :=
  if command.bytes = [] then some config
  else
    (copyCommand command.bytes).map fun text =>
      put (put config 5 [command.bytes.length.toUInt8]) 6 text

/-- `sum_config` -/
def sumConfig (config : List UInt8) : List UInt8 := put config 127 [-sum (config.take 127)]

/-- A session on a record that was read: the record that it saves. -/
def autorunCom (option command : Line) (record : List UInt8) : Option (List UInt8) :=
  let config := loadedConfig record
  match newMode option (config.getD 4 0) with
  | none => none
  | some mode =>
    let config := put config 4 [mode]
    if mode = 0 then some (sumConfig config)
    else
      match newCommand command config with
      | none => none
      | some config => if config.getD 5 0 = 0 then none else some (sumConfig config)

/-! ## The BIOS -/

def word (bytes : List UInt8) (offset : Nat) : Nat :=
  (bytes.getD offset 0).toNat + 256 * (bytes.getD (offset + 1) 0).toNat

/-- The checks of `load_autorun` up to the mode. -/
def biosAccepts (buffer : List UInt8) : Bool :=
  decide (sum buffer = 0) && decide (word buffer 0 = word magic 0) &&
    decide (word buffer 2 = word magic 2) && decide ((buffer.getD 4 0).toNat < 4) &&
    decide ((buffer.getD 5 0).toNat < maxCommand + 1)

/-- The length, the text and its terminator. -/
def install (buffer : List UInt8) (memory : Nat → UInt8) : Nat → UInt8 := fun a =>
  let length := (buffer.getD 5 0).toNat
  if a = 7 then buffer.getD 5 0
  else if 8 ≤ a ∧ a < 8 + length then buffer.getD (a - 8 + 6) 0
  else if a = 8 + length then 0
  else memory a

def autorunMessage : List UInt8 := ascii "\r\nAUTORUN config error\r\n"

/-- `load_autorun` at a boot of the kind in `A`, with the record as far as it can be read and
whether a key waits: the memory of the CCP and what is printed. -/
def loadAutorun (boot : UInt8) (record : Option (List UInt8)) (key : Bool) (memory : Nat → UInt8) :
    (Nat → UInt8) × List UInt8 :=
  let memory := Function.update memory 7 0
  match record with
  | none => (memory, autorunMessage)
  | some buffer =>
    if buffer.getD 0 0 = 0xE5 then (memory, [])
    else if !biosAccepts buffer then (memory, autorunMessage)
    else if buffer.getD 4 0 &&& boot = 0 then (memory, [])
    else if key then (memory, [])
    else if buffer.getD 5 0 = 0 then (memory, autorunMessage)
    else (install buffer memory, [])

end Z80Sbc.Autorun
