import Mathlib.Logic.Function.Iterate
import Z80Sbc.Storage.Program

/-! # Flash layout and checksum

The constants of `flash_layout.h` and of the flash SDK, and the bitwise CRC32
that `flash_backend.c` (`crc32_bytes`) and `environment_store.c` (`crc32`)
both compute. -/

namespace Z80Sbc.Flash
open Z80Sbc.Storage

def flashSectorSize : Nat := 4096
def flashPageSize : Nat := 256

def z80FlashJournalOffset : Nat := 0x1D0000
def z80FlashJournalBytes : Nat := 0x10000
def z80FlashEnvOffset : Nat := 0x1FE000
def z80FlashDiskOffset : Nat := 0x200000
def z80FlashDiskSlotBytes : Nat := 0x80000
def z80FlashDiskSlotCount : Nat := 4
def z80FlashRecordBytes : Nat := 128
def z80FlashRecordCount : Nat := 4096

/-- The end of the disk slots, which is the end of the flash. -/
def diskEnd : Nat := z80FlashDiskOffset + z80FlashDiskSlotCount * z80FlashDiskSlotBytes

/-- One turn of the inner loop: shift right, and fold the polynomial in when a
bit fell out. -/
def crc32Bit (crc : UInt32) : UInt32 := (crc >>> 1) ^^^ (0xEDB88320 &&& (0 - (crc &&& 1)))

def crc32Byte (crc : UInt32) (byte : UInt8) : UInt32 :=
  crc32Bit^[8] (crc ^^^ byte.toUInt32)

def crc32Bytes (data : List UInt8) : UInt32 := ~~~(data.foldl crc32Byte 0xFFFFFFFF)

/-- The check value of the CRC-32 definition. -/
example : crc32Bytes [0x31, 0x32, 0x33, 0x34, 0x35, 0x36, 0x37, 0x38, 0x39] = 0xCBF43926 := by
  decide +kernel

end Z80Sbc.Flash
