import Z80Sbc.Flash.Layout

/-! # The flash backend

`flash_backend.c`: the journal, its recovery, and the one-sector write-back
cache over the four disk slots. The flash calls are `Storage.Prog`s, so that a
run, a run with failing calls and a power cut are three readings of the same
text; `inject_power_cut` marks places where a cut may fall and is therefore no
step of its own. A non-`PICO_OK` result of `flash_safe_execute` reboots, which
is a cut as well. -/

namespace Z80Sbc.Flash
open Z80Sbc.Storage

def flashJournalMagic : UInt32 := 0x314C4E4A
def flashJournalPairBytes : Nat := 2 * flashSectorSize
def flashJournalPairCount : Nat := z80FlashJournalBytes / flashJournalPairBytes
def diskCacheIdleFlushMs : Nat := 250

structure JournalHeader where
  magic : UInt32
  sequence : UInt32
  targetOffset : UInt32
  dataCrc32 : UInt32
  headerCrc32 : UInt32
  deriving DecidableEq

/-- The bytes in front of `header_crc32`. -/
def JournalHeader.prefixBytes (h : JournalHeader) : List UInt8 :=
  le32 h.magic ++ le32 h.sequence ++ le32 h.targetOffset ++ le32 h.dataCrc32

/-- The header as one flash page: the five words, then FFh. -/
def JournalHeader.page (h : JournalHeader) : Nat → UInt8 := fun i =>
  (h.prefixBytes ++ le32 h.headerCrc32).getD i 0xFF

def readHeader (f : Flash) (off : Nat) : JournalHeader :=
  ⟨read32 f off, read32 f (off + 4), read32 f (off + 8), read32 f (off + 12), read32 f (off + 16)⟩

structure WriteParams where
  headerOffset : Nat
  dataOffset : Nat
  targetOffset : Nat
  data : Nat → UInt8
  header : JournalHeader

structure RestoreParams where
  headerOffset : Nat
  targetOffset : Nat
  data : Nat → UInt8

def diskBlockOffsetValid (offset : UInt32) : Bool :=
  decide (z80FlashDiskOffset ≤ offset.toNat) &&
    decide (offset.toNat ≤ diskEnd - flashSectorSize) &&
    offset.toNat % flashSectorSize == 0

/-! ## The journal -/

def writeCallback (params : WriteParams) : Prog Bool := do
  Prog.erase params.headerOffset flashJournalPairBytes
  Prog.program params.dataOffset params.data flashSectorSize
  Prog.program params.headerOffset params.header.page flashPageSize
  let f ← Prog.contents
  if !same f params.dataOffset params.data 0 flashSectorSize ||
      !same f params.headerOffset params.header.page 0 flashPageSize then
    return false
  else
    Prog.erase params.targetOffset flashSectorSize
    Prog.program params.targetOffset params.data (flashSectorSize / 2)
    Prog.program (params.targetOffset + flashSectorSize / 2)
      (fun i => params.data (flashSectorSize / 2 + i)) (flashSectorSize / 2)
    let f ← Prog.contents
    if same f params.targetOffset params.data 0 flashSectorSize then
      Prog.erase params.headerOffset flashSectorSize
      let f ← Prog.contents
      return read32 f params.headerOffset == 0xFFFFFFFF
    else
      return false

def restoreCallback (params : RestoreParams) : Prog Bool := do
  Prog.erase params.targetOffset flashSectorSize
  Prog.program params.targetOffset params.data flashSectorSize
  let f ← Prog.contents
  if same f params.targetOffset params.data 0 flashSectorSize then
    Prog.erase params.headerOffset flashSectorSize
    let f ← Prog.contents
    return read32 f params.headerOffset == 0xFFFFFFFF
  else
    return false

def pairHeaderOffset (pair : Nat) : Nat := z80FlashJournalOffset + pair * flashJournalPairBytes

def headerValid (h : JournalHeader) : Bool :=
  h.magic == flashJournalMagic && h.headerCrc32 == crc32Bytes h.prefixBytes &&
    diskBlockOffsetValid h.targetOffset

/-- The valid pair with the smallest sequence number, the first of equals. -/
def selectPair (headers : Nat → JournalHeader) (valid : Nat → Bool) : Option Nat :=
  (List.range flashJournalPairCount).foldl (fun selected pair =>
    if valid pair && selected.all (fun s => (headers pair).sequence < (headers s).sequence) then
      some pair
    else selected) none

/-- The recovery loop, at most `n` more pairs. -/
def recoverPairs (headers : Nat → JournalHeader) : Nat → (Nat → Bool) → Prog Bool
  | 0, _ => return true
  | n + 1, valid =>
    match selectPair headers valid with
    | none => return true
    | some pair => do
      let f ← Prog.contents
      let recoveryBlock := fun i => f (pairHeaderOffset pair + flashSectorSize + i)
      if crc32Bytes (window recoveryBlock 0 flashSectorSize) != (headers pair).dataCrc32 then
        return false
      else
        let restored ← restoreCallback
          ⟨pairHeaderOffset pair, (headers pair).targetOffset.toNat, recoveryBlock⟩
        if !restored then
          return false
        else
          recoverPairs headers n (Function.update valid pair false)

def recoverJournal : Prog Bool := do
  let f ← Prog.contents
  let headers := fun pair => readHeader f (pairHeaderOffset pair)
  recoverPairs headers flashJournalPairCount (fun pair => headerValid (headers pair))

/-! ## The sector cache -/

structure DiskCache where
  valid : Bool
  dirty : Bool
  drive : Nat
  blockOffset : Nat
  data : Nat → UInt8

/-- The backend's variables and the flash they describe. -/
structure Backend where
  flash : Flash
  cache : DiskCache
  journalSequence : UInt32
  nextJournalPair : UInt32
  flushDeadline : Nat

/-- The variables after `z80_flash_backend_init`. -/
def Backend.boot (f : Flash) : Backend :=
  ⟨f, ⟨false, false, 0, 0, fun _ => 0⟩, 0, 0, 0⟩

def slotOffset (drive : Nat) : Nat := z80FlashDiskOffset + drive * z80FlashDiskSlotBytes

/-- The parameters `flush_disk_cache` builds for its callback. -/
def Backend.writeParams (b : Backend) : WriteParams :=
  let flashOffset := slotOffset b.cache.drive + b.cache.blockOffset
  let pair := b.nextJournalPair.toNat % flashJournalPairCount
  let header : JournalHeader :=
    { magic := flashJournalMagic
      sequence := b.journalSequence + 1
      targetOffset := UInt32.ofNat flashOffset
      dataCrc32 := crc32Bytes (window b.cache.data 0 flashSectorSize)
      headerCrc32 := 0xFFFFFFFF }
  { headerOffset := pairHeaderOffset pair
    dataOffset := pairHeaderOffset pair + flashSectorSize
    targetOffset := flashOffset
    data := b.cache.data
    header := { header with headerCrc32 := crc32Bytes header.prefixBytes } }

/-- The counters move on before the callback runs. -/
def Backend.advance (b : Backend) : Backend :=
  { b with journalSequence := b.journalSequence + 1, nextJournalPair := b.nextJournalPair + 1 }

/-- What the bus and the flash do during one flush: whether core 0 grants and
takes back the bus, and which flash calls leave other bytes than asked. -/
structure FlushOutcome where
  acquired : Bool
  fault : Nat → Option (Nat → UInt8)
  released : Bool

def flushDiskCache (o : FlushOutcome) (b : Backend) : Bool × Backend :=
  if !b.cache.dirty then (true, b)
  else if !o.acquired then (false, b)
  else
    let (committed, flash) := (writeCallback b.writeParams).runWith o.fault b.flash
    let cache := if committed then { b.cache with dirty := false } else b.cache
    (o.released && committed, { b.advance with flash := flash, cache := cache })

def sectorOffset (lba : Nat) : Nat := lba * z80FlashRecordBytes

/-- `sector_offset & ~(FLASH_SECTOR_SIZE - 1)`. -/
def blockOffset (lba : Nat) : Nat := sectorOffset lba - sectorOffset lba % flashSectorSize

/-- The cached block is the one that holds record `lba` of `drive`. -/
def Backend.cached (b : Backend) (drive lba : Nat) : Bool :=
  b.cache.valid && b.cache.drive == drive && b.cache.blockOffset == blockOffset lba

def selectDiskCache (o : FlushOutcome) (drive lba : Nat) (b : Backend) : Bool × Backend :=
  if b.cached drive lba then (true, b)
  else
    let (flushed, b) := flushDiskCache o b
    if !flushed then (false, b)
    else
      let block := fun i => b.flash (slotOffset drive + blockOffset lba + i)
      (true, { b with cache :=
        { b.cache with data := block, drive := drive, blockOffset := blockOffset lba,
                       valid := true } })

def readRecord (drive lba : Nat) (b : Backend) : Nat → UInt8 :=
  if b.cached drive lba then fun i => b.cache.data (sectorOffset lba - blockOffset lba + i)
  else fun i => b.flash (slotOffset drive + sectorOffset lba + i)

/-- `z80_flash_backend_write_record`; the first outcome is that of the eviction,
the second that of the immediate flush, `now` the time in milliseconds. -/
def writeRecord (evict commit : FlushOutcome) (now : Nat) (drive lba : Nat) (data : Nat → UInt8)
    (writeType : Nat) (b : Backend) : Bool × Backend :=
  if decide (z80FlashDiskSlotCount ≤ drive) || decide (z80FlashRecordCount ≤ lba) ||
      decide (2 < writeType) then (false, b)
  else
    let (selected, b) := selectDiskCache evict drive lba b
    if !selected then (false, b)
    else
      let withinBlock := sectorOffset lba % flashSectorSize
      let b :=
        if !same b.cache.data withinBlock data 0 z80FlashRecordBytes then
          { b with
            cache := { b.cache with
              data := overlay b.cache.data withinBlock z80FlashRecordBytes data
              dirty := true }
            flushDeadline := now + diskCacheIdleFlushMs }
        else b
      if writeType = 1 then flushDiskCache commit b else (true, b)

def flushDue (now : Nat) (b : Backend) : Bool := b.cache.dirty && decide (b.flushDeadline ≤ now)

def quiescent (b : Backend) : Bool := !b.cache.dirty

end Z80Sbc.Flash
