import Z80Sbc.Flash.Backend

/-! # The disk device

`disk_device.c`: the five Z80 ports that core 0 answers, the mailbox through
which it hands a record to core 1, the read-ahead slots, and
`z80_flash_core1_service`. The port operations are functions on the device. The
service is a program counter, one step for each access core 0 could see, so
that the two can be interleaved. Bus grants happen between port operations
(`z80_flash_backend_core0_service`), hence a backend call is one step. The hit
and miss counters are left out. -/

namespace Z80Sbc.Disk
open Z80Sbc.Storage Z80Sbc.Flash

def diskCommandStatusPort : UInt8 := 0x10
def diskDrivePort : UInt8 := 0x11
def diskLbaLowPort : UInt8 := 0x12
def diskLbaHighPort : UInt8 := 0x13
def diskDataPort : UInt8 := 0x14

def diskCommandClear : UInt8 := 0
def diskCommandRead : UInt8 := 1
def diskCommandWriteNormal : UInt8 := 2
def diskCommandWriteUnallocated : UInt8 := 4
def diskCommandFlush : UInt8 := 5

def diskStatusReady : UInt32 := 1
def diskStatusDataReady : UInt32 := 2
def diskStatusDataRoom : UInt32 := 4
def diskStatusBusy : UInt32 := 8
def diskStatusError : UInt32 := 0x80

def prefetchSlots : Nat := 8
def prefetchKeyValid : UInt32 := 0x80000000

/-- The bytes of one record; those from `z80FlashRecordBytes` on mean nothing. -/
abbrev Record := Nat → UInt8

structure PrefetchSlot where
  sequence : UInt32
  key : UInt32
  words : Record

/-- The device's variables and the backend under them. -/
structure Device where
  backend : Backend
  pending : UInt32
  supervisorFlush : Bool
  status : UInt32
  fatalError : Bool
  writeEnabled : Bool
  drive : UInt8
  lba : UInt16
  writeDrive : UInt8
  writeLba : UInt16
  writeCommand : UInt8
  dataIndex : Nat
  record : Record
  prefetch : Nat → PrefetchSlot
  prefetchHint : UInt32

/-- The variables after `z80_flash_storage_init`, on a recovered flash. -/
def Device.boot (f : Flash) : Device where
  backend := .boot f
  pending := 0
  supervisorFlush := false
  status := diskStatusReady
  fatalError := false
  writeEnabled := true
  drive := 0
  lba := 0
  writeDrive := 0
  writeLba := 0
  writeCommand := 0
  dataIndex := 0
  record := fun _ => 0
  prefetch := fun _ => ⟨2, 0, fun _ => 0⟩
  prefetchHint := 0

/-- A status has one of the bits of `mask` set. -/
def has (status mask : UInt32) : Bool := status &&& mask != 0

/-! ## Core 0 -/

def recordKey (drive : UInt8) (lba : UInt16) : UInt32 :=
  prefetchKeyValid ||| (drive.toUInt32 <<< 16) ||| lba.toUInt32

/-- The slot a record is mapped to. -/
def slotOf (lba : UInt16) : Nat := lba.toNat % prefetchSlots

/-- Copy a matching slot; the sequence is read again after the words. -/
def prefetchTake (key : UInt32) (lba : UInt16) (d : Device) : Bool × Device :=
  let slot := d.prefetch (slotOf lba)
  if has slot.sequence 1 || slot.key != key then (false, d)
  else
    let d := { d with record := slot.words }
    ((d.prefetch (slotOf lba)).sequence == slot.sequence, d)

/-- The record of a READ, from its slot or else from the backend. -/
def fetchRecord (key : UInt32) (d : Device) : Device :=
  let (taken, d) := prefetchTake key d.lba d
  if taken then d else { d with record := readRecord d.drive.toNat d.lba.toNat d.backend }

/-- What a command handler does last: it stores a status, or it submits. -/
inductive Reply where
  | status (value : UInt32)
  | submit (command : UInt8)

/-- `disk_start_command` from its load of the fatal flag to its last store. -/
def startReply (fatal : Bool) (command : UInt8) (d : Device) : Reply × Device :=
  if command = diskCommandClear then
    (.status (diskStatusReady ||| if fatal then diskStatusError else 0), { d with dataIndex := 0 })
  else if fatal then (.status (diskStatusReady ||| diskStatusError), d)
  else if command = diskCommandFlush then (.submit command, d)
  else if z80FlashDiskSlotCount ≤ d.drive.toNat ∨ z80FlashRecordCount ≤ d.lba.toNat then
    (.status (diskStatusReady ||| diskStatusError), d)
  else
    let d := { d with dataIndex := 0 }
    if command = diskCommandRead then
      let key := recordKey d.drive d.lba
      (.status (diskStatusReady ||| diskStatusDataReady),
        { fetchRecord key d with prefetchHint := key })
    else if diskCommandWriteNormal ≤ command ∧ command ≤ diskCommandWriteUnallocated then
      (.status (diskStatusReady ||| diskStatusDataRoom),
        { d with writeDrive := d.drive, writeLba := d.lba, writeCommand := command })
    else (.status (diskStatusReady ||| diskStatusError), d)

def diskSubmit (command : UInt8) (d : Device) : Device :=
  { d with status := diskStatusBusy, pending := command.toUInt32 }

def Device.reply : Reply × Device → Device
  | (.status value, d) => { d with status := value }
  | (.submit command, d) => diskSubmit command d

def diskStartCommand (command : UInt8) (d : Device) : Device :=
  if has d.status diskStatusBusy then d
  else Device.reply (startReply d.fatalError command d)

/-- The next byte of the record, and whether it was the last one. -/
def takeByte (d : Device) : UInt8 × Bool × Device :=
  let d' := { d with dataIndex := d.dataIndex + 1 }
  (d.record d.dataIndex, d'.dataIndex == z80FlashRecordBytes, d')

def putByte (value : UInt8) (d : Device) : Bool × Device :=
  let d' := { d with
    record := Function.update d.record d.dataIndex value
    dataIndex := d.dataIndex + 1 }
  (d'.dataIndex == z80FlashRecordBytes, d')

def diskIoRead (port : UInt8) (d : Device) : UInt8 × Device :=
  if port = diskCommandStatusPort then
    (if d.writeEnabled then d.status.toUInt8 else (diskStatusBusy ||| diskStatusError).toUInt8, d)
  else if port ≠ diskDataPort ∨ !has d.status diskStatusDataReady then (0, d)
  else
    let (value, last, d) := takeByte d
    (value, if last then { d with status := diskStatusReady } else d)

/-- The address ports, `disk_status` being not BUSY. -/
def setAddress (port value : UInt8) (d : Device) : Device :=
  if port = diskDrivePort then { d with drive := value }
  else if port = diskLbaLowPort then { d with lba := (d.lba &&& (0xFF00 : UInt16)) ||| value.toUInt16 }
  else if port = diskLbaHighPort then
    { d with lba := (d.lba &&& (0x00FF : UInt16)) ||| (value.toUInt16 <<< 8) }
  else d

def diskIoWrite (port value : UInt8) (d : Device) : Device :=
  if !d.writeEnabled then d
  else if port = diskCommandStatusPort then diskStartCommand value d
  else if has d.status diskStatusBusy then d
  else if port = diskDataPort then
    if has d.status diskStatusDataRoom then
      let (last, d) := putByte value d
      if last then diskSubmit d.writeCommand d else d
    else d
  else setAddress port value d

/-! ## Core 1 -/

/-- Where `prefetch_publish` returns to. -/
inductive Caller where
  | writeRecord (command : UInt32)
  | prefetch (hint : UInt32) (ahead : Nat)

/-- Where core 1 stands in `z80_flash_core1_service`: the access it does next,
with its local variables. -/
inductive Core1 where
  | outside
  | loadPending
  | flushCommand
  | invalidate (command : UInt32)
  | writeRecord (command : UInt32)
  | pendingFatal
  | clearPending (success : Bool)
  | publishStatus (success : Bool)
  | loadSupervisor
  | supervisorFlush
  | clearSupervisor (success : Bool)
  | flushDue
  | idleFlush
  | storeFatal
  | publishError
  | loadHint
  | prefetch (hint : UInt32) (ahead : Nat)
  | openSlot (slot : Nat) (key : UInt32) (words : Option Record) (caller : Caller)
  | copyWords (slot : Nat) (words : Record) (index : Nat) (caller : Caller)
  | closeSlot (slot : Nat) (caller : Caller)

def Caller.resume : Caller → Core1
  | .writeRecord command => .writeRecord command
  | .prefetch hint ahead => .prefetch hint ahead

/-- What a backend call of core 1 meets: the eviction, the flush, the time. -/
structure Weather where
  evict : FlushOutcome
  flush : FlushOutcome
  now : Nat

def Device.setSlot (d : Device) (slot : Nat) (s : PrefetchSlot) : Device :=
  { d with prefetch := Function.update d.prefetch slot s }

/-- After a served command: the failure is stored first. -/
def afterCommand (success : Bool) : Core1 :=
  if success then .clearPending true else .pendingFatal

def hintDrive (hint : UInt32) : UInt8 := ((hint >>> 16) &&& 0xFF).toUInt8
def hintLba (hint : UInt32) : Nat := (hint &&& 0xFFFF).toNat

/-- Words `index` to `index + 3` of a slot, as one 32-bit store. -/
def copyWord (words : Record) (index : Nat) (r : Record) : Record :=
  overlay r (4 * index) 4 fun i => words (4 * index + i)

def core1Step (w : Weather) (d : Device) : Core1 → Device × Core1
  | .outside => (d, if d.fatalError then .outside else .loadPending)
  | .loadPending =>
    (d, if d.pending ≠ 0 then
          if d.pending = diskCommandFlush.toUInt32 then .flushCommand else .invalidate d.pending
        else .loadSupervisor)
  | .flushCommand =>
    let (success, b) := flushDiskCache w.flush d.backend
    ({ d with backend := b }, afterCommand success)
  | .invalidate command =>
    let slot := slotOf d.writeLba
    (d, if (d.prefetch slot).key = recordKey d.writeDrive d.writeLba then
          .openSlot slot 0 none (.writeRecord command)
        else .writeRecord command)
  | .writeRecord command =>
    let (success, b) := Flash.writeRecord w.evict w.flush w.now d.writeDrive.toNat
      d.writeLba.toNat d.record (command - diskCommandWriteNormal.toUInt32).toUInt8.toNat d.backend
    ({ d with backend := b }, afterCommand success)
  | .pendingFatal => ({ d with fatalError := true }, .clearPending false)
  | .clearPending success => ({ d with pending := 0 }, .publishStatus success)
  | .publishStatus success =>
    ({ d with status := diskStatusReady ||| if success then 0 else diskStatusError },
      if success then .loadHint else .outside)
  | .loadSupervisor => (d, if d.supervisorFlush then .supervisorFlush else .flushDue)
  | .supervisorFlush =>
    let (success, b) := flushDiskCache w.flush d.backend
    ({ d with backend := b }, .clearSupervisor success)
  | .clearSupervisor success =>
    ({ d with supervisorFlush := false }, if success then .loadHint else .storeFatal)
  | .flushDue => (d, if Flash.flushDue w.now d.backend then .idleFlush else .loadHint)
  | .idleFlush =>
    let (success, b) := flushDiskCache w.flush d.backend
    ({ d with backend := b }, if success then .loadHint else .storeFatal)
  | .storeFatal => ({ d with fatalError := true }, .publishError)
  | .publishError => ({ d with status := diskStatusReady ||| diskStatusError }, .outside)
  | .loadHint => (d, if d.prefetchHint = 0 then .outside else .prefetch d.prefetchHint 1)
  | .prefetch hint ahead =>
    let next := hintLba hint + ahead
    if prefetchSlots < ahead ∨ z80FlashRecordCount ≤ next then (d, .outside)
    else
      let key := recordKey (hintDrive hint) (UInt16.ofNat next)
      let slot := slotOf (UInt16.ofNat next)
      (d, if (d.prefetch slot).key = key then .prefetch hint (ahead + 1)
          else .openSlot slot key (some (readRecord (hintDrive hint).toNat next d.backend))
            (.prefetch hint (ahead + 1)))
  | .openSlot slot key words caller =>
    let s := d.prefetch slot
    (d.setSlot slot { s with sequence := s.sequence + 1, key := key },
      match words with
      | none => .closeSlot slot caller
      | some words => .copyWords slot words 0 caller)
  | .copyWords slot words index caller =>
    if index < z80FlashRecordBytes / 4 then
      let s := d.prefetch slot
      (d.setSlot slot { s with words := copyWord words index s.words },
        .copyWords slot words (index + 1) caller)
    else (d, .closeSlot slot caller)
  | .closeSlot slot caller =>
    let s := d.prefetch slot
    (d.setSlot slot { s with sequence := s.sequence + 1 }, caller.resume)

end Z80Sbc.Disk
