import Mathlib.Tactic.IntervalCases
import Z80Sbc.Disk.Device
import Z80Sbc.Flash.CacheCoherence

/-! # The disk device is linearizable

The Z80 sees a map from records to bytes, changed when the completion of a
WRITE is published. An observer of the ports keeps that map, and with it what
each READ has to deliver. Three copies of a record must agree with it: the
backend (`Represents`), the read-ahead slots (`SlotsOk`) and the record buffer
during a transfer (`Core0Ok`). The mailbox (`Mailbox`) keeps the cores apart:
while a command is pending or being served, the status is BUSY or the device
has failed, and core 0 touches nothing core 1 works on. -/

namespace Z80Sbc.Disk.Linearizable
open Z80Sbc.Storage Z80Sbc.Concurrent Z80Sbc.Flash Z80Sbc.Disk Flash.CacheCoherence

/-! ## The observer -/

/-- A WRITE as the Z80 issued it: the address registers at the command, and the
data bytes it has written since. -/
structure Transfer where
  drive : Nat
  lba : Nat
  bytes : List UInt8

/-- A READ: what the record held at the command, and the bytes read out. -/
structure Reading where
  expected : Record
  bytes : List UInt8

structure Observer where
  records : Records
  reading : Reading
  delivered : List Reading
  writing : Transfer
  submitted : Option Transfer

def Observer.start (f : Flash) : Observer :=
  ⟨flashRecords f, ⟨fun _ => 0, []⟩, [], ⟨0, 0, []⟩, none⟩

/-- The records once the submitted command is published. -/
def Observer.published (o : Observer) : Records :=
  match o.submitted with
  | some t => o.records.set t.drive t.lba fun i => t.bytes.getD i 0
  | none => o.records

def isWrite (command : UInt8) : Bool :=
  decide (diskCommandWriteNormal ≤ command) && decide (command ≤ diskCommandWriteUnallocated)

/-- The address registers name a record. -/
def addressed (d : Device) : Bool :=
  decide (d.drive.toNat < z80FlashDiskSlotCount) && decide (d.lba.toNat < z80FlashRecordCount)

/-- A command write, `d` the device before it. -/
def Observer.command (o : Observer) (command : UInt8) (d : Device) : Observer :=
  if !d.writeEnabled || has d.status diskStatusBusy || d.fatalError then o
  else if command = diskCommandFlush then { o with submitted := none }
  else if !addressed d then o
  else if command = diskCommandRead then
    { o with reading := ⟨o.records d.drive.toNat d.lba.toNat, []⟩ }
  else if isWrite command then { o with writing := ⟨d.drive.toNat, d.lba.toNat, []⟩ }
  else o

/-- A data byte the device takes. -/
def Observer.put (o : Observer) (value : UInt8) : Observer :=
  let t := { o.writing with bytes := o.writing.bytes ++ [value] }
  if t.bytes.length = z80FlashRecordBytes then { o with writing := t, submitted := some t }
  else { o with writing := t }

/-- A data byte the device delivers. -/
def Observer.take (o : Observer) (value : UInt8) : Observer :=
  let r := { o.reading with bytes := o.reading.bytes ++ [value] }
  if r.bytes.length = z80FlashRecordBytes then
    { o with reading := r, delivered := o.delivered ++ [r] }
  else { o with reading := r }

def Observer.ioWrite (o : Observer) (port value : UInt8) (d : Device) : Observer :=
  if port = diskCommandStatusPort then o.command value d
  else if port = diskDataPort ∧ d.writeEnabled ∧ has d.status diskStatusDataRoom then o.put value
  else o

def Observer.ioRead (o : Observer) (port value : UInt8) (d : Device) : Observer :=
  if port = diskDataPort ∧ has d.status diskStatusDataReady then o.take value else o

/-- Core 1 publishes READY without ERROR. -/
def Observer.core1 (o : Observer) : Core1 → Observer
  | .publishStatus true => { o with records := o.published }
  | _ => o

/-! ## Sessions -/

structure Session where
  device : Device
  core1 : Core1
  observer : Observer

def Session.start (f : Flash) : Session := ⟨.boot f, .outside, .start f⟩

inductive Action where
  | ioRead (port : UInt8)
  | ioWrite (port value : UInt8)
  | setWriteEnabled (enabled : Bool)
  | requestFlush
  | core1 (w : Weather)

def Session.step (s : Session) : Action → Session
  | .ioRead port =>
    let (value, d) := diskIoRead port s.device
    { s with device := d, observer := s.observer.ioRead port value s.device }
  | .ioWrite port value =>
    { s with device := diskIoWrite port value s.device,
             observer := s.observer.ioWrite port value s.device }
  | .setWriteEnabled enabled => { s with device := { s.device with writeEnabled := enabled } }
  | .requestFlush => { s with device := { s.device with supervisorFlush := true } }
  | .core1 w =>
    let (d, pc) := core1Step w s.device s.core1
    ⟨d, pc, s.observer.core1 s.core1⟩

/-- Core 1 is serving a command of core 0. -/
def serving : Core1 → Bool
  | .flushCommand | .invalidate _ | .writeRecord _ | .pendingFatal | .clearPending _
  | .publishStatus _ => true
  | .openSlot _ _ _ (.writeRecord _) | .copyWords _ _ _ (.writeRecord _)
  | .closeSlot _ (.writeRecord _) => true
  | _ => false

/-- A command has been submitted, and core 1 has not published its completion. -/
def Owned (s : Session) : Prop := s.device.pending ≠ 0 ∨ serving s.core1 = true

/-- What core 1 works on while it owns the mailbox. -/
structure SameMailbox (d d' : Device) : Prop where
  record : d.record = d'.record
  writeDrive : d.writeDrive = d'.writeDrive
  writeLba : d.writeLba = d'.writeLba
  pending : d.pending = d'.pending

def Action.onCore0 : Action → Bool
  | .core1 _ => false
  | _ => true

/-! ## Keys of the read-ahead slots -/

theorem hintDrive_recordKey (drive : UInt8) (lba : UInt16) :
    hintDrive (recordKey drive lba) = drive := by
  apply UInt8.toBitVec_inj.mp
  simp only [hintDrive, recordKey, prefetchKeyValid]
  ext i hi
  interval_cases i <;> simp

theorem hintLba_recordKey (drive : UInt8) (lba : UInt16) :
    hintLba (recordKey drive lba) = lba.toNat := by
  have h : recordKey drive lba &&& 0xFFFF = lba.toUInt32 := by
    apply UInt32.toBitVec_inj.mp
    simp only [recordKey, prefetchKeyValid]
    ext i hi
    interval_cases i <;> simp
  rw [hintLba, h, UInt16.toNat_toUInt32]

theorem recordKey_inj {drive drive' : UInt8} {lba lba' : UInt16}
    (h : recordKey drive lba = recordKey drive' lba') : drive = drive' ∧ lba = lba' := by
  constructor
  · rw [← hintDrive_recordKey drive lba, h, hintDrive_recordKey]
  · apply UInt16.toNat_inj.mp
    rw [← hintLba_recordKey drive lba, h, hintLba_recordKey]

theorem recordKey_ne_zero (drive : UInt8) (lba : UInt16) : recordKey drive lba ≠ 0 := by
  intro h
  have hbit := congrArg (fun k : UInt32 => k.toBitVec.getLsbD 31) h
  simp [recordKey, prefetchKeyValid] at hbit

/-- The lowest bit of a sequence is its parity. -/
theorem has_one (s : UInt32) : has s 1 = decide (s.toNat % 2 = 1) := by
  have hand : (s &&& 1).toNat = s.toNat % 2 := by simp
  by_cases hp : s.toNat % 2 = 1
  · have hne : s &&& 1 ≠ 0 := by
      intro h0
      rw [h0] at hand
      simp only [UInt32.reduceToNat] at hand
      omega
    simp [has, hp, hne]
  · have he : s &&& 1 = 0 := UInt32.toNat_inj.mp (by rw [hand]; simp only [UInt32.reduceToNat]; omega)
    simp [has, hp, he]

theorem has_one_succ (s : UInt32) : has (s + 1) 1 = !has s 1 := by
  have hlt := s.toNat_lt
  rw [has_one, has_one, UInt32.toNat_add]
  simp only [UInt32.reduceToNat]
  by_cases h : s.toNat % 2 = 1 <;> simp [h] <;> omega

/-! ## The invariant -/

/-- Core 1 has carried the submitted command out, but not published it. -/
def carriedOut : Core1 → Bool
  | .clearPending true | .publishStatus true => true
  | _ => false

/-- The records the backend and the slots hold. -/
def held (pc : Core1) (o : Observer) : Records := if carriedOut pc then o.published else o.records

/-- A key names a record that exists. -/
def ValidKey (key : UInt32) (drive : UInt8) (lba : UInt16) : Prop :=
  key = recordKey drive lba ∧ drive.toNat < z80FlashDiskSlotCount ∧
    lba.toNat < z80FlashRecordCount

/-- What may stand in slot `i`: nothing, or a record that is mapped to it. -/
def Holds (r : Records) (i : Nat) (key : UInt32) (words : Record) : Prop :=
  key = 0 ∨ ∃ drive lba, ValidKey key drive lba ∧ i = slotOf lba ∧
    ∀ j < z80FlashRecordBytes, words j = r drive.toNat lba.toNat j

/-- The slot core 1 is rewriting. -/
def opened : Core1 → Option Nat
  | .copyWords slot _ _ _ | .closeSlot slot _ => some slot
  | _ => none

/-- The slots: the opened one has an odd sequence, the others hold records. -/
def SlotsOk (r : Records) (pc : Core1) (d : Device) : Prop := ∀ i,
  if opened pc = some i then has (d.prefetch i).sequence 1 = true
  else has (d.prefetch i).sequence 1 = false ∧ Holds r i (d.prefetch i).key (d.prefetch i).words

/-- No slot holds the record that is being written. -/
def NoStale (d : Device) : Prop := ∀ i, (d.prefetch i).key ≠ recordKey d.writeDrive d.writeLba

/-- The record buffer holds the WRITE the observer saw submitted. -/
structure WriteSubmitted (d : Device) (o : Observer) : Prop where
  submitted : o.submitted =
    some ⟨d.writeDrive.toNat, d.writeLba.toNat, window d.record 0 z80FlashRecordBytes⟩
  drive : d.writeDrive.toNat < z80FlashDiskSlotCount
  lba : d.writeLba.toNat < z80FlashRecordCount

/-- The pending command is the one the observer saw submitted. -/
def Submitted (d : Device) (o : Observer) (command : UInt32) : Prop :=
  if command = diskCommandFlush.toUInt32 then o.submitted = none else WriteSubmitted d o

structure Mailbox (pc : Core1) (d : Device) (o : Observer) : Prop where
  busy : serving pc = true → d.status = diskStatusBusy
  pending : d.pending ≠ 0 → Submitted d o d.pending ∧
    (d.status = diskStatusBusy ∨
      d.fatalError = true ∧ d.status = diskStatusReady ||| diskStatusError)

/-- A hint is empty or the key of a record. -/
def HintOk (hint : UInt32) : Prop := hint = 0 ∨ ∃ drive lba, ValidKey hint drive lba

/-- What holds where core 1 stands. A slot is published for one of two callers:
before a record write, or by the read-ahead. -/
def At (d : Device) (o : Observer) : Core1 → Prop
  | .outside | .pendingFatal => True
  | .publishError | .clearPending false => d.fatalError = true
  | .publishStatus success => d.fatalError = !success ∧ d.pending = 0
  | .flushCommand => d.fatalError = false ∧ o.submitted = none
  | .invalidate _ => d.fatalError = false ∧ WriteSubmitted d o
  | .writeRecord _ => d.fatalError = false ∧ WriteSubmitted d o ∧ NoStale d
  | .prefetch hint _ => d.fatalError = false ∧ HintOk hint ∧ hint ≠ 0
  | .openSlot slot key none caller => d.fatalError = false ∧ key = 0 ∧ slot = slotOf d.writeLba ∧
      WriteSubmitted d o ∧ ∃ command, caller = .writeRecord command
  | .openSlot slot key (some words) caller => d.fatalError = false ∧
      Holds o.records slot key words ∧ ∃ hint ahead, caller = .prefetch hint ahead ∧
        HintOk hint ∧ hint ≠ 0
  | .copyWords slot words index caller => d.fatalError = false ∧
      Holds o.records slot (d.prefetch slot).key words ∧
      (∀ j < 4 * index, (d.prefetch slot).words j = words j) ∧
      ∃ hint ahead, caller = .prefetch hint ahead ∧ HintOk hint ∧ hint ≠ 0
  | .closeSlot slot caller => d.fatalError = false ∧
      Holds o.records slot (d.prefetch slot).key (d.prefetch slot).words ∧
      ((∃ command, caller = .writeRecord command ∧ WriteSubmitted d o ∧ NoStale d) ∨
        ∃ hint ahead, caller = .prefetch hint ahead ∧ HintOk hint ∧ hint ≠ 0)
  | _ => d.fatalError = false

/-- Until a write has failed, the backend and the slots hold the records. -/
structure Stored (pc : Core1) (d : Device) (o : Observer) : Prop where
  represents : Represents d.backend (held pc o)
  slots : SlotsOk (held pc o) pc d

/-- Core 0's side: the status is one of five, and the buffer of a transfer in
progress is what the observer saw of it. -/
structure Core0Ok (d : Device) (o : Observer) : Prop where
  status : d.status = diskStatusReady ∨ d.status = diskStatusReady ||| diskStatusError ∨
    d.status = diskStatusReady ||| diskStatusDataReady ∨
    d.status = diskStatusReady ||| diskStatusDataRoom ∨ d.status = diskStatusBusy
  reading : d.status = diskStatusReady ||| diskStatusDataReady →
    d.dataIndex < z80FlashRecordBytes ∧ o.reading.bytes = window d.record 0 d.dataIndex ∧
      ∀ j < z80FlashRecordBytes, d.record j = o.reading.expected j
  writing : d.status = diskStatusReady ||| diskStatusDataRoom →
    d.dataIndex < z80FlashRecordBytes ∧
      o.writing = ⟨d.writeDrive.toNat, d.writeLba.toNat, window d.record 0 d.dataIndex⟩ ∧
      d.writeDrive.toNat < z80FlashDiskSlotCount ∧ d.writeLba.toNat < z80FlashRecordCount ∧
      isWrite d.writeCommand = true
  delivered : ∀ r ∈ o.delivered, r.bytes = window r.expected 0 z80FlashRecordBytes
  hint : HintOk d.prefetchHint

structure Inv (s : Session) : Prop where
  core0 : Core0Ok s.device s.observer
  mailbox : Mailbox s.core1 s.device s.observer
  position : At s.device s.observer s.core1
  stored : s.device.fatalError = false → s.core1 ≠ .pendingFatal →
    Stored s.core1 s.device s.observer

/-! ## Core 0 -/

theorem WriteSubmitted.transfer {d d' : Device} {o o' : Observer} (h : WriteSubmitted d o)
    (hs : SameMailbox d' d) (ho : o'.submitted = o.submitted) : WriteSubmitted d' o' := by
  obtain ⟨hsub, hdrive, hlba⟩ := h
  obtain ⟨hr, hd, hl, -⟩ := hs
  exact ⟨by rw [ho, hsub, hr, hd, hl], hd ▸ hdrive, hl ▸ hlba⟩

theorem Submitted.write {d : Device} {o : Observer} {command : UInt32}
    (hne : command ≠ diskCommandFlush.toUInt32) (h : WriteSubmitted d o) :
    Submitted d o command := by
  rw [Submitted, if_neg hne]
  exact h

theorem Submitted.transfer {d d' : Device} {o o' : Observer} {command : UInt32}
    (h : Submitted d o command) (hs : SameMailbox d' d) (ho : o'.submitted = o.submitted) :
    Submitted d' o' command := by
  unfold Submitted at h ⊢
  split
  · rw [if_pos ‹_›] at h
    exact ho.trans h
  · rw [if_neg ‹_›] at h
    exact h.transfer hs ho

/-- What core 1 relies on: outside of a command only the slots and the records,
and during one also the mailbox. -/
theorem At.transfer {d d' : Device} {o o' : Observer} {pc : Core1} (h : At d o pc)
    (hf : d'.fatalError = d.fatalError) (hp : d'.prefetch = d.prefetch)
    (hr : o'.records = o.records)
    (hmail : serving pc = true → SameMailbox d' d ∧ o'.submitted = o.submitted) :
    At d' o' pc := by
  have hstale {d d' : Device} (hp : d'.prefetch = d.prefetch) (hs : SameMailbox d' d)
      (h : NoStale d) : NoStale d' := by
    intro i
    rw [hp, hs.writeDrive, hs.writeLba]
    exact h i
  cases pc with
  | outside => trivial
  | pendingFatal => trivial
  | flushCommand => exact ⟨hf.trans h.1, (hmail rfl).2.trans h.2⟩
  | invalidate command => exact ⟨hf.trans h.1, h.2.transfer (hmail rfl).1 (hmail rfl).2⟩
  | writeRecord command =>
    obtain ⟨hs, ho⟩ := hmail rfl
    exact ⟨hf.trans h.1, h.2.1.transfer hs ho, hstale hp hs h.2.2⟩
  | clearPending success => cases success <;> exact hf.trans h
  | publishStatus success => exact ⟨hf.trans h.1, (hmail rfl).1.pending.trans h.2⟩
  | prefetch hint ahead => exact ⟨hf.trans h.1, h.2⟩
  | openSlot slot key words caller =>
    cases words with
    | none =>
      obtain ⟨hfatal, hkey, hslot, hw, command, rfl⟩ := h
      obtain ⟨hs, ho⟩ := hmail rfl
      exact ⟨hf.trans hfatal, hkey, hs.writeLba ▸ hslot, hw.transfer hs ho, command, rfl⟩
    | some words =>
      simp only [At] at h ⊢
      rwa [hf, hr]
  | copyWords slot words index caller =>
    simp only [At] at h ⊢
    rwa [hf, hr, hp]
  | closeSlot slot caller =>
    obtain ⟨hfatal, hholds, hcaller⟩ := h
    refine ⟨hf.trans hfatal, by rwa [hr, hp], ?_⟩
    rcases hcaller with ⟨command, rfl, hw, hn⟩ | hcaller
    · obtain ⟨hs, ho⟩ := hmail rfl
      exact Or.inl ⟨command, rfl, hw.transfer hs ho, hstale hp hs hn⟩
    · exact Or.inr hcaller
  | _ => exact hf.trans h

theorem held_of_free {pc : Core1} (hfree : serving pc = false) (o : Observer) :
    held pc o = o.records := by
  cases pc with
  | clearPending success => cases hfree
  | publishStatus success => cases hfree
  | _ => rfl

theorem Stored.transfer {d d' : Device} {o o' : Observer} {pc : Core1} (h : Stored pc d o)
    (hb : d'.backend = d.backend) (hp : d'.prefetch = d.prefetch)
    (hh : held pc o' = held pc o) : Stored pc d' o' := by
  obtain ⟨hrep, hslots⟩ := h
  refine ⟨by rwa [hb, hh], ?_⟩
  rw [hh]
  unfold SlotsOk at hslots ⊢
  rwa [hp]

/-- A port operation while core 1 serves no command. -/
theorem Inv.port {s : Session} {d' : Device} {o' : Observer} (h : Inv s)
    (hfree : serving s.core1 = false) (hf : d'.fatalError = s.device.fatalError)
    (hb : d'.backend = s.device.backend) (hp : d'.prefetch = s.device.prefetch)
    (hr : o'.records = s.observer.records) (hcore0 : Core0Ok d' o')
    (hpending : d'.pending ≠ 0 → Submitted d' o' d'.pending ∧
      (d'.status = diskStatusBusy ∨
        d'.fatalError = true ∧ d'.status = diskStatusReady ||| diskStatusError)) :
    Inv ⟨d', s.core1, o'⟩ := by
  have hno {p : Prop} (hs : serving s.core1 = true) : p := by rw [hfree] at hs; cases hs
  refine ⟨hcore0, ⟨hno, hpending⟩, h.position.transfer hf hp hr hno, fun hfatal hpc => ?_⟩
  refine (h.stored (hf ▸ hfatal) hpc).transfer hb hp ?_
  rw [held_of_free hfree, held_of_free hfree, hr]

/-- Outside BUSY core 1 serves nothing. -/
theorem Inv.free {s : Session} (h : Inv s) (hbusy : has s.device.status diskStatusBusy = false) :
    serving s.core1 = false := by
  cases hs : serving s.core1 with
  | false => rfl
  | true =>
    rw [h.mailbox.busy hs] at hbusy
    exact absurd hbusy (by decide)

/-- Outside BUSY a command is pending only after a failure. -/
theorem Inv.failed {s : Session} (h : Inv s) (hbusy : has s.device.status diskStatusBusy = false)
    (hp : s.device.pending ≠ 0) :
    s.device.fatalError = true ∧ s.device.status = diskStatusReady ||| diskStatusError := by
  rcases (h.mailbox.pending hp).2 with hb | hf
  · rw [hb] at hbusy
    exact absurd hbusy (by decide)
  · exact hf

/-- The status of a transfer tells that nothing is pending. -/
theorem Inv.idle_of_status {s : Session} (h : Inv s) {v : UInt32} (hv : s.device.status = v)
    (hbusy : has v diskStatusBusy = false) (hne : v ≠ diskStatusReady ||| diskStatusError) :
    s.device.pending = 0 := by
  by_contra hp
  exact hne (hv ▸ (h.failed (hv ▸ hbusy) hp).2)

/-- READY, with or without ERROR, belongs to no transfer. -/
theorem ready_ne {v : UInt32}
    (hv : v = diskStatusReady ∨ v = diskStatusReady ||| diskStatusError) :
    v ≠ diskStatusReady ||| diskStatusDataReady ∧ v ≠ diskStatusReady ||| diskStatusDataRoom := by
  rcases hv with rfl | rfl <;> decide

/-- A handler that ends in READY or READY with ERROR. -/
theorem Inv.ready {s : Session} (h : Inv s) (hbusy : has s.device.status diskStatusBusy = false)
    {v : UInt32} (hv : v = diskStatusReady ∨ v = diskStatusReady ||| diskStatusError)
    (hp : s.device.pending ≠ 0 → v = diskStatusReady ||| diskStatusError) (index : Nat) :
    Inv ⟨{ s.device with dataIndex := index, status := v }, s.core1, s.observer⟩ := by
  have hc := h.core0
  refine h.port (h.free hbusy) rfl rfl rfl rfl ⟨?_, ?_, ?_, hc.delivered, hc.hint⟩ fun hne => ?_
  · rcases hv with rfl | rfl
    · exact Or.inl rfl
    · exact Or.inr (Or.inl rfl)
  · exact fun he => absurd he (ready_ne hv).1
  · exact fun he => absurd he (ready_ne hv).2
  · exact ⟨(h.mailbox.pending hne).1.transfer ⟨rfl, rfl, rfl, rfl⟩ rfl,
      Or.inr ⟨(h.failed hbusy hne).1, hp hne⟩⟩

theorem prefetchTake_cases (key : UInt32) (lba : UInt16) (d : Device) :
    prefetchTake key lba d = (false, d) ∨
      has (d.prefetch (slotOf lba)).sequence 1 = false ∧ (d.prefetch (slotOf lba)).key = key ∧
        prefetchTake key lba d = (true, { d with record := (d.prefetch (slotOf lba)).words }) := by
  unfold prefetchTake
  cases hodd : has (d.prefetch (slotOf lba)).sequence 1 with
  | true => exact Or.inl (by simp [hodd])
  | false =>
    by_cases hkey : (d.prefetch (slotOf lba)).key = key
    · exact Or.inr ⟨rfl, hkey, by simp [hodd, hkey]⟩
    · exact Or.inl (by simp [hkey])

/-- A READ finds the record in its slot, or reads it from the backend. -/
theorem fetchRecord_spec {pc : Core1} {d : Device} {o : Observer} (h : Stored pc d o)
    (hfree : serving pc = false) (hdrive : d.drive.toNat < z80FlashDiskSlotCount)
    (hlba : d.lba.toNat < z80FlashRecordCount) :
    ∃ r, fetchRecord (recordKey d.drive d.lba) d = { d with record := r } ∧
      ∀ j < z80FlashRecordBytes, r j = o.records d.drive.toNat d.lba.toNat j := by
  obtain ⟨hrep, hslots⟩ := h
  rw [held_of_free hfree] at hrep hslots
  rcases prefetchTake_cases (recordKey d.drive d.lba) d.lba d with he | ⟨heven, hkey, he⟩
  · refine ⟨readRecord d.drive.toNat d.lba.toNat d.backend, by simp [fetchRecord, he], ?_⟩
    exact hrep.reads _ hdrive _ hlba
  · refine ⟨(d.prefetch (slotOf d.lba)).words, by simp [fetchRecord, he], ?_⟩
    have hslot := hslots (slotOf d.lba)
    split at hslot
    · rw [heven] at hslot; cases hslot
    · obtain ⟨-, h0 | ⟨drive, lba, ⟨hk, -⟩, -, hwords⟩⟩ := hslot
      · rw [h0] at hkey
        exact absurd hkey.symm (recordKey_ne_zero _ _)
      · obtain ⟨rfl, rfl⟩ := recordKey_inj (hkey.symm.trans hk)
        exact hwords

/-! ### Commands -/

theorem addressed_iff {d : Device} : addressed d = true ↔
    d.drive.toNat < z80FlashDiskSlotCount ∧ d.lba.toNat < z80FlashRecordCount := by
  simp [addressed]

theorem Observer.command_clear (o : Observer) (d : Device) :
    o.command diskCommandClear d = o := by
  unfold Observer.command
  split
  · rfl
  rw [if_neg (by decide)]
  split
  · rfl
  rw [if_neg (by decide), if_neg (by decide)]

theorem record_nonempty : 0 < z80FlashRecordBytes := by decide

/-- The commands a device that has not failed obeys. -/
theorem Inv.obey {s : Session} (h : Inv s) (hw : s.device.writeEnabled = true)
    (hbusy : has s.device.status diskStatusBusy = false) (hfatal : s.device.fatalError = false)
    {command : UInt8} (hclear : command ≠ diskCommandClear) :
    Inv ⟨Device.reply (startReply false command s.device), s.core1,
      s.observer.command command s.device⟩ := by
  have hfree := h.free hbusy
  have hc := h.core0
  have hzero : s.device.pending = 0 := by
    by_contra hp
    rw [(h.failed hbusy hp).1] at hfatal; cases hfatal
  have hstored := h.stored hfatal (fun hpc => by rw [hpc] at hfree; cases hfree)
  have hgate : ¬(!s.device.writeEnabled || has s.device.status diskStatusBusy ||
      s.device.fatalError) = true := by simp [hw, hbusy, hfatal]
  unfold startReply Observer.command
  rw [if_neg hclear, if_neg Bool.false_ne_true, if_neg hgate]
  by_cases hflush : command = diskCommandFlush
  · subst hflush
    rw [if_pos rfl, if_pos rfl]
    refine h.port hfree rfl rfl rfl rfl ⟨?_, ?_, ?_, hc.delivered, hc.hint⟩ fun _ => ⟨?_, Or.inl rfl⟩
    · exact Or.inr (Or.inr (Or.inr (Or.inr rfl)))
    · intro he; exact absurd he (by simp only [Device.reply, diskSubmit]; decide)
    · intro he; exact absurd he (by simp only [Device.reply, diskSubmit]; decide)
    · exact rfl
  rw [if_neg hflush, if_neg hflush]
  by_cases haddr : addressed s.device = true
  swap
  · have hout : z80FlashDiskSlotCount ≤ s.device.drive.toNat ∨
        z80FlashRecordCount ≤ s.device.lba.toNat := by rw [addressed_iff] at haddr; omega
    have hnamed : (!addressed s.device) = true := by simpa using haddr
    rw [if_pos hout, if_pos hnamed]
    exact h.ready hbusy (Or.inr rfl) (fun _ => rfl) s.device.dataIndex
  obtain ⟨hdrive, hlba⟩ := addressed_iff.mp haddr
  have hin : ¬(z80FlashDiskSlotCount ≤ s.device.drive.toNat ∨
      z80FlashRecordCount ≤ s.device.lba.toNat) := by omega
  have hnamed : ¬(!addressed s.device) = true := by simp [haddr]
  rw [if_neg hin, if_neg hnamed]
  by_cases hread : command = diskCommandRead
  · subst hread
    rw [if_pos rfl, if_pos rfl]
    obtain ⟨r, he, hr⟩ := fetchRecord_spec (d := { s.device with dataIndex := 0 })
      (hstored.transfer rfl rfl rfl) hfree hdrive hlba
    dsimp only at he ⊢
    rw [he]
    refine h.port hfree rfl rfl rfl rfl ⟨?_, ?_, ?_, hc.delivered, ?_⟩ fun hne => absurd hzero hne
    · exact Or.inr (Or.inr (Or.inl rfl))
    · intro _
      exact ⟨record_nonempty, rfl, hr⟩
    · intro he; exact absurd he (by simp only [Device.reply]; decide)
    · exact Or.inr ⟨s.device.drive, s.device.lba, rfl, hdrive, hlba⟩
  rw [if_neg hread, if_neg hread]
  by_cases hwrite : diskCommandWriteNormal ≤ command ∧ command ≤ diskCommandWriteUnallocated
  · have his : isWrite command = true := by simpa [isWrite] using hwrite
    rw [if_pos hwrite, if_pos his]
    refine h.port hfree rfl rfl rfl rfl ⟨?_, ?_, ?_, hc.delivered, hc.hint⟩
      fun hne => absurd hzero hne
    · exact Or.inr (Or.inr (Or.inr (Or.inl rfl)))
    · intro he; exact absurd he (by simp only [Device.reply]; decide)
    · intro _
      exact ⟨record_nonempty, rfl, hdrive, hlba, his⟩
  · have his : ¬isWrite command = true := by simpa [isWrite] using hwrite
    rw [if_neg hwrite, if_neg his]
    exact h.ready hbusy (Or.inr rfl) (fun _ => rfl) 0

theorem Inv.startCommand {s : Session} (h : Inv s) (hw : s.device.writeEnabled = true)
    (hbusy : has s.device.status diskStatusBusy = false) (command : UInt8) :
    Inv ⟨diskStartCommand command s.device, s.core1, s.observer.command command s.device⟩ := by
  unfold diskStartCommand
  rw [if_neg (by simp [hbusy])]
  by_cases hclear : command = diskCommandClear
  · subst hclear
    rw [Observer.command_clear]
    refine h.ready hbusy (v := diskStatusReady ||| if s.device.fatalError then diskStatusError else 0)
      ?_ (fun hp => ?_) 0
    · cases s.device.fatalError <;> simp
    · rw [(h.failed hbusy hp).1]; rfl
  cases hfatal : s.device.fatalError with
  | false => exact h.obey hw hbusy hfatal hclear
  | true =>
    unfold startReply Observer.command
    have hgate : (!s.device.writeEnabled || has s.device.status diskStatusBusy ||
        s.device.fatalError) = true := by simp [hfatal]
    rw [if_neg hclear, if_pos rfl, if_pos hgate]
    exact h.ready hbusy (Or.inr rfl) (fun _ => rfl) s.device.dataIndex

/-! ### Data bytes -/

theorem Core0Ok.dataRoom {d : Device} {o : Observer} (h : Core0Ok d o)
    (hs : has d.status diskStatusDataRoom = true) :
    d.status = diskStatusReady ||| diskStatusDataRoom := by
  rcases h.status with he | he | he | he | he <;> rw [he] at hs ⊢ <;> exact absurd hs (by decide)

theorem Core0Ok.dataReady {d : Device} {o : Observer} (h : Core0Ok d o)
    (hs : has d.status diskStatusDataReady = true) :
    d.status = diskStatusReady ||| diskStatusDataReady := by
  rcases h.status with he | he | he | he | he <;> rw [he] at hs ⊢ <;> exact absurd hs (by decide)

/-- A write command is neither FLUSH nor nothing. -/
theorem isWrite_ne {command : UInt8} (h : isWrite command = true) :
    command.toUInt32 ≠ 0 ∧ command.toUInt32 ≠ diskCommandFlush.toUInt32 := by
  obtain ⟨h1, h2⟩ : 2 ≤ command.toNat ∧ command.toNat ≤ 4 := by
    simpa [isWrite, UInt8.le_iff_toNat_le, diskCommandWriteNormal, diskCommandWriteUnallocated]
      using h
  have hflush : diskCommandFlush.toUInt32.toNat = 5 := rfl
  constructor
  · intro he
    have hn := congrArg UInt32.toNat he
    rw [UInt8.toNat_toUInt32, UInt32.toNat_zero] at hn
    omega
  · intro he
    have hn := congrArg UInt32.toNat he
    rw [UInt8.toNat_toUInt32, hflush] at hn
    omega

/-- The byte after `n` of them completes the record exactly at its length. -/
theorem last_byte {m : Record} {n : Nat} {v : UInt8} :
    (window m 0 n ++ [v]).length = z80FlashRecordBytes ↔ n + 1 = z80FlashRecordBytes := by
  rw [List.length_append, window_length, List.length_singleton]

theorem Inv.put {s : Session} (h : Inv s) (hroom : has s.device.status diskStatusDataRoom = true)
    (value : UInt8) :
    Inv ⟨if (putByte value s.device).1 then
        diskSubmit s.device.writeCommand (putByte value s.device).2
      else (putByte value s.device).2, s.core1, s.observer.put value⟩ := by
  have hc := h.core0
  have hst := hc.dataRoom hroom
  have hbusy : has s.device.status diskStatusBusy = false := by rw [hst]; decide
  have hzero := h.idle_of_status hst (by decide) (by decide)
  have hfree := h.free hbusy
  obtain ⟨hlt, hwriting, hdrive, hlba, hcommand⟩ := hc.writing hst
  have hwindow : window (Function.update s.device.record s.device.dataIndex value) 0
      (s.device.dataIndex + 1) = window s.device.record 0 s.device.dataIndex ++ [value] :=
    window_update_succ
  unfold Observer.put
  simp only [putByte, hwriting, beq_iff_eq]
  by_cases hlast : s.device.dataIndex + 1 = z80FlashRecordBytes
  · rw [if_pos hlast, if_pos (last_byte.mpr hlast)]
    refine h.port hfree rfl rfl rfl rfl ⟨?_, ?_, ?_, hc.delivered, hc.hint⟩ fun _ => ⟨?_, Or.inl rfl⟩
    · exact Or.inr (Or.inr (Or.inr (Or.inr rfl)))
    · intro he; exact absurd he (by simp only [diskSubmit]; decide)
    · intro he; exact absurd he (by simp only [diskSubmit]; decide)
    · refine Submitted.write (isWrite_ne hcommand).2 ⟨?_, hdrive, hlba⟩
      rw [← hwindow, hlast]
      rfl
  · rw [if_neg hlast, if_neg (fun hl => hlast (last_byte.mp hl))]
    refine h.port hfree rfl rfl rfl rfl ⟨Or.inr (Or.inr (Or.inr (Or.inl hst))), ?_, ?_, hc.delivered,
      hc.hint⟩ fun hne => absurd hzero hne
    · intro he
      dsimp only at he
      rw [hst] at he
      exact absurd he (by decide)
    · intro _
      refine ⟨?_, ?_, hdrive, hlba, hcommand⟩
      · dsimp only
        omega
      · rw [← hwindow]

theorem Inv.take {s : Session} (h : Inv s) (hready : has s.device.status diskStatusDataReady = true) :
    Inv ⟨if (takeByte s.device).2.1 then
        { (takeByte s.device).2.2 with status := diskStatusReady }
      else (takeByte s.device).2.2, s.core1, s.observer.take (takeByte s.device).1⟩ := by
  have hc := h.core0
  have hst := hc.dataReady hready
  have hbusy : has s.device.status diskStatusBusy = false := by rw [hst]; decide
  have hzero := h.idle_of_status hst (by decide) (by decide)
  have hfree := h.free hbusy
  obtain ⟨hlt, hbytes, hrecord⟩ := hc.reading hst
  have hwindow : window s.device.record 0 (s.device.dataIndex + 1) =
      window s.device.record 0 s.device.dataIndex ++ [s.device.record s.device.dataIndex] := by
    rw [window_succ, Nat.zero_add]
  unfold Observer.take
  simp only [takeByte, hbytes, beq_iff_eq]
  by_cases hlast : s.device.dataIndex + 1 = z80FlashRecordBytes
  · rw [if_pos hlast, if_pos (last_byte.mpr hlast)]
    refine h.port hfree rfl rfl rfl rfl ⟨Or.inl rfl, ?_, ?_, ?_, hc.hint⟩ fun hne => absurd hzero hne
    · exact fun he => absurd he (ready_ne (Or.inl rfl)).1
    · exact fun he => absurd he (ready_ne (Or.inl rfl)).2
    · intro r hr
      rcases List.mem_append.mp hr with hr | hr
      · exact hc.delivered r hr
      · rw [List.mem_singleton.mp hr, ← hwindow, hlast]
        exact window_congr fun j hj => by rw [Nat.zero_add]; exact hrecord j hj
  · rw [if_neg hlast, if_neg (fun hl => hlast (last_byte.mp hl))]
    refine h.port hfree rfl rfl rfl rfl ⟨Or.inr (Or.inr (Or.inl hst)), ?_, ?_, hc.delivered,
      hc.hint⟩ fun hne => absurd hzero hne
    · intro _
      refine ⟨?_, ?_, hrecord⟩
      · dsimp only
        omega
      · rw [← hwindow]
    · intro he
      dsimp only at he
      rw [hst] at he
      exact absurd he (by decide)

/-! ### Port operations -/

/-- BUSY: the ports neither change the device nor tell the observer anything. -/
theorem ioWrite_busy {d : Device} {o : Observer} (hbusy : has d.status diskStatusBusy = true)
    (hroom : has d.status diskStatusDataRoom = false) (port value : UInt8) :
    diskIoWrite port value d = d ∧ o.ioWrite port value d = o := by
  constructor
  · unfold diskIoWrite diskStartCommand
    simp [hbusy]
  · unfold Observer.ioWrite Observer.command
    simp [hbusy, hroom]

theorem setAddress_eq (port value : UInt8) (d : Device) :
    ∃ drive lba, setAddress port value d = { d with drive := drive, lba := lba } := by
  unfold setAddress
  split_ifs
  · exact ⟨value, d.lba, rfl⟩
  · exact ⟨d.drive, _, rfl⟩
  · exact ⟨d.drive, _, rfl⟩
  · exact ⟨d.drive, d.lba, rfl⟩

/-- The address registers, and the two switches, matter to nobody yet. -/
theorem Inv.registers {s : Session} (h : Inv s) (drive : UInt8) (lba : UInt16)
    (enabled flush : Bool) :
    Inv { s with device := { s.device with drive := drive, lba := lba, writeEnabled := enabled,
                                           supervisorFlush := flush } } := by
  obtain ⟨hc, hm, hpos, hstored⟩ := h
  refine ⟨⟨hc.status, hc.reading, hc.writing, hc.delivered, hc.hint⟩, ⟨hm.busy, fun hne => ?_⟩, ?_, ?_⟩
  · exact ⟨(hm.pending hne).1.transfer ⟨rfl, rfl, rfl, rfl⟩ rfl, (hm.pending hne).2⟩
  · exact hpos.transfer rfl rfl rfl fun _ => ⟨⟨rfl, rfl, rfl, rfl⟩, rfl⟩
  · exact fun hfatal hpc => (hstored hfatal hpc).transfer rfl rfl rfl

theorem Inv.ioWrite {s : Session} (h : Inv s) (port value : UInt8) :
    Inv (s.step (.ioWrite port value)) := by
  show Inv ⟨diskIoWrite port value s.device, s.core1, s.observer.ioWrite port value s.device⟩
  cases hw : s.device.writeEnabled with
  | false =>
    have hd : diskIoWrite port value s.device = s.device := by simp [diskIoWrite, hw]
    have ho : s.observer.ioWrite port value s.device = s.observer := by
      simp [Observer.ioWrite, Observer.command, hw]
    rwa [hd, ho]
  | true =>
  cases hbusy : has s.device.status diskStatusBusy with
  | true =>
    have hroom : has s.device.status diskStatusDataRoom = false := by
      rw [Bool.eq_false_iff]
      intro hr
      rw [h.core0.dataRoom hr] at hbusy
      exact absurd hbusy (by decide)
    obtain ⟨hd, ho⟩ := ioWrite_busy (o := s.observer) hbusy hroom port value
    rwa [hd, ho]
  | false =>
    unfold diskIoWrite Observer.ioWrite
    simp only [hw, hbusy, Bool.not_true, Bool.false_eq_true, if_false, true_and]
    by_cases hcmd : port = diskCommandStatusPort
    · rw [if_pos hcmd, if_pos hcmd]
      exact h.startCommand hw hbusy value
    rw [if_neg hcmd, if_neg hcmd]
    by_cases hdata : port = diskDataPort
    · simp only [hdata, true_and, if_true]
      cases hroom : has s.device.status diskStatusDataRoom with
      | false => exact h
      | true => exact h.put hroom value
    · simp only [hdata, false_and, if_false]
      obtain ⟨drive, lba, he⟩ := setAddress_eq port value s.device
      rw [he]
      exact h.registers drive lba s.device.writeEnabled s.device.supervisorFlush

theorem Inv.ioRead {s : Session} (h : Inv s) (port : UInt8) : Inv (s.step (.ioRead port)) := by
  show Inv ⟨(diskIoRead port s.device).2, s.core1,
    s.observer.ioRead port (diskIoRead port s.device).1 s.device⟩
  unfold diskIoRead Observer.ioRead
  by_cases hcmd : port = diskCommandStatusPort
  · have hne : port ≠ diskDataPort := by rw [hcmd]; decide
    simp only [hcmd, if_true]
    rw [if_neg (fun hp => absurd hp.1 (hcmd ▸ hne))]
    exact h
  rw [if_neg hcmd]
  by_cases hdata : port = diskDataPort
  · cases hready : has s.device.status diskStatusDataReady with
    | false =>
      simp only [hdata, ne_eq, not_true, false_or, Bool.not_false, if_true, Bool.false_eq_true,
        and_false, if_false]
      exact h
    | true =>
      simp only [hdata, ne_eq, not_true, false_or, Bool.not_true, Bool.false_eq_true, if_false,
        and_self, if_true]
      exact h.take hready
  · rw [if_pos (Or.inl hdata), if_neg (fun hp => hdata hp.1)]
    exact h

/-! ## Core 1 -/

/-- What core 1 leaves alone until it clears the command or publishes. -/
structure Untouched (d d' : Device) : Prop where
  status : d.status = d'.status
  dataIndex : d.dataIndex = d'.dataIndex
  writeCommand : d.writeCommand = d'.writeCommand
  hint : d.prefetchHint = d'.prefetchHint
  mailbox : SameMailbox d d'

/-- A step of core 1 between publications. -/
theorem Inv.service {s : Session} (h : Inv s) {d' : Device} {pc' : Core1}
    (hu : Untouched d' s.device) (hfatal : s.device.fatalError = true → d'.fatalError = true)
    (hbusy : serving pc' = true → s.device.status = diskStatusBusy)
    (hat : At d' s.observer pc')
    (hstored : d'.fatalError = false → pc' ≠ .pendingFatal → Stored pc' d' s.observer) :
    Inv ⟨d', pc', s.observer⟩ := by
  obtain ⟨hstatus, hindex, hcommand, hhint, hmail⟩ := hu
  have hc := h.core0
  refine ⟨⟨?_, ?_, ?_, hc.delivered, hhint ▸ hc.hint⟩, ⟨?_, ?_⟩, hat, hstored⟩
  · rw [hstatus]; exact hc.status
  · rw [hstatus, hindex, hmail.record]; exact hc.reading
  · rw [hstatus, hindex, hmail.record, hmail.writeDrive, hmail.writeLba, hcommand]
    exact hc.writing
  · rw [hstatus]; exact hbusy
  · rw [hstatus, hmail.pending]
    intro hne
    obtain ⟨hsub, hst⟩ := h.mailbox.pending hne
    exact ⟨hsub.transfer hmail rfl, hst.imp_right fun hf => ⟨hfatal hf.1, hf.2⟩⟩

/-- Moving on without touching the device. -/
theorem Stored.move {pc pc' : Core1} {d : Device} {o : Observer} (h : Stored pc d o)
    (hh : held pc' o = held pc o) (ho : opened pc' = opened pc) : Stored pc' d o := by
  obtain ⟨hrep, hslots⟩ := h
  refine ⟨by rwa [hh], ?_⟩
  unfold SlotsOk at hslots ⊢
  rwa [hh, ho]

/-- A backend call that keeps the records. -/
theorem Stored.backend {pc : Core1} {d : Device} {o : Observer} (h : Stored pc d o) {b : Backend}
    (hb : Represents b (held pc o)) : Stored pc { d with backend := b } o := ⟨hb, h.slots⟩

/-- A key stands only in the slot its record is mapped to. -/
theorem SlotsOk.mapped {r : Records} {pc : Core1} {d : Device} (h : SlotsOk r pc d)
    (ho : opened pc = none) {i : Nat} {drive : UInt8} {lba : UInt16}
    (hkey : (d.prefetch i).key = recordKey drive lba) : i = slotOf lba := by
  have hi := h i
  rw [ho, if_neg (by simp)] at hi
  obtain ⟨-, h0 | ⟨drive', lba', ⟨hk, -⟩, hslot, -⟩⟩ := hi
  · exact absurd (hkey.symm.trans h0) (recordKey_ne_zero _ _)
  · rw [hslot, (recordKey_inj (hkey.symm.trans hk)).2]

theorem Holds.set {r : Records} {i : Nat} {key : UInt32} {words : Record} (h : Holds r i key words)
    {drive : UInt8} {lba : UInt16} (hne : key ≠ recordKey drive lba) (data : Nat → UInt8) :
    Holds (r.set drive.toNat lba.toNat data) i key words := by
  rcases h with h0 | ⟨drive', lba', hk, hslot, hwords⟩
  · exact Or.inl h0
  · refine Or.inr ⟨drive', lba', hk, hslot, fun j hj => ?_⟩
    rw [hwords j hj, Records.set, if_neg]
    rintro ⟨hd, hl⟩
    rw [hk.1, UInt8.toNat_inj.mp hd, UInt16.toNat_inj.mp hl] at hne
    exact hne rfl

theorem Holds.congr {r : Records} {i : Nat} {key : UInt32} {words words' : Record}
    (h : Holds r i key words) (he : ∀ j < z80FlashRecordBytes, words' j = words j) :
    Holds r i key words' := by
  rcases h with h0 | ⟨drive, lba, hk, hslot, hwords⟩
  · exact Or.inl h0
  · exact Or.inr ⟨drive, lba, hk, hslot, fun j hj => (he j hj).trans (hwords j hj)⟩

/-- Core 1 is inside the service, and the store is as it should be. -/
theorem Inv.storedAt {s : Session} (h : Inv s) (hf : s.device.fatalError = false)
    (hpc : s.core1 ≠ .pendingFatal) : Stored s.core1 s.device s.observer := h.stored hf hpc

/-! ### Serving a command -/

/-- After the backend call: a success is carried out, a failure stored next. -/
theorem Inv.afterCommand {s : Session} (h : Inv s) (hserving : serving s.core1 = true)
    (hfatal : s.device.fatalError = false) {success : Bool} {b : Backend}
    (hs : success = true → Stored (.clearPending true) { s.device with backend := b } s.observer) :
    Inv ⟨{ s.device with backend := b }, afterCommand success, s.observer⟩ := by
  have hbusy := h.mailbox.busy hserving
  have hu : Untouched { s.device with backend := b } s.device :=
    ⟨rfl, rfl, rfl, rfl, rfl, rfl, rfl, rfl⟩
  cases success with
  | true => exact h.service hu id (fun _ => hbusy) hfatal fun _ _ => hs rfl
  | false => exact h.service hu id (fun _ => hbusy) trivial fun _ hpc => absurd rfl hpc

theorem Inv.flushCommand {s : Session} (h : Inv s) (hpc : s.core1 = .flushCommand)
    (o : FlushOutcome) :
    Inv ⟨{ s.device with backend := (flushDiskCache o s.device.backend).2 },
      Disk.afterCommand (flushDiskCache o s.device.backend).1, s.observer⟩ := by
  obtain ⟨hfatal, hnone⟩ : s.device.fatalError = false ∧ s.observer.submitted = none := by
    simpa only [hpc, At] using h.position
  have hst := h.stored hfatal (by rw [hpc]; exact Core1.noConfusion)
  have hheld : held (.clearPending true) s.observer = held s.core1 s.observer := by
    rw [hpc]
    simp only [held, carriedOut, if_true, Bool.false_eq_true, if_false, Observer.published, hnone]
  refine h.afterCommand (by rw [hpc]; rfl) hfatal fun _ => ?_
  refine (hst.backend ?_).move hheld (by rw [hpc]; rfl)
  exact hst.represents.flush (flushDiskCache_spec o hst.represents.cache)

theorem Inv.writeRecord {s : Session} (h : Inv s) {command : UInt32}
    (hpc : s.core1 = .writeRecord command) (w : Weather) (writeType : Nat) :
    let call := Flash.writeRecord w.evict w.flush w.now s.device.writeDrive.toNat
      s.device.writeLba.toNat s.device.record writeType s.device.backend
    Inv ⟨{ s.device with backend := call.2 }, Disk.afterCommand call.1, s.observer⟩ := by
  intro call
  obtain ⟨hfatal, hsub, hstale⟩ : s.device.fatalError = false ∧
      WriteSubmitted s.device s.observer ∧ NoStale s.device := by
    simpa only [hpc, At] using h.position
  have hst := h.stored hfatal (by rw [hpc]; exact Core1.noConfusion)
  have hheld : held s.core1 s.observer = s.observer.records := by rw [hpc]; rfl
  have hbytes : ∀ j < z80FlashRecordBytes, s.device.record j =
      (window s.device.record 0 z80FlashRecordBytes).getD j 0 := by
    intro j hj
    rw [window_getD hj, Nat.zero_add]
  have hpub : held (.clearPending true) s.observer = s.observer.records.set
      s.device.writeDrive.toNat s.device.writeLba.toNat
      fun j => (window s.device.record 0 z80FlashRecordBytes).getD j 0 := by
    simp only [held, carriedOut, if_true, Observer.published, hsub.submitted]
  refine h.afterCommand (by rw [hpc]; rfl) hfatal fun hok => ⟨?_, fun i => ?_⟩
  · obtain ⟨hwritable, hselected⟩ := writeRecord_ok hok
    have hrep : Represents call.2 _ := writeRecord_represents w.evict w.flush w.now hst.represents
    rw [hwritable, hselected, hheld] at hrep
    rw [hpub]
    exact hrep.congr (Records.set_congr _ _ _ hbytes)
  · have hi := hst.slots i
    rw [hpc] at hi
    obtain ⟨heven, hholds⟩ := hi
    rw [hpub]
    exact ⟨heven, hholds.set (hstale i) _⟩

/-- The slot of the record about to be written, if it holds it, is rewritten. -/
theorem Inv.invalidate {s : Session} (h : Inv s) {command : UInt32}
    (hpc : s.core1 = .invalidate command) :
    Inv ⟨s.device, if (s.device.prefetch (slotOf s.device.writeLba)).key =
        recordKey s.device.writeDrive s.device.writeLba then
      .openSlot (slotOf s.device.writeLba) 0 none (.writeRecord command)
      else .writeRecord command, s.observer⟩ := by
  obtain ⟨hfatal, hsub⟩ : s.device.fatalError = false ∧ WriteSubmitted s.device s.observer := by
    simpa only [hpc, At] using h.position
  have hst := h.stored hfatal (by rw [hpc]; exact Core1.noConfusion)
  have hbusy := h.mailbox.busy (by rw [hpc]; rfl)
  have hnone : opened s.core1 = none := by rw [hpc]; rfl
  have hu : Untouched s.device s.device := ⟨rfl, rfl, rfl, rfl, rfl, rfl, rfl, rfl⟩
  split
  · refine h.service hu id (fun _ => hbusy) ⟨hfatal, rfl, rfl, hsub, command, rfl⟩ fun _ _ => ?_
    exact hst.move (by rw [hpc]; rfl) hnone.symm
  · rename_i hkey
    refine h.service hu id (fun _ => hbusy) ⟨hfatal, hsub, fun i he => ?_⟩ fun _ _ => ?_
    · rw [hst.slots.mapped hnone he] at he
      exact hkey he
    · exact hst.move (by rw [hpc]; rfl) hnone.symm

/-- The completion of a command: the observer's records change on READY. -/
theorem Inv.publishStatus {s : Session} (h : Inv s) {success : Bool}
    (hpc : s.core1 = .publishStatus success) :
    Inv ⟨{ s.device with status := diskStatusReady ||| if success then 0 else diskStatusError },
      if success then .loadHint else .outside, s.observer.core1 s.core1⟩ := by
  have hc := h.core0
  obtain ⟨hfatal, hzero⟩ : s.device.fatalError = !success ∧ s.device.pending = 0 := by
    simpa only [hpc, At] using h.position
  rw [hpc]
  cases success with
  | true =>
    have hst := h.stored hfatal (by rw [hpc]; exact Core1.noConfusion)
    refine ⟨⟨Or.inl rfl, ?_, ?_, hc.delivered, hc.hint⟩, ⟨?_, fun hne => absurd hzero hne⟩, hfatal,
      fun _ _ => ?_⟩
    · exact fun he => absurd he (ready_ne (Or.inl rfl)).1
    · exact fun he => absurd he (ready_ne (Or.inl rfl)).2
    · exact fun hs => by cases hs
    · rw [hpc] at hst
      exact ⟨hst.represents, hst.slots⟩
  | false =>
    refine ⟨⟨Or.inr (Or.inl rfl), ?_, ?_, hc.delivered, hc.hint⟩,
      ⟨?_, fun hne => absurd hzero hne⟩, trivial, fun hf => ?_⟩
    · exact fun he => absurd he (ready_ne (Or.inr rfl)).1
    · exact fun he => absurd he (ready_ne (Or.inr rfl)).2
    · exact fun hs => by cases hs
    · dsimp only at hf
      rw [hfatal] at hf
      cases hf

/-! ### Publishing a slot -/

theorem setSlot_self (d : Device) (slot : Nat) (v : PrefetchSlot) :
    (d.setSlot slot v).prefetch slot = v := by
  simp only [Device.setSlot, Function.update_self]

theorem setSlot_other (d : Device) {slot i : Nat} (v : PrefetchSlot) (hi : i ≠ slot) :
    (d.setSlot slot v).prefetch i = d.prefetch i := by
  simp only [Device.setSlot, Function.update_of_ne hi]

theorem untouched_setSlot (d : Device) (slot : Nat) (v : PrefetchSlot) :
    Untouched (d.setSlot slot v) d := ⟨rfl, rfl, rfl, rfl, rfl, rfl, rfl, rfl⟩

theorem SlotsOk.odd {r : Records} {pc : Core1} {d : Device} (h : SlotsOk r pc d) {slot : Nat}
    (ho : opened pc = some slot) : has (d.prefetch slot).sequence 1 = true := by
  have hi := h slot
  rwa [if_pos ho] at hi

theorem SlotsOk.even {r : Records} {pc : Core1} {d : Device} (h : SlotsOk r pc d)
    (ho : opened pc = none) (i : Nat) : has (d.prefetch i).sequence 1 = false ∧
      Holds r i (d.prefetch i).key (d.prefetch i).words := by
  have hi := h i
  rwa [ho, if_neg (by simp)] at hi

/-- Rewriting one slot: the others are as they were. -/
theorem SlotsOk.setSlot {r : Records} {pc pc' : Core1} {d : Device} (h : SlotsOk r pc d)
    {slot : Nat} {v : PrefetchSlot} (hpc : opened pc = none ∨ opened pc = some slot)
    (hv : opened pc' = some slot ∧ has v.sequence 1 = true ∨
      opened pc' = none ∧ has v.sequence 1 = false ∧ Holds r slot v.key v.words) :
    SlotsOk r pc' (d.setSlot slot v) := by
  intro i
  by_cases hi : i = slot
  · subst hi
    rw [setSlot_self]
    rcases hv with ⟨ho, hv⟩ | ⟨ho, hv⟩
    · rwa [if_pos ho]
    · rwa [ho, if_neg (by simp)]
  · have hne : some slot ≠ some i := fun he => hi (Option.some.inj he).symm
    have hold := h i
    rw [if_neg (by rcases hpc with hpc | hpc <;> rw [hpc]; exacts [by simp, hne])] at hold
    rw [setSlot_other d v hi]
    rcases hv with ⟨ho, -⟩ | ⟨ho, -⟩
    · rwa [ho, if_neg hne]
    · rwa [ho, if_neg (by simp)]

/-- A slot is opened: its sequence turns odd before its key changes. -/
theorem Inv.openSlot {s : Session} (h : Inv s) {slot : Nat} {key : UInt32} {words : Option Record}
    {caller : Caller} (hpc : s.core1 = .openSlot slot key words caller) (w : Weather) :
    Inv ⟨(core1Step w s.device s.core1).1, (core1Step w s.device s.core1).2, s.observer⟩ := by
  have hpos := h.position
  have hbusy := h.mailbox.busy
  rw [hpc] at hpos hbusy ⊢
  have hfatal : s.device.fatalError = false := by
    cases words <;> exact hpos.1
  have hst := h.stored hfatal (by rw [hpc]; exact Core1.noConfusion)
  rw [hpc] at hst
  have hodd : has ((s.device.prefetch slot).sequence + 1) 1 = true := by
    rw [has_one_succ, (hst.slots.even rfl slot).1]
    rfl
  have hu := untouched_setSlot s.device slot { s.device.prefetch slot with
    sequence := (s.device.prefetch slot).sequence + 1, key := key }
  cases words with
  | none =>
    obtain ⟨-, rfl, rfl, hsub, command, rfl⟩ := hpos
    simp only [core1Step]
    refine h.service hu id (fun _ => hbusy rfl) ⟨hfatal, Or.inl ?_, Or.inl ⟨command, rfl, ?_, ?_⟩⟩
      fun _ _ => ⟨hst.represents, hst.slots.setSlot (Or.inl rfl) (Or.inl ⟨rfl, hodd⟩)⟩
    · rw [setSlot_self]
    · exact hsub.transfer ⟨rfl, rfl, rfl, rfl⟩ rfl
    · intro i
      by_cases hi : i = slotOf s.device.writeLba
      · rw [hi, setSlot_self]
        exact (recordKey_ne_zero _ _).symm
      · rw [setSlot_other _ _ hi]
        exact fun he => hi (hst.slots.mapped rfl he)
  | some words =>
    obtain ⟨-, hholds, hint, ahead, rfl, hhint⟩ := hpos
    simp only [core1Step]
    refine h.service hu id (fun hs => by cases hs) ⟨hfatal, ?_, ?_, hint, ahead, rfl, hhint⟩
      fun _ _ => ⟨hst.represents, hst.slots.setSlot (Or.inl rfl) (Or.inl ⟨rfl, hodd⟩)⟩
    · rwa [setSlot_self]
    · intro j hj
      simp only [Nat.mul_zero] at hj
      exact absurd hj (Nat.not_lt_zero j)

/-- The words go in one by one; after the last the slot holds its record. -/
theorem Inv.copyWords {s : Session} (h : Inv s) {slot : Nat} {words : Record} {index : Nat}
    {caller : Caller} (hpc : s.core1 = .copyWords slot words index caller) (w : Weather) :
    Inv ⟨(core1Step w s.device s.core1).1, (core1Step w s.device s.core1).2, s.observer⟩ := by
  have hpos := h.position
  rw [hpc] at hpos ⊢
  obtain ⟨hfatal, hholds, hprefix, hint, ahead, rfl, hhint⟩ := hpos
  have hst := h.stored hfatal (by rw [hpc]; exact Core1.noConfusion)
  rw [hpc] at hst
  have hodd := hst.slots.odd rfl
  unfold core1Step
  by_cases hlt : index < z80FlashRecordBytes / 4
  · simp only [if_pos hlt]
    refine h.service (untouched_setSlot _ _ _) id (fun hs => by cases hs)
      ⟨hfatal, ?_, ?_, hint, ahead, rfl, hhint⟩
      fun _ _ => ⟨hst.represents, hst.slots.setSlot (Or.inr rfl) (Or.inl ⟨rfl, hodd⟩)⟩
    · rwa [setSlot_self]
    · intro j hj
      rw [setSlot_self]
      dsimp only [copyWord]
      by_cases hin : 4 * index ≤ j ∧ j < 4 * index + 4
      · rw [overlay_mem hin.1 hin.2]
        congr 1
        omega
      · rw [overlay_outside hin]
        exact hprefix j (by omega)
  · simp only [if_neg hlt]
    refine h.service ⟨rfl, rfl, rfl, rfl, rfl, rfl, rfl, rfl⟩ id (fun hs => by cases hs)
      ⟨hfatal, hholds.congr fun j hj => hprefix j ?_, Or.inr ⟨hint, ahead, rfl, hhint⟩⟩
      fun _ _ => hst.move rfl rfl
    simp only [z80FlashRecordBytes] at hlt hj
    omega

theorem Inv.closeSlot {s : Session} (h : Inv s) {slot : Nat} {caller : Caller}
    (hpc : s.core1 = .closeSlot slot caller) (w : Weather) :
    Inv ⟨(core1Step w s.device s.core1).1, (core1Step w s.device s.core1).2, s.observer⟩ := by
  have hpos := h.position
  have hbusy := h.mailbox.busy
  rw [hpc] at hpos hbusy ⊢
  obtain ⟨hfatal, hholds, hcaller⟩ := hpos
  have hst := h.stored hfatal (by rw [hpc]; exact Core1.noConfusion)
  rw [hpc] at hst
  have heven : has ((s.device.prefetch slot).sequence + 1) 1 = false := by
    rw [has_one_succ, hst.slots.odd rfl]
    rfl
  have hu := untouched_setSlot s.device slot { s.device.prefetch slot with
    sequence := (s.device.prefetch slot).sequence + 1 }
  simp only [core1Step]
  rcases hcaller with ⟨command, rfl, hsub, hstale⟩ | ⟨hint, ahead, rfl, hhint⟩
  · refine h.service hu id (fun _ => hbusy rfl)
      ⟨hfatal, hsub.transfer ⟨rfl, rfl, rfl, rfl⟩ rfl, fun i => ?_⟩
      fun _ _ => ⟨hst.represents, hst.slots.setSlot (Or.inr rfl) (Or.inr ⟨rfl, heven, hholds⟩)⟩
    by_cases hi : i = slot
    · subst hi
      rw [setSlot_self]
      exact hstale i
    · rw [setSlot_other _ _ hi]
      exact hstale i
  · exact h.service hu id (fun hs => by cases hs) ⟨hfatal, hhint⟩
      fun _ _ => ⟨hst.represents, hst.slots.setSlot (Or.inr rfl) (Or.inr ⟨rfl, heven, hholds⟩)⟩

/-- The read-ahead reads what the backend holds, for a slot it is mapped to. -/
theorem Inv.prefetch {s : Session} (h : Inv s) {hint : UInt32} {ahead : Nat}
    (hpc : s.core1 = .prefetch hint ahead) (w : Weather) :
    Inv ⟨(core1Step w s.device s.core1).1, (core1Step w s.device s.core1).2, s.observer⟩ := by
  have hpos := h.position
  rw [hpc] at hpos ⊢
  obtain ⟨hfatal, hhint, hne⟩ := hpos
  have hst := h.stored hfatal (by rw [hpc]; exact Core1.noConfusion)
  rw [hpc] at hst
  have hu : Untouched s.device s.device := ⟨rfl, rfl, rfl, rfl, rfl, rfl, rfl, rfl⟩
  unfold core1Step
  dsimp only
  split
  · exact h.service hu id (fun hs => by cases hs) trivial fun _ _ => hst.move rfl rfl
  rename_i hmore
  dsimp only
  split
  · exact h.service hu id (fun hs => by cases hs) ⟨hfatal, hhint, hne⟩ fun _ _ => hst.move rfl rfl
  obtain ⟨drive, lba, rfl, hdrive, -⟩ := hhint.resolve_left hne
  rw [hintDrive_recordKey, hintLba_recordKey] at *
  have hlt : lba.toNat + ahead < z80FlashRecordCount := by omega
  have hnext : (UInt16.ofNat (lba.toNat + ahead)).toNat = lba.toNat + ahead := by
    rw [UInt16.toNat_ofNat']
    simp only [z80FlashRecordCount] at hlt
    omega
  refine h.service hu id (fun hs => by cases hs)
    ⟨hfatal, Or.inr ⟨drive, _, ⟨rfl, hdrive, by rwa [hnext]⟩, rfl, ?_⟩, _, _, rfl, hhint, hne⟩
    fun _ _ => hst.move rfl rfl
  rw [hnext]
  exact hst.represents.reads _ hdrive _ hlt

/-! ### One step -/

/-- A step that moves the program counter outside of a command. -/
theorem Inv.moveTo {s : Session} (h : Inv s) (hpc : s.core1 ≠ .pendingFatal)
    (hfatal : s.device.fatalError = false) {pc' : Core1} (hfree : serving pc' = false)
    (hh : held pc' s.observer = held s.core1 s.observer) (ho : opened pc' = opened s.core1)
    (hat : At s.device s.observer pc') : Inv ⟨s.device, pc', s.observer⟩ := by
  refine h.service ⟨rfl, rfl, rfl, rfl, rfl, rfl, rfl, rfl⟩ id ?_ hat
    fun _ _ => (h.stored hfatal hpc).move hh ho
  intro hs
  rw [hfree] at hs; cases hs

/-- A flush outside of a command. -/
theorem Inv.flushIdle {s : Session} (h : Inv s) (hpc : s.core1 ≠ .pendingFatal)
    (hfatal : s.device.fatalError = false) (o : FlushOutcome) {pc' : Core1}
    (hfree : serving pc' = false) (hh : held pc' s.observer = held s.core1 s.observer)
    (ho : opened pc' = opened s.core1)
    (hat : At { s.device with backend := (flushDiskCache o s.device.backend).2 } s.observer pc') :
    Inv ⟨{ s.device with backend := (flushDiskCache o s.device.backend).2 }, pc', s.observer⟩ := by
  have hst := h.stored hfatal hpc
  refine h.service ⟨rfl, rfl, rfl, rfl, rfl, rfl, rfl, rfl⟩ id ?_ hat fun _ _ =>
    (hst.backend (hst.represents.flush (flushDiskCache_spec o hst.represents.cache))).move hh ho
  intro hs
  rw [hfree] at hs; cases hs

theorem Inv.loadPending {s : Session} (h : Inv s) (hpc : s.core1 = .loadPending) (w : Weather) :
    Inv ⟨(core1Step w s.device s.core1).1, (core1Step w s.device s.core1).2, s.observer⟩ := by
  have hfatal : s.device.fatalError = false := by simpa only [hpc, At] using h.position
  have hst := h.stored hfatal (by rw [hpc]; exact Core1.noConfusion)
  have hu : Untouched s.device s.device := ⟨rfl, rfl, rfl, rfl, rfl, rfl, rfl, rfl⟩
  rw [hpc] at hst ⊢
  simp only [core1Step]
  by_cases hzero : s.device.pending = 0
  · rw [if_neg (not_not.mpr hzero)]
    exact h.service hu id (fun hs => by cases hs) hfatal fun _ _ => hst.move rfl rfl
  rw [if_pos hzero]
  obtain ⟨hsub, hst'⟩ := h.mailbox.pending hzero
  have hbusy : s.device.status = diskStatusBusy := by
    rcases hst' with hb | ⟨hf, -⟩
    · exact hb
    · rw [hfatal] at hf; cases hf
  unfold Submitted at hsub
  split
  · rename_i hflush
    rw [if_pos hflush] at hsub
    exact h.service hu id (fun _ => hbusy) ⟨hfatal, hsub⟩ fun _ _ => hst.move rfl rfl
  · rename_i hflush
    rw [if_neg hflush] at hsub
    exact h.service hu id (fun _ => hbusy) ⟨hfatal, hsub⟩ fun _ _ => hst.move rfl rfl

theorem Inv.storeFatal {s : Session} (h : Inv s) {pc' : Core1}
    (hbusy : serving pc' = true → s.device.status = diskStatusBusy)
    (hat : At { s.device with fatalError := true } s.observer pc') :
    Inv ⟨{ s.device with fatalError := true }, pc', s.observer⟩ :=
  h.service ⟨rfl, rfl, rfl, rfl, rfl, rfl, rfl, rfl⟩ (fun _ => rfl) hbusy hat
    fun hf _ => by cases hf

theorem Inv.clearPending {s : Session} (h : Inv s) {success : Bool}
    (hpc : s.core1 = .clearPending success) :
    Inv ⟨{ s.device with pending := 0 }, .publishStatus success, s.observer⟩ := by
  have hc := h.core0
  have hbusy := h.mailbox.busy (by rw [hpc]; rfl)
  have hfatal : s.device.fatalError = !success := by
    have hpos := h.position
    rw [hpc] at hpos
    cases success <;> exact hpos
  refine ⟨⟨hc.status, hc.reading, hc.writing, hc.delivered, hc.hint⟩,
    ⟨fun _ => hbusy, fun hne => absurd rfl hne⟩, ⟨hfatal, rfl⟩, fun hf _ => ?_⟩
  cases success with
  | true =>
    have hst := h.stored hf (by rw [hpc]; exact Core1.noConfusion)
    rw [hpc] at hst
    exact ⟨hst.represents, hst.slots⟩
  | false =>
    dsimp only at hf
    rw [hfatal] at hf; cases hf

theorem Inv.publishError {s : Session} (h : Inv s) (hpc : s.core1 = .publishError) :
    Inv ⟨{ s.device with status := diskStatusReady ||| diskStatusError }, .outside,
      s.observer⟩ := by
  have hc := h.core0
  have hfatal : s.device.fatalError = true := by simpa only [hpc, At] using h.position
  refine ⟨⟨Or.inr (Or.inl rfl), ?_, ?_, hc.delivered, hc.hint⟩,
    ⟨fun hs => (by cases hs), fun hne => ⟨?_, Or.inr ⟨hfatal, rfl⟩⟩⟩, trivial, fun hf => ?_⟩
  · exact fun he => absurd he (ready_ne (Or.inr rfl)).1
  · exact fun he => absurd he (ready_ne (Or.inr rfl)).2
  · exact (h.mailbox.pending hne).1.transfer ⟨rfl, rfl, rfl, rfl⟩ rfl
  · dsimp only at hf
    rw [hfatal] at hf; cases hf

/-- Every step of core 1, one case for each place it can stand at. -/
theorem Inv.core1 {s : Session} (h : Inv s) (w : Weather) : Inv (s.step (.core1 w)) := by
  show Inv ⟨(core1Step w s.device s.core1).1, (core1Step w s.device s.core1).2,
    s.observer.core1 s.core1⟩
  have hpos := h.position
  cases hpc : s.core1 with
  | outside =>
    cases hfatal : s.device.fatalError with
    | true =>
      have he : core1Step w s.device .outside = (s.device, s.core1) := by
        simp [core1Step, hfatal, hpc]
      rw [he]
      exact h
    | false =>
      have hne : s.core1 ≠ .pendingFatal := by rw [hpc]; exact Core1.noConfusion
      simp only [core1Step, hfatal, Bool.false_eq_true, if_false]
      exact h.moveTo hne hfatal rfl (by rw [hpc]; rfl) (by rw [hpc]; rfl) hfatal
  | loadPending =>
    have hs := h.loadPending hpc w
    rwa [hpc] at hs
  | flushCommand => exact h.flushCommand hpc w.flush
  | invalidate command => exact h.invalidate hpc
  | writeRecord command => exact h.writeRecord hpc w _
  | pendingFatal => exact h.storeFatal (fun _ => h.mailbox.busy (by rw [hpc]; rfl)) rfl
  | clearPending success =>
    have hs := h.clearPending hpc
    cases success <;> exact hs
  | publishStatus success =>
    have hs := h.publishStatus hpc
    rwa [hpc] at hs
  | openSlot slot key words caller =>
    have hs := h.openSlot hpc w
    rwa [hpc] at hs
  | copyWords slot words index caller =>
    have hs := h.copyWords hpc w
    rwa [hpc] at hs
  | closeSlot slot caller =>
    have hs := h.closeSlot hpc w
    rwa [hpc] at hs
  | prefetch hint ahead =>
    have hs := h.prefetch hpc w
    rwa [hpc] at hs
  | publishError => exact h.publishError hpc
  | storeFatal => exact h.storeFatal (fun hs => by cases hs) rfl
  | loadSupervisor | flushDue =>
    have hne : s.core1 ≠ .pendingFatal := by rw [hpc]; exact Core1.noConfusion
    rw [hpc] at hpos
    simp only [core1Step]
    split
    · exact h.moveTo hne hpos rfl (by rw [hpc]; rfl) (by rw [hpc]; rfl) hpos
    · exact h.moveTo hne hpos rfl (by rw [hpc]; rfl) (by rw [hpc]; rfl) hpos
  | supervisorFlush =>
    have hne : s.core1 ≠ .pendingFatal := by rw [hpc]; exact Core1.noConfusion
    rw [hpc] at hpos
    exact h.flushIdle hne hpos w.flush rfl (by rw [hpc]; rfl) (by rw [hpc]; rfl) hpos
  | clearSupervisor success =>
    have hne : s.core1 ≠ .pendingFatal := by rw [hpc]; exact Core1.noConfusion
    rw [hpc] at hpos
    have hm : Inv ⟨s.device, if success then .loadHint else .storeFatal, s.observer⟩ := by
      split
      · exact h.moveTo hne hpos rfl (by rw [hpc]; rfl) (by rw [hpc]; rfl) hpos
      · exact h.moveTo hne hpos rfl (by rw [hpc]; rfl) (by rw [hpc]; rfl) hpos
    exact hm.registers s.device.drive s.device.lba s.device.writeEnabled false
  | idleFlush =>
    have hne : s.core1 ≠ .pendingFatal := by rw [hpc]; exact Core1.noConfusion
    rw [hpc] at hpos
    simp only [core1Step]
    split
    · exact h.flushIdle hne hpos w.flush rfl (by rw [hpc]; rfl) (by rw [hpc]; rfl) hpos
    · exact h.flushIdle hne hpos w.flush rfl (by rw [hpc]; rfl) (by rw [hpc]; rfl) hpos
  | loadHint =>
    have hne : s.core1 ≠ .pendingFatal := by rw [hpc]; exact Core1.noConfusion
    rw [hpc] at hpos
    simp only [core1Step]
    split
    · exact h.moveTo hne hpos rfl (by rw [hpc]; rfl) (by rw [hpc]; rfl) trivial
    · rename_i hhint
      exact h.moveTo hne hpos rfl (by rw [hpc]; rfl) (by rw [hpc]; rfl)
        ⟨hpos, h.core0.hint, hhint⟩

/-! ## The theorem -/

theorem Inv.start (f : Flash) : Inv (.start f) := by
  refine ⟨⟨Or.inl rfl, ?_, ?_, fun r hr => (by cases hr), Or.inl rfl⟩,
    ⟨?_, fun hne => absurd rfl hne⟩, trivial, fun _ _ => ⟨?_, fun i => ⟨?_, Or.inl rfl⟩⟩⟩
  · exact fun he => absurd he (ready_ne (Or.inl rfl)).1
  · exact fun he => absurd he (ready_ne (Or.inl rfl)).2
  · exact fun hs => by cases hs
  · exact CacheCoherence.Session.start_represents f
  · exact (by decide : has 2 1 = false)

theorem Inv.step {s : Session} (h : Inv s) (a : Action) : Inv (s.step a) := by
  cases a with
  | ioRead port => exact h.ioRead port
  | ioWrite port value => exact h.ioWrite port value
  | setWriteEnabled enabled =>
    exact h.registers s.device.drive s.device.lba enabled s.device.supervisorFlush
  | requestFlush => exact h.registers s.device.drive s.device.lba s.device.writeEnabled true
  | core1 w => exact h.core1 w

/-- No port operation touches the mailbox while core 1 owns it. -/
theorem Inv.mailbox_kept {s : Session} (h : Inv s) (howned : Owned s) {a : Action}
    (ha : a.onCore0 = true) : SameMailbox (s.step a).device s.device := by
  have hst : s.device.status = diskStatusBusy ∨
      s.device.fatalError = true ∧ s.device.status = diskStatusReady ||| diskStatusError := by
    rcases howned with hp | hs
    · exact (h.mailbox.pending hp).2
    · exact Or.inl (h.mailbox.busy hs)
  have hroom : has s.device.status diskStatusDataRoom = false := by
    rcases hst with he | ⟨-, he⟩ <;> rw [he] <;> decide
  have hready : has s.device.status diskStatusDataReady = false := by
    rcases hst with he | ⟨-, he⟩ <;> rw [he] <;> decide
  cases a with
  | core1 w => cases ha
  | setWriteEnabled enabled => exact ⟨rfl, rfl, rfl, rfl⟩
  | requestFlush => exact ⟨rfl, rfl, rfl, rfl⟩
  | ioRead port =>
    have he : (diskIoRead port s.device).2 = s.device := by
      unfold diskIoRead
      split
      · rfl
      · rw [if_pos (Or.inr (by simp [hready]))]
    show SameMailbox (diskIoRead port s.device).2 s.device
    rw [he]
    exact ⟨rfl, rfl, rfl, rfl⟩
  | ioWrite port value =>
    show SameMailbox (diskIoWrite port value s.device) s.device
    rcases hst with hb | ⟨hfatal, -⟩
    · rw [(ioWrite_busy (o := s.observer) (by rw [hb]; decide) hroom port value).1]
      exact ⟨rfl, rfl, rfl, rfl⟩
    · -- a failed device still takes CLEAR and the address registers
      unfold diskIoWrite diskStartCommand startReply
      simp only [hfatal, hroom, if_true, Bool.false_eq_true, if_false]
      obtain ⟨drive, lba, he⟩ := setAddress_eq port value s.device
      rw [he]
      split_ifs <;> exact ⟨rfl, rfl, rfl, rfl⟩

/-- **The disk device is linearizable.** However the port operations of core 0
and the steps of core 1 interleave, and whatever the bus and the flash calls
do: every READ whose 128 bytes were read out delivered what the record held, by
the WRITEs published before the command; and from the submission of a command
to the publication of its completion no port operation changes the record
buffer, its address or the pending command. -/
theorem disk_linearizable (f : Flash) (actions : List Action) :
    let s := run Session.step (.start f) actions
    (∀ r ∈ s.observer.delivered, r.bytes = window r.expected 0 z80FlashRecordBytes) ∧
    (Owned s → ∀ a : Action, a.onCore0 = true → SameMailbox (s.step a).device s.device) := by
  intro s
  have h : Inv s := run_invariant (fun _ a hs => hs.step a) (Inv.start f) actions
  exact ⟨h.core0.delivered, fun howned a ha => h.mailbox_kept howned ha⟩

/-- The theorem at work: FLUSH is pending, and a further data byte is ignored. -/
theorem disk_linearizable_pending :
    let s := run Session.step (.start fun _ => 0xFF) [.ioWrite 0x10 5]
    SameMailbox (s.step (.ioWrite 0x14 7)).device s.device :=
  (disk_linearizable (fun _ => 0xFF) [.ioWrite 0x10 5]).2 (Or.inl (by decide)) (.ioWrite 0x14 7) rfl

/-- A READ is delivered once its 128 bytes are read out. -/
example : (run Session.step (.start fun _ => 0xFF)
    (.ioWrite 0x10 1 :: List.replicate 128 (.ioRead 0x14))).observer.delivered.length = 1 := by
  decide +kernel

end Z80Sbc.Disk.Linearizable
