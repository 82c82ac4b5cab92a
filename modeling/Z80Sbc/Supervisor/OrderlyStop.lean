import Z80Sbc.Supervisor.TwoCores

/-! # An orderly stop loses no write

Nothing is lost where the status is READY and the cache is clean: the mailbox is empty
then, and the flash holds the records. The loads of the test are one after another, so
each of them has to stay true until the last. Core 0 makes it with the Z80 parked and the
queue applied, core 1 with the disk ports switched off, and no step of the other core
leaves a state that is READY, or makes a clean cache dirty in it. -/

namespace Z80Sbc.Supervisor.OrderlyStop
open Z80Sbc.Storage Z80Sbc.Concurrent Z80Sbc.Flash Z80Sbc.Disk Z80Sbc.Supervisor
open Supervisor.TwoCores
open Flash.CacheCoherence (Records SameRecords flashRecords)
open Linearizable (Session Owned serving)

/-- The records after `writes`, in their order. -/
def written (r : Records) (writes : List Linearizable.Transfer) : Records :=
  writes.foldl (fun r t => r.set t.drive t.lba fun i => t.bytes.getD i 0) r

/-- No command is pending or busy, no record is half transferred, and the flash holds
every record write that was submitted. -/
structure Saved (f : Flash) (s : System) : Prop where
  pending : s.disk.device.pending = 0
  busy : has s.disk.device.status diskStatusBusy = false
  transfer : has s.disk.device.status (diskStatusDataReady ||| diskStatusDataRoom) = false
  stored : SameRecords (flashRecords s.disk.device.backend.flash)
    (written (flashRecords f) s.submissions)

/-- The backend call that core 1 makes next in the service, if it makes one, succeeds. -/
def callSucceeds (w : Weather) (s : Session) : Prop :=
  match s.core1 with
  | .flushCommand | .supervisorFlush | .idleFlush =>
    (flushDiskCache w.flush s.device.backend).1 = true
  | .writeRecord command =>
    (Flash.writeRecord w.evict w.flush w.now s.device.writeDrive.toNat s.device.writeLba.toNat
      s.device.record (command - diskCommandWriteNormal.toUInt32).toUInt8.toNat
      s.device.backend).1 = true
  | _ => True

/-- The storage does not fail in a step. -/
def StorageWorks (s : System) : System.Action → Prop
  | .core1 i =>
    match s.core1 with
    | .flash _ _ => callSucceeds i.weather s.disk
    | .utilityFlush _ => (flushDiskCache i.weather.flush s.disk.device.backend).1 = true
    | _ => True
  | _ => True

/-! ## The disks -/

/-- Core 1 does not stand where only a failure leads. -/
def healthy : Disk.Core1 → Bool
  | .pendingFatal | .clearPending false | .publishStatus false | .clearSupervisor false
  | .storeFatal | .publishError => false
  | _ => true

/-- The device as it is without failures, and the records as they are to be: published
or, while a command is owned, about to be. -/
structure Sound (r : Records) (s : Session) : Prop where
  inv : Linearizable.Inv s
  fatal : s.device.fatalError = false
  healthy : healthy s.core1 = true
  published : Owned s → s.observer.published = r
  recorded : ¬Owned s → s.observer.records = r

/-- The mailbox is empty, and READY is all there is to read. -/
structure Idle (s : Session) : Prop where
  free : ¬Owned s
  status : s.device.status = diskStatusReady

structure Quiet (s : Session) : Prop extends Idle s where
  clean : s.device.backend.cache.dirty = false

theorem Sound.idle {r : Records} {s : Session} (h : Sound r s)
    (hready : s.device.status = diskStatusReady) : Idle s := by
  have hbusy : has s.device.status diskStatusBusy = false := by rw [hready]; rfl
  refine ⟨?_, hready⟩
  rintro (hp | hs)
  · exact hp (h.inv.idle_of_status hready rfl (by decide))
  · rw [h.inv.free hbusy] at hs
    cases hs

/-- Outside BUSY no command is owned. -/
theorem Sound.free {r : Records} {s : Session} (h : Sound r s)
    (hbusy : has s.device.status diskStatusBusy = false) : ¬Owned s := by
  rintro (hp | hs)
  · have hf := (h.inv.failed hbusy hp).1
    rw [h.fatal] at hf
    cases hf
  · rw [h.inv.free hbusy] at hs
    cases hs

/-- A quiet device has stored everything. -/
theorem Sound.stored {r : Records} {s : Session} (h : Sound r s) (hq : Quiet s) :
    SameRecords (flashRecords s.device.backend.flash) r := by
  have hfree : serving s.core1 = false := by
    cases hs : serving s.core1 with
    | false => rfl
    | true => exact absurd (Or.inr hs) hq.free
  have hpc : s.core1 ≠ .pendingFatal := by
    intro hc
    rw [hc] at hfree
    cases hfree
  have hrep := (h.inv.storedAt h.fatal hpc).represents
  rw [Linearizable.held_of_free hfree, h.recorded hq.free] at hrep
  exact hrep.clean hq.clean

/-- What a step of core 1 does, as far as the mailbox shows it. -/
structure Served (s t : Session) : Prop where
  fatal : t.device.fatalError = false
  healthy : OrderlyStop.healthy t.core1 = true
  records : (Owned t ↔ Owned s) ∧ t.observer = s.observer ∨
    Owned s ∧ ¬Owned t ∧ t.observer.records = s.observer.published
  enabled : t.device.writeEnabled = s.device.writeEnabled
  quiet : ¬Owned s → t.device.status = s.device.status ∧
    (s.device.backend.cache.dirty = false → t.device.backend.cache.dirty = false)

/-- A step that does not move the mailbox. -/
theorem Served.stay {s : Session} {d : Device} {pc : Disk.Core1}
    (hfatal : d.fatalError = false) (hhealthy : OrderlyStop.healthy pc = true)
    (hpending : d.pending = s.device.pending) (hserving : serving pc = serving s.core1)
    (henabled : d.writeEnabled = s.device.writeEnabled) (hstatus : d.status = s.device.status)
    (hclean : serving s.core1 = false → s.device.backend.cache.dirty = false →
      d.backend.cache.dirty = false) : Served s ⟨d, pc, s.observer⟩ := by
  refine ⟨hfatal, hhealthy, Or.inl ⟨?_, rfl⟩, henabled, fun hfree => ⟨hstatus, hclean ?_⟩⟩
  · unfold Owned
    rw [hpending, hserving]
  · cases hs : serving s.core1 with
    | false => rfl
    | true => exact absurd (Or.inr hs) hfree

theorem flush_clean (o : FlushOutcome) {b : Backend} (h : b.cache.dirty = false) :
    (flushDiskCache o b).2.cache.dirty = false := by
  simp [flushDiskCache, h]

/-- Every step of core 1 without a failure, one case for each place it can stand at. -/
theorem Sound.served {r : Records} {s : Session} (h : Sound r s) {w : Weather}
    (hok : callSucceeds w s) : Served s (s.step (.core1 w)) := by
  obtain ⟨d, pc, o⟩ := s
  obtain ⟨hinv, hfatal, hhealthy, -, -⟩ := h
  dsimp only at hfatal hhealthy
  have hpos := hinv.position
  show Served ⟨d, pc, o⟩ ⟨(core1Step w d pc).1, (core1Step w d pc).2, o.core1 pc⟩
  cases pc with
  | pendingFatal | storeFatal | publishError => cases hhealthy
  | outside =>
    simp only [core1Step, hfatal, Bool.false_eq_true, if_false]
    exact .stay hfatal rfl rfl rfl rfl rfl fun _ hc => hc
  | loadPending =>
    simp only [core1Step]
    by_cases hp : d.pending = 0
    · rw [if_neg (not_not.mpr hp)]
      exact .stay hfatal rfl rfl rfl rfl rfl fun _ hc => hc
    rw [if_pos hp]
    have hown : Owned ⟨d, .loadPending, o⟩ := Or.inl hp
    split
    · exact ⟨hfatal, rfl, Or.inl ⟨⟨fun _ => hown, fun _ => Or.inl hp⟩, rfl⟩, rfl,
        fun hf => absurd hown hf⟩
    · exact ⟨hfatal, rfl, Or.inl ⟨⟨fun _ => hown, fun _ => Or.inl hp⟩, rfl⟩, rfl,
        fun hf => absurd hown hf⟩
  | flushCommand =>
    have hcall : (flushDiskCache w.flush d.backend).1 = true := hok
    simp only [core1Step, hcall, afterCommand, if_true]
    exact .stay hfatal rfl rfl rfl rfl rfl fun hs => by cases hs
  | invalidate command =>
    simp only [core1Step]
    split
    · exact .stay hfatal rfl rfl rfl rfl rfl fun _ hc => hc
    · exact .stay hfatal rfl rfl rfl rfl rfl fun _ hc => hc
  | writeRecord command =>
    have hcall := hok
    simp only [callSucceeds] at hcall
    simp only [core1Step, hcall, afterCommand, if_true]
    exact .stay hfatal rfl rfl rfl rfl rfl fun hs => by cases hs
  | clearPending success =>
    cases success with
    | false => cases hhealthy
    | true =>
      have hown : Owned ⟨d, .clearPending true, o⟩ := Or.inr rfl
      exact ⟨hfatal, rfl, Or.inl ⟨⟨fun _ => hown, fun _ => Or.inr rfl⟩, rfl⟩, rfl,
        fun hf => absurd hown hf⟩
  | publishStatus success =>
    cases success with
    | false => cases hhealthy
    | true =>
      have hown : Owned ⟨d, .publishStatus true, o⟩ := Or.inr rfl
      refine ⟨hfatal, rfl, Or.inr ⟨hown, ?_, rfl⟩, rfl, fun hf => absurd hown hf⟩
      rintro (hp | hs)
      · exact hp hpos.2
      · cases hs
  | loadSupervisor =>
    simp only [core1Step]
    split
    · exact .stay hfatal rfl rfl rfl rfl rfl fun _ hc => hc
    · exact .stay hfatal rfl rfl rfl rfl rfl fun _ hc => hc
  | supervisorFlush =>
    have hcall : (flushDiskCache w.flush d.backend).1 = true := hok
    simp only [core1Step, hcall]
    exact .stay hfatal rfl rfl rfl rfl rfl fun _ hc => flush_clean w.flush hc
  | clearSupervisor success =>
    cases success with
    | false => cases hhealthy
    | true => exact .stay hfatal rfl rfl rfl rfl rfl fun _ hc => hc
  | flushDue =>
    simp only [core1Step]
    split
    · exact .stay hfatal rfl rfl rfl rfl rfl fun _ hc => hc
    · exact .stay hfatal rfl rfl rfl rfl rfl fun _ hc => hc
  | idleFlush =>
    have hcall : (flushDiskCache w.flush d.backend).1 = true := hok
    simp only [core1Step, hcall, if_true]
    exact .stay hfatal rfl rfl rfl rfl rfl fun _ hc => flush_clean w.flush hc
  | loadHint =>
    simp only [core1Step]
    split
    · exact .stay hfatal rfl rfl rfl rfl rfl fun _ hc => hc
    · exact .stay hfatal rfl rfl rfl rfl rfl fun _ hc => hc
  | prefetch hint ahead =>
    simp only [core1Step]
    split
    · exact .stay hfatal rfl rfl rfl rfl rfl fun _ hc => hc
    · dsimp only
      split
      · exact .stay hfatal rfl rfl rfl rfl rfl fun _ hc => hc
      · exact .stay hfatal rfl rfl rfl rfl rfl fun _ hc => hc
  | openSlot slot key words caller =>
    have hcaller : serving (.closeSlot slot caller) = serving (.openSlot slot key words caller) := by
      cases caller <;> rfl
    cases words with
    | none => exact .stay hfatal rfl rfl hcaller rfl rfl fun _ hc => hc
    | some words => 
      refine .stay hfatal rfl rfl ?_ rfl rfl fun _ hc => hc
      cases caller <;> rfl
  | copyWords slot words index caller =>
    simp only [core1Step]
    split
    · refine .stay hfatal rfl rfl ?_ rfl rfl fun _ hc => hc
      cases caller <;> rfl
    · refine .stay hfatal rfl rfl ?_ rfl rfl fun _ hc => hc
      cases caller <;> rfl
  | closeSlot slot caller =>
    cases caller with
    | writeRecord command => exact .stay hfatal rfl rfl rfl rfl rfl fun _ hc => hc
    | prefetch hint ahead => exact .stay hfatal rfl rfl rfl rfl rfl fun _ hc => hc

theorem Served.idle {s t : Session} (h : Served s t) (hi : Idle s) : Idle t := by
  refine ⟨fun ho => ?_, (h.quiet hi.free).1.trans hi.status⟩
  rcases h.records with ⟨hiff, -⟩ | ⟨how, -⟩
  · exact hi.free (hiff.mp ho)
  · exact hi.free how

theorem Served.stays_quiet {s t : Session} (h : Served s t) (hq : Quiet s) : Quiet t :=
  ⟨h.idle hq.toIdle, (h.quiet hq.free).2 hq.clean⟩

theorem Sound.core1 {r : Records} {s : Session} (h : Sound r s) {w : Weather}
    (hok : callSucceeds w s) : Sound r (s.step (.core1 w)) := by
  have hs := h.served hok
  refine ⟨h.inv.core1 w, hs.fatal, hs.healthy, fun ho => ?_, fun ho => ?_⟩
  · rcases hs.records with ⟨hiff, heq⟩ | ⟨-, hno, -⟩
    · rw [heq]
      exact h.published (hiff.mp ho)
    · exact absurd ho hno
  · rcases hs.records with ⟨hiff, heq⟩ | ⟨how, -, heq⟩
    · rw [heq]
      exact h.recorded fun h' => ho (hiff.mpr h')
    · rw [heq]
      exact h.published how

/-! ### Port operations -/

/-- An operation that leaves the mailbox and the records alone. -/
theorem Sound.same {r : Records} {s t : Session} (h : Sound r s) (hinv : Linearizable.Inv t)
    (hfatal : t.device.fatalError = s.device.fatalError) (hpc : t.core1 = s.core1)
    (hpending : t.device.pending = s.device.pending)
    (hrecords : t.observer.records = s.observer.records)
    (hsubmitted : t.observer.submitted = s.observer.submitted) : Sound r t := by
  have howned : Owned t ↔ Owned s := by
    unfold Owned
    rw [hpending, hpc]
  have hpublished : t.observer.published = s.observer.published := by
    unfold Linearizable.Observer.published
    rw [hsubmitted, hrecords]
  refine ⟨hinv, hfatal.trans h.fatal, hpc ▸ h.healthy, fun ho => ?_, fun ho => ?_⟩
  · exact hpublished.trans (h.published (howned.mp ho))
  · exact hrecords.trans (h.recorded fun ho' => ho (howned.mpr ho'))

theorem Sound.switches {r : Records} {s : Session} (h : Sound r s) (enabled flush : Bool) :
    Sound r { s with
      device := { s.device with writeEnabled := enabled, supervisorFlush := flush } } :=
  h.same (h.inv.registers s.device.drive s.device.lba enabled flush) rfl rfl rfl rfl rfl

theorem ioRead_device (port : UInt8) (d : Device) :
    ∃ status index, (diskIoRead port d).2 = { d with status := status, dataIndex := index } := by
  unfold diskIoRead
  split
  · exact ⟨_, _, rfl⟩
  split
  · exact ⟨_, _, rfl⟩
  · simp only [takeByte]
    by_cases hlast : (d.dataIndex + 1 == z80FlashRecordBytes) = true
    · simp only [hlast, if_true]
      exact ⟨_, _, rfl⟩
    · simp only [hlast, Bool.false_eq_true, if_false]
      exact ⟨_, _, rfl⟩

theorem Sound.ioRead {r : Records} {s : Session} (h : Sound r s) (port : UInt8) :
    Sound r (s.step (.ioRead port)) := by
  obtain ⟨status, index, hd⟩ := ioRead_device port s.device
  have ho (value : UInt8) : (s.observer.ioRead port value s.device).records = s.observer.records ∧
      (s.observer.ioRead port value s.device).submitted = s.observer.submitted := by
    unfold Linearizable.Observer.ioRead Linearizable.Observer.take
    split
    · extract_lets reading
      split
      · exact ⟨rfl, rfl⟩
      · exact ⟨rfl, rfl⟩
    · exact ⟨rfl, rfl⟩
  have hf : (diskIoRead port s.device).2.fatalError = s.device.fatalError := by rw [hd]
  have hp : (diskIoRead port s.device).2.pending = s.device.pending := by rw [hd]
  exact h.same (h.inv.ioRead port) hf rfl hp (ho _).1 (ho _).2

theorem fetchRecord_record (key : UInt32) (d : Device) :
    ∃ record, fetchRecord key d = { d with record := record } := by
  unfold fetchRecord
  rcases Linearizable.prefetchTake_cases key d.lba d with he | ⟨-, -, he⟩
  · rw [he]
    exact ⟨_, rfl⟩
  · rw [he]
    exact ⟨_, rfl⟩

/-- What a command stores does not fail the device, and only FLUSH is submitted. -/
theorem startReply_mailbox (fatal : Bool) (command : UInt8) (d : Device) :
    (Device.reply (startReply fatal command d)).fatalError = d.fatalError ∧
      (command ≠ diskCommandFlush →
        (Device.reply (startReply fatal command d)).pending = d.pending) := by
  have hfetch : (fetchRecord (recordKey d.drive d.lba) { d with dataIndex := 0 }).fatalError =
      d.fatalError ∧
        (fetchRecord (recordKey d.drive d.lba) { d with dataIndex := 0 }).pending = d.pending := by
    obtain ⟨record, he⟩ := fetchRecord_record (recordKey d.drive d.lba) { d with dataIndex := 0 }
    rw [he]
    exact ⟨rfl, rfl⟩
  unfold startReply
  split
  · exact ⟨rfl, fun _ => rfl⟩
  split
  · exact ⟨rfl, fun _ => rfl⟩
  split
  · next hflush => exact ⟨rfl, fun hne => absurd hflush hne⟩
  split
  · exact ⟨rfl, fun _ => rfl⟩
  extract_lets t
  split
  · exact ⟨hfetch.1, fun _ => hfetch.2⟩
  split
  · exact ⟨rfl, fun _ => rfl⟩
  · exact ⟨rfl, fun _ => rfl⟩

/-- What FLUSH submits has nothing to publish. -/
theorem startCommand_mailbox (value : UInt8) (d : Device) (o : Linearizable.Observer)
    (hw : d.writeEnabled = true) (hbusy : has d.status diskStatusBusy = false)
    (hfatal : d.fatalError = false) :
    (diskStartCommand value d).fatalError = false ∧ (o.command value d).records = o.records ∧
      ((diskStartCommand value d).pending = d.pending ∨ (o.command value d).submitted = none) := by
  have hd : diskStartCommand value d = Device.reply (startReply d.fatalError value d) :=
    if_neg (by simp [hbusy])
  obtain ⟨hf, hp⟩ := startReply_mailbox d.fatalError value d
  rw [hd]
  refine ⟨hf.trans hfatal, ?_, ?_⟩
  · unfold Linearizable.Observer.command
    split_ifs <;> rfl
  · by_cases hflush : value = diskCommandFlush
    · right
      unfold Linearizable.Observer.command
      rw [if_neg (by simp [hw, hbusy, hfatal]), if_pos hflush]
    · exact Or.inl (hp hflush)

/-- A port write: the records to be are those with the write that it submits. -/
theorem Sound.ioWrite {r : Records} {s : Session} (h : Sound r s) (port value : UInt8) :
    Sound (written r (submitted port value s)) (s.step (.ioWrite port value)) := by
  have hinv := h.inv.ioWrite port value
  have hstep : s.step (.ioWrite port value) = ⟨diskIoWrite port value s.device, s.core1,
      s.observer.ioWrite port value s.device⟩ := rfl
  rw [hstep] at hinv ⊢
  have hsame (hs : submitted port value s = [])
      (hd : diskIoWrite port value s.device = s.device)
      (ho : s.observer.ioWrite port value s.device = s.observer) :
      Sound (written r (submitted port value s)) ⟨diskIoWrite port value s.device, s.core1,
        s.observer.ioWrite port value s.device⟩ := by
    rw [hs, hd, ho]
    exact h
  cases hw : s.device.writeEnabled with
  | false =>
    exact hsame (by simp [submitted, hw]) (by simp [diskIoWrite, hw])
      (by simp [Linearizable.Observer.ioWrite, Linearizable.Observer.command, hw])
  | true =>
  cases hbusy : has s.device.status diskStatusBusy with
  | true =>
    have hroom : has s.device.status diskStatusDataRoom = false := by
      rw [Bool.eq_false_iff]
      intro hr
      rw [h.inv.core0.dataRoom hr] at hbusy
      exact absurd hbusy (by decide)
    obtain ⟨hd, ho⟩ := Linearizable.ioWrite_busy (o := s.observer) hbusy hroom port value
    exact hsame (by simp [submitted, hroom]) hd ho
  | false =>
  have hfree := h.free hbusy
  have hpending : s.device.pending = 0 := by
    by_contra hp
    exact hfree (Or.inl hp)
  have hserving : serving s.core1 = false := h.inv.free hbusy
  by_cases hcmd : port = diskCommandStatusPort
  · have hs : submitted port value s = [] := by rw [hcmd]; rfl
    have hd : diskIoWrite port value s.device = diskStartCommand value s.device := by
      simp [diskIoWrite, hw, hcmd]
    have ho : s.observer.ioWrite port value s.device = s.observer.command value s.device :=
      if_pos hcmd
    rw [hd, ho] at hinv ⊢
    rw [hs]
    obtain ⟨hf, hr, hmail⟩ := startCommand_mailbox value s.device s.observer hw hbusy h.fatal
    refine ⟨hinv, hf, h.healthy, fun howned => ?_, fun _ => hr.trans (h.recorded hfree)⟩
    rcases hmail with hp | hn
    · exact (howned.elim (fun hne => hne (hp.trans hpending))
        fun hserves => by rw [hserving] at hserves; cases hserves).elim
    · unfold Linearizable.Observer.published
      rw [hn]
      exact hr.trans (h.recorded hfree)
  by_cases hdata : port = diskDataPort
  · cases hroom : has s.device.status diskStatusDataRoom with
    | false =>
      refine hsame (by simp [submitted, hroom]) ?_ ?_
      · unfold diskIoWrite
        rw [hw, hbusy, if_neg (by decide), if_neg hcmd, if_neg (by decide), if_pos hdata, hroom]
        rfl
      · unfold Linearizable.Observer.ioWrite
        rw [if_neg hcmd, if_neg (by simp [hroom])]
    | true =>
      have hd : diskIoWrite port value s.device =
          if (putByte value s.device).1 then
            diskSubmit s.device.writeCommand (putByte value s.device).2
          else (putByte value s.device).2 := by
        unfold diskIoWrite
        rw [hw, hbusy, if_neg (by decide), if_neg hcmd, if_neg (by decide), if_pos hdata,
          if_pos hroom]
        rfl
      have ho : s.observer.ioWrite port value s.device = s.observer.put value := by
        unfold Linearizable.Observer.ioWrite
        rw [if_neg hcmd, if_pos ⟨hdata, hw, hroom⟩]
      have hst := h.inv.core0.dataRoom hroom
      obtain ⟨-, hwriting, -, -, hcommand⟩ := h.inv.core0.writing hst
      have hlength : s.observer.writing.bytes.length = s.device.dataIndex := by
        rw [hwriting, window_length]
      rw [hd, ho] at hinv ⊢
      unfold Linearizable.Observer.put at hinv ⊢
      simp only [putByte, beq_iff_eq, List.length_append, List.length_singleton, hlength]
        at hinv ⊢
      by_cases hlast : s.device.dataIndex + 1 = z80FlashRecordBytes
      · have hs : submitted port value s =
            [{ s.observer.writing with bytes := s.observer.writing.bytes ++ [value] }] :=
          if_pos ⟨hdata, hw, hroom, by rw [hlength]; exact hlast⟩
        rw [hs]
        rw [if_pos hlast, if_pos hlast] at hinv ⊢
        refine ⟨hinv, h.fatal, h.healthy, fun _ => ?_, fun hno => ?_⟩
        · rw [← h.recorded hfree]
          rfl
        · exact absurd (Or.inl (Linearizable.isWrite_ne hcommand).1) hno
      · have hs : submitted port value s = [] :=
          if_neg fun hc => hlast (by rw [← hlength]; exact hc.2.2.2)
        rw [hs]
        rw [if_neg hlast, if_neg hlast] at hinv ⊢
        exact h.same hinv rfl rfl rfl rfl rfl
  · have hs : submitted port value s = [] := if_neg fun hc => hdata hc.1
    have hd : diskIoWrite port value s.device = setAddress port value s.device := by
      unfold diskIoWrite
      rw [hw, hbusy, if_neg (by decide), if_neg hcmd, if_neg (by decide), if_neg hdata]
    have ho : s.observer.ioWrite port value s.device = s.observer := by
      unfold Linearizable.Observer.ioWrite
      rw [if_neg hcmd, if_neg fun hc => hdata hc.1]
    obtain ⟨drive, lba, he⟩ := Linearizable.setAddress_eq port value s.device
    rw [hd, ho, he] at hinv ⊢
    rw [hs]
    exact h.same hinv rfl rfl rfl rfl rfl

/-- READY: a port read finds nothing to read. -/
theorem ioRead_ready {s : Session} (h : s.device.status = diskStatusReady) (port : UInt8) :
    s.step (.ioRead port) = s := by
  have hready : has s.device.status diskStatusDataReady = false := by rw [h]; rfl
  have hd : (diskIoRead port s.device).2 = s.device := by
    unfold diskIoRead
    split
    · rfl
    · rw [if_pos (Or.inr (by rw [hready]; rfl))]
  have ho : s.observer.ioRead port (diskIoRead port s.device).1 s.device = s.observer :=
    if_neg (by simp [hready])
  show (⟨(diskIoRead port s.device).2, s.core1,
    s.observer.ioRead port (diskIoRead port s.device).1 s.device⟩ : Session) = s
  rw [hd, ho]

/-- With the ports switched off a port write does nothing. -/
theorem ioWrite_disabled {s : Session} (h : s.device.writeEnabled = false) (port value : UInt8) :
    s.step (.ioWrite port value) = s := by
  show Session.mk _ _ _ = s
  simp [diskIoWrite, Linearizable.Observer.ioWrite, Linearizable.Observer.command, h]

/-- The flush of the reboot job, outside of the service. -/
theorem Sound.flush {r : Records} {s : Session} (h : Sound r s) (hpc : s.core1 = .outside)
    (o : FlushOutcome) : Sound r { s with
      device := { s.device with backend := (flushDiskCache o s.device.backend).2 } } := by
  have hne : s.core1 ≠ .pendingFatal := by rw [hpc]; exact Disk.Core1.noConfusion
  have hinv : Linearizable.Inv ⟨{ s.device with
      backend := (flushDiskCache o s.device.backend).2 }, .outside, s.observer⟩ :=
    h.inv.flushIdle hne h.fatal o rfl (by rw [hpc]) (by rw [hpc]) trivial
  rw [← hpc] at hinv
  exact h.same hinv rfl rfl rfl rfl rfl

/-! ## The supervisor

What a call of `serviceControl` or `serviceRun` keeps, its quiescent branch apart: it
starts no countdown, and a CPU that has run and is held stays held. -/

structure Keeps (s t : State) : Prop where
  ready : t.configRebootReady = true → s.configRebootReady = true
  held : s.running = false → s.runtimeStarted = true →
    t.running = false ∧ t.runtimeStarted = true
  started : (s.running = true → s.diagnosticActive = false → s.runtimeStarted = true) →
    t.running = true → t.diagnosticActive = false → t.runtimeStarted = true

theorem Keeps.trans {s t u : State} (h : Keeps s t) (h' : Keeps t u) : Keeps s u :=
  ⟨fun hu => h.ready (h'.ready hu),
    fun hr hs => h'.held (h.held hr hs).1 (h.held hr hs).2,
    fun hs => h'.started (h.started hs)⟩

theorem Keeps.same {s t : State} (hready : t.configRebootReady = true → s.configRebootReady = true)
    (hrunning : t.running = s.running) (hdiag : t.diagnosticActive = s.diagnosticActive)
    (hstarted : t.runtimeStarted = s.runtimeStarted) : Keeps s t := by
  refine ⟨hready, fun hr hs => ⟨hrunning.trans hr, hstarted.trans hs⟩, fun hs => ?_⟩
  rw [hrunning, hdiag, hstarted]
  exact hs

theorem Keeps.refl (s : State) : Keeps s s := .same id rfl rfl rfl

/-- The CPU is held. -/
theorem Keeps.hold {s t : State} (hready : t.configRebootReady = true → s.configRebootReady = true)
    (hrunning : t.running = false) (hstarted : t.runtimeStarted = s.runtimeStarted) : Keeps s t :=
  ⟨hready, fun _ hs => ⟨hrunning, hstarted.trans hs⟩, fun _ hr => by rw [hrunning] at hr; cases hr⟩

/-- The first run, or a test of the disks before it. -/
theorem Keeps.starts {s t : State} (hfresh : s.runtimeStarted = false)
    (hready : t.configRebootReady = true → s.configRebootReady = true)
    (hstarted : t.running = true → t.diagnosticActive = false → t.runtimeStarted = true) :
    Keeps s t :=
  ⟨hready, fun _ hs => (by rw [hfresh] at hs; cases hs), fun _ => hstarted⟩

theorem Keeps.diagnosticCommand (i : BootInput) (command : UInt16) (s : State) :
    Keeps s (s.diagnosticCommand i command) := by
  unfold State.diagnosticCommand
  split_ifs
  · unfold State.loadImage
    split
    · exact .same id rfl rfl rfl
    · split
      · exact .hold id rfl rfl
      · exact .same id rfl rfl rfl
  · unfold State.startCpm
    split
    · exact .same id rfl rfl rfl
    next hfree =>
    have hfresh : s.runtimeStarted = false := by
      by_contra hs
      exact hfree (Or.inr (Or.inr (by simpa using hs)))
    extract_lets t
    split
    · exact .starts hfresh id fun hr => by cases hr
    · exact .starts hfresh id fun _ _ => rfl
  · unfold State.startDiskDiagnostic
    split
    · exact .same id rfl rfl rfl
    next hfree =>
    have hfresh : s.runtimeStarted = false := by
      by_contra hs
      exact hfree (Or.inr (Or.inl (by simpa using hs)))
    extract_lets t
    split
    · exact .hold id rfl rfl
    split
    · exact .hold id rfl rfl
    · exact .starts hfresh id fun _ hd => by cases hd
  · exact .refl s
  · unfold State.requestStop
    split
    · exact .hold id rfl rfl
    · exact .same id rfl rfl rfl
  · exact .same id rfl rfl rfl
  · exact .same id rfl rfl rfl
  · exact .same id rfl rfl rfl
  · exact .refl s
  · exact .same id rfl rfl rfl

theorem Keeps.webControl (i : ControlInput) (s : State) : Keeps s (s.webControl i) := by
  have hrequest : Keeps s (s.webRequest i) := by
    unfold State.webRequest
    split
    · split
      · exact .same id rfl rfl rfl
      split
      · refine Keeps.trans ?_ (.diagnosticCommand i.boot (key 'x') _)
        exact .same id rfl rfl rfl
      · exact .refl s
    · exact .refl s
  have htimeout (s : State) : Keeps s (s.webTimeout i) := by
    unfold State.webTimeout
    split
    · exact .same (fun h => by cases h) rfl rfl rfl
    · exact .refl s
  have hstorage (s : State) : Keeps s (s.webStorageError i) := by
    unfold State.webStorageError
    split
    · exact .same (fun h => by cases h) rfl rfl rfl
    · exact .refl s
  have hdeadline (s : State) : Keeps s (s.webDeadline i) := by
    unfold State.webDeadline
    split
    · exact .same (fun h => by cases h) rfl rfl rfl
    · exact .refl s
  exact hrequest.trans ((htimeout _).trans ((hstorage _).trans (hdeadline _)))

theorem Keeps.serviceControl (i : ControlInput) (s : State) : Keeps s (s.serviceControl i) := by
  have hweb := Keeps.webControl i s
  unfold State.serviceControl
  extract_lets t
  split
  · exact hweb.trans (.same (fun h => by cases h) rfl rfl rfl)
  split
  · exact hweb
  refine hweb.trans ?_
  unfold State.controlCommand
  split
  · unfold State.configReboot
    split
    · exact .same id rfl rfl rfl
    extract_lets u
    split
    · refine Keeps.trans ?_ (.diagnosticCommand i.boot (key 'x') u)
      exact .same id rfl rfl rfl
    · exact .same id rfl rfl rfl
  split
  · exact .same id rfl rfl rfl
  split
  · exact .refl t
  split
  · exact .same id rfl rfl rfl
  · exact .diagnosticCommand i.boot _ t

theorem Keeps.watchBoot (i : RunInput) (s : State) : Keeps s (s.watchBoot i) := by
  unfold State.watchBoot
  extract_lets t
  split
  · exact .same id rfl rfl rfl
  · exact .same id rfl rfl rfl

theorem Keeps.announceReady (i : RunInput) (s : State) : Keeps s (s.announceReady i) := by
  unfold State.announceReady
  split
  · exact .same id rfl rfl rfl
  · exact .refl s

/-- A stop check that does not find the disks quiescent. -/
theorem Keeps.stopCheck {i : RunInput} (s : State)
    (h : i.busRequested = false ∨ i.quiescent = false) : Keeps s (s.stopCheck i) := by
  unfold State.stopCheck
  split
  · exact .hold id rfl rfl
  next hbus =>
  have hq : ¬i.quiescent = true := by
    rcases h with hb | hq
    · rw [hb] at hbus
      exact absurd rfl hbus
    · rw [hq]
      exact Bool.false_ne_true
  rw [if_neg hq]
  split
  · exact .hold id rfl rfl
  · exact .same id rfl rfl rfl

theorem Keeps.serviceRun {i : RunInput} {s : State} (h : ¬Reboot.ChecksStop i s) :
    Keeps s (s.serviceRun i) := by
  unfold State.serviceRun
  split
  · exact .refl s
  next hrunning =>
  split
  · unfold State.runDiagnostic
    split_ifs
    · exact .hold id rfl rfl
    · exact .same id rfl rfl rfl
    · exact .refl s
  next hdiag =>
  have hwatch := Keeps.watchBoot i s
  extract_lets t u
  split
  · refine hwatch.trans (.hold ?_ rfl ?_)
    · unfold State.stopFatal State.failWeb State.cancelConfig
      split_ifs <;> exact id
    · unfold State.stopFatal State.failWeb State.cancelConfig
      split_ifs <;> rfl
  next hfatal =>
  have hready : Keeps s u := hwatch.trans (.announceReady i t)
  split
  · next hstop =>
    refine hready.trans ?_
    unfold State.serviceStop
    split
    · split
      · exact .same id rfl rfl rfl
      · exact .refl u
    next hresume =>
    split
    · next hpaused =>
      obtain ⟨-, -, -, hwatchResume⟩ := Reboot.watchBoot_same i s
      obtain ⟨-, -, -, hstopSame, hresumeSame⟩ := Reboot.announceReady_same i t
      refine absurd ⟨by simpa using hrunning, by simpa using hdiag, by simpa using hfatal,
        hstopSame.symm.trans hstop, ?_, hpaused⟩ h
      rw [← hwatchResume]
      exact hresumeSame.symm.trans (by simpa using hresume)
    split
    · exact .same id rfl rfl rfl
    · exact .refl u
  · exact hready

/-! ## The invariant -/

/-- Core 1 is in the service of the disks. -/
def inService : TwoCores.Core1 → Bool
  | .flash _ _ => true
  | _ => false

/-- Core 1 is carrying the reboot job out. -/
def rebooting : TwoCores.Core1 → Bool
  | .flash .again _ | .flash .flush _ | .utilityFlush _ | .utilityCheck _ _ | .requestReboot _
  | .enableWrites _ => true
  | _ => false

def finishing : TwoCores.Core1 → Bool
  | .workDone _ => true
  | _ => false

/-- What the test of core 1 has found so far. -/
def Core1Knows (disk : Session) : TwoCores.Core1 → Prop
  | .utilityCheck .backend _ => Idle disk
  | .requestReboot _ => Quiet disk
  | _ => True

/-- The stop check has the Z80 parked and no OUT left. -/
structure Parked (s : System) (i : RunInput) : Prop where
  parked : s.parked = true
  requested : i.busRequested = true
  queue : s.queue = []

/-- What the stop check has found so far. -/
def Core0Knows (s : System) : Core0 → Prop
  | .loop | .reset | .requestBus _ => True
  | .drain i => s.parked = true ∧ i.busRequested = true
  | .check .backend i => Parked s i ∧ Idle s.disk
  | .check _ i => Parked s i
  | .hold i => Parked s i ∧ Quiet s.disk

/-- Core 0 is in the stop check. -/
def inStopCheck : Core0 → Bool
  | .loop | .reset => false
  | _ => true

structure Inv (f : Flash) (s : System) : Prop where
  disk : Sound (written (flashRecords f) s.submissions) s.disk
  outside : inService s.core1 = false → s.disk.core1 = .outside
  -- from the submission of the reboot job on the disk ports are switched off
  locked : s.workState = .pending → s.job = .reboot → finishing s.core1 = false →
    s.disk.device.writeEnabled = false
  working : rebooting s.core1 = true → s.workState = .pending ∧ s.job = .reboot
  core1 : Core1Knows s.disk s.core1
  core0 : Core0Knows s s.core0
  stopping : inStopCheck s.core0 = true →
    s.supervisor.running = true ∧ s.supervisor.diagnosticActive = false
  started : s.supervisor.running = true → s.supervisor.diagnosticActive = false →
    s.supervisor.runtimeStarted = true
  countdown : s.supervisor.configRebootReady = true → s.supervisor.running = false ∧
    s.supervisor.runtimeStarted = true ∧ s.queue = [] ∧ Quiet s.disk

variable {f : Flash} {s : System}

/-- What was found out about the disks stays found out. -/
structure Settles (s t : Session) : Prop where
  idle : Idle s → Idle t
  quiet : Quiet s → Quiet t

theorem Core0Knows.settles {t : System} {pc : Core0} (h : Core0Knows s pc)
    (hparked : t.parked = s.parked) (hqueue : t.queue = s.queue) (hs : Settles s.disk t.disk) :
    Core0Knows t pc := by
  have hpark {i : RunInput} (h : Parked s i) : Parked t i :=
    ⟨hparked.trans h.parked, h.requested, hqueue.trans h.queue⟩
  cases pc with
  | loop | reset | requestBus i => trivial
  | drain i => exact ⟨hparked.trans h.1, h.2⟩
  | check c i =>
    cases c with
    | backend => exact ⟨hpark h.1, hs.idle h.2⟩
    | supervisorFlush | status => exact hpark h
  | hold i => exact ⟨hpark h.1, hs.quiet h.2⟩

theorem Core1Knows.settles {d d' : Session} {pc : TwoCores.Core1} (h : Core1Knows d pc)
    (hs : Settles d d') : Core1Knows d' pc := by
  cases pc with
  | utilityCheck c pausing =>
    cases c with
    | backend => exact hs.idle h
    | supervisorFlush | status => trivial
  | requestReboot pausing => exact hs.quiet h
  | _ => trivial

theorem Settles.refl (d : Session) : Settles d d := ⟨id, id⟩

theorem Settles.switches (d : Session) (enabled flush : Bool) :
    Settles d { d with
      device := { d.device with writeEnabled := enabled, supervisorFlush := flush } } :=
  ⟨fun h => ⟨h.free, h.status⟩, fun h => ⟨⟨h.free, h.status⟩, h.clean⟩⟩

/-- With the ports switched off nothing of the disks moves. -/
theorem Inv.rebooting_locked (h : Inv f s) (hpc : rebooting s.core1 = true) :
    s.disk.device.writeEnabled = false := by
  obtain ⟨hwork, hjob⟩ := h.working hpc
  refine h.locked hwork hjob ?_
  cases hc : s.core1 with
  | workDone pausing =>
    rw [hc] at hpc
    cases hpc
  | _ => rfl

/-- Core 1 knows something about the disks only with the ports switched off. -/
theorem Inv.core1_kept (h : Inv f s) {d : Session}
    (hs : s.disk.device.writeEnabled = false → Settles s.disk d) : Core1Knows d s.core1 := by
  have hk := h.core1
  cases hpc : s.core1 with
  | utilityCheck c pausing =>
    have hset := hs (h.rebooting_locked (by rw [hpc]; rfl))
    rw [hpc] at hk
    exact hk.settles hset
  | requestReboot pausing =>
    have hset := hs (h.rebooting_locked (by rw [hpc]; rfl))
    rw [hpc] at hk
    exact hk.settles hset
  | _ => trivial

/-! ## Core 0 and the Z80 -/

/-- A step of the supervisor in the loop. -/
theorem Inv.supervise (h : Inv f s) (hloop : inStopCheck s.core0 = false) {t : State}
    (hk : Keeps s.supervisor t) : Inv f { s with supervisor := t } := by
  refine ⟨h.disk, h.outside, h.locked, h.working, h.core1, ?_, fun hs => ?_, hk.started h.started,
    fun hr => ?_⟩
  · exact h.core0.settles rfl rfl (.refl s.disk)
  · rw [hloop] at hs
    cases hs
  · obtain ⟨hrun, hstarted, hqueue, hquiet⟩ := h.countdown (hk.ready hr)
    exact ⟨(hk.held hrun hstarted).1, (hk.held hrun hstarted).2, hqueue, hquiet⟩

/-- The disks while the CPU runs, and core 0 has found out nothing about them. -/
theorem Inv.port (h : Inv f s) (hrun : s.supervisor.configRebootReady = true → False)
    {d : Session} {writes : List Linearizable.Transfer}
    (hd : Sound (written (flashRecords f) writes) d) (hpc : d.core1 = s.disk.core1)
    (henabled : s.disk.device.writeEnabled = false → d.device.writeEnabled = false)
    (hs : s.disk.device.writeEnabled = false → Settles s.disk d) {rest : List Out}
    (hcore0 : Core0Knows { s with disk := d, queue := rest, submissions := writes } s.core0) :
    Inv f { s with disk := d, queue := rest, submissions := writes } :=
  ⟨hd, fun ho => hpc.trans (h.outside ho), fun hw hj hf => henabled (h.locked hw hj hf), h.working,
    h.core1_kept hs, hcore0, h.stopping, h.started, fun hr => (hrun hr).elim⟩

theorem Inv.poll (h : Inv f s) : Inv f s.poll := by
  unfold System.poll
  split
  · next hdone =>
    refine ⟨h.disk, h.outside, fun hw => (by cases hw), fun hr => ?_, h.core1, ?_, h.stopping,
      h.started, h.countdown⟩
    · have hw := (h.working hr).1
      rw [hdone] at hw
      cases hw
    · exact h.core0.settles rfl rfl (.refl s.disk)
  · exact h

theorem Inv.submit (h : Inv f s) (job : Job) : Inv f (s.submit job) := by
  unfold System.submit
  split
  · exact h
  next hidle =>
  have hidle : s.workState = .idle := by simpa using hidle
  have hnot : rebooting s.core1 = true → False := by
    intro hr
    have hw := (h.working hr).1
    rw [hidle] at hw
    cases hw
  have hset : Settles s.disk
      (if job = .reboot then s.disk.step (.setWriteEnabled false) else s.disk) := by
    split
    · exact .switches s.disk false s.disk.device.supervisorFlush
    · exact .refl s.disk
  refine ⟨?_, fun ho => ?_, fun _ hj _ => ?_, fun hr => (hnot hr).elim, ?_, ?_, h.stopping,
    h.started, fun hr => ?_⟩
  · dsimp only
    split
    · exact h.disk.switches false s.disk.device.supervisorFlush
    · exact h.disk
  · dsimp only
    split
    · exact h.outside ho
    · exact h.outside ho
  · dsimp only at hj ⊢
    rw [if_pos hj]
    rfl
  · exact h.core1.settles hset
  · exact h.core0.settles rfl rfl hset
  · obtain ⟨hrun, hstarted, hqueue, hquiet⟩ := h.countdown hr
    exact ⟨hrun, hstarted, hqueue, hset.quiet hquiet⟩

/-- The oldest OUT is applied, where the stop check does not rely on the queue. -/
theorem Inv.applyNext (h : Inv f s)
    (hcore0 : ∀ t : System, t.parked = s.parked → Core0Knows t s.core0) :
    Inv f s.applyNext := by
  unfold System.applyNext
  split
  · exact h
  next out rest hqueue =>
  have hrun (hr : s.supervisor.configRebootReady = true) : False := by
    have hnil := (h.countdown hr).2.2.1
    rw [hqueue] at hnil
    cases hnil
  have hpopped : Inv f { s with queue := rest } :=
    h.port hrun h.disk rfl id (fun _ => .refl s.disk) (hcore0 _ rfl)
  cases out with
  | disk port value =>
    have hsound : Sound (written (flashRecords f) (s.submissions ++ submitted port value s.disk))
        (s.disk.step (.ioWrite port value)) := by
      unfold written
      rw [List.foldl_append]
      exact h.disk.ioWrite port value
    refine h.port hrun hsound rfl (fun hw => ?_) (fun hw => ?_) (hcore0 _ rfl)
    · rw [ioWrite_disabled hw]
      exact hw
    · rw [ioWrite_disabled hw]
      exact .refl s.disk
  | service polls job =>
    have hpolled : Inv f (if polls then { s with queue := rest }.poll else { s with queue := rest }) := by
      split
      · exact hpopped.poll
      · exact hpopped
    cases job with
    | none => exact hpolled
    | some job => exact hpolled.submit job

theorem Inv.serviceRun (h : Inv f s) (hloop : s.core0 = .loop) (i : RunInput) :
    Inv f (s.serviceRun i) := by
  have hnot : inStopCheck s.core0 = false := by
    rw [hloop]
    rfl
  unfold System.serviceRun
  extract_lets j t
  split
  · next hcheck =>
    have hk : Keeps s.supervisor ((s.supervisor.watchBoot j).announceReady j) :=
      (Keeps.watchBoot j s.supervisor).trans (.announceReady j _)
    have hs := h.supervise hnot hk
    obtain ⟨-, hrun, hdiag, -⟩ := Reboot.watchBoot_same j s.supervisor
    obtain ⟨-, hrun', hdiag', -⟩ := Reboot.announceReady_same j (s.supervisor.watchBoot j)
    exact ⟨hs.disk, hs.outside, hs.locked, hs.working, hs.core1, trivial,
      fun _ => ⟨hrun'.trans (hrun.trans hcheck.1), hdiag'.trans (hdiag.trans hcheck.2.1)⟩,
      hs.started, hs.countdown⟩
  · next hcheck =>
    have hs := h.supervise hnot (.serviceRun hcheck)
    have hset : Settles s.disk
        (if t.flushSubmitted && !s.supervisor.flushSubmitted then s.disk.step .requestFlush
          else s.disk) := by
      split
      · exact .switches s.disk s.disk.device.writeEnabled true
      · exact .refl s.disk
    refine ⟨?_, fun ho => ?_, fun hw hj hf => ?_, hs.working, hs.core1.settles hset, ?_, hs.stopping,
      hs.started, fun hr => ?_⟩
    · dsimp only
      split
      · exact h.disk.switches s.disk.device.writeEnabled true
      · exact h.disk
    · dsimp only
      split
      · exact h.outside ho
      · exact h.outside ho
    · have hl := h.locked hw hj hf
      dsimp only
      split
      · exact hl
      · exact hl
    · exact hs.core0.settles rfl rfl hset
    · obtain ⟨hrun, hstarted, hqueue, hquiet⟩ := hs.countdown hr
      exact ⟨hrun, hstarted, hqueue, hset.quiet hquiet⟩

/-- The stop check moves on, and knows what it needs there. -/
theorem Inv.goto (h : Inv f s) {pc : Core0} {parked : Bool}
    (hstop : inStopCheck pc = true → s.supervisor.running = true ∧
      s.supervisor.diagnosticActive = false)
    (hk : Core0Knows { s with parked := parked, core0 := pc } pc) :
    Inv f { s with parked := parked, core0 := pc } :=
  ⟨h.disk, h.outside, h.locked, h.working, h.core1, hk, hstop, h.started, h.countdown⟩

/-- The stop check ends. -/
theorem Inv.leave (h : Inv f s) {t : State} {parked : Bool}
    (hstarted : t.running = true → t.diagnosticActive = false → t.runtimeStarted = true)
    (hcountdown : t.configRebootReady = true → t.running = false ∧ t.runtimeStarted = true ∧
      s.queue = [] ∧ Quiet s.disk) :
    Inv f { s with supervisor := t, parked := parked, core0 := .loop } :=
  ⟨h.disk, h.outside, h.locked, h.working, h.core1, trivial, fun hs => (by cases hs), hstarted,
    hcountdown⟩

/-- The CPU is held on the quiescent branch. -/
theorem Inv.hold (h : Inv f s) {i : RunInput} (hpc : s.core0 = .hold i) :
    Inv f { s with
      supervisor := s.supervisor.stopCheck { i with quiescent := true }, core0 := .loop } := by
  have hk := h.core0
  rw [hpc] at hk
  obtain ⟨hpark, hquiet⟩ := hk
  obtain ⟨hrun, hdiag⟩ := h.stopping (by rw [hpc]; rfl)
  have hstarted := h.started hrun hdiag
  have heq : s.supervisor.stopCheck { i with quiescent := true } = s.supervisor.holdCpu.stopped := by
    unfold State.stopCheck
    rw [if_neg (by simp [hpark.requested]), if_pos rfl]
  have hheld : s.supervisor.holdCpu.stopped.running = false ∧
      s.supervisor.holdCpu.stopped.runtimeStarted = true := by
    unfold State.stopped
    split
    · extract_lets t
      split
      · exact ⟨rfl, hstarted⟩
      · exact ⟨rfl, hstarted⟩
    · exact ⟨rfl, hstarted⟩
  rw [heq]
  exact h.leave (fun hr => by rw [hheld.1] at hr; cases hr)
    fun _ => ⟨hheld.1, hheld.2, hpark.queue, hquiet⟩

/-- A test ends, or moves on where its load has found what it looks for. -/
theorem Check.next_cases (c : Check) (d : Device) :
    c.next d = .inr false ∨ c = .supervisorFlush ∧ c.next d = .inl .status ∨
      c = .status ∧ d.status = diskStatusReady ∧ c.next d = .inl .backend ∨
        c = .backend ∧ d.backend.cache.dirty = false ∧ c.next d = .inr true := by
  cases c with
  | supervisorFlush =>
    cases hflush : d.supervisorFlush with
    | true => exact Or.inl (by simp [Check.next, hflush])
    | false => exact Or.inr (Or.inl ⟨rfl, by simp [Check.next, hflush]⟩)
  | status =>
    by_cases hready : d.status = diskStatusReady
    · exact Or.inr (Or.inr (Or.inl ⟨rfl, hready, if_pos hready⟩))
    · exact Or.inl (if_neg hready)
  | backend =>
    cases hdirty : d.backend.cache.dirty with
    | true => exact Or.inl (by simp [Check.next, quiescent, hdirty])
    | false => exact Or.inr (Or.inr (Or.inr ⟨rfl, rfl, by simp [Check.next, quiescent, hdirty]⟩))

/-- Every step of the stop check, one case for each place core 0 can stand at. -/
theorem Inv.core0Step (h : Inv f s) : Inv f s.core0Step := by
  have hk := h.core0
  have hleave {j : RunInput} {parked : Bool} (hpc : inStopCheck s.core0 = true)
      (hj : j.busRequested = false ∨ j.quiescent = false) :
      Inv f { s with supervisor := s.supervisor.stopCheck j, parked := parked, core0 := .loop } := by
    have hkeeps := Keeps.stopCheck s.supervisor hj
    refine h.leave (hkeeps.started h.started) fun hr => ?_
    have hrun := (h.countdown (hkeeps.ready hr)).1
    rw [(h.stopping hpc).1] at hrun
    cases hrun
  unfold System.core0Step
  cases hpc : s.core0 with
  | loop => exact h
  | reset => exact h
  | requestBus i =>
    have hstop : inStopCheck s.core0 = true := by
      rw [hpc]
      rfl
    dsimp only
    split
    · next hb => exact h.goto (fun _ => h.stopping hstop) ⟨rfl, hb⟩
    · next hb => exact hleave hstop (Or.inl (by simpa using hb))
  | drain i =>
    have hstop := h.stopping (by rw [hpc]; rfl)
    rw [hpc] at hk
    dsimp only
    split
    · next hempty =>
      exact h.goto (fun _ => hstop) ⟨hk.1, hk.2, List.isEmpty_iff.mp hempty⟩
    · exact h.applyNext fun t ht => by rw [hpc]; exact ⟨ht.trans hk.1, hk.2⟩
  | check c i =>
    have hstop : inStopCheck s.core0 = true := by
      rw [hpc]
      rfl
    have hstopping := h.stopping hstop
    rw [hpc] at hk
    dsimp only
    rcases Check.next_cases c s.disk.device with he | ⟨rfl, he⟩ | ⟨rfl, hready, he⟩ | ⟨rfl, hclean, he⟩
    · rw [he]
      exact hleave hstop (Or.inr rfl)
    · rw [he]
      exact h.goto (fun _ => hstopping) ⟨hk.parked, hk.requested, hk.queue⟩
    · rw [he]
      exact h.goto (fun _ => hstopping) ⟨⟨hk.parked, hk.requested, hk.queue⟩, h.disk.idle hready⟩
    · obtain ⟨hpark, hidle⟩ := hk
      rw [he]
      exact h.goto (fun _ => hstopping)
        ⟨⟨hpark.parked, hpark.requested, hpark.queue⟩, hidle, hclean⟩
  | hold i => exact h.hold hpc

/-! ## Core 1 -/

/-- A step of core 1. -/
theorem Inv.work (h : Inv f s) {d : Session} {pc : TwoCores.Core1} {paused : Bool} {w : WorkState}
    {requested : Bool} (hd : Sound (written (flashRecords f) s.submissions) d)
    (hs : Settles s.disk d) (houtside : inService pc = false → d.core1 = .outside)
    (hlocked : w = .pending → s.job = .reboot → finishing pc = false → d.device.writeEnabled = false)
    (hworking : rebooting pc = true → w = .pending ∧ s.job = .reboot) (hknows : Core1Knows d pc) :
    Inv f { s with
      disk := d, core1 := pc, flashPaused := paused, workState := w
      rebootRequested := requested } := by
  refine ⟨hd, houtside, hlocked, hworking, hknows, ?_, h.stopping, h.started, fun hr => ?_⟩
  · exact h.core0.settles rfl rfl hs
  · obtain ⟨hrun, hstarted, hqueue, hquiet⟩ := h.countdown hr
    exact ⟨hrun, hstarted, hqueue, hs.quiet hquiet⟩

/-- Core 1 moves on outside of the service of the disks. -/
theorem Inv.move (h : Inv f s) {pc : TwoCores.Core1} {paused : Bool} {requested : Bool}
    (hservice : inService s.core1 = false) (hnot : finishing s.core1 = false)
    (hworking : rebooting pc = true → s.workState = .pending ∧ s.job = .reboot)
    (hknows : Core1Knows s.disk pc) :
    Inv f { s with core1 := pc, flashPaused := paused, rebootRequested := requested } :=
  h.work h.disk (.refl s.disk) (fun _ => h.outside hservice) (fun hw hj _ => h.locked hw hj hnot)
    hworking hknows

/-- Every step of core 1, one case for each place it can stand at. -/
theorem Inv.core1Step (h : Inv f s) {i : Core1Input} (hok : StorageWorks s (.core1 i)) :
    Inv f (s.core1Step i) := by
  have hk := h.core1
  have hservice {pc : TwoCores.Core1} (hpc : s.core1 = pc) (hout : inService pc = false) :
      inService s.core1 = false := hpc ▸ hout
  unfold System.core1Step
  cases hpc : s.core1 with
  | workers =>
    dsimp only
    split
    · exact h.move (hservice hpc rfl) (by rw [hpc]; rfl) (fun hr => by cases hr) trivial
    · exact h.move (hservice hpc rfl) (by rw [hpc]; rfl) (fun hr => by cases hr) trivial
  | pauseRequest =>
    dsimp only
    split
    · exact h.move (hservice hpc rfl) (by rw [hpc]; rfl) (fun hr => by cases hr) trivial
    · exact h.move (hservice hpc rfl) (by rw [hpc]; rfl) (fun hr => by cases hr) trivial
  | paused =>
    dsimp only
    split
    · exact h.move (hservice hpc rfl) (by rw [hpc]; rfl) (fun hr => by cases hr) trivial
    · exact h.move (hservice hpc rfl) (by rw [hpc]; rfl) (fun hr => by cases hr) trivial
  | clearPaused =>
    exact h.move (hservice hpc rfl) (by rw [hpc]; rfl) (fun hr => by cases hr) trivial
  | flash r pausing =>
    have hcall : callSucceeds i.weather s.disk := by
      unfold StorageWorks at hok
      rwa [hpc] at hok
    have hserved := h.disk.served hcall
    have hset : Settles s.disk (s.disk.step (.core1 i.weather)) :=
      ⟨hserved.idle, hserved.stays_quiet⟩
    have hlocked (hw : s.workState = .pending) (hj : s.job = .reboot) :
        (s.disk.step (.core1 i.weather)).device.writeEnabled = false :=
      hserved.enabled.trans (h.locked hw hj (by rw [hpc]; rfl))
    have hwork := h.working
    rw [hpc] at hwork
    dsimp only
    split
    · next hreturned =>
      have hout : (s.disk.step (.core1 i.weather)).core1 = .outside := by
        cases hc : (s.disk.step (.core1 i.weather)).core1 with
        | outside => rfl
        | _ =>
          rw [hc] at hreturned
          cases hreturned
      cases r with
      | ports =>
        exact h.work (h.disk.core1 hcall) hset (fun _ => hout) (fun hw hj _ => hlocked hw hj)
          (fun hr => by cases hr) trivial
      | again =>
        exact h.work (h.disk.core1 hcall) hset (fun _ => hout) (fun hw hj _ => hlocked hw hj)
          (fun _ => hwork rfl) trivial
      | flush =>
        exact h.work (h.disk.core1 hcall) hset (fun _ => hout) (fun hw hj _ => hlocked hw hj)
          (fun _ => hwork rfl) trivial
    · exact h.work (h.disk.core1 hcall) hset (fun hs => by cases hs) (fun hw hj _ => hlocked hw hj)
        hwork trivial
  | ports pausing =>
    dsimp only
    split
    · cases pausing with
      | true => exact h.move (hservice hpc rfl) (by rw [hpc]; rfl) (fun hr => by cases hr) trivial
      | false => exact h.move (hservice hpc rfl) (by rw [hpc]; rfl) (fun hr => by cases hr) trivial
    next hpending =>
    split
    · next hjob =>
      exact h.move (hservice hpc rfl) (by rw [hpc]; rfl)
        (fun _ => ⟨by simpa using hpending, hjob⟩) trivial
    · exact h.move (hservice hpc rfl) (by rw [hpc]; rfl) (fun hr => by cases hr) trivial
  | utilityFlush pausing =>
    have hcall : (flushDiskCache i.weather.flush s.disk.device.backend).1 = true := by
      unfold StorageWorks at hok
      rwa [hpc] at hok
    have hwork := h.working (by rw [hpc]; rfl)
    have hout := h.outside (hservice hpc rfl)
    have hlocked := h.rebooting_locked (by rw [hpc]; rfl)
    have hset : Settles s.disk { s.disk with device := { s.disk.device with
        backend := (flushDiskCache i.weather.flush s.disk.device.backend).2 } } :=
      ⟨fun hi => ⟨hi.free, hi.status⟩, fun hq => ⟨⟨hq.free, hq.status⟩, flush_clean _ hq.clean⟩⟩
    simp only [hcall, if_true]
    exact h.work (h.disk.flush hout i.weather.flush) hset (fun _ => hout) (fun _ _ _ => hlocked)
      (fun _ => hwork) trivial
  | utilityCheck c pausing =>
    have hwork := h.working (by rw [hpc]; rfl)
    rw [hpc] at hk
    dsimp only
    rcases Check.next_cases c s.disk.device with he | ⟨rfl, he⟩ | ⟨rfl, hready, he⟩ | ⟨rfl, hclean, he⟩
    · rw [he]
      exact h.move (hservice hpc rfl) (by rw [hpc]; rfl) (fun _ => hwork) trivial
    · rw [he]
      exact h.move (hservice hpc rfl) (by rw [hpc]; rfl) (fun _ => hwork) trivial
    · rw [he]
      exact h.move (hservice hpc rfl) (by rw [hpc]; rfl) (fun _ => hwork) (h.disk.idle hready)
    · rw [he]
      exact h.move (hservice hpc rfl) (by rw [hpc]; rfl) (fun _ => hwork) ⟨hk, hclean⟩
  | requestReboot pausing =>
    exact h.move (hservice hpc rfl) (by rw [hpc]; rfl) (fun hr => by cases hr) trivial
  | enableWrites pausing =>
    have hset := Settles.switches s.disk true s.disk.device.supervisorFlush
    exact h.work (h.disk.switches true s.disk.device.supervisorFlush) hset
      (fun _ => h.outside (hservice hpc rfl)) (fun _ _ hf => by cases hf) (fun hr => by cases hr)
      trivial
  | workDone pausing =>
    have hout := h.outside (hservice hpc rfl)
    cases pausing with
    | true =>
      exact h.work h.disk (.refl s.disk) (fun _ => hout) (fun hw => by cases hw)
        (fun hr => by cases hr) trivial
    | false =>
      exact h.work h.disk (.refl s.disk) (fun _ => hout) (fun hw => by cases hw)
        (fun hr => by cases hr) trivial
  | pauseCheck c =>
    dsimp only
    rcases Check.next_cases c s.disk.device with he | ⟨-, he⟩ | ⟨-, -, he⟩ | ⟨-, -, he⟩
    all_goals
      rw [he]
      exact h.move (hservice hpc rfl) (by rw [hpc]; rfl) (fun hr => by cases hr) trivial
  | portsQuiescent =>
    dsimp only
    split
    · exact h.move (hservice hpc rfl) (by rw [hpc]; rfl) (fun hr => by cases hr) trivial
    · exact h.move (hservice hpc rfl) (by rw [hpc]; rfl) (fun hr => by cases hr) trivial
  | storePaused =>
    exact h.move (hservice hpc rfl) (by rw [hpc]; rfl) (fun hr => by cases hr) trivial

/-! ## Runs -/

/-- The Z80 is given its turn only while it runs and is not parked. -/
theorem Inv.cpu (h : Inv f s) (hcpu : s.cpuRuns = true) :
    (s.supervisor.configRebootReady = true → False) ∧
      ∀ t : System, Core0Knows t s.core0 := by
  obtain ⟨hrun, hparked⟩ : s.supervisor.running = true ∧ s.parked = false := by
    simpa [System.cpuRuns] using hcpu
  refine ⟨fun hr => ?_, fun t => ?_⟩
  · rw [(h.countdown hr).1] at hrun
    cases hrun
  have hnot {i : RunInput} (hp : Parked s i) : False := by
    rw [hp.parked] at hparked
    cases hparked
  have hk := h.core0
  cases hpc : s.core0 with
  | loop | reset | requestBus i => trivial
  | drain i =>
    rw [hpc] at hk
    rw [hk.1] at hparked
    cases hparked
  | check c i =>
    rw [hpc] at hk
    cases c with
    | backend => exact (hnot hk.1).elim
    | supervisorFlush | status => exact (hnot hk).elim
  | hold i =>
    rw [hpc] at hk
    exact (hnot hk.1).elim

theorem Inv.step (a : System.Action) (ha : StorageWorks s a) (h : Inv f s) : Inv f (s.step a) := by
  have hloop (hl : s.looping = true) : s.core0 = .loop := by
    unfold System.looping at hl
    split at hl
    · next he => exact he
    · cases hl
  cases a with
  | output out =>
    show Inv f (if s.cpuRuns then _ else _)
    split
    · next hcpu =>
      obtain ⟨hrun, hcore0⟩ := h.cpu hcpu
      exact h.port hrun h.disk rfl id (fun _ => .refl s.disk) (hcore0 _)
    · exact h
  | diskInput port =>
    show Inv f (if s.replies then _ else _)
    split
    · next hreplies =>
      have hcpu : s.cpuRuns = true := by
        simp only [System.replies, Bool.and_eq_true] at hreplies
        exact hreplies.1.1
      obtain ⟨hrun, hcore0⟩ := h.cpu hcpu
      obtain ⟨status, index, hd⟩ := ioRead_device port s.disk.device
      have henabled : (diskIoRead port s.disk.device).2.writeEnabled =
          s.disk.device.writeEnabled := by rw [hd]
      refine h.port hrun (h.disk.ioRead port) rfl henabled.trans (fun _ => ⟨fun hi => ?_, fun hq => ?_⟩)
        (hcore0 _)
      · rwa [ioRead_ready hi.status]
      · rwa [ioRead_ready hq.status]
    · exact h
  | serviceInput =>
    show Inv f (if s.replies then _ else _)
    split
    · exact h.poll
    · exact h
  | interrupt =>
    show Inv f (if s.interruptible then _ else _)
    split
    · next hint =>
      refine h.applyNext fun t _ => ?_
      cases hpc : s.core0 with
      | loop | requestBus i => trivial
      | _ =>
        rw [System.interruptible, hpc] at hint
        cases hint
    · exact h
  | control i =>
    show Inv f (if s.looping then _ else _)
    split
    · next hl => exact h.supervise (by rw [hloop hl]; rfl) (.serviceControl i s.supervisor)
    · exact h
  | run i =>
    show Inv f (if s.looping then _ else _)
    split
    · next hl => exact h.serviceRun (hloop hl) i
    · exact h
  | takeReboot =>
    show Inv f (if s.looping then _ else _)
    split
    · next hl =>
      unfold System.takeReboot
      split
      · have hheld := h.supervise (t := s.supervisor.holdCpu.watchdogReboot)
          (by rw [hloop hl]; rfl) (.hold id rfl rfl)
        exact ⟨hheld.disk, hheld.outside, hheld.locked, hheld.working, hheld.core1, trivial,
          fun hs => (by cases hs), hheld.started, hheld.countdown⟩
      · exact h
    · exact h
  | core0 => exact h.core0Step
  | core1 i => exact h.core1Step ha

theorem start_inv (f : Flash) (clockReady core1Ready : Bool) (boot : BootInput) :
    Inv f (.start f (State.main clockReady core1Ready boot)) := by
  have hfree : ¬Owned (.start f) := by
    rintro (hp | hs)
    · exact hp rfl
    · cases hs
  have hmain : Keeps State.start (State.main clockReady core1Ready boot) := by
    unfold State.main
    split
    · exact .same id rfl rfl rfl
    extract_lets t
    have hload : Keeps State.start t := .diagnosticCommand boot (key 'l') .start
    split
    · exact hload.trans (.diagnosticCommand boot (key 'g') t)
    · exact hload
  refine ⟨⟨.start f, rfl, rfl, fun ho => absurd ho hfree, fun _ => rfl⟩, fun _ => rfl,
    fun hw => (by cases hw), fun hr => (by cases hr), trivial, trivial, fun hs => (by cases hs),
    hmain.started fun hr => (by cases hr), fun hr => ?_⟩
  cases hmain.ready hr

theorem Inv.saved (h : Inv f s) (hq : Quiet s.disk) : Saved f s := by
  refine ⟨?_, ?_, ?_, h.disk.stored hq⟩
  · by_contra hp
    exact hq.free (Or.inl hp)
  · rw [hq.status]
    rfl
  · rw [hq.status]
    rfl

/-- **An orderly stop or reboot loses no accepted write.** However the Z80, the two cores
and the loop of the supervisor interleave, while the storage does not fail: where
`service_run` is about to hold the CPU on its quiescent branch, every OUT is applied and
everything is saved; it is all through the countdown of the configuration or web reboot
that follows, which the CPU does not outlive; and it is where the reboot job is about to
set `reboot_requested`. -/
theorem orderly_stop_saves (f : Flash) (clockReady core1Ready : Bool) (boot : BootInput)
    (actions : List System.Action)
    (h : Along System.step StorageWorks (.start f (State.main clockReady core1Ready boot)) actions) :
    let s := run System.step (.start f (State.main clockReady core1Ready boot)) actions
    (∀ i, s.core0 = .hold i → Saved f s ∧ s.queue = []) ∧
    (s.supervisor.configRebootReady = true →
      Saved f s ∧ s.queue = [] ∧ s.supervisor.running = false) ∧
    (∀ pausing, s.core1 = .requestReboot pausing → Saved f s) := by
  intro s
  have hinv : Inv f s :=
    h.invariant (fun s a ha hs => hs.step a ha) (start_inv f clockReady core1Ready boot)
  refine ⟨fun i hpc => ?_, fun hr => ?_, fun pausing hpc => ?_⟩
  · have hk := hinv.core0
    rw [hpc] at hk
    exact ⟨hinv.saved hk.2, hk.1.queue⟩
  · obtain ⟨hrun, -, hqueue, hquiet⟩ := hinv.countdown hr
    exact ⟨hinv.saved hquiet, hqueue, hrun⟩
  · have hk := hinv.core1
    rw [hpc] at hk
    exact hinv.saved hk

instance decidableCallSucceeds (w : Weather) (s : Session) : Decidable (callSucceeds w s) := by
  unfold callSucceeds
  split <;> infer_instance

instance decidableStorageWorks (s : System) (a : System.Action) : Decidable (StorageWorks s a) := by
  cases a with
  | core1 i =>
    unfold StorageWorks
    dsimp only
    split <;> infer_instance
  | _ => exact instDecidableTrue

/-- Every call of the storage succeeds. -/
def calm : Core1Input := ⟨⟨⟨true, fun _ => none, true⟩, ⟨true, fun _ => none, true⟩, 0⟩, true⟩

/-- The OUTs of a write of the first record. -/
def recordOuts : List Out :=
  [.disk diskDrivePort 0, .disk diskLbaLowPort 0, .disk diskLbaHighPort 0,
    .disk diskCommandStatusPort diskCommandWriteNormal] ++
    List.replicate 128 (.disk diskDataPort 7)

def stopInput : RunInput := ⟨0, 0, 3, false, false, .idle, true, true, true, true⟩

/-- A record is written and core 1 stores it; then CP/M is stopped from the console: core 1
flushes and goes round to its pause, and core 0 finds the disks quiescent. -/
def stopRun : List System.Action :=
  (recordOuts.flatMap fun out => [.output out, .interrupt]) ++ List.replicate 11 (.core1 calm) ++
    [.control ⟨⟨none, true, true⟩, .idle, false, .idle, false, false, false, false, false,
      some (key 'x')⟩, .run stopInput] ++ List.replicate 16 (.core1 calm) ++
    .run stopInput :: List.replicate 5 .core0

/-- Core 0 is about to hold the CPU, and one write was submitted. -/
def heldAfterWrite (s : System) : Bool :=
  match s.core0 with
  | .hold _ => s.submissions.length = 1
  | _ => false

theorem heldAfterWrite_spec {s : System} (h : heldAfterWrite s = true) :
    (∃ i, s.core0 = .hold i) ∧ s.submissions.length = 1 := by
  unfold heldAfterWrite at h
  split at h
  · rename_i i hi
    exact ⟨⟨i, hi⟩, of_decide_eq_true h⟩
  · cases h

set_option maxRecDepth 4096 in
theorem stopRun_works : Along System.step StorageWorks
    (.start (fun _ => 0xFF) (State.main true true ⟨none, true, true⟩)) stopRun := by
  decide +kernel

set_option maxRecDepth 4096 in
theorem stopRun_holds : heldAfterWrite (run System.step
    (.start (fun _ => 0xFF) (State.main true true ⟨none, true, true⟩)) stopRun) = true := by
  decide +kernel

/-- The theorem at work: a record was written, and where the CPU is about to be held it is saved. -/
theorem stop_saves : ∃ s : System, s = run System.step
      (.start (fun _ => 0xFF) (State.main true true ⟨none, true, true⟩)) stopRun ∧
    s.submissions.length = 1 ∧ Saved (fun _ => 0xFF) s := by
  have hholds := stopRun_holds
  have h := orderly_stop_saves (fun _ => 0xFF) true true ⟨none, true, true⟩ stopRun stopRun_works
  generalize hs : run System.step
    (.start (fun _ => 0xFF) (State.main true true ⟨none, true, true⟩)) stopRun = s at h hholds ⊢
  obtain ⟨⟨i, hi⟩, hone⟩ := heldAfterWrite_spec hholds
  exact ⟨s, rfl, hone, (h.1 i hi).1⟩

end Z80Sbc.Supervisor.OrderlyStop
