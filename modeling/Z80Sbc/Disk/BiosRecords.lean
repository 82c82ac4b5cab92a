import Z80Sbc.Disk.Bios
import Z80Sbc.Disk.Linearizable

/-! # CP/M has an array of records

The BIOS on the firmware's disk device. Whatever programs call, and however core 1 moves
between two port accesses, the calls that return 0 before a storage failure are those of a
plain array: a read gives what the writes before it left. The invariant follows the driver:
what the device and its observer hold at each access. -/

namespace Z80Sbc.Disk.BiosRecords
open Z80Sbc.Storage Z80Sbc.Concurrent Z80Sbc.Flash Z80Sbc.Disk Linearizable
open Z80Sbc.Flash.CacheCoherence (Records SameRecords flashRecords)

/-! ## The firmware behind the ports -/

/-- What happens on the Pico while the Z80 runs. -/
inductive Event where
  | core1 (w : Weather)
  | requestFlush
  | enable
  | disable

def firmware : Ports Session where
  input port s := ((diskIoRead port s.device).1, s.step (.ioRead port))
  output port value s := s.step (.ioWrite port value)

/-- The ports are closed only by a request of the program, hence between two calls. -/
def firmwareEnv (idle : Bool) : Event → Session → Session
  | .core1 w, s => s.step (.core1 w)
  | .requestFlush, s => s.step .requestFlush
  | .enable, s => s.step (.setWriteEnabled true)
  | .disable, s => if idle then s.step (.setWriteEnabled false) else s

def healthy (s : Session) : Bool := !s.device.fatalError

/-! ## One port access -/

section
variable {s : Session}

theorem input_status : firmware.input diskCommandStatusPort s =
    (if s.device.writeEnabled then s.device.status.toUInt8 else 0x88, s) := by
  have hport : diskCommandStatusPort ≠ diskDataPort := by decide
  simp only [firmware, diskIoRead, Session.step, Observer.ioRead, if_true, hport, false_and, if_false]
  rfl

/-- An address register is set when the device is not busy. -/
theorem output_address {port value : UInt8} (hw : s.device.writeEnabled = true)
    (hbusy : has s.device.status diskStatusBusy = false) (hcmd : port ≠ diskCommandStatusPort)
    (hdata : port ≠ diskDataPort) :
    firmware.output port value s = { s with device := setAddress port value s.device } := by
  simp [firmware, Session.step, diskIoWrite, Observer.ioWrite, hw, hbusy, hcmd, hdata]

theorem output_command {command : UInt8} (hw : s.device.writeEnabled = true)
    (hbusy : has s.device.status diskStatusBusy = false) :
    firmware.output diskCommandStatusPort command s =
      { s with
        device := Device.reply (startReply s.device.fatalError command s.device)
        observer := s.observer.command command s.device } := by
  simp [firmware, Session.step, diskIoWrite, Observer.ioWrite, hw, hbusy, diskStartCommand]

theorem output_disabled {port value : UInt8} (hw : s.device.writeEnabled = false) :
    firmware.output port value s = s := by
  simp [firmware, Session.step, diskIoWrite, Observer.ioWrite, Observer.command, hw]

theorem output_data {value : UInt8} (hw : s.device.writeEnabled = true)
    (hst : s.device.status = diskStatusReady ||| diskStatusDataRoom) :
    firmware.output diskDataPort value s =
      { s with
        device := if (putByte value s.device).1 then
            diskSubmit s.device.writeCommand (putByte value s.device).2
          else (putByte value s.device).2
        observer := s.observer.put value } := by
  have hbusy : has s.device.status diskStatusBusy = false := by rw [hst]; decide
  have hroom : has s.device.status diskStatusDataRoom = true := by rw [hst]; decide
  have hport : diskDataPort ≠ diskCommandStatusPort := by decide
  simp [firmware, Session.step, diskIoWrite, Observer.ioWrite, hw, hbusy, hroom, hport, putByte]

theorem input_data (hst : s.device.status = diskStatusReady ||| diskStatusDataReady) :
    firmware.input diskDataPort s =
      (s.device.record s.device.dataIndex,
        { s with
          device := if (takeByte s.device).2.1 then
              { (takeByte s.device).2.2 with status := diskStatusReady }
            else (takeByte s.device).2.2
          observer := s.observer.take (takeByte s.device).1 }) := by
  have hready : has s.device.status diskStatusDataReady = true := by rw [hst]; decide
  have hport : diskDataPort ≠ diskCommandStatusPort := by decide
  simp [firmware, Session.step, diskIoRead, Observer.ioRead, hready, hport, takeByte]

/-- What core 1 does to the ports while the storage has not failed: nothing, or it publishes
the completion of the submitted command. -/
structure Aside (s s' : Session) : Prop where
  drive : s'.device.drive = s.device.drive
  lba : s'.device.lba = s.device.lba
  enabled : s.device.writeEnabled = true → s'.device.writeEnabled = true
  index : s'.device.dataIndex = s.device.dataIndex
  reading : s'.observer.reading = s.observer.reading
  writing : s'.observer.writing = s.observer.writing
  submitted : s'.observer.submitted = s.observer.submitted
  published : s'.device.status = s.device.status ∧ s'.observer.records = s.observer.records ∨
    s.device.status = diskStatusBusy ∧ s'.device.status = diskStatusReady ∧
      s'.observer.records = s.observer.published

theorem core1_aside (h : Inv s) (w : Weather)
    (hf : (s.step (.core1 w)).device.fatalError = false) : Aside s (s.step (.core1 w)) := by
  have hpos := h.position
  have hmail := h.mailbox.busy
  cases hpc : s.core1 with
  | publishStatus success =>
    rw [hpc] at hpos hmail
    cases success with
    | true =>
      refine ⟨?_, ?_, fun he => ?_, ?_, ?_, ?_, ?_, .inr ⟨hmail rfl, ?_, ?_⟩⟩ <;>
        simp_all [Session.step, core1Step, Observer.core1]
    | false =>
      have hfatal : s.device.fatalError = true := hpos.1
      simp [Session.step, core1Step, hpc, hfatal] at hf
  | publishError =>
    rw [hpc] at hpos
    have hfatal : s.device.fatalError = true := hpos
    simp [Session.step, core1Step, hpc, hfatal] at hf
  | _ =>
    refine ⟨?_, ?_, fun he => he ▸ ?_, ?_, ?_, ?_, ?_, .inl ⟨?_, ?_⟩⟩ <;>
      simp only [Session.step, core1Step, Observer.core1, hpc] <;> (try split) <;> rfl

end

/-! ## The invariant -/

section
variable (v : Variables)

/-- No command is pending, and the device holds the records of the array. -/
structure Settled (s : Session) (store : Records) : Prop where
  free : has s.device.status diskStatusBusy = false
  records : SameRecords s.observer.records store

/-- The ports are open, and the address registers name the record of the call. -/
structure Addressed (s : Session) (began : Bios) : Prop where
  enabled : s.device.writeEnabled = true
  drive : s.device.drive = driveOf v began
  lba : s.device.lba = lbaOf v began

/-- A read under way, `k` bytes of it in memory. -/
structure Reads (s : Session) (memory : Memory) (began : Bios) (k : Nat) : Prop where
  valid : RecordExists v began
  status : s.device.status = diskStatusReady ||| diskStatusDataReady
  index : s.device.dataIndex = k
  expected : ∀ i < z80FlashRecordBytes, s.observer.reading.expected i =
    s.observer.records (driveOf v began).toNat (lbaOf v began).toNat i
  copied : ∀ i < k, memory (dmaOf v began + UInt16.ofNat i) =
    s.observer.records (driveOf v began).toNat (lbaOf v began).toNat i

/-- A write under way, `k` bytes of it in the device. -/
structure Writes (s : Session) (began : Bios) (k : Nat) : Prop where
  valid : RecordExists v began
  enabled : s.device.writeEnabled = true
  status : s.device.status = diskStatusReady ||| diskStatusDataRoom
  writing : s.observer.writing =
    ⟨(driveOf v began).toNat, (lbaOf v began).toNat, window (began.buffer v) 0 k⟩

/-- What holds at each access of the driver, until the storage fails. -/
def At (store : Records) (s : Session) (b began : Bios) : Prop :=
  match b.pc with
  | .idle => Settled s store
  | .readyWait _ => Settled s store ∧ b.memory = began.memory
  | .drivePort _ => Settled s store ∧ b.memory = began.memory ∧ s.device.writeEnabled = true
  | .lbaLow _ => Settled s store ∧ b.memory = began.memory ∧ s.device.writeEnabled = true ∧
      s.device.drive = driveOf v began
  | .lbaHigh _ hl => Settled s store ∧ b.memory = began.memory ∧ s.device.writeEnabled = true ∧
      s.device.drive = driveOf v began ∧ hl = lbaOf v began ∧ s.device.lba.toUInt8 = hl.toUInt8
  | .command _ => Settled s store ∧ b.memory = began.memory ∧ Addressed v s began
  | .readWait => Settled s store ∧ b.memory = began.memory ∧ s.device.writeEnabled = true ∧
      (s.device.status = diskStatusReady ||| diskStatusError ∨ Reads v s b.memory began 0)
  | .inir n hl => Settled s store ∧ n ≠ 0 ∧ n ≤ z80FlashRecordBytes ∧
      hl = dmaOf v began + UInt16.ofNat (z80FlashRecordBytes - n) ∧
      Reads v s b.memory began (z80FlashRecordBytes - n)
  | .roomWait => SameRecords s.observer.records store ∧ b.memory = began.memory ∧
      s.device.writeEnabled = true ∧
      (s.device.status = diskStatusBusy → s.observer.submitted = none) ∧
      (s.device.status = diskStatusReady ||| diskStatusDataRoom → Writes v s began 0)
  | .otir n hl => Settled s store ∧ b.memory = began.memory ∧ n ≠ 0 ∧ n ≤ z80FlashRecordBytes ∧
      hl = dmaOf v began + UInt16.ofNat (z80FlashRecordBytes - n) ∧
      Writes v s began (z80FlashRecordBytes - n)
  | .doneWait => RecordExists v began ∧ s.device.writeEnabled = true ∧
      (s.device.status = diskStatusBusy ∧ SameRecords s.observer.records store ∧
          s.observer.submitted = some ⟨(driveOf v began).toNat, (lbaOf v began).toNat,
            window (began.buffer v) 0 z80FlashRecordBytes⟩ ∨
        s.device.status = diskStatusReady ∧ SameRecords s.observer.records
          (store.set (driveOf v began).toNat (lbaOf v began).toNat (began.buffer v)))
  | .flushCommand => Settled s store
  | .flushWait => SameRecords s.observer.records store ∧
      (s.device.status = diskStatusBusy → s.observer.submitted = none ∧
        s.device.writeEnabled = true)

structure BiosInv (initial : Records) (c : Cpm Session) : Prop where
  device : Inv c.device
  faithful : Faithful initial c.log
  position : c.device.device.fatalError = false → At v (replay initial c.log) c.device c.bios c.began

/-! ## The device moves -/

variable {v} {store : Records} {s s' : Session} {b began : Bios}

theorem Settled.aside (h : Settled s store) (ha : Aside s s') :
    Settled s' store ∧ s'.device.status = s.device.status ∧
      s'.observer.records = s.observer.records := by
  rcases ha.published with ⟨hst, hr⟩ | ⟨hbusy, -, -⟩
  · exact ⟨⟨by rw [hst]; exact h.free, by rw [hr]; exact h.records⟩, hst, hr⟩
  · have hfree := h.free
    rw [hbusy] at hfree
    exact absurd hfree (by decide)

theorem Addressed.aside (h : Addressed v s began) (ha : Aside s s') : Addressed v s' began :=
  ⟨ha.enabled h.enabled, ha.drive.trans h.drive, ha.lba.trans h.lba⟩

theorem Reads.aside {memory : Memory} {k : Nat} (h : Reads v s memory began k) (ha : Aside s s')
    (hst : s'.device.status = s.device.status) (hr : s'.observer.records = s.observer.records) :
    Reads v s' memory began k :=
  ⟨h.valid, hst.trans h.status, ha.index.trans h.index,
    fun i hi => by rw [ha.reading, hr]; exact h.expected i hi,
    fun i hi => by rw [hr]; exact h.copied i hi⟩

theorem Writes.aside {k : Nat} (h : Writes v s began k) (ha : Aside s s')
    (hst : s'.device.status = s.device.status) : Writes v s' began k :=
  ⟨h.valid, ha.enabled h.enabled, hst.trans h.status, ha.writing.trans h.writing⟩

/-- The records after the write of the call is published. -/
theorem published_records (hr : SameRecords s.observer.records store)
    (hs : s.observer.submitted = some ⟨(driveOf v began).toNat, (lbaOf v began).toNat,
      window (began.buffer v) 0 z80FlashRecordBytes⟩) :
    SameRecords s.observer.published
      (store.set (driveOf v began).toNat (lbaOf v began).toNat (began.buffer v)) := by
  intro d hd l hl i hi
  simp only [Observer.published, hs, CacheCoherence.Records.set]
  split
  · rw [window_getD hi, Nat.zero_add]
  · exact hr d hd l hl i hi

/-- Core 1 keeps what holds at the driver's next access. -/
theorem At.aside (h : At v store s b began) (ha : Aside s s') : At v store s' b began := by
  unfold At at h ⊢
  cases hpc : b.pc with
  | idle =>
    rw [hpc] at h
    exact (h.aside ha).1
  | readyWait op =>
    rw [hpc] at h
    exact ⟨(h.1.aside ha).1, h.2⟩
  | drivePort op =>
    rw [hpc] at h
    exact ⟨(h.1.aside ha).1, h.2.1, ha.enabled h.2.2⟩
  | lbaLow op =>
    rw [hpc] at h
    obtain ⟨hs, hm, he, hd⟩ := h
    exact ⟨(hs.aside ha).1, hm, ha.enabled he, ha.drive.trans hd⟩
  | lbaHigh op hl =>
    rw [hpc] at h
    obtain ⟨hs, hm, he, hd, hhl, hlow⟩ := h
    exact ⟨(hs.aside ha).1, hm, ha.enabled he, ha.drive.trans hd, hhl, by rw [ha.lba]; exact hlow⟩
  | command op =>
    rw [hpc] at h
    exact ⟨(h.1.aside ha).1, h.2.1, h.2.2.aside ha⟩
  | readWait =>
    rw [hpc] at h
    obtain ⟨hs, hm, he, hcase⟩ := h
    obtain ⟨hs', hst, hr⟩ := hs.aside ha
    exact ⟨hs', hm, ha.enabled he, hcase.imp hst.trans fun hr' => hr'.aside ha hst hr⟩
  | inir n hl =>
    rw [hpc] at h
    obtain ⟨hs, hn, hle, hhl, hreads⟩ := h
    obtain ⟨hs', hst, hr⟩ := hs.aside ha
    exact ⟨hs', hn, hle, hhl, hreads.aside ha hst hr⟩
  | roomWait =>
    rw [hpc] at h
    obtain ⟨hr, hm, he, hflush, hwrites⟩ := h
    rcases ha.published with ⟨hst, hr'⟩ | ⟨hbusy, hready, hpub⟩
    · refine ⟨by rw [hr']; exact hr, hm, ha.enabled he, fun hb => ?_, fun hroom => ?_⟩
      · exact ha.submitted.trans (hflush (hst ▸ hb))
      · exact (hwrites (hst ▸ hroom)).aside ha hst
    · refine ⟨?_, hm, ha.enabled he, fun hb => ?_, fun hroom => ?_⟩
      · rw [hpub, Observer.published, hflush hbusy]
        exact hr
      · rw [hready] at hb
        exact absurd hb (by decide)
      · rw [hready] at hroom
        exact absurd hroom (by decide)
  | otir n hl =>
    rw [hpc] at h
    obtain ⟨hs, hm, hn, hle, hhl, hwrites⟩ := h
    obtain ⟨hs', hst, hr⟩ := hs.aside ha
    exact ⟨hs', hm, hn, hle, hhl, hwrites.aside ha hst⟩
  | doneWait =>
    rw [hpc] at h
    obtain ⟨hv, he, hcase⟩ := h
    refine ⟨hv, ha.enabled he, ?_⟩
    rcases ha.published with ⟨hst, hr⟩ | ⟨hbusy, hready, hpub⟩
    · rw [hst, hr, ha.submitted]
      exact hcase
    · rcases hcase with ⟨-, hr, hsub⟩ | ⟨hready', -⟩
      · exact .inr ⟨hready, by rw [hpub]; exact published_records hr hsub⟩
      · rw [hready'] at hbusy
        exact absurd hbusy (by decide)
  | flushCommand =>
    rw [hpc] at h
    exact (h.aside ha).1
  | flushWait =>
    rw [hpc] at h
    obtain ⟨hr, hflush⟩ := h
    rcases ha.published with ⟨hst, hr'⟩ | ⟨hbusy, hready, hpub⟩
    · refine ⟨by rw [hr']; exact hr, fun hb => ?_⟩
      obtain ⟨hsub, he⟩ := hflush (hst ▸ hb)
      exact ⟨ha.submitted.trans hsub, ha.enabled he⟩
    · have hsub := (hflush hbusy).1
      refine ⟨?_, fun hb => ?_⟩
      · rw [hpub, Observer.published, hsub]
        exact hr
      · rw [hready] at hb
        exact absurd hb (by decide)

/-! ## The driver moves -/

/-- The five values of the status, as the driver reads them. -/
theorem status_read (hinv : Inv s) :
    (errorBit s.device.status.toUInt8 = true ↔
      s.device.status = diskStatusReady ||| diskStatusError) ∧
    (readyBit s.device.status.toUInt8 = true ↔ s.device.status ≠ diskStatusBusy) ∧
    (dataReadyBit s.device.status.toUInt8 = true ↔
      s.device.status = diskStatusReady ||| diskStatusDataReady) ∧
    (dataRoomBit s.device.status.toUInt8 = true ↔
      s.device.status = diskStatusReady ||| diskStatusDataRoom) ∧
    (has s.device.status diskStatusBusy = true ↔ s.device.status = diskStatusBusy) := by
  rcases hinv.core0.status with he | he | he | he | he <;> rw [he] <;> decide

theorem not_busy (hinv : Inv s) : has s.device.status diskStatusBusy = false ↔
    s.device.status ≠ diskStatusBusy := by
  rw [← Bool.not_eq_true, ne_eq, (status_read hinv).2.2.2.2]

/-- A closed port reads BUSY with ERROR. -/
theorem closed_read : errorBit 0x88 = true ∧ readyBit 0x88 = false := by decide

theorem At.readyWait {op : Op} (hpc : b.pc = .readyWait op) (h : At v store s b began) :
    At v store (biosStep firmware v s b).1 (biosStep firmware v s b).2 began := by
  simp only [At, hpc] at h
  simp only [biosStep, hpc, input_status]
  by_cases hready : readyBit (if s.device.writeEnabled then s.device.status.toUInt8 else 0x88) = true
  · rw [if_pos hready]
    refine ⟨h.1, h.2, ?_⟩
    cases he : s.device.writeEnabled with
    | true => rfl
    | false => simp [he, closed_read.2] at hready
  · rw [if_neg hready, At, hpc]
    exact h

theorem At.drivePort {op : Op} (hpc : b.pc = .drivePort op) (h : At v store s b began) :
    At v store (biosStep firmware v s b).1 (biosStep firmware v s b).2 began := by
  simp only [At, hpc] at h
  obtain ⟨hs, hm, he⟩ := h
  simp only [biosStep, hpc]
  rw [output_address he hs.free (by decide) (by decide)]
  exact ⟨⟨hs.free, hs.records⟩, hm, he, by simp [setAddress, driveOf, hm]⟩

theorem At.lbaLow {op : Op} (hpc : b.pc = .lbaLow op) (h : At v store s b began) :
    At v store (biosStep firmware v s b).1 (biosStep firmware v s b).2 began := by
  simp only [At, hpc] at h
  obtain ⟨hs, hm, he, hd⟩ := h
  simp only [biosStep, hpc]
  rw [output_address he hs.free (by decide) (by decide)]
  have hset (value : UInt8) : setAddress diskLbaLowPort value s.device =
      { s.device with lba := (s.device.lba &&& (0xFF00 : UInt16)) ||| value.toUInt16 } := rfl
  rw [hset]
  exact ⟨⟨hs.free, hs.records⟩, hm, he, hd, by rw [lbaOf, hm], lba_bytes _ _⟩

theorem At.lbaHigh {op : Op} {hl : UInt16} (hpc : b.pc = .lbaHigh op hl)
    (h : At v store s b began) :
    At v store (biosStep firmware v s b).1 (biosStep firmware v s b).2 began := by
  simp only [At, hpc] at h
  obtain ⟨hs, hm, he, hd, hhl, hlow⟩ := h
  simp only [biosStep, hpc]
  rw [output_address he hs.free (by decide) (by decide)]
  have hset (value : UInt8) : setAddress diskLbaHighPort value s.device =
      { s.device with lba := (s.device.lba &&& (0x00FF : UInt16)) ||| (value.toUInt16 <<< 8) } := rfl
  rw [hset]
  exact ⟨⟨hs.free, hs.records⟩, hm, he, hd, by rw [← hhl]; exact lba_word hlow⟩

theorem fetchRecord_eq (key : UInt32) (d : Device) :
    fetchRecord key d = { d with record := (fetchRecord key d).record } := by
  unfold fetchRecord
  rcases prefetchTake_cases key d.lba d with he | ⟨-, -, he⟩ <;> rw [he] <;> rfl

theorem addressed_call (h : Addressed v s began) : addressed s.device = true ↔ RecordExists v began := by
  rw [addressed_iff, h.drive, h.lba, RecordExists]

theorem At.readCommand (hf : s.device.fatalError = false) (hpc : b.pc = .command .read)
    (h : At v store s b began) :
    At v store (biosStep firmware v s b).1 (biosStep firmware v s b).2 began := by
  simp only [At, hpc] at h
  obtain ⟨hs, hm, ha⟩ := h
  simp only [biosStep, hpc]
  rw [output_command ha.enabled hs.free]
  by_cases hex : RecordExists v began
  · have haddr := (addressed_call ha).2 hex
    have hin : ¬(z80FlashDiskSlotCount ≤ s.device.drive.toNat ∨
        z80FlashRecordCount ≤ s.device.lba.toNat) := by
      have := addressed_iff.1 haddr
      omega
    have hstart : startReply s.device.fatalError diskCommandRead s.device =
        (.status (diskStatusReady ||| diskStatusDataReady),
          { fetchRecord (recordKey s.device.drive s.device.lba) { s.device with dataIndex := 0 } with
            prefetchHint := recordKey s.device.drive s.device.lba }) := by
      rw [hf, startReply, if_neg (by decide), if_neg (by decide), if_neg (by decide), if_neg hin,
        if_pos rfl]
    have hobs : s.observer.command diskCommandRead s.device =
        { s.observer with
          reading := ⟨s.observer.records s.device.drive.toNat s.device.lba.toNat, []⟩ } := by
      simp only [Observer.command, ha.enabled, hs.free, hf, haddr]
      rfl
    rw [hstart, hobs, fetchRecord_eq]
    refine ⟨⟨?_, hs.records⟩, hm, ha.enabled, .inr ⟨hex, rfl, rfl, fun i hi => ?_, by simp⟩⟩
    · simp only [Device.reply]
      decide
    · simp only [ha.drive, ha.lba]
  · have haddr : addressed s.device = false := by
      rw [← Bool.not_eq_true, addressed_call ha]
      exact hex
    have hout : z80FlashDiskSlotCount ≤ s.device.drive.toNat ∨
        z80FlashRecordCount ≤ s.device.lba.toNat := by
      rw [ha.drive, ha.lba]
      have := not_and_or.1 hex
      omega
    have hstart : startReply s.device.fatalError diskCommandRead s.device =
        (.status (diskStatusReady ||| diskStatusError), s.device) := by
      rw [hf, startReply, if_neg (by decide), if_neg (by decide), if_neg (by decide), if_pos hout]
    have hobs : s.observer.command diskCommandRead s.device = s.observer := by
      simp only [Observer.command, ha.enabled, hs.free, hf, haddr]
      rfl
    rw [hstart, hobs]
    refine ⟨⟨?_, hs.records⟩, hm, ha.enabled, .inl rfl⟩
    simp only [Device.reply]
    decide

theorem At.readWait (hinv : Inv s) (hpc : b.pc = .readWait) (h : At v store s b began) :
    At v store (biosStep firmware v s b).1 (biosStep firmware v s b).2 began := by
  simp only [At, hpc] at h
  obtain ⟨hs, hm, he, hcase⟩ := h
  obtain ⟨herror, -, hready, -, -⟩ := status_read hinv
  simp only [biosStep, hpc, input_status, he, if_true]
  split
  · exact hs
  · rename_i hne
    rcases hcase with herr | hreads
    · exact absurd (herror.2 herr) hne
    · rw [if_pos (hready.2 hreads.status)]
      refine ⟨hs, by decide, by decide, ?_, hreads⟩
      simp [dmaOf, hm, z80FlashRecordBytes]

/-- The data port while a record is read. -/
theorem input_data_read (hinv : Inv s) {memory : Memory} {k : Nat}
    (h : Reads v s memory began k) :
    k < z80FlashRecordBytes ∧ (firmware.input diskDataPort s).1 =
      s.observer.records (driveOf v began).toNat (lbaOf v began).toNat k := by
  obtain ⟨hlt, -, hrecord⟩ := hinv.core0.reading h.status
  rw [h.index] at hlt
  rw [input_data h.status]
  simp only [h.index]
  exact ⟨hlt, (hrecord k hlt).trans (h.expected k hlt)⟩

/-- The device after a byte was read from it. -/
structure Taken (s s' : Session) : Prop where
  records : s'.observer.records = s.observer.records
  expected : s'.observer.reading.expected = s.observer.reading.expected
  last : s.device.dataIndex + 1 = z80FlashRecordBytes → s'.device.status = diskStatusReady
  more : s.device.dataIndex + 1 ≠ z80FlashRecordBytes → s'.device.status = s.device.status ∧
    s'.device.dataIndex = s.device.dataIndex + 1

theorem input_data_taken (hst : s.device.status = diskStatusReady ||| diskStatusDataReady) :
    Taken s (firmware.input diskDataPort s).2 := by
  rw [input_data hst]
  constructor
  · simp only [Observer.take]
    split <;> rfl
  · simp only [Observer.take]
    split <;> rfl
  · intro hlast
    simp [takeByte, hlast]
  · intro hmore
    simp [takeByte, hmore]

/-- One byte of a record is stored; the last one ends the call. -/
theorem At.inir {n : Nat} {hl : UInt16} (hinv : Inv s) (hpc : b.pc = .inir n hl)
    (h : At v store s b began) :
    At v store (biosStep firmware v s b).1 (biosStep firmware v s b).2 began ∧
      ((biosStep firmware v s b).2.pc = .idle → ∀ i < z80FlashRecordBytes,
        (logEntry v .read began (biosStep firmware v s b).2).bytes i =
          store (driveOf v began).toNat (lbaOf v began).toNat i) := by
  simp only [At, hpc] at h
  obtain ⟨hs, hn, hle, hhl, hreads⟩ := h
  obtain ⟨hk, hvalue⟩ := input_data_read hinv hreads
  obtain ⟨hrecords, hexpected, hlast, hmore⟩ := input_data_taken hreads.status
  rw [hreads.index] at hlast hmore
  have hcopied := copied_update hk hreads.copied
  rw [← hhl, ← hvalue] at hcopied
  generalize hnext : firmware.input diskDataPort s = next at *
  simp only [biosStep, hpc, hnext]
  by_cases h1 : n = 1
  · subst h1
    have hall : z80FlashRecordBytes - 1 + 1 = z80FlashRecordBytes := by omega
    rw [hall] at hlast hcopied
    rw [if_pos rfl]
    refine ⟨⟨?_, hrecords ▸ hs.records⟩, fun _ i hi => ?_⟩
    · rw [hlast rfl]
      decide
    · exact (hcopied i hi).trans (hs.records _ hreads.valid.1 _ hreads.valid.2 i hi)
  · rw [if_neg h1]
    have hbytes : z80FlashRecordBytes - n + 1 = z80FlashRecordBytes - (n - 1) := by omega
    obtain ⟨hst, hindex⟩ := hmore (by omega)
    rw [hbytes] at hcopied hindex
    refine ⟨⟨⟨?_, hrecords ▸ hs.records⟩, by omega, by omega, ?_, ⟨hreads.valid, ?_, ?_, ?_, ?_⟩⟩,
      fun hidle => by simp at hidle⟩
    · rw [hst]
      exact hs.free
    · rw [hhl, add_ofNat_succ, hbytes]
    · rw [hst]
      exact hreads.status
    · exact hindex
    · intro i hi
      rw [hrecords, hexpected]
      exact hreads.expected i hi
    · intro i hi
      rw [hrecords]
      exact hcopied i hi

/-! ### Writes -/

theorem At.writeCommand (hf : s.device.fatalError = false) (hpc : b.pc = .command .write)
    (h : At v store s b began) :
    At v store (biosStep firmware v s b).1 (biosStep firmware v s b).2 began := by
  simp only [At, hpc] at h
  obtain ⟨hs, hm, ha⟩ := h
  simp only [biosStep, hpc]
  rw [output_command ha.enabled hs.free]
  generalize b.memory v.writeCommand = command
  have hgate : ¬(!s.device.writeEnabled || has s.device.status diskStatusBusy ||
      s.device.fatalError) = true := by simp [ha.enabled, hs.free, hf]
  rw [hf]
  -- a kind that BDOS does not give makes another command of it, and no transfer
  have hquiet (value : UInt32) (d : Device) (o : Observer) (hrec : o.records = s.observer.records)
      (he : d.writeEnabled = true) (hroom : value ≠ diskStatusReady ||| diskStatusDataRoom)
      (hbusy : value ≠ diskStatusBusy) :
      At v store ⟨{ d with status := value }, s.core1, o⟩ { b with pc := .roomWait } began :=
    ⟨by rw [hrec]; exact hs.records, hm, he, fun hb => absurd hb hbusy,
      fun hr => absurd hr hroom⟩
  by_cases hclear : command = diskCommandClear
  · rw [hclear, Observer.command_clear, startReply, if_pos rfl]
    exact hquiet _ _ _ rfl ha.enabled (by decide) (by decide)
  rw [startReply, Observer.command, if_neg hgate, if_neg hclear, if_neg Bool.false_ne_true]
  by_cases hflush : command = diskCommandFlush
  · rw [if_pos hflush, if_pos hflush]
    refine ⟨hs.records, hm, ha.enabled, fun _ => rfl, fun hr => ?_⟩
    simp only [Device.reply, diskSubmit] at hr
    exact absurd hr (by decide)
  rw [if_neg hflush, if_neg hflush]
  by_cases hex : RecordExists v began
  swap
  · have haddr : (!addressed s.device) = true := by
      rw [Bool.not_eq_true', ← Bool.not_eq_true, addressed_call ha]
      exact hex
    have hout : z80FlashDiskSlotCount ≤ s.device.drive.toNat ∨
        z80FlashRecordCount ≤ s.device.lba.toNat := by
      rw [ha.drive, ha.lba]
      have := not_and_or.1 hex
      omega
    rw [if_pos hout, if_pos haddr]
    exact hquiet _ _ _ rfl ha.enabled (by decide) (by decide)
  have haddr : addressed s.device = true := (addressed_call ha).2 hex
  have hin : ¬(z80FlashDiskSlotCount ≤ s.device.drive.toNat ∨
      z80FlashRecordCount ≤ s.device.lba.toNat) := by
    have := addressed_iff.1 haddr
    omega
  have hnamed : ¬(!addressed s.device) = true := by simp [haddr]
  rw [if_neg hin, if_neg hnamed]
  by_cases hread : command = diskCommandRead
  · rw [if_pos hread, if_pos hread]
    dsimp only
    rw [fetchRecord_eq]
    exact hquiet _ _ _ rfl ha.enabled (by decide) (by decide)
  rw [if_neg hread, if_neg hread]
  by_cases hwrite : diskCommandWriteNormal ≤ command ∧ command ≤ diskCommandWriteUnallocated
  · have his : isWrite command = true := by simpa [isWrite] using hwrite
    rw [if_pos hwrite, if_pos his]
    refine ⟨hs.records, hm, ha.enabled, fun hb => ?_, fun _ => ⟨hex, ha.enabled, rfl, ?_⟩⟩
    · simp only [Device.reply] at hb
      exact absurd hb (by decide)
    · simp [ha.drive, ha.lba]
  · have his : ¬isWrite command = true := by simpa [isWrite] using hwrite
    rw [if_neg hwrite, if_neg his]
    exact hquiet _ _ _ rfl ha.enabled (by decide) (by decide)

theorem At.roomWait (hinv : Inv s) (hpc : b.pc = .roomWait) (h : At v store s b began) :
    At v store (biosStep firmware v s b).1 (biosStep firmware v s b).2 began := by
  obtain ⟨herror, -, -, hroom, -⟩ := status_read hinv
  have hfree := not_busy hinv
  have hkeep := h
  simp only [At, hpc] at h
  obtain ⟨hr, hm, he, hflush, hwrites⟩ := h
  simp only [biosStep, hpc, input_status, he, if_true]
  split
  · rename_i herr
    exact ⟨by rw [hfree, herror.1 herr]; decide, hr⟩
  · split
    · rename_i hr'
      have hst := hroom.1 hr'
      refine ⟨⟨by rw [hst]; decide, hr⟩, hm, by decide, by decide, ?_, hwrites hst⟩
      simp [dmaOf, hm, z80FlashRecordBytes]
    · exact hkeep

/-- The device after a byte was written to it. -/
structure Given (s s' : Session) (value : UInt8) (k : Nat) : Prop where
  enabled : s'.device.writeEnabled = s.device.writeEnabled
  records : s'.observer.records = s.observer.records
  last : k + 1 = z80FlashRecordBytes → s'.device.status = diskStatusBusy ∧
    s'.observer.submitted =
      some { s.observer.writing with bytes := s.observer.writing.bytes ++ [value] }
  more : k + 1 ≠ z80FlashRecordBytes → s'.device.status = s.device.status ∧
    s'.observer.writing = { s.observer.writing with bytes := s.observer.writing.bytes ++ [value] }

theorem output_data_given (hinv : Inv s) {k : Nat} (h : Writes v s began k) (value : UInt8) :
    Given s (firmware.output diskDataPort value s) value k := by
  obtain ⟨-, hwriting, -⟩ := hinv.core0.writing h.status
  have hindex : s.device.dataIndex = k := by
    rw [h.writing] at hwriting
    have hlength := congrArg (fun t : Transfer => t.bytes.length) hwriting
    simpa using hlength.symm
  have hlength : s.observer.writing.bytes.length = k := by simp [h.writing]
  rw [output_data h.enabled h.status]
  constructor
  · by_cases hlast : s.device.dataIndex + 1 = z80FlashRecordBytes <;>
      simp [putByte, diskSubmit, hlast]
  · simp only [Observer.put]
    split <;> rfl
  · intro hlast
    simp [putByte, Observer.put, hindex, hlength, hlast, diskSubmit]
  · intro hmore
    simp [putByte, Observer.put, hindex, hlength, hmore]

theorem At.otir {n : Nat} {hl : UInt16} (hinv : Inv s) (hpc : b.pc = .otir n hl)
    (h : At v store s b began) :
    At v store (biosStep firmware v s b).1 (biosStep firmware v s b).2 began := by
  simp only [At, hpc] at h
  obtain ⟨hs, hm, hn, hle, hhl, hwrites⟩ := h
  have hvalue : b.memory hl = began.buffer v (z80FlashRecordBytes - n) := by
    rw [hm, hhl]
    rfl
  obtain ⟨henabled, hrecords, hlast, hmore⟩ := output_data_given hinv hwrites (b.memory hl)
  have hwindow : window (began.buffer v) 0 (z80FlashRecordBytes - n) ++ [b.memory hl] =
      window (began.buffer v) 0 (z80FlashRecordBytes - n + 1) := by
    rw [window_succ, hvalue, Nat.zero_add]
  rw [hwrites.writing, hwindow] at hlast hmore
  generalize hnext : firmware.output diskDataPort (b.memory hl) s = next at *
  simp only [biosStep, hpc, hnext]
  by_cases h1 : n = 1
  · subst h1
    have hall : z80FlashRecordBytes - 1 + 1 = z80FlashRecordBytes := by omega
    rw [hall] at hlast
    obtain ⟨hst, hsub⟩ := hlast rfl
    exact ⟨hwrites.valid, henabled.trans hwrites.enabled,
      .inl ⟨hst, hrecords ▸ hs.records, hsub⟩⟩
  · have hbytes : z80FlashRecordBytes - n + 1 = z80FlashRecordBytes - (n - 1) := by omega
    obtain ⟨hst, hwriting⟩ := hmore (by omega)
    rw [hbytes] at hwriting
    rw [if_neg h1]
    refine ⟨⟨by rw [hst]; exact hs.free, hrecords ▸ hs.records⟩, hm, by omega, by omega, ?_,
      hwrites.valid, henabled.trans hwrites.enabled, hst.trans hwrites.status, hwriting⟩
    rw [hhl, add_ofNat_succ, hbytes]

/-- A write that returns 0 is published. -/
theorem At.doneWait (hinv : Inv s) (hpc : b.pc = .doneWait) (h : At v store s b began) :
    let after := biosStep firmware v s b
    if after.2.pc = .idle ∧ after.2.a = 0 then
      At v (stored store (logEntry v .write began after.2)) after.1 after.2 began
    else At v store after.1 after.2 began := by
  obtain ⟨herror, hready, -, -, -⟩ := status_read hinv
  have hfree := not_busy hinv
  have hkeep := h
  simp only [At, hpc] at h
  obtain ⟨hex, he, hcase⟩ := h
  simp only [biosStep, hpc, input_status, he, if_true]
  rcases hcase with ⟨hst, hr, hsub⟩ | ⟨hst, hr⟩
  · have hnoerror : ¬errorBit s.device.status.toUInt8 = true := by rw [hst]; decide
    have hnoready : ¬readyBit s.device.status.toUInt8 = true := by rw [hst]; decide
    rw [if_neg hnoerror, if_neg hnoready, if_neg (by simp [hpc])]
    exact hkeep
  · have hnoerror : ¬errorBit s.device.status.toUInt8 = true := by rw [hst]; decide
    have hisready : readyBit s.device.status.toUInt8 = true := by rw [hst]; decide
    rw [if_neg hnoerror, if_pos hisready, if_pos ⟨rfl, rfl⟩]
    exact ⟨by rw [hst]; decide, hr⟩

/-! ### Flush -/

theorem At.flushCommand (hinv : Inv s) (hf : s.device.fatalError = false)
    (hpc : b.pc = .flushCommand) (h : At v store s b began) :
    At v store (biosStep firmware v s b).1 (biosStep firmware v s b).2 began := by
  have hfree := not_busy hinv
  simp only [At, hpc] at h
  simp only [biosStep, hpc]
  cases he : s.device.writeEnabled with
  | false =>
    rw [output_disabled he]
    exact ⟨h.records, fun hb => absurd hb (hfree.1 h.free)⟩
  | true =>
    rw [output_command he h.free]
    have hobs : s.observer.command diskCommandFlush s.device =
        { s.observer with submitted := none } := by
      simp only [Observer.command, he, h.free, hf]
      rfl
    have hstart : startReply s.device.fatalError diskCommandFlush s.device =
        (.submit diskCommandFlush, s.device) := by
      rw [hf, startReply, if_neg (by decide), if_neg (by decide), if_pos rfl]
    rw [hobs, hstart]
    exact ⟨h.records, fun _ => ⟨rfl, he⟩⟩

theorem At.flushWait (hinv : Inv s) (hpc : b.pc = .flushWait) (h : At v store s b began) :
    At v store (biosStep firmware v s b).1 (biosStep firmware v s b).2 began := by
  obtain ⟨herror, hready, -, -, -⟩ := status_read hinv
  have hfree := not_busy hinv
  have hkeep := h
  simp only [At, hpc] at h
  obtain ⟨hr, hbusy⟩ := h
  simp only [biosStep, hpc, input_status]
  cases he : s.device.writeEnabled with
  | false =>
    simp only [Bool.false_eq_true, if_false, closed_read.1, if_true]
    refine ⟨hfree.2 fun hb => ?_, hr⟩
    simp [he] at hbusy
    exact hbusy hb
  | true =>
    simp only [if_true]
    split
    · rename_i herr
      exact ⟨by rw [hfree, herror.1 herr]; decide, hr⟩
    · split
      · rename_i hisready
        exact ⟨hfree.2 (hready.1 hisready), hr⟩
      · exact hkeep

end

/-! ## Runs -/

section
variable {v : Variables} {s : Session} {b : Bios}

/-- The driver only goes through the ports. -/
theorem biosStep_ports {P : Session → Prop} (hs : P s) (hin : ∀ port, P (s.step (.ioRead port)))
    (hout : ∀ port value, P (s.step (.ioWrite port value))) : P (biosStep firmware v s b).1 := by
  unfold biosStep
  split
  · exact hs
  all_goals first
    | exact hin diskCommandStatusPort
    | exact hin diskDataPort
    | exact hout _ _

theorem startReply_fatal (fatal : Bool) (command : UInt8) (d : Device) :
    (Device.reply (startReply fatal command d)).fatalError = d.fatalError := by
  unfold startReply
  split_ifs <;> (try dsimp only) <;> (try rw [fetchRecord_eq]) <;> rfl

theorem diskIoWrite_fatal (port value : UInt8) (d : Device) :
    (diskIoWrite port value d).fatalError = d.fatalError := by
  unfold diskIoWrite diskStartCommand
  split_ifs
  · rfl
  · rfl
  · exact startReply_fatal _ _ _
  · rfl
  · by_cases hlast : d.dataIndex + 1 = z80FlashRecordBytes <;> simp [putByte, diskSubmit, hlast]
  · rfl
  · obtain ⟨drive, lba, he⟩ := setAddress_eq port value d
    rw [he]

theorem diskIoRead_fatal (port : UInt8) (d : Device) :
    (diskIoRead port d).2.fatalError = d.fatalError := by
  unfold diskIoRead
  split
  · rfl
  · split
    · rfl
    · by_cases hlast : d.dataIndex + 1 = z80FlashRecordBytes <;> simp [takeByte, hlast]

theorem biosStep_fatal :
    (biosStep firmware v s b).1.device.fatalError = s.device.fatalError :=
  biosStep_ports (P := fun s' => s'.device.fatalError = s.device.fatalError) rfl
    (fun port => diskIoRead_fatal port s.device) fun port value => diskIoWrite_fatal port value _

theorem biosStep_inv (h : Inv s) : Inv (biosStep firmware v s b).1 :=
  biosStep_ports h (fun port => h.step (.ioRead port)) fun port value => h.step (.ioWrite port value)

/-- A failure of the storage is never taken back. -/
theorem core1_fatal (w : Weather) (h : s.device.fatalError = true) :
    (s.step (.core1 w)).device.fatalError = true := by
  cases hpc : s.core1 <;> simp only [Session.step, core1Step, hpc] <;> (try split) <;> exact h

/-- What the Pico does between two accesses of the driver. -/
theorem BiosInv.moved {initial : Records} {c : Cpm Session} (h : BiosInv v initial c) (e : Event) :
    BiosInv v initial { c with device := firmwareEnv (c.bios.pc = .idle) e c.device } := by
  cases e with
  | core1 w =>
    refine ⟨h.device.step (.core1 w), h.faithful, fun hf => ?_⟩
    have hbefore : c.device.device.fatalError = false := by
      cases hfatal : c.device.device.fatalError with
      | false => rfl
      | true =>
        have hafter := core1_fatal w hfatal
        rw [show (c.device.step (.core1 w)).device.fatalError = false from hf] at hafter
        cases hafter
    exact (h.position hbefore).aside (core1_aside h.device w hf)
  | requestFlush =>
    refine ⟨h.device.step .requestFlush, h.faithful, fun hf => (h.position hf).aside ?_⟩
    exact ⟨rfl, rfl, id, rfl, rfl, rfl, rfl, .inl ⟨rfl, rfl⟩⟩
  | enable =>
    refine ⟨h.device.step (.setWriteEnabled true), h.faithful, fun hf => (h.position hf).aside ?_⟩
    exact ⟨rfl, rfl, fun _ => rfl, rfl, rfl, rfl, rfl, .inl ⟨rfl, rfl⟩⟩
  | disable =>
    by_cases hidle : c.bios.pc = .idle
    · have hmove : firmwareEnv (decide (c.bios.pc = .idle)) .disable c.device =
          c.device.step (.setWriteEnabled false) := by simp [firmwareEnv, hidle]
      rw [hmove]
      refine ⟨h.device.step (.setWriteEnabled false), h.faithful, fun hf => ?_⟩
      have hat := h.position hf
      simp only [At, hidle] at hat ⊢
      exact ⟨hat.free, hat.records⟩
    · have hmove : firmwareEnv (decide (c.bios.pc = .idle)) .disable c.device = c.device := by
        simp [firmwareEnv, hidle]
      rw [hmove]
      exact h

/-- A step of the driver that logs nothing. -/
theorem BiosInv.unlogged {initial : Records} {c : Cpm Session} (h : BiosInv v initial c)
    (hop : c.bios.pc.op = none)
    (hat : c.device.device.fatalError = false → At v (replay initial c.log) c.device c.bios c.began →
      At v (replay initial c.log) (biosStep firmware v c.device c.bios).1
        (biosStep firmware v c.device c.bios).2 c.began) :
    BiosInv v initial (c.step firmware v firmwareEnv healthy .bios) := by
  have hlog : (c.step firmware v firmwareEnv healthy .bios).log = c.log := by
    simp [Cpm.step, hop]
  refine ⟨biosStep_inv h.device, hlog ▸ h.faithful, fun hf => ?_⟩
  have hbefore : c.device.device.fatalError = false := (biosStep_fatal (v := v)).symm.trans hf
  rw [hlog]
  exact hat hbefore (h.position hbefore)

/-- A step of the driver that may end a transfer. -/
theorem BiosInv.logged {initial : Records} {c : Cpm Session} (op : Op) (h : BiosInv v initial c)
    (hop : c.bios.pc.op = some op)
    (hat : c.device.device.fatalError = false →
      At v (replay initial c.log) c.device c.bios c.began →
      if (biosStep firmware v c.device c.bios).2.pc = .idle ∧
          (biosStep firmware v c.device c.bios).2.a = 0 then
        At v (stored (replay initial c.log)
            (logEntry v op c.began (biosStep firmware v c.device c.bios).2))
          (biosStep firmware v c.device c.bios).1 (biosStep firmware v c.device c.bios).2 c.began ∧
        (op = .read → ∀ i < z80FlashRecordBytes,
          (logEntry v .read c.began (biosStep firmware v c.device c.bios).2).bytes i =
            replay initial c.log (driveOf v c.began).toNat (lbaOf v c.began).toNat i)
      else At v (replay initial c.log) (biosStep firmware v c.device c.bios).1
        (biosStep firmware v c.device c.bios).2 c.began) :
    BiosInv v initial (c.step firmware v firmwareEnv healthy .bios) := by
  have hinv := biosStep_inv (v := v) (b := c.bios) h.device
  have hfatal : (biosStep firmware v c.device c.bios).1.device.fatalError =
      c.device.device.fatalError := biosStep_fatal
  have hstep : c.step firmware v firmwareEnv healthy .bios =
      { c with
        device := (biosStep firmware v c.device c.bios).1
        bios := (biosStep firmware v c.device c.bios).2
        log := c.log ++ if (biosStep firmware v c.device c.bios).2.pc = .idle ∧
            (biosStep firmware v c.device c.bios).2.a = 0 ∧
            healthy (biosStep firmware v c.device c.bios).1 then
          [logEntry v op c.began (biosStep firmware v c.device c.bios).2] else [] } := by
    simp [Cpm.step, hop]
  rw [hstep]
  generalize biosStep firmware v c.device c.bios = after at *
  cases hf : c.device.device.fatalError with
  | true =>
    have hsick : healthy after.1 = false := by simp [healthy, hfatal, hf]
    rw [if_neg (by simp [hsick]), List.append_nil]
    refine ⟨hinv, h.faithful, fun hno => ?_⟩
    have hafter := hfatal.trans hf
    rw [show after.1.device.fatalError = false from hno] at hafter
    cases hafter
  | false =>
    have hwell : healthy after.1 = true := by simp [healthy, hfatal, hf]
    have hnext := hat hf (h.position hf)
    by_cases hend : after.2.pc = .idle ∧ after.2.a = 0
    · rw [if_pos hend] at hnext
      rw [if_pos ⟨hend.1, hend.2, hwell⟩]
      obtain ⟨hat', hread⟩ := hnext
      refine ⟨hinv, (faithful_append _ _ _).2 ⟨h.faithful, ?_⟩, fun _ => ?_⟩
      · intro hop'
        cases op with
        | read => exact hread rfl
        | write => cases hop'
      · simp only [replay_append]
        exact hat'
    · rw [if_neg hend] at hnext
      rw [if_neg (fun he => hend ⟨he.1, he.2.1⟩), List.append_nil]
      exact ⟨hinv, h.faithful, fun _ => hnext⟩

theorem BiosInv.driver {initial : Records} {c : Cpm Session} (h : BiosInv v initial c) :
    BiosInv v initial (c.step firmware v firmwareEnv healthy .bios) := by
  cases hpc : c.bios.pc with
  | idle =>
    refine h.unlogged (by rw [hpc]; rfl) fun _ hat => ?_
    simpa [biosStep, hpc] using hat
  | readyWait op => exact h.unlogged (by rw [hpc]; rfl) fun _ hat => hat.readyWait hpc
  | drivePort op => exact h.unlogged (by rw [hpc]; rfl) fun _ hat => hat.drivePort hpc
  | lbaLow op => exact h.unlogged (by rw [hpc]; rfl) fun _ hat => hat.lbaLow hpc
  | lbaHigh op hl => exact h.unlogged (by rw [hpc]; rfl) fun _ hat => hat.lbaHigh hpc
  | command op =>
    cases op with
    | read => exact h.unlogged (by rw [hpc]; rfl) fun hf hat => hat.readCommand hf hpc
    | write => exact h.unlogged (by rw [hpc]; rfl) fun hf hat => hat.writeCommand hf hpc
  | readWait => exact h.unlogged (by rw [hpc]; rfl) fun _ hat => hat.readWait h.device hpc
  | inir n hl =>
    refine h.logged .read (by rw [hpc]; rfl) fun _ hat => ?_
    obtain ⟨hnext, hbytes⟩ := hat.inir h.device hpc
    split
    · rename_i hend
      exact ⟨hnext, fun _ => hbytes hend.1⟩
    · exact hnext
  | roomWait => exact h.unlogged (by rw [hpc]; rfl) fun _ hat => hat.roomWait h.device hpc
  | otir n hl => exact h.unlogged (by rw [hpc]; rfl) fun _ hat => hat.otir h.device hpc
  | doneWait =>
    refine h.logged .write (by rw [hpc]; rfl) fun _ hat => ?_
    have hnext := hat.doneWait h.device hpc
    dsimp only at hnext
    split
    · rename_i hend
      rw [if_pos hend] at hnext
      exact ⟨hnext, by simp⟩
    · rename_i hend
      rwa [if_neg hend] at hnext
  | flushCommand => exact h.unlogged (by rw [hpc]; rfl) fun hf hat => hat.flushCommand h.device hf hpc
  | flushWait => exact h.unlogged (by rw [hpc]; rfl) fun _ hat => hat.flushWait h.device hpc

theorem BiosInv.step {initial : Records} {c : Cpm Session} (h : BiosInv v initial c)
    (a : Act Event) : BiosInv v initial (c.step firmware v firmwareEnv healthy a) := by
  cases a with
  | program memory =>
    by_cases hidle : c.bios.pc = .idle
    · simp only [Cpm.step, if_pos hidle]
      refine ⟨h.device, h.faithful, fun hf => ?_⟩
      have hat := h.position hf
      simp only [At, hidle] at hat ⊢
      exact hat
    · simpa only [Cpm.step, if_neg hidle] using h
  | call call sp =>
    by_cases hidle : c.bios.pc = .idle
    · simp only [Cpm.step, if_pos hidle]
      refine ⟨h.device, h.faithful, fun hf => ?_⟩
      have hat := h.position hf
      simp only [At, hidle] at hat
      cases call with
      | read => exact ⟨hat, rfl⟩
      | write kind => exact ⟨hat, rfl⟩
      | flush => exact hat
    · simpa only [Cpm.step, if_neg hidle] using h
  | bios => exact h.driver
  | device e => exact h.moved e

theorem BiosInv.start (v : Variables) (f : Flash) (memory : Memory) :
    BiosInv v (flashRecords f) (Cpm.start (Session.start f) memory) :=
  ⟨Inv.start f, trivial, fun _ =>
    ⟨(by decide : has diskStatusReady diskStatusBusy = false), fun _ _ _ _ _ _ => rfl⟩⟩

/-- **CP/M has an array of records.** Whatever programs do between the calls and however the
Pico's cores move during them: the calls that returned 0 before a storage failure are those of
the array that the flash held at the start, each read giving what the writes before it left. -/
theorem bios_records (v : Variables) (f : Flash) (memory : Memory) (acts : List (Act Event)) :
    Faithful (flashRecords f)
      (run (Cpm.step firmware v firmwareEnv healthy) (Cpm.start (Session.start f) memory) acts).log :=
  (run_invariant (fun _ a h => h.step a) (BiosInv.start v f memory) acts).faithful

/-- A read of an erased flash comes to its end and is logged. -/
example : (run (Cpm.step firmware ⟨0, 1, 3, 5, 7, 0, 0⟩ firmwareEnv healthy)
    (Cpm.start (Session.start fun _ => 0xFF) fun _ => 0)
    (.call .read 0x200 :: List.replicate 134 .bios)).log.length = 1 := by
  decide +kernel

end

end Z80Sbc.Disk.BiosRecords
