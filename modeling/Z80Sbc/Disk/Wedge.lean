import Z80Sbc.Concurrent.Run
import Z80Sbc.Disk.Device

/-! # When the disk wedges

Here the port handlers of core 0 are stepped too, one access to `disk_status`,
`disk_pending` or `disk_fatal_error` at a time. A handler tests the status and
the fatal flag and stores BUSY later. When core 1 stores the fatal flag and
READY with ERROR in between, BUSY overwrites them, and core 1, which returns at
once from then on, never clears it: the disk is wedged. `wedged_iff` says that
this is the only way. -/

namespace Z80Sbc.Disk.Wedge
open Z80Sbc.Storage Z80Sbc.Concurrent Z80Sbc.Flash Z80Sbc.Disk

/-! ## The port handlers, access by access -/

/-- Where core 0 stands in a port handler: the access it does next. -/
inductive Core0 where
  | outside
  | readStatus
  | readData
  | readDone
  | writeLoad (port value : UInt8)
  | startLoad (command : UInt8)
  | startFatal (command : UInt8)
  | storeStatus (value : UInt32)
  | submitStatus (command : UInt8)
  | submitPending (command : UInt8)
  deriving DecidableEq

def core0Step (d : Device) : Core0 → Device × Core0
  | .outside => (d, .outside)
  | .readStatus => (d, .outside)
  | .readData =>
    if has d.status diskStatusDataReady then
      let (_, last, d) := takeByte d
      (d, if last then .readDone else .outside)
    else (d, .outside)
  | .readDone => ({ d with status := diskStatusReady }, .outside)
  | .writeLoad port value =>
    if port = diskCommandStatusPort then (d, .startLoad value)
    else if has d.status diskStatusBusy then (d, .outside)
    else if port = diskDataPort then
      if has d.status diskStatusDataRoom then
        let (last, d) := putByte value d
        (d, if last then .submitStatus d.writeCommand else .outside)
      else (d, .outside)
    else (setAddress port value d, .outside)
  | .startLoad command => (d, if has d.status diskStatusBusy then .outside else .startFatal command)
  | .startFatal command =>
    match startReply d.fatalError command d with
    | (.status value, d) => (d, .storeStatus value)
    | (.submit command, d) => (d, .submitStatus command)
  | .storeStatus value => ({ d with status := value }, .outside)
  | .submitStatus command => ({ d with status := diskStatusBusy }, .submitPending command)
  | .submitPending command => ({ d with pending := command.toUInt32 }, .outside)

structure Machine where
  device : Device
  core0 : Core0
  core1 : Core1

def Machine.start (f : Flash) : Machine := ⟨.boot f, .outside, .outside⟩

/-- A port operation begins when core 0 is outside the handlers. -/
inductive Action where
  | ioRead (port : UInt8)
  | ioWrite (port value : UInt8)
  | core0
  | core1 (w : Weather)
  | setWriteEnabled (enabled : Bool)
  | requestFlush

def readEntry (port : UInt8) (d : Device) : Core0 :=
  if port = diskCommandStatusPort then if d.writeEnabled then .readStatus else .outside
  else if port = diskDataPort then .readData
  else .outside

def writeEntry (port value : UInt8) (d : Device) : Core0 :=
  if d.writeEnabled then .writeLoad port value else .outside

def Machine.enter (m : Machine) (pc : Core0) : Machine :=
  match m.core0 with
  | .outside => { m with core0 := pc }
  | _ => m

def Machine.step (m : Machine) : Action → Machine
  | .ioRead port => m.enter (readEntry port m.device)
  | .ioWrite port value => m.enter (writeEntry port value m.device)
  | .core0 => { m with device := (core0Step m.device m.core0).1, core0 := (core0Step m.device m.core0).2 }
  | .core1 w =>
    { m with device := (core1Step w m.device m.core1).1, core1 := (core1Step w m.device m.core1).2 }
  | .setWriteEnabled enabled => { m with device := { m.device with writeEnabled := enabled } }
  | .requestFlush => { m with device := { m.device with supervisorFlush := true } }

/-! ### Left alone, the handlers are the port operations -/

/-- `n` accesses of core 0 in a row. -/
def Machine.alone (m : Machine) (n : Nat) : Machine := run Machine.step m (List.replicate n .core0)

theorem alone_succ (m : Machine) (n : Nat) : m.alone (n + 1) = (m.step .core0).alone n := rfl

/-- A command handler that nothing interrupts. -/
theorem startCommand_alone (command : UInt8) (d : Device) (pc : Core1) :
    ∃ n ≤ 4, Machine.alone ⟨d, .startLoad command, pc⟩ n =
      ⟨diskStartCommand command d, .outside, pc⟩ := by
  unfold diskStartCommand
  cases hbusy : has d.status diskStatusBusy with
  | true => exact ⟨1, by decide, by simp [Machine.alone, Machine.step, core0Step, hbusy]⟩
  | false =>
    cases hr : startReply d.fatalError command d with
    | mk reply d' =>
      cases reply with
      | status value =>
        refine ⟨3, by decide, ?_⟩
        simp [Machine.alone, List.replicate, Machine.step, core0Step, hbusy, hr, Device.reply]
      | submit command =>
        refine ⟨4, by decide, ?_⟩
        simp [Machine.alone, List.replicate, Machine.step, core0Step, hbusy, hr, Device.reply,
          diskSubmit]

theorem ioWrite_alone (port value : UInt8) (d : Device) (pc : Core1) :
    ∃ n ≤ 5, Machine.alone (Machine.step ⟨d, .outside, pc⟩ (.ioWrite port value)) n =
      ⟨diskIoWrite port value d, .outside, pc⟩ := by
  unfold diskIoWrite
  cases hw : d.writeEnabled with
  | false => exact ⟨0, by decide, by simp [Machine.alone, Machine.step, Machine.enter, writeEntry, hw]⟩
  | true =>
    by_cases hcmd : port = diskCommandStatusPort
    · obtain ⟨n, hn, he⟩ := startCommand_alone value d pc
      refine ⟨n + 1, by omega, ?_⟩
      rw [alone_succ]
      simpa [Machine.step, Machine.enter, writeEntry, hw, core0Step, hcmd] using he
    · cases hbusy : has d.status diskStatusBusy with
      | true =>
        refine ⟨1, by decide, ?_⟩
        simp [Machine.alone, Machine.step, Machine.enter, writeEntry, hw, core0Step, hcmd, hbusy]
      | false =>
        by_cases hdata : port = diskDataPort
        · subst hdata
          cases hroom : has d.status diskStatusDataRoom with
          | false =>
            refine ⟨1, by decide, ?_⟩
            simp [Machine.alone, Machine.step, Machine.enter, writeEntry, hw, core0Step, hcmd, hbusy, hroom]
          | true =>
            cases hlast : (putByte value d).1 with
            | false =>
              refine ⟨1, by decide, ?_⟩
              simp [Machine.alone, Machine.step, Machine.enter, writeEntry, hw, core0Step, hcmd, hbusy, hroom,
                hlast]
            | true =>
              refine ⟨3, by decide, ?_⟩
              simp [Machine.alone, List.replicate, Machine.step, Machine.enter, writeEntry, hw, core0Step, hcmd,
                hbusy, hroom, hlast, diskSubmit]
        · refine ⟨1, by decide, ?_⟩
          simp [Machine.alone, Machine.step, Machine.enter, writeEntry, hw, core0Step, hcmd, hbusy, hdata]

theorem ioRead_alone (port : UInt8) (d : Device) (pc : Core1) :
    ∃ n ≤ 2, Machine.alone (Machine.step ⟨d, .outside, pc⟩ (.ioRead port)) n =
      ⟨(diskIoRead port d).2, .outside, pc⟩ := by
  unfold diskIoRead
  by_cases hcmd : port = diskCommandStatusPort
  · cases hw : d.writeEnabled with
    | false => exact ⟨0, by decide, by simp [Machine.alone, Machine.step, Machine.enter, readEntry, hcmd, hw]⟩
    | true =>
      exact ⟨1, by decide, by simp [Machine.alone, Machine.step, Machine.enter, readEntry, core0Step, hcmd, hw]⟩
  · by_cases hdata : port = diskDataPort
    · subst hdata
      cases hready : has d.status diskStatusDataReady with
      | false =>
        exact ⟨1, by decide, by
          simp [Machine.alone, Machine.step, Machine.enter, readEntry, core0Step, hcmd, hready]⟩
      | true =>
        cases hlast : (takeByte d).2.1 with
        | false =>
          refine ⟨1, by decide, ?_⟩
          simp [Machine.alone, Machine.step, Machine.enter, readEntry, core0Step, hcmd, hready, hlast]
        | true =>
          refine ⟨2, by decide, ?_⟩
          simp [Machine.alone, List.replicate, Machine.step, Machine.enter, readEntry, core0Step, hcmd, hready,
            hlast]
    · exact ⟨0, by decide, by simp [Machine.alone, Machine.step, Machine.enter, readEntry, hcmd, hdata]⟩

/-! ## The wedge -/

/-- Both cores are outside, the device has failed, and the Z80 polls BUSY. -/
structure Wedged (m : Machine) : Prop where
  fatal : m.device.fatalError = true
  core1 : m.core1 = .outside
  core0 : m.core0 = .outside
  busy : has m.device.status diskStatusBusy = true

/-- Core 1 is about to report the failure it has stored. -/
def reporting : Core1 → Bool
  | .clearPending false | .publishStatus false | .publishError => true
  | _ => false

/-- The status core 0 stores with its next access. -/
def storing : Core0 → Option UInt32
  | .readDone => some diskStatusReady
  | .storeStatus value => some value
  | .submitStatus _ => some diskStatusBusy
  | _ => none

/-- Core 0 stores a status after core 1 has reported a failure and left. -/
def Late (m : Machine) (a : Action) : Prop :=
  a = .core0 ∧ m.device.fatalError = true ∧ m.core1 = .outside ∧ storing m.core0 ≠ none

/-- The access does not store BUSY late. -/
def InTime (m : Machine) (a : Action) : Prop :=
  Late m a → storing m.core0 ≠ some diskStatusBusy

/-- The access stores nothing late but the report itself. -/
def Prompt (m : Machine) (a : Action) : Prop :=
  Late m a → storing m.core0 = some (diskStatusReady ||| diskStatusError)

/-- The fatal flag is stored on the way to a report, and after the report the
status is one of `ok`. -/
structure Reports (ok : UInt32 → Prop) (q : Device × Core1) : Prop where
  fatal : q.1.fatalError = true → reporting q.2 = true ∨ q.2 = .outside ∧ ok q.1.status
  flagged : reporting q.2 = true → q.1.fatalError = true

/-- The statuses of handlers that do not submit are not BUSY. -/
def StoresIdle (pc : Core0) : Prop := ∀ value, pc = .storeStatus value →
  has value diskStatusBusy = false

theorem startReply_status {fatal : Bool} {command : UInt8} {d d' : Device} {value : UInt32}
    (h : startReply fatal command d = (.status value, d')) : has value diskStatusBusy = false := by
  unfold startReply at h
  dsimp only at h
  split_ifs at h <;> rcases Prod.mk.inj h with ⟨⟨rfl⟩, -⟩ <;> decide

theorem startReply_fatal (fatal : Bool) (command : UInt8) (d : Device) :
    (startReply fatal command d).2.fatalError = d.fatalError ∧
      (startReply fatal command d).2.status = d.status := by
  unfold startReply fetchRecord prefetchTake
  dsimp only
  split_ifs <;> exact ⟨rfl, rfl⟩

/-- Core 0 keeps the fatal flag, and changes the status only by a store. -/
theorem core0Step_spec (d : Device) (pc : Core0) :
    (core0Step d pc).1.fatalError = d.fatalError ∧ StoresIdle (core0Step d pc).2 ∧
    (core0Step d pc).1.status = (storing pc).getD d.status := by
  cases pc with
  | startFatal command =>
    obtain ⟨hf, hs⟩ := startReply_fatal d.fatalError command d
    cases hr : startReply d.fatalError command d with
    | mk reply d' =>
      rw [hr] at hf hs
      cases reply with
      | status value =>
        simp only [core0Step, hr]
        refine ⟨hf, fun v he => ?_, hs⟩
        obtain ⟨rfl⟩ := he
        exact startReply_status hr
      | submit command =>
        simp only [core0Step, hr]
        exact ⟨hf, nofun, hs⟩
  | readData =>
    unfold core0Step takeByte
    dsimp only
    split_ifs <;> exact ⟨rfl, nofun, rfl⟩
  | writeLoad port value =>
    unfold core0Step putByte setAddress
    dsimp only
    split_ifs <;> exact ⟨rfl, nofun, rfl⟩
  | startLoad command =>
    unfold core0Step
    split_ifs <;> exact ⟨rfl, nofun, rfl⟩
  | _ => exact ⟨rfl, nofun, rfl⟩

section
variable {ok : UInt32 → Prop}

/-- A step of core 0 whose late store, if any, stores one of `ok`. -/
theorem Reports.core0 {d : Device} {pc : Core0} {pc1 : Core1} (h : Reports ok (d, pc1))
    (hin : d.fatalError = true → pc1 = .outside → ∀ value, storing pc = some value → ok value) :
    Reports ok ((core0Step d pc).1, pc1) := by
  obtain ⟨hfatal, -, hstatus⟩ := core0Step_spec d pc
  refine ⟨fun hf => ?_, fun hr => hfatal.trans (h.flagged hr)⟩
  have hf' : d.fatalError = true := hfatal ▸ hf
  rcases h.fatal hf' with hr | ⟨hpc, hok⟩
  · exact Or.inl hr
  · refine Or.inr ⟨hpc, ?_⟩
    dsimp only
    rw [hstatus]
    cases hs : storing pc with
    | none => exact hok
    | some value => exact hin hf' hpc value hs

/-- A step of core 1 that stores no fatal flag and reports nothing. -/
theorem Reports.keep {d d' : Device} {pc pc' : Core1} (h : Reports ok (d, pc))
    (hr : reporting pc = false) (ho : pc ≠ .outside) (hd : d'.fatalError = d.fatalError)
    (hpc' : reporting pc' = false) : Reports ok (d', pc') := by
  have hf : d.fatalError = false := by
    rw [Bool.eq_false_iff]
    intro hf
    rcases h.fatal hf with h | ⟨h, -⟩
    · rw [hr] at h; cases h
    · exact ho h
  constructor
  · intro hf'
    rw [hd, hf] at hf'; cases hf'
  · intro hr'
    rw [hpc'] at hr'; cases hr'

theorem silent_ite {c : Prop} [Decidable c] {pc pc' : Core1} (h : reporting pc = false)
    (h' : reporting pc' = false) : reporting (if c then pc else pc') = false := by
  split
  · exact h
  · exact h'

/-- Every step of core 1: both reports store READY with ERROR. -/
theorem Reports.core1 {d : Device} {pc : Core1} (h : Reports ok (d, pc))
    (hok : ok (diskStatusReady ||| diskStatusError)) (w : Weather) :
    Reports ok (core1Step w d pc) := by
  cases pc with
  | outside =>
    cases hf : d.fatalError with
    | true => simpa only [core1Step, hf, if_true] using h
    | false =>
      simp only [core1Step, hf, Bool.false_eq_true, if_false]
      exact ⟨fun hf' => (by rw [hf] at hf'; cases hf'), nofun⟩
  | pendingFatal => exact ⟨fun _ => Or.inl rfl, fun _ => rfl⟩
  | storeFatal => exact ⟨fun _ => Or.inl rfl, fun _ => rfl⟩
  | publishError => exact ⟨fun _ => Or.inr ⟨rfl, hok⟩, nofun⟩
  | clearPending success =>
    cases success with
    | true => exact h.keep rfl nofun rfl rfl
    | false => exact ⟨fun _ => Or.inl rfl, fun _ => h.flagged rfl⟩
  | publishStatus success =>
    cases success with
    | true => exact h.keep rfl nofun rfl rfl
    | false => exact ⟨fun _ => Or.inr ⟨rfl, hok⟩, nofun⟩
  | flushCommand | writeRecord command => exact h.keep rfl nofun rfl (silent_ite rfl rfl)
  | openSlot slot key words caller => cases words <;> exact h.keep rfl nofun rfl rfl
  | closeSlot slot caller => cases caller <;> exact h.keep rfl nofun rfl rfl
  | supervisorFlush => exact h.keep rfl nofun rfl rfl
  | clearSupervisor success => cases success <;> exact h.keep rfl nofun rfl rfl
  | copyWords slot words index caller =>
    simp only [core1Step]
    split <;> exact h.keep rfl nofun rfl rfl
  | prefetch hint ahead =>
    simp only [core1Step]
    split
    · exact h.keep rfl nofun rfl rfl
    · exact h.keep rfl nofun rfl (silent_ite rfl rfl)
  | loadPending => exact h.keep rfl nofun rfl (silent_ite (silent_ite rfl rfl) rfl)
  | invalidate command | loadSupervisor | flushDue | idleFlush | loadHint =>
    exact h.keep rfl nofun rfl (silent_ite rfl rfl)

end

/-- A port operation begins, or core 0 is busy with another one. -/
theorem enter_cases (m : Machine) (pc : Core0) : m.enter pc = m ∨ m.enter pc = { m with core0 := pc } := by
  unfold Machine.enter
  split
  · exact Or.inr rfl
  · exact Or.inl rfl

theorem readEntry_cases (port : UInt8) (d : Device) : readEntry port d = .readStatus ∨
    readEntry port d = .readData ∨ readEntry port d = .outside := by
  unfold readEntry
  split_ifs <;> simp

theorem writeEntry_cases (port value : UInt8) (d : Device) :
    writeEntry port value d = .writeLoad port value ∨ writeEntry port value d = .outside := by
  unfold writeEntry
  split_ifs <;> simp

/-- Beginning a port operation, and the two switches, store no status. -/
theorem Reports.other {m : Machine} {ok : UInt32 → Prop} (h : Reports ok (m.device, m.core1))
    {a : Action} (h0 : a ≠ .core0) (h1 : ∀ w, a ≠ .core1 w) :
    Reports ok ((m.step a).device, (m.step a).core1) := by
  cases a with
  | core0 => exact absurd rfl h0
  | core1 w => exact absurd rfl (h1 w)
  | setWriteEnabled enabled => exact ⟨h.fatal, h.flagged⟩
  | requestFlush => exact ⟨h.fatal, h.flagged⟩
  | ioRead port =>
    show Reports ok ((m.enter _).device, (m.enter _).core1)
    rcases enter_cases m (readEntry port m.device) with he | he <;> rw [he] <;> exact h
  | ioWrite port value =>
    show Reports ok ((m.enter _).device, (m.enter _).core1)
    rcases enter_cases m (writeEntry port value m.device) with he | he <;> rw [he] <;> exact h

theorem StoresIdle.step {m : Machine} (h : StoresIdle m.core0) (a : Action) :
    StoresIdle (m.step a).core0 := by
  cases a with
  | core0 => exact (core0Step_spec m.device m.core0).2.1
  | core1 w => exact h
  | setWriteEnabled enabled => exact h
  | requestFlush => exact h
  | ioRead port =>
    show StoresIdle (m.enter _).core0
    rcases enter_cases m (readEntry port m.device) with he | he <;> rw [he]
    · exact h
    · rcases readEntry_cases port m.device with hp | hp | hp <;> rw [hp] <;> exact nofun
  | ioWrite port value =>
    show StoresIdle (m.enter _).core0
    rcases enter_cases m (writeEntry port value m.device) with he | he <;> rw [he]
    · exact h
    · rcases writeEntry_cases port value m.device with hp | hp <;> rw [hp] <;> exact nofun

/-- While no BUSY came late. -/
structure Sound (m : Machine) : Prop where
  stored : StoresIdle m.core0
  reports : Reports (has · diskStatusBusy = false) (m.device, m.core1)

/-- **One step.** The invariant survives everything but a late BUSY. -/
theorem Sound.step {m : Machine} (a : Action) (hin : InTime m a) (h : Sound m) :
    Sound (m.step a) := by
  refine ⟨h.stored.step a, ?_⟩
  cases a with
  | core1 w => exact h.reports.core1 (by decide) w
  | core0 =>
    refine h.reports.core0 fun hf hout value hs => ?_
    have hne := hin ⟨rfl, hf, hout, by rw [hs]; exact nofun⟩
    cases hpc : m.core0 with
    | storeStatus v =>
      rw [hpc] at hs
      obtain ⟨rfl⟩ := hs
      exact h.stored _ hpc
    | readDone =>
      rw [hpc] at hs
      obtain ⟨rfl⟩ := hs
      decide
    | submitStatus command => exact absurd (by rw [hpc]; rfl) hne
    | _ =>
      rw [hpc] at hs
      cases hs
  | _ => exact h.reports.other nofun nofun

theorem Sound.start (f : Flash) : Sound (.start f) := ⟨nofun, nofun, nofun⟩

theorem Sound.not_wedged {m : Machine} (h : Sound m) : ¬Wedged m := by
  rintro ⟨hf, hpc, -, hbusy⟩
  rcases h.reports.fatal hf with hr | ⟨-, hn⟩
  · dsimp only at hr
    rw [hpc] at hr; cases hr
  · dsimp only at hn
    rw [hn] at hbusy; cases hbusy

/-- While core 0 stored nothing late but the report itself. -/
theorem Reports.step {m : Machine} (a : Action) (hin : Prompt m a)
    (h : Reports (· = diskStatusReady ||| diskStatusError) (m.device, m.core1)) :
    Reports (· = diskStatusReady ||| diskStatusError) ((m.step a).device, (m.step a).core1) := by
  cases a with
  | core1 w => exact h.core1 rfl w
  | core0 =>
    refine h.core0 fun hf hout value hs => ?_
    have hreport := hin ⟨rfl, hf, hout, by rw [hs]; exact nofun⟩
    rw [hs] at hreport
    exact Option.some.inj hreport
  | _ => exact h.other nofun nofun

/-! ### After a late BUSY -/

/-- Where core 0 can be while it reads nothing but BUSY. -/
def harmless : Core0 → Bool
  | .outside | .readStatus | .readData | .writeLoad _ _ | .startLoad _ | .submitPending _ => true
  | _ => false

/-- Nobody will store a status again. -/
structure Broken (m : Machine) : Prop where
  fatal : m.device.fatalError = true
  core1 : m.core1 = .outside
  core0 : harmless m.core0 = true
  busy : m.device.status = diskStatusBusy

theorem Late.broken {m : Machine} {a : Action} (h : Late m a) (hpc : StoresIdle m.core0)
    (hs : storing m.core0 = some diskStatusBusy) : Broken (m.step a) := by
  obtain ⟨rfl, hf, hout, -⟩ := h
  cases hc : m.core0 with
  | submitStatus command =>
    simp only [Machine.step, hc, core0Step]
    exact ⟨hf, hout, rfl, rfl⟩
  | storeStatus value =>
    rw [hc] at hs
    obtain ⟨rfl⟩ := hs
    exact absurd (hpc _ hc) (by decide)
  | readDone =>
    rw [hc] at hs
    exact absurd hs (by decide)
  | _ =>
    rw [hc] at hs
    exact absurd hs nofun

theorem Broken.step {m : Machine} (h : Broken m) (a : Action) : Broken (m.step a) := by
  obtain ⟨hf, hout, hpc, hbusy⟩ := h
  have hb : has m.device.status diskStatusBusy = true := by rw [hbusy]; decide
  have hr : has m.device.status diskStatusDataReady = false := by rw [hbusy]; decide
  cases a with
  | core0 =>
    unfold Machine.step
    cases hc : m.core0 with
    | outside => exact ⟨hf, hout, rfl, hbusy⟩
    | readStatus => exact ⟨hf, hout, rfl, hbusy⟩
    | readData =>
      simp only [core0Step, hr, Bool.false_eq_true, if_false]
      exact ⟨hf, hout, rfl, hbusy⟩
    | writeLoad port value =>
      simp only [core0Step, hb, if_true]
      split
      · exact ⟨hf, hout, rfl, hbusy⟩
      · exact ⟨hf, hout, rfl, hbusy⟩
    | startLoad command =>
      simp only [core0Step, hb, if_true]
      exact ⟨hf, hout, rfl, hbusy⟩
    | submitPending command => exact ⟨hf, hout, rfl, hbusy⟩
    | readDone | startFatal command | storeStatus value | submitStatus command =>
      rw [hc] at hpc
      cases hpc
  | core1 w =>
    simp only [Machine.step, hout, core1Step, hf, if_true]
    exact ⟨hf, rfl, hpc, hbusy⟩
  | setWriteEnabled enabled => exact ⟨hf, hout, hpc, hbusy⟩
  | requestFlush => exact ⟨hf, hout, hpc, hbusy⟩
  | ioRead port =>
    show Broken (m.enter (readEntry port m.device))
    rcases enter_cases m (readEntry port m.device) with he | he
    · rw [he]; exact ⟨hf, hout, hpc, hbusy⟩
    · rw [he]
      rcases readEntry_cases port m.device with hp | hp | hp <;> rw [hp] <;>
        exact ⟨hf, hout, rfl, hbusy⟩
  | ioWrite port value =>
    show Broken (m.enter (writeEntry port value m.device))
    rcases enter_cases m (writeEntry port value m.device) with he | he
    · rw [he]; exact ⟨hf, hout, hpc, hbusy⟩
    · rw [he]
      rcases writeEntry_cases port value m.device with hp | hp <;> rw [hp] <;>
        exact ⟨hf, hout, rfl, hbusy⟩

/-! ## The theorems -/

theorem start_reports (f : Flash) (ok : UInt32 → Prop) :
    Reports ok ((Machine.start f).device, (Machine.start f).core1) :=
  ⟨nofun, nofun⟩

/-- **When the disk wedges.** A run in which BUSY is never stored late reaches no
wedged disk; after one late BUSY the disk is wedged whenever core 0 is outside
the handlers. When nothing is stored late but the report itself, then a failed
device that neither core is working on shows READY with ERROR. -/
theorem wedged_iff (f : Flash) (actions : List Action) :
    let m := run Machine.step (.start f) actions
    (Along Machine.step InTime (.start f) actions → ¬Wedged m) ∧
    (¬Along Machine.step InTime (.start f) actions → m.core0 = .outside → Wedged m) ∧
    (Along Machine.step Prompt (.start f) actions → m.device.fatalError = true →
      m.core1 = .outside → m.device.status = diskStatusReady ||| diskStatusError) := by
  intro m
  refine ⟨fun halong => ?_, fun hlate hout => ?_, fun halong hf hout => ?_⟩
  · exact (Along.invariant (fun _ a hin h => Sound.step a hin h) (Sound.start f) halong).not_wedged
  · have hb : Broken m := by
      refine Along.broken (I := fun m => StoresIdle m.core0) (fun _ a h => h.step a)
        (fun m a hidle hl => ?_) (fun _ a h => h.step a) nofun hlate
      obtain ⟨hl, hs⟩ := Classical.not_imp.mp hl
      exact hl.broken hidle (not_not.mp hs)
    exact ⟨hb.fatal, hb.core1, hout, by rw [hb.busy]; decide⟩
  · have hr := Along.invariant
      (I := fun m : Machine => Reports (· = diskStatusReady ||| diskStatusError) (m.device, m.core1))
      (fun _ a hin h => Reports.step a hin h) (start_reports f _) halong
    rcases hr.fatal hf with h | ⟨-, h⟩
    · have hno : reporting m.core1 = false := by rw [hout]; rfl
      exact absurd h (by rw [hno]; exact nofun)
    · exact h

/-- A record is written and published; the idle flush is refused the bus; before
core 1 has stored the fatal flag, core 0 takes a FLUSH command up to its BUSY,
which it stores after core 1 has reported the failure. -/
def lateFlush : List Action :=
  let write := fun port value => [Action.ioWrite port value, .core0]
  let calm : Weather := ⟨⟨true, fun _ => none, true⟩, ⟨true, fun _ => none, true⟩, 0⟩
  let refused : Weather := ⟨⟨false, fun _ => none, true⟩, ⟨false, fun _ => none, true⟩, 250⟩
  write 0x10 2 ++ [.core0, .core0, .core0] ++ (List.replicate 128 (write 0x14 0)).flatten ++
    [.core0, .core0] ++ List.replicate 7 (.core1 calm) ++ List.replicate 5 (.core1 refused) ++
    write 0x10 5 ++ [.core0, .core0] ++ List.replicate 2 (.core1 refused) ++ [.core0, .core0]

def isOutside : Core1 → Bool
  | .outside => true
  | _ => false

theorem eq_outside {pc : Core1} (h : isOutside pc = true) : pc = .outside := by
  cases pc with
  | outside => rfl
  | _ => cases h

/-- The disk can wedge. -/
theorem wedge_reachable :
    ¬∀ (f : Flash) (actions : List Action), ¬Wedged (run Machine.step (.start f) actions) := by
  intro h
  refine h (fun _ => 0xFF) lateFlush ⟨?_, eq_outside ?_, ?_, ?_⟩
  all_goals decide +kernel

end Z80Sbc.Disk.Wedge
