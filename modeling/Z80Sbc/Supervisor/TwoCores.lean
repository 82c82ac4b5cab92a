import Z80Sbc.Disk.Linearizable
import Z80Sbc.Io.Transport
import Z80Sbc.Supervisor.Reboot

/-! # Two cores and the Z80

What `service_run`, `core1_service` and the job slot of `io_service.c` do to the disks,
one step for each access the other side could see. The PIO completes an OUT ahead of
core 0 and queues it; core 0 applies the queue in its interrupt, and once more with the
Z80 parked before it tests the disks. The rest of a step of the supervisor is
`State.serviceControl` and `State.serviceRun`. What the network and the other jobs do is
left out: they do not touch the disks.

`submissions` is not in the source. It keeps the record writes that were submitted. -/

namespace Z80Sbc.Supervisor.TwoCores
open Z80Sbc.Storage Z80Sbc.Flash Z80Sbc.Disk Z80Sbc.Supervisor
open Flash.CacheCoherence (Records SameRecords flashRecords)
open Linearizable (Session Transfer)

/-- A request of `io_service.c`. -/
structure Job where
  command : UInt8
  data : List UInt8
  deriving DecidableEq

/-- The utility request that asks for a reboot, with its confirmation. -/
def Job.reboot : Job := ⟨Io.ioServiceUtility, [2, 0xA5]⟩

inductive WorkState where
  | idle | pending | done
  deriving DecidableEq

/-- An OUT that is completed: to a disk port, or to a service port, which polls the job
and submits one or does neither. -/
inductive Out where
  | disk (port value : UInt8)
  | service (poll : Bool) (job : Option Job)

/-- The loads of `z80_flash_disk_quiescent`. -/
inductive Check where
  | supervisorFlush | status | backend

/-- The load after this one, or the result. -/
def Check.next (d : Device) : Check → Check ⊕ Bool
  | .supervisorFlush => if d.supervisorFlush then .inr false else .inl .status
  | .status => if d.status = diskStatusReady then .inl .backend else .inr false
  | .backend => .inr (quiescent d.backend)

/-- Where core 0 stands in `service_run`. -/
inductive Core0 where
  | loop
  | requestBus (i : RunInput)
  | drain (i : RunInput)
  | check (c : Check) (i : RunInput)
  | hold (i : RunInput)
  | reset

/-- Where `z80_flash_core1_service` returns to: to `core1_service`, or to the first or
the second call of the reboot job. -/
inductive Return where
  | ports | again | flush

/-- Where core 1 stands in `core1_service`; `pausing` is on its branch for a pause. -/
inductive Core1 where
  | workers
  | pauseRequest
  | paused
  | clearPaused
  | flash (r : Return) (pausing : Bool)
  | ports (pausing : Bool)
  | utilityFlush (pausing : Bool)
  | utilityCheck (c : Check) (pausing : Bool)
  | requestReboot (pausing : Bool)
  | enableWrites (pausing : Bool)
  | workDone (pausing : Bool)
  | pauseCheck (c : Check)
  | portsQuiescent
  | storePaused

/-- Where the services of one round are followed by the test for a pause. -/
def afterPorts (pausing : Bool) : Core1 := if pausing then .pauseCheck .supervisorFlush else .workers

def Return.resume (pausing : Bool) : Return → Core1
  | .ports => .ports pausing
  | .again => .flash .flush pausing
  | .flush => .utilityFlush pausing

/-- `z80_flash_core1_service` has returned. -/
def outside : Disk.Core1 → Bool
  | .outside => true
  | _ => false

structure System where
  disk : Session
  supervisor : State
  core0 : Core0
  core1 : Core1
  queue : List Out
  /-- core 0 has the bus -/
  parked : Bool
  flashPaused : Bool
  workState : WorkState
  job : Job
  rebootRequested : Bool
  submissions : List Transfer

/-- What a step of core 1 meets: the backend, and `z80_network_setup_quiescent`. -/
structure Core1Input where
  weather : Weather
  networkQuiescent : Bool

/-- The loop of `main` is reached, on a recovered flash. -/
def System.start (f : Flash) (supervisor : State) : System where
  disk := .start f
  supervisor := supervisor
  core0 := .loop
  core1 := .workers
  queue := []
  parked := false
  flashPaused := false
  workState := .idle
  job := ⟨0, []⟩
  rebootRequested := false
  submissions := []

/-- The write that a port write submits, the last byte of a record being accepted. -/
def submitted (port value : UInt8) (s : Session) : List Transfer :=
  if port = diskDataPort ∧ s.device.writeEnabled ∧ has s.device.status diskStatusDataRoom ∧
      s.observer.writing.bytes.length + 1 = z80FlashRecordBytes then
    [{ s.observer.writing with bytes := s.observer.writing.bytes ++ [value] }]
  else []

instance (i : RunInput) (s : State) : Decidable (Reboot.ChecksStop i s) :=
  inferInstanceAs (Decidable (_ ∧ _))

namespace System

/-! ## Applying an OUT -/

/-- `z80_io_service_poll` -/
def poll (s : System) : System :=
  if s.workState = .done then { s with workState := .idle } else s

/-- `z80_io_service_submit` -/
def submit (job : Job) (s : System) : System :=
  if s.workState ≠ .idle then s
  else
    { s with
      job := job
      disk := if job = .reboot then s.disk.step (.setWriteEnabled false) else s.disk
      workState := .pending }

def apply (s : System) : Out → System
  | .disk port value =>
    { s with
      disk := s.disk.step (.ioWrite port value)
      submissions := s.submissions ++ submitted port value s.disk }
  | .service polls job =>
    let s := if polls then s.poll else s
    match job with
    | some job => s.submit job
    | none => s

/-- Core 0 takes its interrupts. -/
def interruptible (s : System) : Bool :=
  match s.core0 with
  | .loop | .requestBus _ => true
  | _ => false

/-- The oldest OUT of the queue. -/
def applyNext (s : System) : System :=
  match s.queue with
  | [] => s
  | out :: rest => apply { s with queue := rest } out

/-! ## Core 0 -/

/-- `service_run` up to the request for the bus, where it gets to its stop check. -/
def serviceRun (i : RunInput) (s : System) : System :=
  let i := { i with fatal := s.disk.device.fatalError, flashPaused := s.flashPaused }
  if Reboot.ChecksStop i s.supervisor then
    { s with supervisor := (s.supervisor.watchBoot i).announceReady i, core0 := .requestBus i }
  else
    let supervisor := s.supervisor.serviceRun i
    { s with
      supervisor := supervisor
      disk :=
        if supervisor.flushSubmitted && !s.supervisor.flushSubmitted then s.disk.step .requestFlush
        else s.disk }

/-- The next step of the stop check under way. -/
def core0Step (s : System) : System :=
  match s.core0 with
  | .loop | .reset => s
  | .requestBus i =>
    if i.busRequested then { s with parked := true, core0 := .drain i }
    else { s with supervisor := s.supervisor.stopCheck i, core0 := .loop }
  | .drain i => if s.queue.isEmpty then { s with core0 := .check .supervisorFlush i } else s.applyNext
  | .check c i =>
    match c.next s.disk.device with
    | .inl c => { s with core0 := .check c i }
    | .inr true => { s with core0 := .hold i }
    | .inr false =>
      { s with
        supervisor := s.supervisor.stopCheck { i with quiescent := false }
        parked := !i.busReleased
        core0 := .loop }
  | .hold i =>
    { s with supervisor := s.supervisor.stopCheck { i with quiescent := true }, core0 := .loop }

/-- The loop of `main` takes the request of the utility service. -/
def takeReboot (s : System) : System :=
  if s.rebootRequested then
    { s with
      rebootRequested := false
      supervisor := s.supervisor.holdCpu.watchdogReboot
      core0 := .reset }
  else s

/-! ## Core 1 -/

def core1Step (i : Core1Input) (s : System) : System :=
  match s.core1 with
  | .workers => { s with core1 := if s.supervisor.workersReady then .pauseRequest else .workers }
  | .pauseRequest =>
    { s with core1 := if s.supervisor.flashPauseRequest then .paused else .clearPaused }
  | .paused => { s with core1 := if s.flashPaused then .workers else .flash .ports true }
  | .clearPaused => { s with flashPaused := false, core1 := .flash .ports false }
  | .flash r pausing =>
    let disk := s.disk.step (.core1 i.weather)
    { s with disk := disk, core1 := if outside disk.core1 then r.resume pausing else .flash r pausing }
  | .ports pausing =>
    { s with
      core1 :=
        if s.workState ≠ .pending then afterPorts pausing
        else if s.job = .reboot then .flash .again pausing
        else .workDone pausing }
  | .utilityFlush pausing =>
    let (success, b) := flushDiskCache i.weather.flush s.disk.device.backend
    { s with
      disk := { s.disk with device := { s.disk.device with backend := b } }
      core1 := if success then .utilityCheck .supervisorFlush pausing else .enableWrites pausing }
  | .utilityCheck c pausing =>
    { s with
      core1 :=
        match c.next s.disk.device with
        | .inl c => .utilityCheck c pausing
        | .inr true => .requestReboot pausing
        | .inr false => .enableWrites pausing }
  | .requestReboot pausing => { s with rebootRequested := true, core1 := .workDone pausing }
  | .enableWrites pausing =>
    { s with disk := s.disk.step (.setWriteEnabled true), core1 := .workDone pausing }
  | .workDone pausing => { s with workState := .done, core1 := afterPorts pausing }
  | .pauseCheck c =>
    { s with
      core1 :=
        match c.next s.disk.device with
        | .inl c => .pauseCheck c
        | .inr true => .portsQuiescent
        | .inr false => .workers }
  | .portsQuiescent =>
    { s with
      core1 := if s.workState ≠ .pending && i.networkQuiescent then .storePaused else .workers }
  | .storePaused => { s with flashPaused := true, core1 := .workers }

/-! ## Steps -/

/-- The Z80 is clocked, out of reset, and has the bus. -/
def cpuRuns (s : System) : Bool := s.supervisor.running && !s.parked

/-- The Z80 completes an OUT; an IN of a disk port or of a service port, which waits for
the OUTs before it; an interrupt; the loop of core 0; the stop check; core 1. -/
inductive Action where
  | output (out : Out)
  | diskInput (port : UInt8)
  | serviceInput
  | interrupt
  | control (i : ControlInput)
  | run (i : RunInput)
  | takeReboot
  | core0
  | core1 (i : Core1Input)

/-- Core 0 is in the loop of `main`. -/
def looping (s : System) : Bool :=
  match s.core0 with
  | .loop => true
  | _ => false

/-- An IN gets its reply now. -/
def replies (s : System) : Bool := s.cpuRuns && s.interruptible && s.queue.isEmpty

def step (s : System) : Action → System
  | .output out => if s.cpuRuns then { s with queue := s.queue ++ [out] } else s
  | .diskInput port => if s.replies then { s with disk := s.disk.step (.ioRead port) } else s
  | .serviceInput => if s.replies then s.poll else s
  | .interrupt => if s.interruptible then s.applyNext else s
  | .control i =>
    if s.looping then { s with supervisor := s.supervisor.serviceControl i } else s
  | .run i => if s.looping then s.serviceRun i else s
  | .takeReboot => if s.looping then s.takeReboot else s
  | .core0 => s.core0Step
  | .core1 i => s.core1Step i

end System

end Z80Sbc.Supervisor.TwoCores
