import Mathlib.Tactic.Common

/-! # The supervisor loop

`main.c` as the network build has it, with the automatic boot: `service_control` and
`service_run`, and `main` up to its loop. What they read of the queue, the clock, the
other core and the board is in the inputs. The console holds the texts that are printed
without arguments, the last one first; status, help and progress are left out. -/

namespace Z80Sbc.Supervisor

/-- `z80_web_reboot_status_t` -/
inductive WebReboot where
  | idle | requested | flushing | restarting | storageError | timeout | rejected | cpmReady
  deriving DecidableEq

def usbReportConnection : UInt16 := 0x100
def usbConfigReboot : UInt16 := 0x101

def key (c : Char) : UInt16 := UInt16.ofNat c.toNat

structure State where
  bootAttempted : Bool
  imageVerified : Bool
  running : Bool
  runtimeStarted : Bool
  startupFailed : Bool
  workersReady : Bool
  configRebootAfterStop : Bool
  configRebootReady : Bool
  webRebootActive : Bool
  stopRequested : Bool
  flushSubmitted : Bool
  biosAnnounced : Bool
  ccpAnnounced : Bool
  bootTimedOut : Bool
  bootFailure : Option String
  flashPauseRequest : Bool
  flashResuming : Bool
  diagnosticActive : Bool
  diagnosticNextProgress : Nat
  /-- the statuses given to the web terminal, the last one first -/
  reports : List WebReboot
  /-- `watchdog_reboot` has been called -/
  rebooting : Bool
  console : List String

def State.start : State where
  bootAttempted := false
  imageVerified := false
  running := false
  runtimeStarted := false
  startupFailed := false
  workersReady := false
  configRebootAfterStop := false
  configRebootReady := false
  webRebootActive := false
  stopRequested := false
  flushSubmitted := false
  biosAnnounced := false
  ccpAnnounced := false
  bootTimedOut := false
  bootFailure := none
  flashPauseRequest := false
  flashResuming := false
  diagnosticActive := false
  diagnosticNextProgress := 0
  reports := []
  rebooting := false
  console := []

/-- What loading and starting come to. -/
structure BootInput where
  /-- the name of the error, where the load fails -/
  loadError : Option String
  /-- the diagnostic is loaded and read back -/
  diagnosticLoaded : Bool
  /-- the trap and the clock start -/
  started : Bool

structure ControlInput where
  boot : BootInput
  /-- the reboot status at its two loads, and whether the request was claimed between them -/
  status : WebReboot
  claimed : Bool
  statusLater : WebReboot
  /-- the storage error at its three loads -/
  fatalAtRequest : Bool
  fatal : Bool
  fatalAtCommand : Bool
  webDeadline : Bool
  configDeadline : Bool
  command : Option UInt16

structure RunInput where
  diagnosticCount : Nat
  diagnosticResult : UInt32
  bootMarkers : UInt32
  bootDeadline : Bool
  fatal : Bool
  status : WebReboot
  flashPaused : Bool
  busRequested : Bool
  quiescent : Bool
  busReleased : Bool

namespace State

def print (text : String) (s : State) : State := { s with console := text :: s.console }

/-- `z80_web_terminal_set_reboot_status` -/
def report (status : WebReboot) (s : State) : State :=
  { s with reports := status :: s.reports }

def holdCpu (s : State) : State :=
  { s with running := false, imageVerified := false, stopRequested := false, diagnosticActive := false }

def watchdogReboot (s : State) : State := { s with rebooting := true }

/-! ## Commands -/

def loadImage (i : BootInput) (s : State) : State :=
  if s.bootAttempted ∨ s.running ∨ s.runtimeStarted then
    s.print "\n[diag] Load already attempted; stop and reboot Pico to reload.\n"
  else
    let s := { s with bootAttempted := true }
    match i.loadError with
    | some error => { s with bootFailure := some error }.holdCpu
    | none => { s with imageVerified := true }

def startCpm (i : BootInput) (s : State) : State :=
  if !s.imageVerified ∨ s.running ∨ s.runtimeStarted then
    s.print "\n[diag] Start rejected: first load/verify with Ctrl-] l; a stopped run requires Pico reboot.\n"
  else
    let s :=
      { s with
        biosAnnounced := false, ccpAnnounced := false, bootTimedOut := false, runtimeStarted := true }
    if !i.started then
      { s with bootFailure := some "trap/clock start" }.holdCpu.print
        "[boot] FAIL: trap/clock start; RESET held LOW\n"
    else { s with running := true, workersReady := true }

def startDiskDiagnostic (i : BootInput) (s : State) : State :=
  if !s.imageVerified ∨ s.runtimeStarted ∨ s.running then
    s.print "\n[diag] Disk test requires Ctrl-] l and no prior run.\n"
  else
    let s := { s with imageVerified := false, diagnosticNextProgress := 65536 }
    if !i.diagnosticLoaded then
      s.holdCpu.print "\n[diag] FAIL: disk diagnostic load/readback; RESET held LOW\n"
    else if !i.started then
      { s with diagnosticActive := true }.holdCpu.print
        "\n[diag] FAIL: disk diagnostic start; RESET held LOW\n"
    else { s with diagnosticActive := true, running := true }

/-- The command x. -/
def requestStop (s : State) : State :=
  if !s.running ∨ s.diagnosticActive then
    s.holdCpu.print "\n[diag] RESET held LOW; reboot required before a new run.\n"
  else
    { s with stopRequested := true, flushSubmitted := false, flashPauseRequest := true }.print
      "\n[diag] Stop requested; waiting for disk completion/flush.\n"

def diagnosticCommand (i : BootInput) (command : UInt16) (s : State) : State :=
  if command = key 'l' then s.loadImage i
  else if command = key 'g' then s.startCpm i
  else if command = key 't' then s.startDiskDiagnostic i
  else if command = key 's' ∨ command = key 'h' then s
  else if command = key 'x' then s.requestStop
  else if command = key 'r' then
    if s.running ∨ s.stopRequested then
      s.print "\n[diag] Reboot rejected: stop and flush with Ctrl-] x first.\n"
    else s.watchdogReboot
  else if key '0' ≤ command ∧ command ≤ key '8' then
    if !s.running then s.print "\n[diag] Fault command rejected: CPU is not running.\n" else s
  else s.print "\n[diag] Unknown command; Ctrl-] h for help.\n"

/-! ## service_control -/

/-- The web reboot is over, and starts nothing any more. -/
def cancelWeb (s : State) : State :=
  { s with webRebootActive := false, configRebootAfterStop := false, configRebootReady := false }

def webRequest (i : ControlInput) (s : State) : State :=
  if i.status = .requested then
    if s.configRebootAfterStop ∨ s.configRebootReady ∨ s.stopRequested ∨ !s.running ∨
        s.diagnosticActive ∨ i.fatalAtRequest then s.report .rejected
    else if i.claimed then
      { s with webRebootActive := true, configRebootAfterStop := true }.diagnosticCommand i.boot
        (key 'x')
    else s
  else s

def webTimeout (i : ControlInput) (s : State) : State :=
  if s.webRebootActive ∧ i.statusLater = .timeout then
    s.cancelWeb.print
      "\n[web] Reboot cancelled after network-side timeout; orderly stop remains pending.\n"
  else s

def webStorageError (i : ControlInput) (s : State) : State :=
  if s.webRebootActive ∧ i.fatal then s.cancelWeb.report .storageError else s

def webDeadline (i : ControlInput) (s : State) : State :=
  if s.webRebootActive ∧ i.webDeadline then
    (s.cancelWeb.report .timeout).print
      "\n[web] Reboot timed out; automatic restart cancelled. Orderly stop remains pending.\n"
  else s

def configReboot (i : ControlInput) (s : State) : State :=
  if !s.running ∨ s.diagnosticActive ∨ i.fatalAtCommand then
    s.print "\n[config] FAIL: automatic reboot rejected: CP/M is not running normally or storage has failed. CPU state unchanged; inspect Ctrl-] s before manual recovery.\n"
  else
    let s := { s with configRebootAfterStop := true }
    if !s.stopRequested then s.diagnosticCommand i.boot (key 'x') else s

def orderlyRebootInProgress : String :=
  "\n[config] Orderly reboot in progress; command rejected.\n"

def controlCommand (i : ControlInput) (command : UInt16) (s : State) : State :=
  if command = usbConfigReboot then s.configReboot i
  else if (s.configRebootAfterStop ∨ s.configRebootReady) ∧ command ≠ key 's' ∧
      command ≠ key 'h' ∧ command ≠ usbReportConnection then s.print orderlyRebootInProgress
  else if command = usbReportConnection then s
  else if s.startupFailed ∧ command ≠ key 'r' ∧ command ≠ key 's' ∧ command ≠ key 'h' then
    s.print "\n[diag] Rejected: core 1 initialization failed; CPU held reset.\n"
  else s.diagnosticCommand i.boot command

/-- What `service_control` does about the web reboot. -/
def webControl (i : ControlInput) (s : State) : State :=
  (((s.webRequest i).webTimeout i).webStorageError i).webDeadline i

def serviceControl (i : ControlInput) (s : State) : State :=
  let s := s.webControl i
  if s.configRebootReady ∧ i.configDeadline then { s with configRebootReady := false }.watchdogReboot
  else
    match i.command with
    | none => s
    | some command => s.controlCommand i command

/-! ## service_run -/

/-- A test of the disks, which stops at its end. -/
def runDiagnostic (i : RunInput) (s : State) : State :=
  if i.diagnosticResult ≠ 0 ∨ i.bootDeadline then s.holdCpu
  else if s.diagnosticNextProgress ≤ i.diagnosticCount then
    { s with diagnosticNextProgress := s.diagnosticNextProgress + 65536 }
  else s

/-- The boot is announced, or given up. -/
def watchBoot (i : RunInput) (s : State) : State :=
  let s :=
    { s with
      biosAnnounced := s.biosAnnounced || i.bootMarkers &&& 1 != 0
      ccpAnnounced := s.ccpAnnounced || i.bootMarkers &&& 2 != 0 }
  if !s.bootTimedOut ∧ (!s.biosAnnounced ∨ !s.ccpAnnounced) ∧ i.bootDeadline then
    { s with
      bootFailure := some "BIOS/CCP evidence timeout", stopRequested := true, bootTimedOut := true
      flashPauseRequest := true }.print
      "\n[boot] FAIL: BIOS/CCP evidence timeout; stopping safely. Rebuild/provision the matching boot package if markers are absent.\n"
  else s

def cancelConfig (s : State) : State :=
  if s.configRebootAfterStop then
    { s with configRebootAfterStop := false }.print
      "\n[config] FAIL: storage error; automatic reboot cancelled.\n"
  else s

def failWeb (s : State) : State :=
  if s.webRebootActive then { s with webRebootActive := false }.report .storageError else s

def stopFatal (s : State) : State :=
  { s.cancelConfig.failWeb with bootFailure := some "fatal storage error" }.holdCpu.print
    "\n[diag] FAIL: fatal storage error; RESET held LOW. Reboot to recover; preserve USB log.\n"

def announceReady (i : RunInput) (s : State) : State :=
  if s.biosAnnounced ∧ s.ccpAnnounced ∧ !s.stopRequested ∧ i.status = .idle then s.report .cpmReady
  else s

/-- The other core has left its pause: it is asked for it again, and to flush. -/
def resumed (s : State) : State :=
  { s with flashResuming := false, flushSubmitted := false, flashPauseRequest := true }

def requestFailed (s : State) : State :=
  { s with bootFailure := some "stop bus request" }.holdCpu.print
    "\n[diag] FAIL: Z80 did not release the bus for stop; RESET held LOW.\n"

def releaseFailed (s : State) : State :=
  { s with bootFailure := some "stop bus release" }.holdCpu.print
    "\n[diag] FAIL: Z80 bus release after stop check; RESET held LOW.\n"

/-- The disks are quiescent and the CPU is held. -/
def stopped (s : State) : State :=
  if s.configRebootAfterStop then
    let s := { s with configRebootAfterStop := false, configRebootReady := true }
    (if s.webRebootActive then s.report .restarting else s).print
      "\n[config] Disks flushed; RESET held LOW, clock stopped. Rebooting in one second.\n"
  else
    s.print
      "\n[diag] Disk quiescent; RESET held LOW, clock stopped. Ctrl-] r reboots/reloads the supervisor.\n"

/-- The other core is let go on. -/
def resume (s : State) : State :=
  { s with flashResuming := true, flashPauseRequest := false }

def stopCheck (i : RunInput) (s : State) : State :=
  if !i.busRequested then s.requestFailed
  else if i.quiescent then s.holdCpu.stopped
  else if !i.busReleased then s.releaseFailed
  else s.resume

/-- `service_run` from its load of `flash_paused` on. -/
def serviceStop (i : RunInput) (s : State) : State :=
  if s.flashResuming then if !i.flashPaused then s.resumed else s
  else if i.flashPaused then s.stopCheck i
  else if !s.flushSubmitted then { s with flushSubmitted := true }
  else s

def serviceRun (i : RunInput) (s : State) : State :=
  if !s.running then s
  else if s.diagnosticActive then s.runDiagnostic i
  else
    let s := s.watchBoot i
    if i.fatal then s.stopFatal
    else
      let s := s.announceReady i
      if s.stopRequested then s.serviceStop i else s

/-! ## The loop -/

/-- `main` up to its loop. -/
def main (clockReady core1Ready : Bool) (i : BootInput) : State :=
  if !clockReady ∨ !core1Ready then
    { start with
      startupFailed := true
      bootFailure := some (if !clockReady then "expected 120 MHz supervisor clock"
        else "core 1 USB/flash-safe initialization") }
  else
    let s := start.loadImage i
    if s.imageVerified then s.startCpm i else s

inductive Action where
  | control (i : ControlInput)
  | run (i : RunInput)

def step (s : State) : Action → State
  | .control i => s.serviceControl i
  | .run i => s.serviceRun i

end State

end Z80Sbc.Supervisor
