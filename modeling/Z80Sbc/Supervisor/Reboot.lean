import Z80Sbc.Supervisor.Control
import Z80Sbc.Concurrent.Run

/-! # The orderly reboot ends with the CPU

A reboot is asked for while the CPU runs, and every way to hold the CPU but two takes
the request back. The two are the bus that the Z80 does not release, and the bus that
it does not take again: there the request stays, and the recovery command is refused. -/

namespace Z80Sbc.Supervisor.Reboot
open Z80Sbc.Supervisor Z80Sbc.Concurrent

/-- No request outlives the CPU, and with the CPU held and no countdown the command r is
not refused for one. -/
def Recoverable (s : State) : Prop :=
  (s.configRebootAfterStop = true → s.running = true) ∧
    (s.running = false → s.configRebootReady = false → ∀ i : ControlInput,
      i.command = some (key 'r') →
        State.orderlyRebootInProgress ∉ (State.serviceControl i { s with console := [] }).console)

/-- `service_run` gets to its stop check. -/
def ChecksStop (i : RunInput) (s : State) : Prop :=
  s.running = true ∧ s.diagnosticActive = false ∧ i.fatal = false ∧
    (s.watchBoot i).stopRequested = true ∧ s.flashResuming = false ∧ i.flashPaused = true

/-- A stop check for a reboot gets the bus, and can give it back where the disks are not
quiescent. -/
def BusAnswers (s : State) : State.Action → Prop
  | .control _ => True
  | .run i =>
    s.configRebootAfterStop = true → ChecksStop i s →
      i.busRequested = true ∧ (i.quiescent = true ∨ i.busReleased = true)

/-- A request is there only while CP/M runs. -/
def Running (s : State) : Prop :=
  s.configRebootAfterStop = true → s.running = true ∧ s.diagnosticActive = false

/-! ## service_control -/

theorem Running.none {s : State} (h : s.configRebootAfterStop = false) : Running s := by
  intro hreq
  rw [h] at hreq
  cases hreq

/-- A command that is taken only without a request. -/
theorem diagnosticCommand_none (i : BootInput) (command : UInt16) {s : State}
    (hs : s.configRebootAfterStop = false) :
    (s.diagnosticCommand i command).configRebootAfterStop = false := by
  unfold State.diagnosticCommand
  split_ifs
  · unfold State.loadImage
    split
    · exact hs
    · split
      · exact hs
      · exact hs
  · unfold State.startCpm
    split_ifs
    · exact hs
    · exact hs
    · exact hs
  · unfold State.startDiskDiagnostic
    split_ifs
    · exact hs
    · exact hs
    · exact hs
    · exact hs
  · exact hs
  · unfold State.requestStop
    split_ifs
    · exact hs
    · exact hs
  all_goals exact hs

/-- A stop of CP/M, with a request or without one. -/
theorem stop_running (i : BootInput) {s : State} (hrun : s.running = true)
    (hdiag : s.diagnosticActive = false) : Running (s.diagnosticCommand i (key 'x')) := by
  have hx : s.diagnosticCommand i (key 'x') = s.requestStop := rfl
  rw [hx, State.requestStop, if_neg (by simp [hrun, hdiag])]
  exact fun _ => ⟨hrun, hdiag⟩

theorem webRequest_running (i : ControlInput) {s : State} (h : Running s) :
    Running (s.webRequest i) := by
  unfold State.webRequest
  split
  · split
    · exact h
    next hfree =>
    simp only [not_or, Bool.not_eq_true, Bool.not_eq_eq_eq_not, Bool.not_true,
      Bool.not_eq_false] at hfree
    split
    · exact stop_running i.boot (by simpa using hfree.2.2.2.1) hfree.2.2.2.2.1
    · exact h
  · exact h

theorem webControl_running (i : ControlInput) {s : State} (h : Running s) :
    Running (s.webControl i) := by
  have htimeout {s : State} (h : Running s) : Running (s.webTimeout i) := by
    unfold State.webTimeout
    split
    · exact .none rfl
    · exact h
  have hstorage {s : State} (h : Running s) : Running (s.webStorageError i) := by
    unfold State.webStorageError
    split
    · exact .none rfl
    · exact h
  have hdeadline {s : State} (h : Running s) : Running (s.webDeadline i) := by
    unfold State.webDeadline
    split
    · exact .none rfl
    · exact h
  exact hdeadline (hstorage (htimeout (webRequest_running i h)))

theorem configReboot_running (i : ControlInput) {s : State} (h : Running s) :
    Running (s.configReboot i) := by
  unfold State.configReboot
  split
  · exact h
  next hok =>
  simp only [not_or, Bool.not_eq_true, Bool.not_eq_eq_eq_not, Bool.not_true,
    Bool.not_eq_false] at hok
  have hrun : s.running = true := by simpa using hok.1
  extract_lets t
  split
  · exact stop_running i.boot (s := t) hrun hok.2.1
  · exact fun _ => ⟨hrun, hok.2.1⟩

theorem controlCommand_running (i : ControlInput) (command : UInt16) {s : State}
    (h : Running s) : Running (s.controlCommand i command) := by
  unfold State.controlCommand
  split
  · exact configReboot_running i h
  split
  · exact h
  next hfree =>
  split
  · exact h
  split
  · exact h
  by_cases hreq : s.configRebootAfterStop = true
  · -- only the status and the help are answered
    have hread : command = key 's' ∨ command = key 'h' := by
      by_contra hc
      rw [not_or] at hc
      exact hfree ⟨Or.inl hreq, hc.1, hc.2, by assumption⟩
    rcases hread with rfl | rfl
    · exact h
    · exact h
  · exact .none (diagnosticCommand_none i.boot command (by simpa using hreq))

theorem serviceControl_running (i : ControlInput) {s : State} (h : Running s) :
    Running (s.serviceControl i) := by
  have hweb := webControl_running i h
  unfold State.serviceControl
  extract_lets t
  split
  · exact hweb
  split
  · exact hweb
  · exact controlCommand_running i _ hweb

/-! ## service_run -/

theorem watchBoot_same (i : RunInput) (s : State) :
    (s.watchBoot i).configRebootAfterStop = s.configRebootAfterStop ∧
      (s.watchBoot i).running = s.running ∧
      (s.watchBoot i).diagnosticActive = s.diagnosticActive ∧
      (s.watchBoot i).flashResuming = s.flashResuming := by
  unfold State.watchBoot
  extract_lets t
  split
  · exact ⟨rfl, rfl, rfl, rfl⟩
  · exact ⟨rfl, rfl, rfl, rfl⟩

theorem announceReady_same (i : RunInput) (s : State) :
    (s.announceReady i).configRebootAfterStop = s.configRebootAfterStop ∧
      (s.announceReady i).running = s.running ∧
      (s.announceReady i).diagnosticActive = s.diagnosticActive ∧
      (s.announceReady i).stopRequested = s.stopRequested ∧
      (s.announceReady i).flashResuming = s.flashResuming := by
  unfold State.announceReady
  split
  · exact ⟨rfl, rfl, rfl, rfl, rfl⟩
  · exact ⟨rfl, rfl, rfl, rfl, rfl⟩

theorem stopFatal_running (s : State) : Running s.stopFatal := by
  refine .none ?_
  have hcancel : s.cancelConfig.configRebootAfterStop = false := by
    unfold State.cancelConfig
    split
    · rfl
    · next hreq => simpa using hreq
  show s.cancelConfig.failWeb.configRebootAfterStop = false
  unfold State.failWeb
  split
  · exact hcancel
  · exact hcancel

theorem stopped_running (s : State) : Running s.stopped := by
  refine .none ?_
  unfold State.stopped
  split
  · extract_lets t
    split
    · rfl
    · rfl
  · next hreq =>
    have hnone : s.configRebootAfterStop = false := by simpa using hreq
    exact hnone

/-- Where the bus answers, the stop check leaves CP/M running or takes the request back. -/
theorem stopCheck_running {i : RunInput} {s : State} (h : Running s)
    (hbus : s.configRebootAfterStop = true →
      i.busRequested = true ∧ (i.quiescent = true ∨ i.busReleased = true)) :
    Running (s.stopCheck i) := by
  by_cases hreq : s.configRebootAfterStop = true
  · obtain ⟨hrequested, hanswer⟩ := hbus hreq
    unfold State.stopCheck
    rw [if_neg (by simp [hrequested])]
    split
    · exact stopped_running s.holdCpu
    next hq =>
    rw [if_neg (by simpa [hq] using hanswer)]
    exact h
  · have hnone : s.configRebootAfterStop = false := by simpa using hreq
    unfold State.stopCheck
    split_ifs
    · exact .none hnone
    · exact stopped_running s.holdCpu
    · exact .none hnone
    · exact h

/-- Without an answer the CPU is held, and the request is where it was. -/
theorem stopCheck_stuck {i : RunInput} {s : State}
    (hbus : ¬(i.busRequested = true ∧ (i.quiescent = true ∨ i.busReleased = true))) :
    (s.stopCheck i).configRebootAfterStop = s.configRebootAfterStop ∧
      (s.stopCheck i).running = false := by
  unfold State.stopCheck
  split
  · exact ⟨rfl, rfl⟩
  next hrequested =>
  have hrequested : i.busRequested = true := by simpa using hrequested
  rw [not_and, not_or] at hbus
  obtain ⟨hq, hrel⟩ := hbus hrequested
  rw [if_neg hq, if_pos (by simpa using hrel)]
  exact ⟨rfl, rfl⟩

/-- A pass that gets to the stop check is one. -/
theorem serviceRun_checks {i : RunInput} {s : State} (h : ChecksStop i s) :
    s.serviceRun i = ((s.watchBoot i).announceReady i).stopCheck i := by
  obtain ⟨hrun, hdiag, hfatal, hstop, hresume, hpaused⟩ := h
  obtain ⟨-, -, -, hstop', hresume'⟩ := announceReady_same i (s.watchBoot i)
  rw [(watchBoot_same i s).2.2.2] at hresume'
  rw [State.serviceRun, if_neg (by simp [hrun]), if_neg (by simp [hdiag])]
  show (if i.fatal = true then _ else _) = _
  rw [if_neg (by simp [hfatal])]
  show (if ((s.watchBoot i).announceReady i).stopRequested = true then _ else _) = _
  rw [if_pos (hstop'.trans hstop), State.serviceStop, if_neg (by simp [hresume', hresume]),
    if_pos hpaused]

theorem serviceRun_running {i : RunInput} {s : State} (h : Running s)
    (hbus : BusAnswers s (.run i)) : Running (s.serviceRun i) := by
  obtain ⟨hreq', hrun', hdiag', hresume'⟩ := watchBoot_same i s
  obtain ⟨hreq, hrun, hdiag, hstop, hresume⟩ := announceReady_same i (s.watchBoot i)
  have hready : Running ((s.watchBoot i).announceReady i) := by
    intro hr
    rw [hreq, hreq'] at hr
    rw [hrun, hrun', hdiag, hdiag']
    exact h hr
  by_cases hcheck : ChecksStop i s
  · rw [serviceRun_checks hcheck]
    refine stopCheck_running hready fun hr => ?_
    rw [hreq, hreq'] at hr
    exact hbus hr hcheck
  unfold State.serviceRun
  split
  · exact h
  next hrunning =>
  split
  · next hd =>
    -- a disk test runs without a request
    refine .none ?_
    have hnone : s.configRebootAfterStop = false := by
      by_contra hr
      rw [(h (by simpa using hr)).2] at hd
      cases hd
    unfold State.runDiagnostic
    split_ifs
    · exact hnone
    · exact hnone
    · exact hnone
  next hd =>
  extract_lets t u
  split
  · exact stopFatal_running t
  next hf =>
  split
  · next hs =>
    unfold State.serviceStop
    split
    · split
      · exact hready
      · exact hready
    next hres =>
    split
    · next hp =>
      exact absurd ⟨by simpa using hrunning, by simpa using hd, by simpa using hf,
        hstop ▸ hs, by rw [← hresume', ← hresume]; simpa using hres, hp⟩ hcheck
    split
    · exact hready
    · exact hready
  · exact hready

/-! ## Runs -/

theorem main_running (clockReady core1Ready : Bool) (i : BootInput) :
    Running (State.main clockReady core1Ready i) := by
  refine .none ?_
  unfold State.main
  split
  · rfl
  · extract_lets t
    have hstart : State.start.configRebootAfterStop = false := rfl
    have ht : t.configRebootAfterStop = false := diagnosticCommand_none i (key 'l') hstart
    split
    · exact diagnosticCommand_none i (key 'g') ht
    · exact ht

theorem Running.step {s : State} (a : State.Action) (ha : BusAnswers s a) (h : Running s) :
    Running (s.step a) := by
  cases a with
  | control i => exact serviceControl_running i h
  | run i => exact serviceRun_running h ha

/-- The CPU is held without a request or a countdown, and no command was refused for one. -/
structure Free (s : State) : Prop where
  running : s.running = false
  request : s.configRebootAfterStop = false
  countdown : s.configRebootReady = false
  console : State.orderlyRebootInProgress ∉ s.console

theorem Free.print {s : State} (h : Free s) {text : String}
    (ht : State.orderlyRebootInProgress ≠ text) : Free (s.print text) := by
  refine ⟨h.running, h.request, h.countdown, fun hmem => ?_⟩
  rcases List.mem_cons.mp hmem with heq | hmem
  · exact ht heq
  · exact h.console hmem

theorem Free.webControl {s : State} (h : Free s) (i : ControlInput) : Free (s.webControl i) := by
  have hcancel {s : State} (h : Free s) : Free s.cancelWeb := ⟨h.running, rfl, rfl, h.console⟩
  have hreport {s : State} (h : Free s) (status : WebReboot) : Free (s.report status) :=
    ⟨h.running, h.request, h.countdown, h.console⟩
  have hrequest : Free (s.webRequest i) := by
    unfold State.webRequest
    split
    · rw [if_pos (by simp [h.running])]
      exact hreport h _
    · exact h
  have htimeout {s : State} (h : Free s) : Free (s.webTimeout i) := by
    unfold State.webTimeout
    split
    · exact (hcancel h).print (by simp [State.orderlyRebootInProgress])
    · exact h
  have hstorage {s : State} (h : Free s) : Free (s.webStorageError i) := by
    unfold State.webStorageError
    split
    · exact hreport (hcancel h) _
    · exact h
  have hdeadline {s : State} (h : Free s) : Free (s.webDeadline i) := by
    unfold State.webDeadline
    split
    · exact (hreport (hcancel h) _).print (by simp [State.orderlyRebootInProgress])
    · exact h
  exact hdeadline (hstorage (htimeout hrequest))

/-- Without a request or a countdown the command r is taken. -/
theorem Free.recovery {s : State} (h : Free s) {i : ControlInput}
    (hr : i.command = some (key 'r')) :
    State.orderlyRebootInProgress ∉ (s.serviceControl i).console := by
  have hweb := h.webControl i
  unfold State.serviceControl
  extract_lets t
  have ht : Free t := hweb
  rw [if_neg (by simp [ht.countdown]), hr]
  show State.orderlyRebootInProgress ∉ (t.controlCommand i (key 'r')).console
  have hcommand : t.controlCommand i (key 'r') = t.diagnosticCommand i.boot (key 'r') := by
    unfold State.controlCommand
    rw [if_neg (by decide), if_neg (by simp [ht.request, ht.countdown]), if_neg (by decide),
      if_neg (by simp)]
  rw [hcommand]
  show State.orderlyRebootInProgress ∉ (if _ then t.print _ else t.watchdogReboot).console
  split
  · exact (ht.print (by simp [State.orderlyRebootInProgress])).console
  · exact ht.console

theorem Running.recoverable {s : State} (h : Running s) : Recoverable s := by
  refine ⟨fun hreq => (h hreq).1, fun hrun hready i hr => ?_⟩
  have hreq : s.configRebootAfterStop = false := by
    by_contra hc
    rw [(h (by simpa using hc)).1] at hrun
    cases hrun
  have hfree : Free { s with console := [] } := ⟨hrun, hreq, hready, List.not_mem_nil⟩
  exact hfree.recovery hr

/-- A stop check that the bus fails holds the CPU with the request. -/
theorem unanswered_stuck {s : State} {a : State.Action} (ha : ¬BusAnswers s a) :
    ¬Recoverable (s.step a) := by
  intro hrec
  cases a with
  | control i => exact ha trivial
  | run i =>
    simp only [BusAnswers, not_forall] at ha
    obtain ⟨hreq, hcheck, hbus⟩ := ha
    obtain ⟨hreq₁, -⟩ := watchBoot_same i s
    obtain ⟨hreq₂, -⟩ := announceReady_same i (s.watchBoot i)
    obtain ⟨hkept, hheld⟩ := stopCheck_stuck (s := (s.watchBoot i).announceReady i) hbus
    have hrun : (s.serviceRun i).running = true := by
      refine hrec.1 ?_
      show (s.serviceRun i).configRebootAfterStop = true
      rw [serviceRun_checks hcheck, hkept, hreq₂, hreq₁, hreq]
    rw [serviceRun_checks hcheck, hheld] at hrun
    cases hrun

/-- A reboot request ends with the CPU in every state of a run exactly where the bus
answers every stop check that is made for one. -/
theorem request_ends_with_cpu (clockReady core1Ready : Bool) (i : BootInput)
    (actions : List State.Action) :
    (∀ n, Recoverable (run State.step (.main clockReady core1Ready i) (actions.take n))) ↔
      Along State.step BusAnswers (.main clockReady core1Ready i) actions := by
  have hstart := main_running clockReady core1Ready i
  generalize State.main clockReady core1Ready i = s at hstart
  refine ⟨fun h => ?_, fun h n => ?_⟩
  · induction actions generalizing s with
    | nil => trivial
    | cons a as ih =>
      have ha : BusAnswers s a := by
        by_contra hc
        exact unanswered_stuck hc (h 1)
      exact ⟨ha, ih _ (hstart.step a ha) fun n => h (n + 1)⟩
  · have hrun : Running (run State.step s (actions.take n)) :=
      Along.invariant (fun _ a ha hs => hs.step a ha) hstart (h.take n)
    exact hrun.recoverable

/-! ## A bus that does not answer -/

/-- `service_control` with one command, and nothing else going on. -/
def commanded (command : UInt16) : ControlInput where
  boot := ⟨none, true, true⟩
  status := .cpmReady
  claimed := false
  statusLater := .cpmReady
  fatalAtRequest := false
  fatal := false
  fatalAtCommand := false
  webDeadline := false
  configDeadline := false
  command := some command

/-- `service_run` after CP/M has announced itself, the Z80 keeping its bus. -/
def unanswered (flashPaused : Bool) : RunInput where
  diagnosticCount := 0
  diagnosticResult := 0
  bootMarkers := 3
  bootDeadline := false
  fatal := false
  status := .cpmReady
  flashPaused := flashPaused
  busRequested := false
  quiescent := true
  busReleased := true

/-- A reboot from the configuration, whose stop check cannot get the bus. -/
def lostBus : List State.Action :=
  [.run (unanswered false), .control (commanded usbConfigReboot), .run (unanswered false),
    .run (unanswered true)]

/-- The CPU is held with the request, no countdown runs, and the recovery command is refused. -/
theorem lost_bus_refuses_recovery :
    let s := run State.step (.main true true ⟨none, true, true⟩) lostBus
    s.configRebootAfterStop = true ∧ s.running = false ∧ s.configRebootReady = false ∧
      State.orderlyRebootInProgress ∈
        (State.serviceControl (commanded (key 'r')) { s with console := [] }).console := by
  intro s
  have hs : s.configRebootAfterStop = true ∧ s.running = false ∧ s.configRebootReady = false :=
    ⟨rfl, rfl, rfl⟩
  refine ⟨hs.1, hs.2.1, hs.2.2, ?_⟩
  exact List.mem_cons_self

end Z80Sbc.Supervisor.Reboot
