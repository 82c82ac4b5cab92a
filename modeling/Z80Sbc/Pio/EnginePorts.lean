import Z80Sbc.Pio.EngineHandshake

/-! # The ports, one access at a time

What the engine is for: a Z80 program sees ports that are served one after the other, in program
order, though its OUTs wait in a FIFO and core 0 takes them when it can. -/

namespace Z80Sbc.Pio

variable {σ : Type} {s : System σ} {f : Byte} {c : Nat} {a : Access} {service : Service σ}

/-! ## The ports themselves -/

/-- The board decodes A0, A1, A2 and A4. -/
def decodedPort (port : Byte) : Byte := port &&& 0x17

/-- The port that selects the memory bank. -/
def bankPort : Byte := 0x07

/-- An access, on the state of the handlers and the bank. -/
def serveCycle (service : Service σ) (cycle : Cycle) (st : σ × Bool) : Byte × (σ × Bool) :=
  match cycle with
  | .read port =>
    let (value, state) := service.read (decodedPort port) st.1
    (value, (state, st.2))
  | .write port data =>
    if decodedPort port = bankPort then (data, (st.1, data.getLsbD 0))
    else (data, (service.write (decodedPort port) data st.1, st.2))

/-- The bytes of a program's accesses, and what they leave. -/
def servePorts (service : Service σ) :
    List Cycle → σ × Bool → List (Cycle × Byte) × (σ × Bool)
  | [], st => ([], st)
  | cycle :: rest, st =>
    let (value, st) := serveCycle service cycle st
    let (log, st) := servePorts service rest st
    ((cycle, value) :: log, st)

theorem servePorts_append (first second : List Cycle) (st : σ × Bool) :
    servePorts service (first ++ second) st =
      ((servePorts service first st).1 ++
          (servePorts service second (servePorts service first st).2).1,
        (servePorts service second (servePorts service first st).2).2) := by
  induction first generalizing st with
  | nil => simp [servePorts]
  | cons cycle rest ih => simp [servePorts, ih]

/-- A log is what the ports gave, and `st` what they are left with. -/
def Served (service : Service σ) (st₀ : σ × Bool) (log : List (Cycle × Byte)) (st : σ × Bool) :
    Prop :=
  servePorts service (log.map Prod.fst) st₀ = (log, st)

theorem Served.snoc {st₀ st : σ × Bool} {log : List (Cycle × Byte)} {cycle : Cycle} {value : Byte}
    {st' : σ × Bool} (h : Served service st₀ log st)
    (hserve : serveCycle service cycle st = (value, st')) :
    Served service st₀ (log ++ [(cycle, value)]) st' := by
  simp only [Served] at h ⊢
  simp [servePorts_append, h, servePorts, hserve]

theorem Served.init {st₀ st : σ × Bool} {log : List (Cycle × Byte)} {entry : Cycle × Byte}
    (h : Served service st₀ (log ++ [entry]) st) :
    (servePorts service (log.map Prod.fst) st₀).1 = log := by
  simp only [Served, List.map_append, servePorts_append, Prod.mk.injEq] at h
  exact (List.append_inj' h.1 (by simp [servePorts])).1

/-! ## Snapshots -/

theorem getLsbD_snapshot {levels : Nat → Bool} {i : Nat} (h : i < 32) :
    (snapshot levels).getLsbD i = levels ((10 + i) % 32) :=
  getLsbD_pinWord h

theorem getElem_snapshot {levels : Nat → Bool} {i : Nat} (h : i < 32) :
    (snapshot levels)[i] = levels ((10 + i) % 32) := by
  rw [← BitVec.getLsbD_eq_getElem]
  exact getLsbD_snapshot h

theorem snapshotPort_eq {levels : Nat → Bool} {port : Byte}
    (h : ∀ i < 4, levels (18 + i) = portPin port i) :
    snapshotPort (snapshot levels) = decodedPort port := by
  have h0 := h 0 (by omega)
  have h1 := h 1 (by omega)
  have h2 := h 2 (by omega)
  have h3 := h 3 (by omega)
  simp [portPin] at h0 h1 h2 h3
  simp only [snapshotPort, portDecode, decodedPort]
  ext i hi
  interval_cases i <;> simp [getElem_snapshot, h0, h1, h2, h3]

theorem snapshot_data {levels : Nat → Bool} {data : Byte}
    (h : ∀ i < 8, levels (10 + i) = data.getLsbD i) : (snapshot levels).setWidth 8 = data := by
  ext i hi
  have hbit : (snapshot levels).getLsbD i = levels ((10 + i) % 32) := getLsbD_snapshot (by omega)
  rw [show (10 + i) % 32 = 10 + i by omega, h i hi] at hbit
  simp [hbit, hi]

/-- The program looks at A0, A1, A2 and A4 for port 07h. -/
theorem snapshot_bankPort {levels : Nat → Bool} {port : Byte}
    (h : ∀ i < 4, levels (18 + i) = portPin port i) :
    low 4 (snapshot levels >>> 8) = 7 ↔ decodedPort port = bankPort := by
  have h0 := h 0 (by omega)
  have h1 := h 1 (by omega)
  have h2 := h 2 (by omega)
  have h3 := h 3 (by omega)
  simp [portPin] at h0 h1 h2 h3
  have hword : low 4 (snapshot levels >>> 8) = 7 ↔
      port[0] = true ∧ port[1] = true ∧ port[2] = true ∧ port[4] = false := by
    constructor
    · intro hw
      have hbits := congrArg (fun w : Word => (w[0], w[1], w[2], w[3])) hw
      simpa [getElem_low, getElem_snapshot, h0, h1, h2, h3] using hbits
    · intro ⟨hp0, hp1, hp2, hp4⟩
      have hnibble : (snapshot levels >>> 8).setWidth 4 = 7#4 := by
        ext i hi
        interval_cases i <;> simp [getElem_snapshot, h0, h1, h2, h3, hp0, hp1, hp2, hp4]
      simp [low, hnibble]
  have hport : decodedPort port = bankPort ↔
      port[0] = true ∧ port[1] = true ∧ port[2] = true ∧ port[4] = false := by
    simp only [decodedPort, bankPort]
    constructor
    · intro hw
      have hbits := congrArg (fun w : Byte => (w[0], w[1], w[2], w[4])) hw
      simpa using hbits
    · intro ⟨hp0, hp1, hp2, hp4⟩
      ext i hi
      interval_cases i <;> simp [hp0, hp1, hp2, hp4]
  rw [hword, hport]

/-- What OUT PINS makes of a reply. -/
theorem replyWord_pins (value : Byte) (bank : Bool) :
    (replyWord value bank).getLsbD 0 = bank ∧
      (low 10 (replyWord value bank) >>> 2).setWidth 8 = value := by
  constructor
  · cases bank <;> simp [replyWord, replyDriveDirs, replyIdleDirs]
  · ext i hi
    interval_cases i <;> cases bank <;>
      simp [replyWord, replyDriveDirs, replyIdleDirs, getElem_low]

/-! ## The books -/

/-- The OUTs in the FIFO, served. -/
def catchUp (service : Service σ) (rx : List Word) (state : σ) : σ :=
  rx.foldl (fun state w => service.write (snapshotPort w) (w.setWidth 8) state) state

def IsWrite (w : Word) : Prop := snapshotRd w = true ∧ snapshotWr w = false

/-- With its FIFO drained, core 0 is where the ports are after `log`. -/
structure System.Ledger (service : Service σ) (st₀ : σ × Bool) (s : System σ)
    (log : List (Cycle × Byte)) : Prop where
  fault : s.core0.fault = false
  reply : s.core0.reply = none
  empty : s.tx = []
  writes : ∀ w ∈ s.rx, IsWrite w
  served : Served service st₀ log (catchUp service s.rx s.core0.state, s.pads.memoryBank)

/-- An OUT on its way to the test for port 07h and to its data. -/
structure System.Path (s : System σ) (port data : Byte) : Prop where
  staged : s.io.pc = 1 ∧ s.io.delay ≤ 6 ∨ 2 ≤ s.io.pc →
    ∀ i < 8, s.stage (10 + i) = data.getLsbD i
  seen : s.io.pc = 2 → (low 4 (s.io.osr >>> 8) = 7 ↔ decodedPort port = bankPort)
  shifted : s.io.pc = 3 → (low 4 s.io.osr = 7 ↔ decodedPort port = bankPort)
  x : s.io.pc = 4 ∨ s.io.pc = 5 → (s.io.x = 7 ↔ decodedPort port = bankPort)
  y : s.io.pc = 5 → s.io.y = 7
  bank : s.io.pc = 6 ∨ s.io.pc = 7 → decodedPort port = bankPort
  data : s.io.pc = 7 → s.io.osr.getLsbD 0 = data.getLsbD 0
  other : s.io.pc = 9 → decodedPort port ≠ bankPort

/-- The books, by the instruction that comes next: an access is on them before it is in the Z80's
log from the moment its byte is settled. -/
inductive System.Books (service : Service σ) (st₀ : σ × Bool) (s : System σ) : Prop
  | level (hpc : 12 ≤ s.io.pc ∧ s.io.pc ≤ 18 ∨ 25 ≤ s.io.pc)
      (hstrobe : s.io.pc = 12 ∨ s.io.pc = 25 → s.z80.strobe ≠ .low)
      (hledger : s.Ledger service st₀ s.z80.log)
  | writing {a : Access} {port data : Byte} (hpc : s.io.pc ≤ 7 ∨ s.io.pc = 9)
      (hlow : s.z80.Low a) (hcycle : a.cycle = .write port data) (hpath : s.Path port data)
      (hledger : s.Ledger service st₀ s.z80.log)
  | captured {a : Access} {port data : Byte} (hpc : s.io.pc = 8 ∨ 10 ≤ s.io.pc ∧ s.io.pc ≤ 12)
      (hlow : s.z80.Low a) (hcycle : a.cycle = .write port data)
      (hledger : s.Ledger service st₀ (s.z80.log ++ [(a.cycle, data)]))
  | asked {a : Access} {port : Byte} {ws : List Word} {w : Word} (hpc : s.io.pc = 19)
      (hlow : s.z80.Low a) (hcycle : a.cycle = .read port) (hrx : s.rx = ws ++ [w])
      (hword : snapshotRd w = false ∧ snapshotWr w = true ∧ snapshotPort w = decodedPort port)
      (hledger : ({ s with rx := ws } : System σ).Ledger service st₀ s.z80.log)
  | answered {a : Access} {value : Byte} (hpc : s.io.pc = 19) (hlow : s.z80.Low a)
      (hread : a.cycle.isRead = true) (hreply : s.core0.reply = some value)
      (hledger : ({ s with core0 := { s.core0 with reply := none } } : System σ).Ledger service st₀
        (s.z80.log ++ [(a.cycle, value)]))
  | posted {a : Access} {value : Byte} (hpc : s.io.pc = 19) (hlow : s.z80.Low a)
      (hread : a.cycle.isRead = true) (htx : s.tx = [replyWord value s.pads.memoryBank])
      (hledger : ({ s with tx := [] } : System σ).Ledger service st₀
        (s.z80.log ++ [(a.cycle, value)]))
  | fetched {a : Access} {value : Byte} (hpc : s.io.pc = 20) (hlow : s.z80.Low a)
      (hread : a.cycle.isRead = true) (hosr : s.io.osr = replyWord value s.pads.memoryBank)
      (hledger : s.Ledger service st₀ (s.z80.log ++ [(a.cycle, value)]))
  | driven {a : Access} {value : Byte} (hpc : 21 ≤ s.io.pc ∧ s.io.pc ≤ 25) (hlow : s.z80.Low a)
      (hread : a.cycle.isRead = true) (hdata : s.pads.data = value)
      (hledger : s.Ledger service st₀ (s.z80.log ++ [(a.cycle, value)]))

/-! ## Core 0 -/

section
variable {w : Word} {rest : List Word}

theorem System.take_write (hreply : s.core0.reply = none) (hrx : s.rx = w :: rest)
    (hw : IsWrite w) :
    s.take service =
      { s with
        rx := rest
        core0 :=
          { s.core0 with
            state := service.write (snapshotPort w) (w.setWidth 8) s.core0.state } } := by
  simp [System.take, hreply, hrx, hw.1, hw.2]

theorem System.take_read (hreply : s.core0.reply = none) (hrx : s.rx = w :: rest)
    (hrd : snapshotRd w = false) (hwr : snapshotWr w = true) :
    s.take service =
      { s with
        rx := rest
        core0 :=
          { s.core0 with
            state := (service.read (snapshotPort w) s.core0.state).2
            reply := some (service.read (snapshotPort w) s.core0.state).1 } } := by
  simp [System.take, hreply, hrx, hrd, hwr]

theorem System.take_empty (hrx : s.rx = []) : s.take service = s := by
  simp [System.take, hrx]

theorem System.take_busy {value : Byte} (hreply : s.core0.reply = some value) :
    s.take service = s := by
  simp [System.take, hreply]

theorem System.put_some {value : Byte} (hreply : s.core0.reply = some value) :
    s.put =
      { s with
        tx := s.tx ++ [replyWord value s.pads.memoryBank]
        core0 := { s.core0 with reply := none } } := by
  simp [System.put, hreply]

theorem System.put_none (hreply : s.core0.reply = none) : s.put = s := by
  simp [System.put, hreply]

end

section
variable {st₀ : σ × Bool} {log : List (Cycle × Byte)}

theorem System.Ledger.serve (h : s.Ledger service st₀ log) (act : Act) :
    (s.serve service act).Ledger service st₀ log := by
  cases act with
  | rest => exact h
  | put =>
    rw [System.serve, System.put_none h.reply]
    exact h
  | take =>
    cases hrx : s.rx with
    | nil =>
      rw [System.serve, System.take_empty hrx]
      exact h
    | cons w rest =>
      have hw : IsWrite w := h.writes w (by simp [hrx])
      rw [System.serve, System.take_write h.reply hrx hw]
      refine ⟨h.fault, h.reply, h.empty, fun w' hw' => h.writes w' (by simp [hrx, hw']), ?_⟩
      simpa [hrx, catchUp] using h.served

/-- The OUTs before an IN are served first, and then the IN. -/
theorem System.Books.serve_asked {port : Byte} {ws : List Word} {w : Word} (hpc : s.io.pc = 19)
    (hlow : s.z80.Low a) (hcycle : a.cycle = .read port) (hrx : s.rx = ws ++ [w])
    (hword : snapshotRd w = false ∧ snapshotWr w = true ∧ snapshotPort w = decodedPort port)
    (hledger : ({ s with rx := ws } : System σ).Ledger service st₀ s.z80.log) (act : Act) :
    (s.serve service act).Books service st₀ := by
  have hreply : s.core0.reply = none := hledger.reply
  cases act with
  | rest => exact .asked hpc hlow hcycle hrx hword hledger
  | put =>
    rw [System.serve, System.put_none hreply]
    exact .asked hpc hlow hcycle hrx hword hledger
  | take =>
    cases ws with
    | nil =>
      rw [System.serve, System.take_read hreply hrx hword.1 hword.2.1]
      refine .answered hpc hlow (by simp [hcycle, Cycle.isRead]) rfl ?_
      refine ⟨hledger.fault, rfl, hledger.empty, by simp, hledger.served.snoc ?_⟩
      simp [serveCycle, hcycle, hword.2.2, catchUp]
    | cons w' ws =>
      have hw' : IsWrite w' := hledger.writes w' (by simp)
      rw [System.serve, System.take_write hreply hrx hw']
      refine .asked hpc hlow hcycle rfl hword ?_
      have htake := hledger.serve .take
      rw [System.serve, System.take_write (s := { s with rx := w' :: ws }) hreply rfl hw'] at htake
      exact htake

theorem System.Books.serve (h : s.Books service st₀) (act : Act) :
    (s.serve service act).Books service st₀ := by
  have heq : s.serve service act = _ := System.serve_eq act
  cases h with
  | level hpc hstrobe hledger =>
    have hledger := hledger.serve act
    rw [heq] at hledger ⊢
    exact .level hpc hstrobe hledger
  | writing hpc hlow hcycle hpath hledger =>
    have hledger := hledger.serve act
    rw [heq] at hledger ⊢
    exact .writing hpc hlow hcycle
      ⟨hpath.staged, hpath.seen, hpath.shifted, hpath.x, hpath.y, hpath.bank, hpath.data,
        hpath.other⟩ hledger
  | captured hpc hlow hcycle hledger =>
    have hledger := hledger.serve act
    rw [heq] at hledger ⊢
    exact .captured hpc hlow hcycle hledger
  | fetched hpc hlow hread hosr hledger =>
    have hledger := hledger.serve act
    rw [heq] at hledger ⊢
    exact .fetched hpc hlow hread hosr hledger
  | driven hpc hlow hread hdata hledger =>
    have hledger := hledger.serve act
    rw [heq] at hledger ⊢
    exact .driven hpc hlow hread hdata hledger
  | asked hpc hlow hcycle hrx hword hledger =>
    exact System.Books.serve_asked hpc hlow hcycle hrx hword hledger act
  | answered hpc hlow hread hreply hledger =>
    cases act with
    | rest => exact .answered hpc hlow hread hreply hledger
    | take =>
      rw [System.serve, System.take_busy hreply]
      exact .answered hpc hlow hread hreply hledger
    | put =>
      have htx : s.tx = [] := hledger.empty
      rw [System.serve, System.put_some hreply]
      exact .posted hpc hlow hread (by simp [htx])
        ⟨hledger.fault, rfl, rfl, hledger.writes, hledger.served⟩
  | posted hpc hlow hread htx hledger =>
    have hreply : s.core0.reply = none := hledger.reply
    cases act with
    | rest => exact .posted hpc hlow hread htx hledger
    | put =>
      rw [System.serve, System.put_none hreply]
      exact .posted hpc hlow hread htx hledger
    | take =>
      cases hrx : s.rx with
      | nil =>
        rw [System.serve, System.take_empty hrx]
        exact .posted hpc hlow hread htx hledger
      | cons w rest =>
        have hw : IsWrite w := hledger.writes w (by simp [hrx])
        have htake := hledger.serve .take
        rw [System.serve, System.take_write (s := { s with tx := [] }) hreply hrx hw] at htake
        rw [System.serve, System.take_write hreply hrx hw]
        exact .posted hpc hlow hread htx htake

end

/-! ## What a tick keeps -/

section
variable (hclock : s.ClockAt c) (hdriven : s.Driven)
include hclock hdriven

theorem System.advance_rx (h9 : s.io.pc ≠ 9) (h18 : s.io.pc ≠ 18) : (s.advance f).rx = s.rx := by
  have hio := System.clocked_io hclock (f := f)
  rw [(System.advance_rest hclock).2.1, ← System.clocked_rx hclock (f := f)]
  exact System.ioCycle_rx (hdriven.clocked hclock).reach (by rwa [hio]) (by rwa [hio])

theorem System.advance_tx (h19 : s.io.pc ≠ 19) : (s.advance f).tx = s.tx := by
  have hio := System.clocked_io hclock (f := f)
  rw [(System.advance_rest hclock).2.2.1, ← System.clocked_tx hclock (f := f)]
  exact System.ioCycle_tx (hdriven.clocked hclock).reach (by rwa [hio])

theorem System.advance_bank (h7 : s.io.pc ≠ 7) (h20 : s.io.pc ≠ 20) :
    (s.advance f).pads.memoryBank = s.pads.memoryBank := by
  have hio := System.clocked_io hclock (f := f)
  have hbank : (s.clocked f).pads.memoryBank = s.pads.memoryBank := by
    rw [System.clocked_eq hclock]
  rw [(System.advance_rest hclock).2.2.2, ← hbank]
  exact System.ioCycle_bank (hdriven.clocked hclock).reach (by rwa [hio]) (by rwa [hio])

variable {st₀ : σ × Bool} {log : List (Cycle × Byte)}

theorem System.Ledger.advance (h7 : s.io.pc ≠ 7) (h9 : s.io.pc ≠ 9) (h18 : s.io.pc ≠ 18)
    (h19 : s.io.pc ≠ 19) (h20 : s.io.pc ≠ 20) (h : s.Ledger service st₀ log) :
    (s.advance f).Ledger service st₀ log := by
  have hrx := System.advance_rx hclock hdriven h9 h18 (f := f)
  have htx := System.advance_tx hclock hdriven h19 (f := f)
  have hbank := System.advance_bank hclock hdriven h7 h20 (f := f)
  have hcore0 := System.advance_core0 hclock (f := f)
  refine ⟨?_, ?_, ?_, ?_, ?_⟩
  · rw [hcore0]
    exact h.fault
  · rw [hcore0]
    exact h.reply
  · rw [htx]
    exact h.empty
  · rw [hrx]
    exact h.writes
  · rw [hrx, hcore0, hbank]
    exact h.served

end

section
variable (hclock : s.ClockAt c)
include hclock

/-- Until the falling edge of T3 the access stays under way. -/
theorem System.advance_keep (hlow : s.z80.Low a)
    (hphase : s.z80.phase.waits c ∨ s.z80.phase = .t3) (hend : ¬ (s.z80.phase = .t3 ∧ c = 2)) :
    (s.advance f).z80.Low a ∧ (s.advance f).z80.log = s.z80.log := by
  have hlow' : s.z80.settled.Low a := by rwa [hlow.settled]
  have hkeep (phase : Phase) : ({ s.z80.settled with phase := phase } : Z80).Low a ∧
      ({ s.z80.settled with phase := phase } : Z80).log = s.z80.log :=
    ⟨⟨hlow'.strobe, hlow'.head⟩, rfl⟩
  rw [System.advance_z80 hclock]
  split
  · rename_i h5
    rcases hphase with (⟨_, hc⟩ | htw) | ht3
    · omega
    · rw [Z80.rise_wait (z := s.z80.settled) (.inl htw)]
      exact hkeep _
    · rw [Z80.rise_wait (z := s.z80.settled) (.inr ht3)]
      exact hkeep _
  split
  · rename_i h2
    rcases hphase with (⟨ht2, _⟩ | htw) | ht3
    · rw [System.fall_t2 (s := s.beforeEdge f) ht2]
      exact hkeep _
    · rw [System.fall_tw (s := s.beforeEdge f) htw]
      split
      · exact hkeep _
      · exact hkeep _
    · exact absurd ⟨ht3, h2⟩ hend
  · exact hkeep _

theorem System.advance_log (hphase : s.z80.phase ≠ .t3) :
    (s.advance f).z80.log = s.z80.log := by
  rw [System.advance_z80 hclock]
  split
  · simp only [Z80.rise]
    split <;> rfl
  split
  · simp only [System.fall]
    split
    · rfl
    · rfl
    · split <;> rfl
    · rename_i ht3
      exact absurd ht3 hphase
  · rfl

end

theorem System.View.low_phase (h : s.View c) (hlow : s.z80.Low a) :
    s.z80.phase.waits c ∨ s.z80.phase = .t3 := by
  have hstrobe := hlow.strobe
  cases h with
  | quiet _ _ hs | falling _ _ hs | rising _ _ hs | risen _ _ hs | sampled _ _ hs
  | closing _ _ hs => simp [hs] at hstrobe
  | low _ _ _ hwaits | caught _ _ _ hwaits => exact .inl hwaits
  | going _ _ _ hphase =>
    rcases hphase with h | h
    · exact .inl (.inr h)
    · exact .inr h
  | running _ _ _ _ hphase =>
    split at hphase
    · exact .inr hphase
    · exact .inl (.inr hphase)
  | sampling _ _ _ _ hphase => exact .inr hphase

theorem Z80.Low.eq {z : Z80} {b : Access} (h : z.Low a) (h' : z.Low b) : a = b := by
  have hhead := h.head
  rw [h'.head] at hhead
  exact (Option.some.inj hhead).symm

/-- The inputs show the access under way. -/
theorem System.View.shows (h : s.View c) (hlow : s.z80.Low a) : Shows s.stage a.cycle := by
  have hstrobe := hlow.strobe
  cases h with
  | quiet _ _ hs | falling _ _ hs | rising _ _ hs | risen _ _ hs | sampled _ _ hs
  | closing _ _ hs => simp [hs] at hstrobe
  | low _ _ hlow' _ hshows | caught _ _ hlow' _ hshows | going _ _ hlow' _ hshows
  | running _ _ hlow' _ _ hshows | sampling _ _ hlow' _ _ hshows => exact hlow.eq hlow' ▸ hshows

/-- Only two places of the program see the end of a cycle. -/
theorem System.View.low_end (h : s.View c) (hlow : s.z80.Low a) (h12 : s.io.pc ≠ 12)
    (h25 : s.io.pc ≠ 25) : ¬ (s.z80.phase = .t3 ∧ c = 2) := by
  intro ⟨ht3, h2⟩
  have hstrobe := hlow.strobe
  cases h with
  | quiet _ _ hs | falling _ _ hs | rising _ _ hs | risen _ _ hs | sampled _ _ hs
  | closing _ _ hs => simp [hs] at hstrobe
  | low _ _ _ hwaits | caught _ _ _ hwaits => simp [Phase.waits, ht3] at hwaits
  | going hpc => exact h12 hpc
  | running _ hdelay _ hcycle hphase =>
    rw [ht3] at hphase
    split at hphase
    · omega
    · simp at hphase
  | sampling hpc => exact h25 hpc

/-- With the strobes not low there is nothing to finish. -/
theorem System.View.idle_phase (h : s.View c) (hstrobe : s.z80.strobe ≠ .low) :
    s.z80.phase ≠ .t3 := by
  intro ht3
  cases h with
  | low _ _ hlow | caught _ _ hlow | going _ _ hlow | running _ _ hlow | sampling _ _ hlow =>
    exact hstrobe hlow.strobe
  | falling _ _ _ _ hwaits => simp [Phase.waits, ht3] at hwaits
  | quiet _ _ _ hquiet | rising _ _ _ hquiet | risen _ _ _ hquiet | sampled _ _ _ _ hquiet
  | closing _ _ _ _ hquiet =>
    obtain ⟨n, hn, _⟩ := hquiet
    simp [ht3] at hn

/-! ## The books after a tick -/

theorem System.View.level_phase (h : s.View c)
    (hpc : 12 ≤ s.io.pc ∧ s.io.pc ≤ 18 ∨ 25 ≤ s.io.pc)
    (hstrobe : s.io.pc = 12 ∨ s.io.pc = 25 → s.z80.strobe ≠ .low) : s.z80.phase ≠ .t3 := by
  by_cases hs : s.z80.strobe = .low
  · intro ht3
    cases h with
    | quiet _ _ hs' | falling _ _ hs' | rising _ _ hs' | risen _ _ hs' | sampled _ _ hs'
    | closing _ _ hs' => simp [hs] at hs'
    | low _ _ _ hwaits | caught _ _ _ hwaits => simp [Phase.waits, ht3] at hwaits
    | going hpc' => exact hstrobe (.inl hpc') hs
    | running hpc' => omega
    | sampling hpc' => exact hstrobe (.inr hpc') hs
  · exact h.idle_phase hs

theorem System.View.noDelay (h : s.View c) (hpc : s.io.pc ≠ 24) : NoDelay s.io.pc s.io.delay := by
  cases h with
  | quiet _ hd | falling _ hd | low _ hd | going _ hd | rising _ hd | risen _ hd | sampling _ hd
  | sampled _ hd | closing _ hd => exact fun _ _ _ => hd
  | caught _ hd => exact hd
  | running hpc' => exact absurd hpc' hpc

/-- Where the clock is held for an access, its strobes are low and the inputs show it. -/
theorem System.View.of_caught (h : s.View c) (hpc : Caught s.io.pc) :
    ∃ a, s.z80.Low a ∧ Shows s.stage a.cycle ∧
      (s.io.pc ≠ 17 → a.cycle.isRead = decide (18 ≤ s.io.pc)) := by
  simp only [Caught] at hpc
  cases h with
  | caught _ _ hlow _ hshows _ hread => exact ⟨_, hlow, hshows, hread⟩
  | quiet hpc' | falling hpc' | low hpc' | going hpc' | rising hpc' | risen hpc' | running hpc'
  | sampling hpc' | sampled hpc' | closing hpc' => omega

@[simp] theorem Cycle.port_read (port : Byte) : (Cycle.read port).port = port := rfl
@[simp] theorem Cycle.port_write (port data : Byte) : (Cycle.write port data).port = port := rfl

theorem Cycle.eq_write {cycle : Cycle} (h : cycle.isRead = false) :
    ∃ port data, cycle = .write port data := by
  cases cycle with
  | read port => simp [Cycle.isRead] at h
  | write port data => exact ⟨port, data, rfl⟩

theorem Cycle.eq_read {cycle : Cycle} (h : cycle.isRead = true) : ∃ port, cycle = .read port := by
  cases cycle with
  | read port => exact ⟨port, rfl⟩
  | write port data => simp [Cycle.isRead] at h

section
variable (h : s.Handshake c)
include h

theorem System.Handshake.idle_strobe (hpc : s.io.pc = 12 ∨ s.io.pc = 25)
    (hstrobe : s.z80.strobe ≠ .low) : (s.advance f).z80.strobe ≠ .low := by
  have hsettle : ∀ cycle n, (Strobe.rising cycle n).settle ≠ .low := by
    intro cycle n
    cases n <;> simp [Strobe.settle]
  cases h.view with
  | quiet hpc' | falling hpc' | low hpc' => omega
  | caught hpc' =>
    simp only [Caught] at hpc'
    omega
  | running hpc' => omega
  | going _ _ hlow | sampling _ _ hlow => exact absurd hlow.strobe hstrobe
  | rising _ _ hs hquiet =>
    rw [(System.advance_quiet h.clock hquiet).1, hs]
    exact hsettle _ _
  | risen hpc' _ hs hquiet =>
    have h12 : s.io.pc = 12 := by omega
    rw [h12] at hquiet
    rw [(System.advance_quiet h.clock hquiet).1, hs]
    simp [Strobe.settle]
  | sampled _ _ hs hcycle =>
    rw [System.advance_still h.clock (by omega) (by omega)]
    simpa [hs] using hsettle _ _
  | closing _ _ hs hcycle =>
    rw [System.advance_still h.clock (by omega) (by omega)]
    simp [hs, Strobe.settle]

/-- Where the program goes between two accesses. -/
theorem System.Handshake.advance_pc
    (hpc : 12 ≤ s.io.pc ∧ s.io.pc ≤ 16 ∨ 25 ≤ s.io.pc) :
    (12 ≤ (s.advance f).io.pc ∧ (s.advance f).io.pc ≤ 17 ∨ 25 ≤ (s.advance f).io.pc) ∧
      ((s.advance f).io.pc = 12 → s.io.pc = 12) ∧ ((s.advance f).io.pc = 25 → s.io.pc = 25) := by
  have hio := System.clocked_io h.clock (f := f)
  have hd : (s.clocked f).io.delay = 0 := by
    rw [hio]
    exact h.view.noDelay (by omega) (by omega) (by omega) (by omega)
  have hreach := h.driven.reach
  rw [(System.advance_rest h.clock).1]
  rw [← hio] at hpc hreach ⊢
  generalize hk : (s.clocked f).io.pc = pc at *
  interval_cases pc <;> simp at hpc
  · rw [System.ioCycle_at12 hd hk]
    split <;> simp [hk]
  · simp [System.ioCycle_at13 hd hk]
  · rw [System.ioCycle_at14 hd hk]
    split <;> simp [hk]
  · rw [System.ioCycle_at15 hd hk]
    split <;> simp [hk]
  · simp [System.ioCycle_at16 hd hk]
  · rw [System.ioCycle_at25 hd hk]
    split <;> simp [hk]
  · simp [System.ioCycle_at26 hd hk]
  · simp [System.ioCycle_at27 hd hk]
  · simp [System.ioCycle_at28 hd hk]

variable {st₀ : σ × Bool}

theorem System.Books.advance_between
    (hpc : 12 ≤ s.io.pc ∧ s.io.pc ≤ 16 ∨ 25 ≤ s.io.pc)
    (hstrobe : s.io.pc = 12 ∨ s.io.pc = 25 → s.z80.strobe ≠ .low)
    (hledger : s.Ledger service st₀ s.z80.log) : (s.advance f).Books service st₀ := by
  obtain ⟨hpc', h12, h25⟩ := h.advance_pc hpc (f := f)
  have hphase := h.view.level_phase (by omega) hstrobe
  refine .level (by omega) (fun hnext => ?_) ?_
  · have hpc : s.io.pc = 12 ∨ s.io.pc = 25 := hnext.imp h12 h25
    exact h.idle_strobe hpc (hstrobe hpc)
  · rw [System.advance_log h.clock hphase]
    exact hledger.advance h.clock h.driven (by omega) (by omega) (by omega) (by omega) (by omega)

/-- An access under way stays so, but for the end of its T3. -/
theorem System.Handshake.advance_low (hlow : s.z80.Low a) (h12 : s.io.pc ≠ 12)
    (h25 : s.io.pc ≠ 25) :
    (s.advance f).z80.Low a ∧ (s.advance f).z80.log = s.z80.log :=
  System.advance_keep h.clock hlow (h.view.low_phase hlow) (h.view.low_end hlow h12 h25)

/-- JMP PIN tells an OUT from an IN. -/
theorem System.Books.advance_branch (hpc : s.io.pc = 17)
    (hledger : s.Ledger service st₀ s.z80.log) : (s.advance f).Books service st₀ := by
  obtain ⟨a, hlow, hshows, _⟩ := h.view.of_caught (.inr (by omega))
  obtain ⟨hlow', hlog⟩ := h.advance_low hlow (by omega) (by omega) (f := f)
  have hledger' := hledger.advance h.clock h.driven (f := f) (by omega) (by omega) (by omega)
    (by omega) (by omega)
  rw [← hlog] at hledger'
  have hio := System.clocked_io h.clock (f := f)
  have hd : s.io.delay = 0 := h.view.noDelay (by omega) (by omega) (by omega) (by omega)
  have hnext := (System.advance_rest h.clock (f := f)).1
  rw [System.ioCycle_at17 (by rwa [hio]) (by rwa [hio]), System.clocked_seen h.clock, hshows.rd,
    hio] at hnext
  cases hread : a.cycle.isRead with
  | true =>
    refine .level ?_ ?_ hledger' <;> simp [hnext, hread]
  | false =>
    obtain ⟨port, data, hcycle⟩ := Cycle.eq_write hread
    refine .writing (by simp [hnext, hread]) hlow' hcycle ?_ hledger'
    constructor <;> simp [hnext, hread]

/-- An IN is put into the FIFO, behind the OUTs before it. -/
theorem System.Books.advance_request (hpc : s.io.pc = 18)
    (hledger : s.Ledger service st₀ s.z80.log) : (s.advance f).Books service st₀ := by
  obtain ⟨a, hlow, hshows, hread⟩ := h.view.of_caught (.inr (by omega))
  have hin : a.cycle.isRead = true := by simp [hread, hpc]
  obtain ⟨port, hcycle⟩ := Cycle.eq_read hin
  obtain ⟨hlow', hlog⟩ := h.advance_low hlow (by omega) (by omega) (f := f)
  have hio := System.clocked_io h.clock (f := f)
  have hd : s.io.delay = 0 := h.view.noDelay (by omega) (by omega) (by omega) (by omega)
  have htx := System.advance_tx h.clock h.driven (f := f) (by omega)
  have hbank := System.advance_bank h.clock h.driven (f := f) (by omega) (by omega)
  have hcore0 := System.advance_core0 h.clock (f := f)
  obtain ⟨hnext, hrx, _⟩ := System.advance_rest h.clock (f := f)
  rw [System.ioCycle_at18 (by rwa [hio]) (by rwa [hio]), System.clocked_rx h.clock,
    System.clocked_seen h.clock] at hnext hrx
  by_cases hfull : s.rx.length < fifoDepth
  · simp only [hfull, if_true] at hnext hrx
    refine .asked (by simp [hnext]) hlow' hcycle hrx ?_ ⟨?_, ?_, ?_, hledger.writes, ?_⟩
    · refine ⟨?_, ?_, snapshotPort_eq (by simpa [hcycle] using hshows.port)⟩
      · simp [snapshotRd, getElem_snapshot, hshows.rd, hread, hpc]
      · simp [snapshotWr, getElem_snapshot, hshows.wr, hread, hpc]
    · simpa [hcore0] using hledger.fault
    · simpa [hcore0] using hledger.reply
    · simpa [htx] using hledger.empty
    · simpa [hcore0, hbank, hlog] using hledger.served
  · simp only [hfull, if_false, hio] at hnext hrx
    rw [System.clocked_rx h.clock] at hrx
    refine .level (by simp [hnext, hpc]) (by simp [hnext, hpc]) ⟨?_, ?_, ?_, ?_, ?_⟩
    · simpa [hcore0] using hledger.fault
    · simpa [hcore0] using hledger.reply
    · simpa [htx] using hledger.empty
    · simpa [hrx] using hledger.writes
    · simpa [hcore0, hbank, hlog, hrx] using hledger.served

/-- With U10 open the inputs show what the Z80 writes. -/
theorem System.Handshake.advance_data {port data : Byte} (hlow : s.z80.Low a)
    (hcycle : a.cycle = .write port data) (hpc : 1 ≤ s.io.pc ∧ s.io.pc ≤ 13) :
    ∀ i < 8, (s.advance f).stage (10 + i) = data.getLsbD i := by
  intro i hi
  have hdirs := h.driven.dirs
  have hdown := h.driven.down
  rw [if_neg (by omega)] at hdirs
  simp only [show 1 ≤ s.io.pc ∧ s.io.pc ≤ 13 from hpc] at hdown
  rw [System.advance_stage h.clock, System.levels_data hi, hlow.settled]
  have hidle : (3#10).getLsbD (i + 2) = false := by
    interval_cases i <;> rfl
  simp [System.dataPin, hdirs, hidle, System.u10, hdown, Z80.data, hlow.cycle, hcycle]

theorem System.Path.advance {port data : Byte} (hpc : s.io.pc ≤ 6) (hlow : s.z80.Low a)
    (hcycle : a.cycle = .write port data) (hshows : Shows s.stage a.cycle)
    (hpath : s.Path port data) :
    (s.advance f).Path port data ∧ ((s.advance f).io.pc ≤ 7 ∨ (s.advance f).io.pc = 9) := by
  have hport : ∀ i < 4, s.stage (18 + i) = portPin port i := by simpa [hcycle] using hshows.port
  have hio := System.clocked_io h.clock (f := f)
  have hseen := System.clocked_seen h.clock (f := f)
  have hnext := (System.advance_rest h.clock (f := f)).1
  have hstaged : 1 ≤ s.io.pc → ∀ i < 8, (s.advance f).stage (10 + i) = data.getLsbD i :=
    fun h1 => h.advance_data hlow hcycle (by omega)
  cases hd : s.io.delay with
  | succ n =>
    have h1 : s.io.pc = 1 := by
      have hnodelay := h.view.noDelay (by omega)
      simp only [NoDelay] at hnodelay
      omega
    rw [System.ioCycle_delay (by rwa [hio]), hio] at hnext
    refine ⟨⟨fun _ => hstaged (by omega), ?_, ?_, ?_, ?_, ?_, ?_, ?_⟩, ?_⟩ <;> simp [hnext, h1]
  | zero =>
    rw [← hio] at hd
    generalize hk : s.io.pc = pc at *
    rw [← hio] at hk
    interval_cases pc
    · rw [System.ioCycle_at0 hd hk] at hnext
      refine ⟨⟨?_, ?_, ?_, ?_, ?_, ?_, ?_, ?_⟩, ?_⟩ <;> simp [hnext]
    · rw [System.ioCycle_at1 hd hk] at hnext
      refine ⟨⟨fun _ => hstaged (by omega), ?_, ?_, ?_, ?_, ?_, ?_, ?_⟩, ?_⟩ <;> simp [hnext]
      rw [hseen]
      exact snapshot_bankPort hport
    · rw [System.ioCycle_at2 hd hk, hio] at hnext
      refine ⟨⟨fun _ => hstaged (by omega), ?_, ?_, ?_, ?_, ?_, ?_, ?_⟩, ?_⟩ <;> simp [hnext]
      simpa using hpath.seen (by rw [← hio, hk])
    · rw [System.ioCycle_at3 hd hk, hio] at hnext
      refine ⟨⟨fun _ => hstaged (by omega), ?_, ?_, ?_, ?_, ?_, ?_, ?_⟩, ?_⟩ <;> simp [hnext]
      simpa using hpath.shifted (by rw [← hio, hk])
    · rw [System.ioCycle_at4 hd hk, hio] at hnext
      refine ⟨⟨fun _ => hstaged (by omega), ?_, ?_, ?_, ?_, ?_, ?_, ?_⟩, ?_⟩ <;> simp [hnext]
      simpa using hpath.x (.inl (by rw [← hio, hk]))
    · have hx := hpath.x (.inr (by rw [← hio, hk]))
      have hy := hpath.y (by rw [← hio, hk])
      rw [System.ioCycle_at5 hd hk, hio, hy] at hnext
      by_cases h7 : s.io.x = 7
      · have hpc' : (s.advance f).io.pc = 6 := by
          rw [hnext]
          exact if_pos h7
        refine ⟨⟨fun _ => hstaged (by omega), ?_, ?_, ?_, ?_, ?_, ?_, ?_⟩, ?_⟩ <;> simp [hpc']
        exact hx.1 h7
      · have hpc' : (s.advance f).io.pc = 9 := by
          rw [hnext]
          exact if_neg h7
        refine ⟨⟨fun _ => hstaged (by omega), ?_, ?_, ?_, ?_, ?_, ?_, ?_⟩, ?_⟩ <;> simp [hpc']
        exact fun hbank => h7 (hx.2 hbank)
    · have hdata := hpath.staged (.inr (by rw [← hio, hk]; omega)) 0 (by omega)
      rw [System.ioCycle_at6 hd hk, hio] at hnext
      refine ⟨⟨fun _ => hstaged (by omega), ?_, ?_, ?_, ?_, ?_, ?_, ?_⟩, ?_⟩ <;> simp [hnext]
      · exact hpath.bank (.inl (by rw [← hio, hk]))
      · simpa [hseen, getElem_snapshot] using hdata

/-- An OUT up to the point where its byte is taken: by A16, or by the FIFO. -/
theorem System.Books.advance_writing {port data : Byte} (hpc : s.io.pc ≤ 7 ∨ s.io.pc = 9)
    (hlow : s.z80.Low a) (hcycle : a.cycle = .write port data) (hpath : s.Path port data)
    (hledger : s.Ledger service st₀ s.z80.log) : (s.advance f).Books service st₀ := by
  obtain ⟨hlow', hlog⟩ := h.advance_low hlow (by omega) (by omega) (f := f)
  obtain ⟨b, hlowb, hshows, _⟩ := h.view.of_caught (.inl (by omega))
  obtain rfl := hlow.eq hlowb
  have hio := System.clocked_io h.clock (f := f)
  have hseen := System.clocked_seen h.clock (f := f)
  have hnodelay := h.view.noDelay (by omega)
  have hcore0 := System.advance_core0 h.clock (f := f)
  have htx := System.advance_tx h.clock h.driven (f := f) (by omega)
  obtain ⟨hnext, hrx, _, hpads⟩ := System.advance_rest h.clock (f := f)
  rcases (by omega : s.io.pc ≤ 6 ∨ s.io.pc = 7 ∨ s.io.pc = 9) with h6 | h7 | h9
  · obtain ⟨hpath', hpc'⟩ := System.Path.advance h h6 hlow hcycle hshows hpath (f := f)
    refine .writing hpc' hlow' hcycle hpath' ?_
    rw [hlog]
    exact hledger.advance h.clock h.driven (by omega) (by omega) (by omega) (by omega) (by omega)
  · have hd : s.io.delay = 0 := hnodelay (by omega) (by omega) (by omega)
    have hrx := System.advance_rx h.clock h.driven (f := f) (by omega) (by omega)
    rw [System.ioCycle_at7 (by rwa [hio]) (by rwa [hio]), hio] at hnext hpads
    have hbank : (s.advance f).pads.memoryBank = data.getLsbD 0 := by
      simpa [hpads] using hpath.data h7
    refine .captured (by simp [hnext]) hlow' hcycle ⟨?_, ?_, ?_, ?_, ?_⟩
    · rw [hcore0]
      exact hledger.fault
    · rw [hcore0]
      exact hledger.reply
    · rw [htx]
      exact hledger.empty
    · rw [hrx]
      exact hledger.writes
    · rw [hlog, hrx, hcore0, hbank]
      exact hledger.served.snoc (by simp [serveCycle, hcycle, hpath.bank (.inr h7)])
  · have hd : s.io.delay = 0 := hnodelay (by omega) (by omega) (by omega)
    have hbank := System.advance_bank h.clock h.driven (f := f) (by omega) (by omega)
    have hport : ∀ i < 4, s.stage (18 + i) = portPin port i := by
      simpa [hcycle] using hshows.port
    have hdata : (snapshot s.stage).setWidth 8 = data :=
      snapshot_data (hpath.staged (.inr (by omega)))
    have hwrite : IsWrite (snapshot s.stage) := by
      have hread : a.cycle.isRead = false := by simp [hcycle, Cycle.isRead]
      constructor
      · simp [snapshotRd, getElem_snapshot, hshows.rd, hread]
      · simp [snapshotWr, getElem_snapshot, hshows.wr, hread]
    rw [System.ioCycle_at9 (by rwa [hio]) (by rwa [hio]), System.clocked_rx h.clock, hseen]
      at hnext hrx
    by_cases hfull : s.rx.length < fifoDepth
    · simp only [hfull, if_true] at hnext hrx
      refine .captured (by simp [hnext]) hlow' hcycle ⟨?_, ?_, ?_, ?_, ?_⟩
      · rw [hcore0]
        exact hledger.fault
      · rw [hcore0]
        exact hledger.reply
      · rw [htx]
        exact hledger.empty
      · intro w hw
        simp [hrx] at hw
        rcases hw with hw | rfl
        · exact hledger.writes w hw
        · exact hwrite
      · rw [hlog, hrx, hcore0, hbank]
        refine hledger.served.snoc ?_
        simp [serveCycle, hcycle, hpath.other h9, catchUp, snapshotPort_eq hport, hdata]
    · simp only [hfull, if_false, hio] at hnext
      have hrx : (s.advance f).rx = s.rx := by
        simpa only [hfull, if_false, System.clocked_rx h.clock] using hrx
      refine .writing (by simp [hnext, h9]) hlow' hcycle ?_ ⟨?_, ?_, ?_, ?_, ?_⟩
      · refine ⟨fun _ => h.advance_data hlow hcycle (by omega), ?_, ?_, ?_, ?_, ?_, ?_, ?_⟩ <;>
          simp [hnext, h9]
        exact hpath.other h9
      · rw [hcore0]
        exact hledger.fault
      · rw [hcore0]
        exact hledger.reply
      · rw [htx]
        exact hledger.empty
      · rw [hrx]
        exact hledger.writes
      · rw [hlog, hrx, hcore0, hbank]
        exact hledger.served

/-- The falling edge of T3 puts the cycle into the Z80's log. -/
theorem System.Handshake.advance_finish (hlow : s.z80.Low a) (hphase : s.z80.phase = .t3)
    (h2 : c = 2) :
    (s.advance f).z80.strobe = .rising a.cycle a.riseDelay ∧
      (s.advance f).z80.log = s.z80.log ++
        [(a.cycle, if a.cycle.isRead then (s.beforeEdge f).toZ80 f else s.z80.data f)] := by
  refine ⟨(System.advance_finish h.clock hlow hphase h2 h.timed).1, ?_⟩
  have hhead := hlow.head
  have hsettled : (s.beforeEdge f).z80 = s.z80 := hlow.settled
  have hreading : s.z80.reading = a.cycle.isRead := by simp [Z80.reading, hlow.cycle]
  rw [System.advance_z80 h.clock]
  cases haccesses : s.z80.accesses with
  | nil => simp [haccesses] at hhead
  | cons b rest =>
    simp [haccesses] at hhead
    subst hhead
    simp only [h2, System.fall, hsettled, hphase, hreading]
    simp [Z80.finish, haccesses]

theorem System.Books.advance_captured {port data : Byte}
    (hpc : s.io.pc = 8 ∨ 10 ≤ s.io.pc ∧ s.io.pc ≤ 12) (hlow : s.z80.Low a)
    (hcycle : a.cycle = .write port data)
    (hledger : s.Ledger service st₀ (s.z80.log ++ [(a.cycle, data)])) :
    (s.advance f).Books service st₀ := by
  have hio := System.clocked_io h.clock (f := f)
  have hledger' := hledger.advance h.clock h.driven (f := f) (by omega) (by omega) (by omega)
    (by omega) (by omega)
  have hnodelay := h.view.noDelay (by omega)
  obtain ⟨hnext, _⟩ := System.advance_rest h.clock (f := f)
  by_cases hend : s.io.pc = 12 ∧ s.z80.phase = .t3 ∧ c = 2
  · obtain ⟨h12, ht3, h2⟩ := hend
    obtain ⟨hstrobe, hlog⟩ := h.advance_finish hlow ht3 h2 (f := f)
    have hd : s.io.delay = 0 := hnodelay (by omega) (by omega) (by omega)
    have hpc' : (s.advance f).io.pc = 12 ∨ (s.advance f).io.pc = 13 := by
      rw [hnext, System.ioCycle_at12 (by rwa [hio]) (by rwa [hio])]
      split <;> simp [hio, h12]
    have hbyte : s.z80.data f = data := by simp [Z80.data, hlow.cycle, hcycle]
    refine .level (by omega) (by simp [hstrobe]) ?_
    simpa [hlog, hcycle, Cycle.isRead, hbyte] using hledger'
  · have hkeep : (s.advance f).z80.Low a ∧ (s.advance f).z80.log = s.z80.log := by
      by_cases h12 : s.io.pc = 12
      · exact System.advance_keep h.clock hlow (h.view.low_phase hlow) fun hend' =>
          hend ⟨h12, hend'⟩
      · exact h.advance_low hlow h12 (by omega)
    refine .captured ?_ hkeep.1 hcycle (by rw [hkeep.2]; exact hledger')
    rw [hnext]
    rcases (by omega : s.io.pc = 8 ∨ s.io.pc = 10 ∨ s.io.pc = 11 ∨ s.io.pc = 12) with
      hk | hk | hk | hk
    · have hd : s.io.delay = 0 := hnodelay (by omega) (by omega) (by omega)
      simp [System.ioCycle_at8 (by rwa [hio]) (by rwa [hio])]
    · have hd : s.io.delay = 0 := hnodelay (by omega) (by omega) (by omega)
      simp [System.ioCycle_at10 (by rwa [hio]) (by rwa [hio])]
    · cases hd : s.io.delay with
      | succ n => simp [System.ioCycle_delay (by rwa [hio]), hio, hk]
      | zero => simp [System.ioCycle_at11 (by rwa [hio]) (by rwa [hio])]
    · have hd : s.io.delay = 0 := hnodelay (by omega) (by omega) (by omega)
      have hiorq := (h.view.shows hlow).iorq
      simp [System.ioCycle_at12 (by rwa [hio]) (by rwa [hio]), System.clocked_seen h.clock, hiorq,
        hio, hk]

/-- A request that core 0 has not answered. -/
theorem System.Books.advance_waiting (hpc : s.io.pc = 19) (htx : s.tx = []) :
    (s.advance f).io = s.io ∧ (s.advance f).rx = s.rx ∧ (s.advance f).tx = s.tx ∧
      (s.advance f).pads.memoryBank = s.pads.memoryBank := by
  have hio := System.clocked_io h.clock (f := f)
  have hd : s.io.delay = 0 := h.view.noDelay (by omega) (by omega) (by omega) (by omega)
  obtain ⟨hnext, _, htx', _⟩ := System.advance_rest h.clock (f := f)
  have hstall := System.ioCycle_at19_empty (s := s.clocked f) (by rwa [hio]) (by rwa [hio])
    (by rwa [System.clocked_tx h.clock])
  rw [hstall] at hnext htx'
  exact ⟨hnext.trans hio, System.advance_rx h.clock h.driven (by omega) (by omega),
    htx'.trans (System.clocked_tx h.clock), System.advance_bank h.clock h.driven (by omega) (by omega)⟩

theorem System.Books.advance_asked {port : Byte} {ws : List Word} {w : Word} (hpc : s.io.pc = 19)
    (hlow : s.z80.Low a) (hcycle : a.cycle = .read port) (hrx : s.rx = ws ++ [w])
    (hword : snapshotRd w = false ∧ snapshotWr w = true ∧ snapshotPort w = decodedPort port)
    (hledger : ({ s with rx := ws } : System σ).Ledger service st₀ s.z80.log) :
    (s.advance f).Books service st₀ := by
  obtain ⟨hlow', hlog⟩ := h.advance_low hlow (by omega) (by omega) (f := f)
  have hcore0 := System.advance_core0 h.clock (f := f)
  obtain ⟨hio, hrx', htx, hbank⟩ := System.Books.advance_waiting h hpc hledger.empty (f := f)
  refine .asked (by rw [hio, hpc]) hlow' hcycle (hrx'.trans hrx) hword ⟨?_, ?_, ?_, ?_, ?_⟩
  · simpa [hcore0] using hledger.fault
  · simpa [hcore0] using hledger.reply
  · simpa [htx] using hledger.empty
  · exact hledger.writes
  · simpa [hcore0, hbank, hlog] using hledger.served

theorem System.Books.advance_answered {value : Byte} (hpc : s.io.pc = 19) (hlow : s.z80.Low a)
    (hread : a.cycle.isRead = true) (hreply : s.core0.reply = some value)
    (hledger : ({ s with core0 := { s.core0 with reply := none } } : System σ).Ledger service st₀
      (s.z80.log ++ [(a.cycle, value)])) : (s.advance f).Books service st₀ := by
  obtain ⟨hlow', hlog⟩ := h.advance_low hlow (by omega) (by omega) (f := f)
  have hcore0 := System.advance_core0 h.clock (f := f)
  obtain ⟨hio, hrx, htx, hbank⟩ := System.Books.advance_waiting h hpc hledger.empty (f := f)
  refine .answered (by rw [hio, hpc]) hlow' hread (by rw [hcore0, hreply]) ⟨?_, rfl, ?_, ?_, ?_⟩
  · simpa [hcore0] using hledger.fault
  · simpa [htx] using hledger.empty
  · simpa [hrx] using hledger.writes
  · simpa [hcore0, hbank, hlog, hrx] using hledger.served

/-- PULL takes the reply. -/
theorem System.Books.advance_posted {value : Byte} (hpc : s.io.pc = 19) (hlow : s.z80.Low a)
    (hread : a.cycle.isRead = true) (htx : s.tx = [replyWord value s.pads.memoryBank])
    (hledger : ({ s with tx := [] } : System σ).Ledger service st₀
      (s.z80.log ++ [(a.cycle, value)])) : (s.advance f).Books service st₀ := by
  obtain ⟨hlow', hlog⟩ := h.advance_low hlow (by omega) (by omega) (f := f)
  have hio := System.clocked_io h.clock (f := f)
  have hd : s.io.delay = 0 := h.view.noDelay (by omega) (by omega) (by omega) (by omega)
  have hcore0 := System.advance_core0 h.clock (f := f)
  have hrx := System.advance_rx h.clock h.driven (f := f) (by omega) (by omega)
  have hbank := System.advance_bank h.clock h.driven (f := f) (by omega) (by omega)
  obtain ⟨hnext, _, htx', _⟩ := System.advance_rest h.clock (f := f)
  rw [System.ioCycle_at19 (by rwa [hio]) (by rwa [hio])
    ((System.clocked_tx h.clock (f := f)).trans htx)] at hnext htx'
  refine .fetched (by rw [hnext]) hlow' hread (by rw [hnext, hbank]) ⟨?_, ?_, htx', ?_, ?_⟩
  · simpa [hcore0] using hledger.fault
  · simpa [hcore0] using hledger.reply
  · simpa [hrx] using hledger.writes
  · simpa [hcore0, hbank, hlog, hrx] using hledger.served

theorem System.Books.advance_fetched {value : Byte} (hpc : s.io.pc = 20) (hlow : s.z80.Low a)
    (hread : a.cycle.isRead = true) (hosr : s.io.osr = replyWord value s.pads.memoryBank)
    (hledger : s.Ledger service st₀ (s.z80.log ++ [(a.cycle, value)])) :
    (s.advance f).Books service st₀ := by
  obtain ⟨hlow', hlog⟩ := h.advance_low hlow (by omega) (by omega) (f := f)
  have hio := System.clocked_io h.clock (f := f)
  have hd : s.io.delay = 0 := h.view.noDelay (by omega) (by omega) (by omega) (by omega)
  have hcore0 := System.advance_core0 h.clock (f := f)
  have hrx := System.advance_rx h.clock h.driven (f := f) (by omega) (by omega)
  have htx := System.advance_tx h.clock h.driven (f := f) (by omega)
  obtain ⟨hnext, _, _, hpads⟩ := System.advance_rest h.clock (f := f)
  rw [System.ioCycle_at20 (by rwa [hio]) (by rwa [hio]), hio, hosr] at hnext hpads
  obtain ⟨hbank, hdata⟩ := replyWord_pins value s.pads.memoryBank
  have hbank' : (s.advance f).pads.memoryBank = s.pads.memoryBank := by rw [hpads]; exact hbank
  have hdata' : (s.advance f).pads.data = value := by rw [hpads]; exact hdata
  refine .driven (by simp [hnext]) hlow' hread hdata' ⟨?_, ?_, ?_, ?_, ?_⟩
  · rw [hcore0]
    exact hledger.fault
  · rw [hcore0]
    exact hledger.reply
  · rw [htx]
    exact hledger.empty
  · rw [hrx]
    exact hledger.writes
  · rw [hcore0, hbank', hlog, hrx]
    exact hledger.served

/-- The data pins keep the reply until the Z80 has taken it. -/
theorem System.Handshake.advance_reply (hpc : 21 ≤ s.io.pc ∧ s.io.pc ≤ 25) (hlow : s.z80.Low a) :
    (21 ≤ (s.advance f).io.pc ∧ (s.advance f).io.pc ≤ 25) ∧
      (s.io.pc = 25 → (s.advance f).io.pc = 25) ∧ (s.advance f).pads.data = s.pads.data := by
  have hio := System.clocked_io h.clock (f := f)
  have hdata : (s.clocked f).pads.data = s.pads.data := by rw [System.clocked_eq h.clock]
  obtain ⟨hnext, _, _, hpads⟩ := System.advance_rest h.clock (f := f)
  cases hd : s.io.delay with
  | succ n =>
    rw [System.ioCycle_delay (by rwa [hio]), hio] at hnext hpads
    rw [hnext, hpads]
    exact ⟨hpc, fun h => h, hdata⟩
  | zero =>
    rcases (by omega : s.io.pc = 21 ∨ s.io.pc = 22 ∨ s.io.pc = 23 ∨ s.io.pc = 24 ∨ s.io.pc = 25)
      with hk | hk | hk | hk | hk
    · rw [System.ioCycle_at21 (by rwa [hio]) (by rwa [hio])] at hnext hpads
      simp [hnext, hpads, hdata, hk]
    · rw [System.ioCycle_at22 (by rwa [hio]) (by rwa [hio])] at hnext hpads
      simp [hnext, hpads, hdata, hk]
    · rw [System.ioCycle_at23 (by rwa [hio]) (by rwa [hio])] at hnext hpads
      simp [hnext, hpads, hdata, hk]
    · rw [System.ioCycle_at24 (by rwa [hio]) (by rwa [hio])] at hnext hpads
      simp [hnext, hpads, hdata, hk]
    · have hiorq := (h.view.shows hlow).iorq
      rw [System.ioCycle_at25 (by rwa [hio]) (by rwa [hio]), System.clocked_seen h.clock, hiorq]
        at hnext hpads
      simp [hnext, hpads, hdata, hio, hk]

theorem System.Books.advance_driven {value : Byte} (hpc : 21 ≤ s.io.pc ∧ s.io.pc ≤ 25)
    (hlow : s.z80.Low a) (hread : a.cycle.isRead = true) (hdata : s.pads.data = value)
    (hledger : s.Ledger service st₀ (s.z80.log ++ [(a.cycle, value)])) :
    (s.advance f).Books service st₀ := by
  have hledger' := hledger.advance h.clock h.driven (f := f) (by omega) (by omega) (by omega)
    (by omega) (by omega)
  obtain ⟨hpc', h25', hdata'⟩ := h.advance_reply hpc hlow (f := f)
  by_cases hend : s.io.pc = 25 ∧ s.z80.phase = .t3 ∧ c = 2
  · obtain ⟨h25, ht3, h2⟩ := hend
    obtain ⟨hstrobe, hlog⟩ := h.advance_finish hlow ht3 h2 (f := f)
    have hnext := h25' h25
    have hdriven := h.driven.advance h.clock (f := f)
    have hup : (s.advance f).pads.dataUpOeN = false := by simp [hdriven.up, hnext]
    have hdirs : (s.advance f).pads.dirs = 0x3FF := by simp [hdriven.dirs, hnext]
    have hreading : (s.beforeEdge f).z80.reading = true := by
      rw [System.beforeEdge_z80, hlow.settled]
      simp [Z80.reading, hlow.cycle, hread]
    have hbyte : (s.beforeEdge f).toZ80 f = value := by
      have hall : value &&& 0xFF#8 = value := BitVec.and_allOnes
      simp [System.toZ80, System.u9, hup, hreading, hdirs, hdata', hdata, hall,
        -System.beforeEdge_z80]
    refine .level (by omega) (by simp [hstrobe]) ?_
    simpa [hlog, hread, hbyte] using hledger'
  · have hkeep : (s.advance f).z80.Low a ∧ (s.advance f).z80.log = s.z80.log := by
      by_cases h25 : s.io.pc = 25
      · exact System.advance_keep h.clock hlow (h.view.low_phase hlow) fun hend' =>
          hend ⟨h25, hend'⟩
      · exact h.advance_low hlow (by omega) h25
    exact .driven hpc' hkeep.1 hread (hdata'.trans hdata) (by rw [hkeep.2]; exact hledger')

/-- The step lemma of the books. -/
theorem System.Books.advance (hbooks : s.Books service st₀) : (s.advance f).Books service st₀ := by
  cases hbooks with
  | level hpc hstrobe hledger =>
    rcases (by omega : (12 ≤ s.io.pc ∧ s.io.pc ≤ 16 ∨ 25 ≤ s.io.pc) ∨ s.io.pc = 17 ∨
      s.io.pc = 18) with hk | hk | hk
    · exact System.Books.advance_between h hk hstrobe hledger
    · exact System.Books.advance_branch h hk hledger
    · exact System.Books.advance_request h hk hledger
  | writing hpc hlow hcycle hpath hledger =>
    exact System.Books.advance_writing h hpc hlow hcycle hpath hledger
  | captured hpc hlow hcycle hledger =>
    exact System.Books.advance_captured h hpc hlow hcycle hledger
  | asked hpc hlow hcycle hrx hword hledger =>
    exact System.Books.advance_asked h hpc hlow hcycle hrx hword hledger
  | answered hpc hlow hread hreply hledger =>
    exact System.Books.advance_answered h hpc hlow hread hreply hledger
  | posted hpc hlow hread htx hledger =>
    exact System.Books.advance_posted h hpc hlow hread htx hledger
  | fetched hpc hlow hread hosr hledger =>
    exact System.Books.advance_fetched h hpc hlow hread hosr hledger
  | driven hpc hlow hread hdata hledger =>
    exact System.Books.advance_driven h hpc hlow hread hdata hledger

end

/-! ## Every run -/

section
variable {st₀ : σ × Bool}

theorem System.Books.tick (hbooks : s.Books service st₀) (h : s.Handshake c) (t : Tick) :
    (s.tick service t).Books service st₀ :=
  System.Books.advance (h.serve t.act) (hbooks.serve t.act)

/-- The log and the accesses to come make up the program. -/
theorem Z80.finish_program (z : Z80) (byte : Byte) :
    (z.finish byte).log.map Prod.fst ++ (z.finish byte).accesses.map Access.cycle =
      z.log.map Prod.fst ++ z.accesses.map Access.cycle := by
  simp only [Z80.finish]
  split
  · rfl
  · rename_i a rest haccesses
    simp [haccesses]

theorem System.advance_program (hclock : s.ClockAt c) :
    (s.advance f).z80.log.map Prod.fst ++ (s.advance f).z80.accesses.map Access.cycle =
      s.z80.log.map Prod.fst ++ s.z80.accesses.map Access.cycle := by
  rw [System.advance_z80 hclock]
  split
  · simp only [Z80.rise]
    split <;> rfl
  split
  · simp only [System.fall]
    split
    · rfl
    · rfl
    · split <;> rfl
    · exact Z80.finish_program ..
  · rfl

/-- Between two ticks, on the way through `program`. -/
def System.Accounted (service : Service σ) (st₀ : σ × Bool) (program : List Cycle)
    (s : System σ) : Prop :=
  (∃ c, s.Handshake c) ∧ s.Books service st₀ ∧
    s.z80.log.map Prod.fst ++ s.z80.accesses.map Access.cycle = program

theorem System.Accounted.tick {program : List Cycle} (h : s.Accounted service st₀ program)
    (t : Tick) : (s.tick service t).Accounted service st₀ program := by
  obtain ⟨⟨c, hs⟩, hbooks, hprogram⟩ := h
  refine ⟨⟨_, hs.tick t⟩, hbooks.tick hs t, ?_⟩
  have hserved : (s.serve service t.act).ClockAt c := hs.clock.serve t.act
  rw [← hprogram, System.tick, System.advance_program hserved, System.serve_eq]

theorem System.Accounted.start (state : σ) (bank : Bool) {accesses : List Access}
    (htimed : ∀ a ∈ accesses, a.Timed) :
    (System.start state bank accesses).Accounted service (state, bank)
      (accesses.map Access.cycle) := by
  have hledger : (System.start state bank accesses).Ledger service (state, bank) [] :=
    ⟨rfl, rfl, rfl, by simp [System.start], by simp [Served, servePorts, catchUp, System.start,
      Pads.idle]⟩
  refine ⟨⟨4, System.Handshake.start state bank htimed⟩, ?_, by simp [System.start, Z80.start]⟩
  exact .level (.inl ⟨by simp [System.start, Sm.at, ioStart], by simp [System.start, Sm.at, ioStart]⟩)
    (by simp [System.start, Sm.at, ioStart]) hledger

/-- What the books say of the log, and of core 0 between accesses. -/
theorem System.Books.sound (hbooks : s.Books service st₀) :
    (servePorts service (s.z80.log.map Prod.fst) st₀).1 = s.z80.log ∧ s.core0.fault = false ∧
      (s.z80.strobe = .high →
        servePorts service (s.z80.log.map Prod.fst) st₀ =
          (s.z80.log, (catchUp service s.rx s.core0.state, s.pads.memoryBank))) := by
  have hhigh {a : Access} (hlow : s.z80.Low a) : s.z80.strobe ≠ .high := by simp [hlow.strobe]
  cases hbooks with
  | level _ _ hledger =>
    have hserved := hledger.served
    exact ⟨by rw [hserved], hledger.fault, fun _ => hserved⟩
  | writing _ hlow _ _ hledger =>
    have hserved := hledger.served
    exact ⟨by rw [hserved], hledger.fault, fun hs => absurd hs (hhigh hlow)⟩
  | asked _ hlow _ _ _ hledger =>
    have hserved := hledger.served
    exact ⟨by rw [hserved], hledger.fault, fun hs => absurd hs (hhigh hlow)⟩
  | captured _ hlow _ hledger =>
    exact ⟨hledger.served.init, hledger.fault, fun hs => absurd hs (hhigh hlow)⟩
  | answered _ hlow _ _ hledger | posted _ hlow _ _ hledger | fetched _ hlow _ _ hledger
  | driven _ hlow _ _ hledger =>
    exact ⟨hledger.served.init, hledger.fault, fun hs => absurd hs (hhigh hlow)⟩

end

/-- The engine implements its ports: for every program of accesses and every schedule of core 0,
the Z80 reads the bytes it would read from ports that are served one at a time in program order,
and the handlers are called for the same accesses in the same order, once each; core 0 is behind
by the OUTs in its FIFO. -/
theorem engine_ports (service : Service σ) (state : σ) (bank : Bool) (accesses : List Access)
    (htimed : ∀ a ∈ accesses, a.Timed) (ticks : List Tick) {s : System σ}
    (hs : (System.start state bank accesses).run service ticks = s) :
    ∃ done, accesses.map Access.cycle = done ++ s.z80.accesses.map Access.cycle ∧
      s.z80.log = (servePorts service done (state, bank)).1 ∧
      s.core0.fault = false ∧
      (s.z80.strobe = .high →
        (servePorts service done (state, bank)).2 =
          (catchUp service s.rx s.core0.state, s.pads.memoryBank)) := by
  have hrun : ((System.start state bank accesses).run service ticks).Accounted service (state, bank)
      (accesses.map Access.cycle) :=
    Concurrent.run_invariant
      (I := fun s : System σ => s.Accounted service (state, bank) (accesses.map Access.cycle))
      (fun _ t h => h.tick t) (System.Accounted.start state bank htimed) ticks
  rw [hs] at hrun
  obtain ⟨_, hbooks, hprogram⟩ := hrun
  obtain ⟨hlog, hfault, hcaught⟩ := hbooks.sound
  exact ⟨s.z80.log.map Prod.fst, hprogram.symm, hlog.symm, hfault,
    fun hhigh => by rw [hcaught hhigh]⟩

/-- Core 0 takes a record and answers it by turns. -/
def turns (n : Nat) : List Tick := (List.replicate n [⟨0xFF, .take⟩, ⟨0xFF, .put⟩]).flatten

theorem engine_ports_echo :
    let s := (System.start 0 false echo).run .latch (turns 100)
    s.z80.accesses = [] ∧ s.z80.log = [(.write 0x05 0x2A, 0x2A), (.read 0x05, 0x2A)] := by
  intro s
  have hnil : s.z80.accesses = [] :=
    List.length_eq_zero_iff.mp (by decide +kernel)
  obtain ⟨done, hdone, hlog, _⟩ :=
    engine_ports .latch 0 false echo echo_timed (turns 100) (s := s) rfl
  rw [hnil, List.map_nil, List.append_nil] at hdone
  rw [← hdone] at hlog
  exact ⟨hnil, hlog.trans rfl⟩

end Z80Sbc.Pio
