import Z80Sbc.Http.Mailbox

/-! # Who owns the slot

Core 0 has an idle slot and one that is done, core 1 has one that is pending. What
either core does to the other's variables is nothing. -/

namespace Z80Sbc.Http.Ownership
open Z80Sbc.Http

section
variable {Url Env : Type} {m t u : Machine Url}

/-! ## What core 1 leaves alone -/

/-- Core 0's variables and the slot's request are as they were. -/
structure Core1Only (m t : Machine Url) : Prop where
  port : t.port = m.port
  session : t.session = m.session
  core0 : t.core0 = m.core0
  awaiting : t.awaiting = m.awaiting
  opens : t.opens = m.opens
  slotOpen : t.slotOpen = m.slotOpen
  slotSession : t.slot.session = m.slot.session
  filename : t.slot.filename = m.slot.filename

/-- The slot is as it was, too. -/
structure SlotSame (m t : Machine Url) : Prop extends Core1Only m t where
  slotState : t.slotState = m.slotState
  slot : t.slot = m.slot
  core1 : t.core1 = m.core1

theorem Core1Only.trans (h : Core1Only m t) (h' : Core1Only t u) : Core1Only m u :=
  ⟨h'.port.trans h.port, h'.session.trans h.session, h'.core0.trans h.core0,
    h'.awaiting.trans h.awaiting, h'.opens.trans h.opens, h'.slotOpen.trans h.slotOpen,
    h'.slotSession.trans h.slotSession, h'.filename.trans h.filename⟩

theorem SlotSame.trans (h : SlotSame m t) (h' : SlotSame t u) : SlotSame m u :=
  ⟨h.toCore1Only.trans h'.toCore1Only, h'.slotState.trans h.slotState, h'.slot.trans h.slot,
    h'.core1.trans h.core1⟩

theorem SlotSame.refl (m : Machine Url) : SlotSame m m :=
  ⟨⟨rfl, rfl, rfl, rfl, rfl, rfl, rfl, rfl⟩, rfl, rfl, rfl⟩

/-- The worker and the history are core 1's own. -/
theorem slotSame_worker (m : Machine Url) (w : Worker Url) (n : Nat) (hist : Nat → Session Url) :
    SlotSame m { m with worker := w, workerOpen := n, history := hist } :=
  ⟨⟨rfl, rfl, rfl, rfl, rfl, rfl, rfl, rfl⟩, rfl, rfl, rfl⟩

theorem newSession_same (m : Machine Url) : SlotSame m (newSession m) := by
  unfold newSession
  split
  · exact slotSame_worker m _ _ m.history
  · exact .refl m

theorem startRequest_same (url : Url) (ok : Bool) (message : String) (m : Machine Url) :
    SlotSame m (startRequest url ok message m) :=
  slotSame_worker m _ m.workerOpen _

theorem finishResponse_same (web : Web Url Env) (startOk : Bool) (m : Machine Url) :
    SlotSame m (finishResponse web startOk m) := by
  unfold finishResponse
  split
  · extract_lets t u
    split
    · split
      · exact slotSame_worker m _ m.workerOpen m.history
      · exact (slotSame_worker m _ m.workerOpen m.history).trans (startRequest_same _ _ _ _)
    · exact slotSame_worker m _ m.workerOpen m.history
  · exact .refl m

theorem openTarget_same (web : Web Url Env) (env : Env) (startOk : Bool) (m : Machine Url) :
    SlotSame m (openTarget web env startOk m) := by
  unfold openTarget
  split
  · exact .refl m
  extract_lets w
  split
  · exact slotSame_worker m _ m.workerOpen m.history
  split
  · exact slotSame_worker m _ m.workerOpen m.history
  · exact slotSame_worker m _ m.workerOpen m.history
  · exact (slotSame_worker m _ m.workerOpen m.history).trans (startRequest_same _ _ _ _)

theorem enter_same (web : Web Url Env) (startOk : Bool) (m : Machine Url) :
    SlotSame m { enter web startOk m with core1 := m.core1 } := by
  have hnew := newSession_same m
  have hnet := hnew.trans (slotSame_worker (newSession m) (checkNetwork (newSession m).worker)
    (newSession m).workerOpen (newSession m).history)
  have hfin := hnet.trans (finishResponse_same web startOk _)
  exact ⟨⟨hfin.port, hfin.session, hfin.core0, hfin.awaiting, hfin.opens, hfin.slotOpen,
    hfin.slotSession, hfin.filename⟩, hfin.slotState, hfin.slot, rfl⟩

theorem receive_same (data : List UInt8) (m : Machine Url) : SlotSame m (receive data m) := by
  unfold receive
  split
  · exact .refl m
  · exact slotSame_worker m _ m.workerOpen _

theorem remoteClose_same (m : Machine Url) : SlotSame m (remoteClose m) :=
  slotSame_worker m _ m.workerOpen _

/-- A call of the service leaves a pending slot, or answers it. -/
theorem serve_same (web : Web Url Env) (env : Env) (startOk : Bool) (current : BitVec 32)
    (m : Machine Url) : Core1Only m (serve web env startOk current m) ∧
      (serve web env startOk current m).slotState = m.slotState ∧
      ((serve web env startOk current m).core1 = .outside ∨
        (serve web env startOk current m).core1 = .finish current) := by
  have hopen := openTarget_same web env startOk m
  unfold serve
  split
  · exact ⟨⟨rfl, rfl, rfl, rfl, rfl, rfl, rfl, rfl⟩, rfl, Or.inr rfl⟩
  extract_lets t
  have h : SlotSame m t := hopen
  split
  · exact ⟨⟨h.port, h.session, h.core0, h.awaiting, h.opens, h.slotOpen, h.slotSession,
      h.filename⟩, h.slotState, Or.inr rfl⟩
  split
  · exact ⟨⟨h.port, h.session, h.core0, h.awaiting, h.opens, h.slotOpen, h.slotSession,
      h.filename⟩, h.slotState, Or.inl rfl⟩
  · exact ⟨⟨h.port, h.session, h.core0, h.awaiting, h.opens, h.slotOpen, h.slotSession,
      h.filename⟩, h.slotState, Or.inr rfl⟩

/-! ## The moves of a core -/

/-- What the next step of core 0 can be. -/
inductive Core0Moves (m : Machine Url) : Machine Url → Prop where
  | idle (hc : m.core0 = .idle) : Core0Moves m m
  | found (k : After) (hc : m.core0 = .pump k) (hs : m.slotState = .done) :
      Core0Moves m { m with core0 := .take k }
  | empty (k : After) (hc : m.core0 = .pump k) (hs : m.slotState = .idle) :
      Core0Moves m (m.idleSlot k)
  | wait (k : After) (hc : m.core0 = .pump k) (hs : m.slotState = .pending) :
      Core0Moves m { m with core0 := k.next }
  | take (k : After) (hc : m.core0 = .take k) : Core0Moves m (takeSlot k m)
  | release (k : After) (hc : m.core0 = .release k) :
      Core0Moves m ({ m with slotState := .idle }.idleSlot k)
  | post (k : After) (hc : m.core0 = .post k) :
      Core0Moves m
        { m with
          slot := { m.slot with session := m.session, filename := m.port.filename }
          slotOpen := m.opens
          core0 := .publish k }
  | publish (k : After) (hc : m.core0 = .publish k) :
      Core0Moves m { m with slotState := .pending, core0 := k.next }
  | read (address : UInt8) (hc : m.core0 = .read address) : Core0Moves m (readPort address m).2
  | free (hc : m.core0 = .free) : Core0Moves m { m with slotState := .idle, core0 := .idle }

theorem core0Step_moves (m : Machine Url) : Core0Moves m (core0Step m) := by
  unfold core0Step
  split
  · next hc => exact .idle hc
  · next k hc =>
    split
    · next hs => exact .found k hc hs
    · next hs => exact .empty k hc hs
    · next hs => exact .wait k hc hs
  · next k hc => exact .take k hc
  · next k hc => exact .release k hc
  · next k hc => exact .post k hc
  · next k hc => exact .publish k hc
  · next address hc => exact .read address hc
  · next hc => exact .free hc

/-- What the next step of core 1 can be. -/
inductive Core1Moves (web : Web Url Env) (env : Env) (startOk : Bool) (m : Machine Url) :
    Machine Url → Prop where
  | enter (hc : m.core1 = .outside) : Core1Moves web env startOk m (enter web startOk m)
  | found (current : BitVec 32) (hc : m.core1 = .check current) (hs : m.slotState = .pending) :
      Core1Moves web env startOk m { m with core1 := .serve current }
  | pass (current : BitVec 32) (hc : m.core1 = .check current) :
      Core1Moves web env startOk m { m with core1 := .outside }
  | serve (current : BitVec 32) (hc : m.core1 = .serve current) :
      Core1Moves web env startOk m (serve web env startOk current m)
  | finish (current : BitVec 32) (hc : m.core1 = .finish current) :
      Core1Moves web env startOk m { m with slotState := .done, core1 := .outside }

theorem core1Step_moves (web : Web Url Env) (env : Env) (startOk : Bool) (m : Machine Url) :
    Core1Moves web env startOk m (core1Step web env startOk m) := by
  unfold core1Step
  split
  · next hc => exact .enter hc
  · next current hc =>
    by_cases hs : m.slotState = .pending
    · rw [if_pos hs]
      exact .found current hc hs
    · rw [if_neg hs]
      exact .pass current hc
  · next current hc => exact .serve current hc
  · next current hc => exact .finish current hc

/-! ## The invariant -/

/-- Core 0 drops or reads a slot that is done, and fills an idle one for a chunk it wants. -/
def Core0Ok (s : SlotState) (p : Port) : Core0 → Prop
  | .idle | .read _ => p.position < p.length → s = .done ∧ p.wantChunk = false
  | .pump _ => p.length ≤ p.position
  | .take _ | .release _ | .free => p.length ≤ p.position ∧ s = .done
  | .post _ | .publish _ => p.length ≤ p.position ∧ s = .idle ∧ p.wantChunk = true

/-- Core 1 works on a pending slot. -/
def Core1Ok (s : SlotState) : Core1 → Prop
  | .serve _ | .finish _ => s = .pending
  | .outside | .check _ => True

structure Owned (m : Machine Url) : Prop where
  core0 : Core0Ok m.slotState m.port m.core0
  core1 : Core1Ok m.slotState m.core1

theorem start_owned : Owned (.start : Machine Url) := ⟨nofun, trivial⟩

theorem isIdle_eq (h : m.core0.isIdle = true) : m.core0 = .idle := by
  cases hc : m.core0 with
  | idle => rfl
  | _ => rw [hc] at h; cases h

theorem isOutside_eq (h : m.core1.isOutside = true) : m.core1 = .outside := by
  cases hc : m.core1 with
  | outside => rfl
  | _ => rw [hc] at h; cases h

theorem Core0Ok.next {s : SlotState} {p : Port} (k : After)
    (h : p.position < p.length → s = .done ∧ p.wantChunk = false) : Core0Ok s p k.next := by
  cases k with
  | out => exact h
  | inp address => exact h

/-- A slot that is idle or done is not core 1's. -/
theorem Core1Ok.change {s s' : SlotState} {pc : Core1} (h : Core1Ok s pc) (hs : s ≠ .pending) :
    Core1Ok s' pc := by
  cases pc with
  | serve _ => exact absurd h hs
  | finish _ => exact absurd h hs
  | outside => trivial
  | check _ => trivial

theorem out_owned (h : Owned m) (hidle : m.core0 = .idle) (address data : UInt8) :
    Owned (out address data m) := by
  have hunread : m.port.position < m.port.length →
      m.slotState = .done ∧ m.port.wantChunk = false := by
    have h0 := h.core0
    rwa [hidle] at h0
  have hsame (p : Port) (hp : p.position < p.length → m.slotState = .done ∧ p.wantChunk = false) :
      Core0Ok m.slotState p m.core0 := by
    rw [hidle]
    exact hp
  unfold out
  split
  · split
    · exact ⟨Nat.le_refl _, h.core1⟩
    split
    · split
      · exact h
      next hfree =>
      rw [not_or, Nat.not_lt] at hfree
      split
      · exact ⟨hsame _ hunread, h.core1⟩
      split
      · exact h
      · exact ⟨hfree.2, h.core1⟩
    · exact h
  split
  · split
    · exact ⟨hsame _ hunread, h.core1⟩
    split
    · exact ⟨hsame _ hunread, h.core1⟩
    · exact ⟨hsame _ hunread, h.core1⟩
  · exact h

theorem inp_owned (h : Owned m) (hidle : m.core0 = .idle) (address : UInt8) :
    Owned (inp address m) := by
  have hunread := h.core0
  rw [hidle] at hunread
  refine ⟨?_, h.core1⟩
  unfold inp
  by_cases hle : m.port.length ≤ m.port.position
  · rw [if_pos hle]
    exact hle
  · rw [if_neg hle]
    exact hunread

theorem idleSlot_owned (k : After) (hs : m.slotState = .idle)
    (hread : m.port.length ≤ m.port.position) (h : Core1Ok m.slotState m.core1) :
    Owned (m.idleSlot k) := by
  refine ⟨?_, h⟩
  unfold Machine.idleSlot
  by_cases hw : m.port.wantChunk = true
  · rw [if_pos hw]
    exact ⟨hread, hs, hw⟩
  · rw [if_neg hw]
    exact .next k fun hlt => absurd hread (Nat.not_le.mpr hlt)

theorem takeSlot_owned (k : After) (h : Owned m) (hc : m.core0 = .take k) :
    Owned (takeSlot k m) := by
  have h0 := h.core0
  rw [hc] at h0
  unfold takeSlot
  split
  · refine ⟨?_, h.core1⟩
    by_cases hl : m.slot.length = 0
    · simp only [hl, ne_eq, not_true_eq_false, if_false]
      exact ⟨Nat.le_refl _, h0.2⟩
    · simp only [hl, ne_eq, not_false_eq_true, if_true]
      exact .next k fun _ => ⟨h0.2, rfl⟩
  · exact ⟨h0, h.core1⟩

theorem readByte_owned (h : Owned m)
    (hdone : m.slotState = .done ∧ m.port.wantChunk = false) : Owned (readByte m) := by
  refine ⟨?_, h.core1⟩
  show Core0Ok m.slotState _ (if _ then _ else _)
  split
  · next hlast =>
    refine ⟨?_, hdone.1⟩
    show m.port.length ≤ m.port.position + 1
    omega
  · exact fun _ => hdone

theorem readPort_owned (address : UInt8) (h : Owned m) (hc : m.core0 = .read address) :
    Owned (readPort address m).2 := by
  have h0 := h.core0
  rw [hc] at h0
  unfold readPort
  split
  · exact ⟨h0, h.core1⟩
  split
  · exact ⟨h0, h.core1⟩
  · next hread =>
    rw [not_or, Nat.not_le] at hread
    exact readByte_owned h (h0 hread.2)

theorem Owned.core0Moves (h : Owned m) (ht : Core0Moves m t) : Owned t := by
  have h0 := h.core0
  cases ht with
  | idle hc => exact h
  | found k hc hs =>
    rw [hc] at h0
    exact ⟨⟨h0, hs⟩, h.core1⟩
  | empty k hc hs =>
    rw [hc] at h0
    exact idleSlot_owned k hs h0 h.core1
  | wait k hc hs =>
    rw [hc] at h0
    exact ⟨.next k fun hlt => absurd h0 (Nat.not_le.mpr hlt), h.core1⟩
  | take k hc => exact takeSlot_owned k h hc
  | release k hc =>
    rw [hc] at h0
    exact idleSlot_owned k rfl h0.1 (h.core1.change (by rw [h0.2]; nofun))
  | post k hc =>
    rw [hc] at h0
    exact ⟨h0, h.core1⟩
  | publish k hc =>
    rw [hc] at h0
    exact ⟨.next k fun hlt => absurd h0.1 (Nat.not_le.mpr hlt),
      h.core1.change (by rw [h0.2.1]; nofun)⟩
  | read address hc => exact readPort_owned address h hc
  | free hc =>
    rw [hc] at h0
    exact ⟨fun hlt => absurd h0.1 (Nat.not_le.mpr hlt), h.core1.change (by rw [h0.2]; nofun)⟩

theorem Owned.core1Moves {web : Web Url Env} {env : Env} {startOk : Bool} (h : Owned m)
    (ht : Core1Moves web env startOk m t) : Owned t := by
  have h1 := h.core1
  cases ht with
  | enter hc =>
    have hsame := enter_same web startOk m
    refine ⟨?_, trivial⟩
    rw [show (enter web startOk m).slotState = m.slotState from hsame.slotState,
      show (enter web startOk m).port = m.port from hsame.port,
      show (enter web startOk m).core0 = m.core0 from hsame.core0]
    exact h.core0
  | found current hc hs => exact ⟨h.core0, hs⟩
  | pass current hc => exact ⟨h.core0, trivial⟩
  | serve current hc =>
    rw [hc] at h1
    obtain ⟨hsame, hstate, hpc⟩ := serve_same web env startOk current m
    refine ⟨?_, ?_⟩
    · rw [hstate, hsame.port, hsame.core0]
      exact h.core0
    · rw [hstate]
      rcases hpc with hpc | hpc
      · rw [hpc]
        trivial
      · rw [hpc]
        exact h1
  | finish current hc =>
    rw [hc] at h1
    have hnot : m.slotState ≠ .done ∧ m.slotState ≠ .idle := by
      rw [show m.slotState = .pending from h1]
      exact ⟨nofun, nofun⟩
    refine ⟨?_, trivial⟩
    have h0 := h.core0
    show Core0Ok _ m.port m.core0
    cases hc0 : m.core0 with
    | idle => rw [hc0] at h0; exact fun hlt => absurd (h0 hlt).1 hnot.1
    | read _ => rw [hc0] at h0; exact fun hlt => absurd (h0 hlt).1 hnot.1
    | pump _ => rw [hc0] at h0; exact h0
    | take _ => rw [hc0] at h0; exact absurd h0.2 hnot.1
    | release _ => rw [hc0] at h0; exact absurd h0.2 hnot.1
    | free => rw [hc0] at h0; exact absurd h0.2 hnot.1
    | post _ => rw [hc0] at h0; exact absurd h0.2.1 hnot.2
    | publish _ => rw [hc0] at h0; exact absurd h0.2.1 hnot.2

theorem SlotSame.owned (hsame : SlotSame m t) (h : Owned m) : Owned t := by
  refine ⟨?_, ?_⟩
  · rw [hsame.slotState, hsame.port, hsame.core0]
    exact h.core0
  · rw [hsame.slotState, hsame.core1]
    exact h.core1

theorem Owned.step (web : Web Url Env) (h : Owned m) (a : Action Env) : Owned (step web m a) := by
  have hite {c : Prop} [Decidable c] {t : Machine Url} (ht : c → Owned t) :
      Owned (if c then t else m) := by
    split
    · next hc => exact ht hc
    · exact h
  cases a with
  | out address data => exact hite fun hc => out_owned h (isIdle_eq hc) address data
  | inp address => exact hite fun hc => inp_owned h (isIdle_eq hc) address
  | core0 => exact h.core0Moves (core0Step_moves m)
  | core1 env startOk => exact h.core1Moves (core1Step_moves web env startOk m)
  | install => exact hite fun _ => ⟨h.core0, h.core1⟩
  | networkState connected generation => exact hite fun _ => ⟨h.core0, h.core1⟩
  | receive data => exact hite fun _ => (receive_same data m).owned h
  | remoteClose => exact hite fun _ => (remoteClose_same m).owned h
  | error message => exact hite fun _ => ⟨h.core0, h.core1⟩

end

end Z80Sbc.Http.Ownership
