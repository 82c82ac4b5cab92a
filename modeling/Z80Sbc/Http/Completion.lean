import Z80Sbc.Http.Ownership
import Z80Sbc.Concurrent.Run

/-! # How a chunk request completes

Core 1 samples the session when its service starts, and compares the slot with the
sample. Where core 0 opens a session and posts its request in between, the slot is
not stale, and yet is answered as if it were: IDLE, and no data. Without such an
answer a request completes with data, the end of the file or an error. -/

namespace Z80Sbc.Http.Completion
open Z80Sbc.Http Z80Sbc.Http.Ownership Z80Sbc.Concurrent Z80Sbc.Data

/-- What the status may show of a request that has come to an end. -/
def Outcome (p : Port) : Prop :=
  (p.status = httpDataReady ∧ p.position = 0 ∧ 2 ≤ p.length) ∨ p.status = httpEof ∨
    p.status = httpMissingBaseUrl ∨ p.status = httpError

/-- Until its outcome is seen, in the status or as a byte of the chunk, the status shows BUSY or
the outcome. -/
def Honest {Url : Type} (m : Machine Url) : Prop :=
  m.awaiting = true → m.port.status = httpBusy ∨ Outcome m.port

/-- An answer to the live session. -/
def Answered (s : Slot) : Prop :=
  s.length ≠ 0 ∨ s.status = httpEof ∨ s.status = httpMissingBaseUrl ∨ s.status = httpError

/-- Core 0 is at the slot without a request of its own. -/
def Dropping : Core0 → Prop
  | .pump _ | .take _ | .release _ => True
  | _ => False

structure Inv {Url : Type} (m : Machine Url) : Prop extends Owned m where
  opens : 0 < m.opens
  session : m.session = BitVec.ofNat 32 m.opens
  workerSession : m.worker.workerSession = BitVec.ofNat 32 m.workerOpen
  workerOpen : m.workerOpen ≤ m.opens
  /-- once it has seen a session, core 1 knows how to report an error -/
  seen : m.workerOpen ≠ 0 →
    m.worker.workerErrorStatus = httpError ∨ m.worker.workerErrorStatus = httpMissingBaseUrl
  inside : m.core1 ≠ .outside → m.workerOpen ≠ 0
  slot : m.slotState = .done → Answered m.slot ∨ m.slot.session ≠ m.session ∨
    (m.port.wantChunk = false ∧ Dropping m.core0)
  finish : ∀ current, m.core1 = .finish current → m.slot.session = current → Answered m.slot
  awaiting : m.awaiting = true → m.port.collecting = false ∧
    ((m.port.wantChunk = true ∧ m.port.status = httpBusy) ∨
      (m.port.wantChunk = false ∧ Outcome m.port))

/-- Core 1 looks at the session for the first time before its tag wraps, and when it answers a slot
as stale, the slot is not of the live session. -/
def Timely {Url Env : Type} (m : Machine Url) : Action Env → Prop
  | .core1 _ _ =>
    (m.core1 = .outside → m.workerOpen = 0 → m.opens < 2 ^ 32) ∧
    ∀ current, m.core1 = .finish current → m.slot.session ≠ current → m.slot.session ≠ m.session
  | _ => True

section
variable {Url Env : Type} {m t : Machine Url}

theorem start_inv : Inv (.start : Machine Url) :=
  ⟨start_owned, Nat.one_pos, rfl, rfl, Nat.zero_le _, nofun, fun h => absurd rfl h, nofun, nofun, nofun⟩

theorem Inv.honest (h : Inv m) : Honest m := by
  intro ha
  rcases (h.awaiting ha).2 with ⟨-, hb⟩ | ⟨-, ho⟩
  · exact Or.inl hb
  · exact Or.inr ho

/-! ## Core 0 -/

/-- Core 0's port changes, and core 1 sees nothing of it. -/
theorem Inv.local (h : Inv m) {p : Port} {pc : Core0} {b : Bool} {hist : Nat → Session Url}
    (howned : Core0Ok m.slotState p pc)
    (hslot : m.slotState = .done → Answered m.slot ∨ m.slot.session ≠ m.session ∨
      (p.wantChunk = false ∧ Dropping pc))
    (hawaiting : b = true → p.collecting = false ∧
      ((p.wantChunk = true ∧ p.status = httpBusy) ∨ (p.wantChunk = false ∧ Outcome p))) :
    Inv { m with port := p, core0 := pc, awaiting := b, history := hist } :=
  ⟨⟨howned, h.core1⟩, h.opens, h.session, h.workerSession, h.workerOpen, h.seen, h.inside, hslot,
    h.finish, hawaiting⟩

theorem openSession_inv (h : Inv m) (collecting : Bool) : Inv (openSession collecting m) := by
  refine ⟨⟨Nat.le_refl _, h.core1⟩, Nat.succ_pos _, ?_, h.workerSession,
    Nat.le_succ_of_le h.workerOpen, h.seen, h.inside, fun _ => Or.inr (Or.inr ⟨rfl, trivial⟩), h.finish,
    nofun⟩
  show m.session + 1 = BitVec.ofNat 32 (m.opens + 1)
  rw [h.session, BitVec.ofNat_add]
  rfl

/-- A slot that is done when core 0 is between two operations. -/
theorem Inv.slot_idle (h : Inv m) (hidle : m.core0 = .idle) (hs : m.slotState = .done) :
    Answered m.slot ∨ m.slot.session ≠ m.session := by
  rcases h.slot hs with ha | hne | ⟨-, hd⟩
  · exact Or.inl ha
  · exact Or.inr hne
  · rw [hidle] at hd
    exact hd.elim

theorem out_inv (h : Inv m) (hidle : m.core0 = .idle) (address data : UInt8) :
    Inv (out address data m) := by
  have h0 : m.port.position < m.port.length → m.slotState = .done ∧ m.port.wantChunk = false := by
    have h0 := h.core0
    rwa [hidle] at h0
  have hslot {p : Port} {pc : Core0} (hs : m.slotState = .done) :
      Answered m.slot ∨ m.slot.session ≠ m.session ∨ (p.wantChunk = false ∧ Dropping pc) := by
    rcases h.slot_idle hidle hs with ha | hne
    · exact Or.inl ha
    · exact Or.inr (Or.inl hne)
  -- while the name is typed nothing is awaited
  have hquiet (hcol : m.port.collecting = true) : m.awaiting ≠ true := by
    intro ha
    rw [(h.awaiting ha).1] at hcol
    cases hcol
  have hsame (p : Port) (hp : p.position < p.length → m.slotState = .done ∧ p.wantChunk = false) :
      Core0Ok m.slotState p m.core0 := by
    rw [hidle]
    exact hp
  unfold out
  split
  · split
    · exact openSession_inv h _
    split
    · split
      · exact h
      next hfree =>
      rw [not_or, Nat.not_lt, Bool.not_eq_true] at hfree
      split
      · refine h.local (hsame _ h0) hslot fun ha => ⟨(h.awaiting ha).1, Or.inr ⟨hfree.1, ?_⟩⟩
        exact Or.inr (Or.inr (Or.inr rfl))
      next hname =>
      rw [not_or, Bool.not_eq_true] at hname
      split
      · exact h
      · exact h.local hfree.2 hslot fun _ => ⟨hname.1, Or.inl ⟨rfl, rfl⟩⟩
    · exact h
  split
  · next hdata =>
    split
    · exact h.local (hsame _ h0) hslot fun ha => absurd ha (hquiet hdata.2)
    split
    · exact h.local (hsame _ h0) hslot fun ha => absurd ha (hquiet hdata.2)
    · exact h.local (hsame _ h0) hslot fun ha => absurd ha (hquiet hdata.2)
  · exact h

theorem inp_inv (h : Inv m) (hidle : m.core0 = .idle) (address : UInt8) : Inv (inp address m) := by
  refine h.local (inp_owned h.toOwned hidle address).core0 (fun hs => ?_) h.awaiting
  rcases h.slot_idle hidle hs with ha | hne
  · exact Or.inl ha
  · exact Or.inr (Or.inl hne)

theorem idleSlot_inv {m : Machine Url} (h : Inv m) {k : After} (hs : m.slotState = .idle)
    (hread : m.port.length ≤ m.port.position) : Inv (m.idleSlot k) :=
  h.local (idleSlot_owned k hs hread h.core1).core0
    (fun hd => absurd (hs.symm.trans hd) nofun) h.awaiting

theorem takeSlot_inv (h : Inv m) (k : After) (hc : m.core0 = .take k) : Inv (takeSlot k m) := by
  have hown := takeSlot_owned k h.toOwned hc
  have hdone := h.core0
  rw [hc] at hdone
  unfold takeSlot at hown ⊢
  split at hown
  · next hmine =>
    rw [if_pos hmine]
    have hans : Answered m.slot := by
      rcases h.slot hdone.2 with ha | hne | ⟨hw, -⟩
      · exact ha
      · exact absurd hmine.1 hne
      · rw [hmine.2] at hw
        cases hw
    refine h.local hown.core0 (fun _ => Or.inl hans) fun ha => ⟨(h.awaiting ha).1, Or.inr ⟨rfl, ?_⟩⟩
    by_cases hl : m.slot.length = 0
    · have hst := hans.resolve_left fun hne => hne hl
      rw [if_neg (not_not_intro hl), if_neg (not_not_intro hl)]
      exact Or.inr hst
    · rw [if_pos hl, if_pos hl]
      refine Or.inl ⟨rfl, rfl, ?_⟩
      show 2 ≤ m.slot.length + 1
      omega
  · next hnot =>
    rw [if_neg hnot]
    refine h.local hown.core0 (fun _ => ?_) h.awaiting
    rcases h.slot hdone.2 with ha | hne | ⟨hw, -⟩
    · exact Or.inl ha
    · exact Or.inr (Or.inl hne)
    · exact Or.inr (Or.inr ⟨hw, trivial⟩)

theorem readPort_inv (h : Inv m) (address : UInt8) (hc : m.core0 = .read address) :
    Inv (readPort address m).2 := by
  have hslot {p : Port} {pc : Core0} (hs : m.slotState = .done) :
      Answered m.slot ∨ m.slot.session ≠ m.session ∨ (p.wantChunk = false ∧ Dropping pc) := by
    rcases h.slot hs with ha | hne | ⟨-, hd⟩
    · exact Or.inl ha
    · exact Or.inr (Or.inl hne)
    · rw [hc] at hd
      exact hd.elim
  have hown := readPort_owned address h.toOwned hc
  unfold readPort at hown ⊢
  split at hown
  · next haddr =>
    rw [if_pos haddr]
    exact h.local hown.core0 hslot fun ha => h.awaiting (Bool.and_eq_true_iff.mp ha).1
  next haddr =>
  rw [if_neg haddr]
  split at hown
  · next hnone =>
    rw [if_pos hnone]
    exact h.local hown.core0 hslot h.awaiting
  · next hread =>
    rw [if_neg hread]
    exact h.local hown.core0 hslot nofun

theorem Inv.core0Moves (h : Inv m) (ht : Core0Moves m t) : Inv t := by
  have hown := h.toOwned.core0Moves ht
  have h0 := h.core0
  cases ht with
  | idle hc => exact h
  | found k hc hs =>
    refine h.local hown.core0 (fun hd => ?_) h.awaiting
    rcases h.slot hs with ha | hne | ⟨hw, -⟩
    · exact Or.inl ha
    · exact Or.inr (Or.inl hne)
    · exact Or.inr (Or.inr ⟨hw, trivial⟩)
  | empty k hc hs =>
    rw [hc] at h0
    exact idleSlot_inv h hs h0
  | wait k hc hs => exact h.local hown.core0 (fun hd => absurd (hs.symm.trans hd) nofun) h.awaiting
  | take k hc => exact takeSlot_inv h k hc
  | release k hc =>
    rw [hc] at h0
    have hidle : Inv { m with slotState := .idle, core0 := .pump k } :=
      ⟨⟨h0.1, h.core1.change (by rw [h0.2]; nofun)⟩, h.opens, h.session, h.workerSession, h.workerOpen,
        h.seen, h.inside, nofun, h.finish, h.awaiting⟩
    exact idleSlot_inv hidle rfl h0.1
  | post k hc =>
    rw [hc] at h0
    refine ⟨hown, h.opens, h.session, h.workerSession, h.workerOpen, h.seen, h.inside,
      fun hd => absurd (h0.2.1.symm.trans hd) nofun, fun current hf => ?_, h.awaiting⟩
    have hpend := h.core1
    rw [show m.core1 = .finish current from hf] at hpend
    exact absurd (h0.2.1.symm.trans hpend) nofun
  | publish k hc =>
    exact ⟨hown, h.opens, h.session, h.workerSession, h.workerOpen, h.seen, h.inside, nofun, h.finish,
      h.awaiting⟩
  | read address hc => exact readPort_inv h address hc
  | free hc =>
    exact ⟨hown, h.opens, h.session, h.workerSession, h.workerOpen, h.seen, h.inside, nofun, h.finish,
      h.awaiting⟩

/-! ## Core 1 -/

/-- The worker's session is as it was. -/
structure SessionSame (m t : Machine Url) : Prop where
  workerOpen : t.workerOpen = m.workerOpen
  workerSession : t.worker.workerSession = m.worker.workerSession
  errorStatus : t.worker.workerErrorStatus = m.worker.workerErrorStatus ∨
    t.worker.workerErrorStatus = httpMissingBaseUrl

theorem SessionSame.trans {u : Machine Url} (h : SessionSame m t) (h' : SessionSame t u) :
    SessionSame m u := by
  refine ⟨h'.workerOpen.trans h.workerOpen, h'.workerSession.trans h.workerSession, ?_⟩
  rcases h'.errorStatus with he | he
  · rw [he]
    exact h.errorStatus
  · exact Or.inr he

theorem checkNetwork_same (m : Machine Url) :
    SessionSame m { m with worker := checkNetwork m.worker } := by
  unfold checkNetwork
  split
  · exact ⟨rfl, rfl, Or.inl rfl⟩
  · exact ⟨rfl, rfl, Or.inl rfl⟩

theorem SessionSame.startRequest (h : SessionSame m t) (url : Url) (ok : Bool) (message : String) :
    SessionSame m (startRequest url ok message t) := by
  cases ok with
  | true => exact ⟨h.workerOpen, h.workerSession, h.errorStatus⟩
  | false => exact ⟨h.workerOpen, h.workerSession, h.errorStatus⟩

theorem finishResponse_session (web : Web Url Env) (startOk : Bool) (m : Machine Url) :
    SessionSame m (finishResponse web startOk m) := by
  unfold finishResponse
  split
  · extract_lets t u
    split
    · split
      · exact ⟨rfl, rfl, Or.inl rfl⟩
      · refine .startRequest ?_ _ _ _
        exact ⟨rfl, rfl, Or.inl rfl⟩
    · exact ⟨rfl, rfl, Or.inl rfl⟩
  · exact ⟨rfl, rfl, Or.inl rfl⟩

theorem openTarget_session (web : Web Url Env) (env : Env) (startOk : Bool) (m : Machine Url) :
    SessionSame m (openTarget web env startOk m) := by
  unfold openTarget
  split
  · exact ⟨rfl, rfl, Or.inl rfl⟩
  extract_lets w
  split
  · exact ⟨rfl, rfl, Or.inl rfl⟩
  split
  · exact ⟨rfl, rfl, Or.inr rfl⟩
  · exact ⟨rfl, rfl, Or.inl rfl⟩
  · refine .startRequest ?_ _ _ _
    exact ⟨rfl, rfl, Or.inl rfl⟩

theorem cancelFailed_session (m : Machine Url) (pc : Core1) :
    SessionSame m { m with worker := cancelFailed m.worker, core1 := pc } := by
  unfold cancelFailed
  split
  · exact ⟨rfl, rfl, Or.inl rfl⟩
  · exact ⟨rfl, rfl, Or.inl rfl⟩

/-- When its service starts, core 1 works for the tag of the live session. -/
theorem Inv.newSession (h : Inv m) (hwrap : m.workerOpen = 0 → m.opens < 2 ^ 32) :
    (newSession m).workerOpen ≠ 0 ∧ (newSession m).workerOpen ≤ m.opens ∧
      (newSession m).worker.workerSession = BitVec.ofNat 32 (newSession m).workerOpen ∧
      ((newSession m).worker.workerErrorStatus = httpError ∨
        (newSession m).worker.workerErrorStatus = httpMissingBaseUrl) := by
  unfold Http.newSession
  by_cases hne : m.session ≠ m.worker.workerSession
  · rw [if_pos hne]
    exact ⟨Nat.ne_of_gt h.opens, Nat.le_refl _, h.session, Or.inl rfl⟩
  · rw [if_neg hne]
    have hpos := h.opens
    have hwork : m.workerOpen ≠ 0 := fun hzero => by
      have heq : BitVec.ofNat 32 m.opens = BitVec.ofNat 32 m.workerOpen := by
        rw [← h.session, ← h.workerSession]
        exact not_not.mp hne
      have hmod := congrArg BitVec.toNat heq
      rw [BitVec.toNat_ofNat, BitVec.toNat_ofNat, hzero] at hmod
      have hlt := hwrap hzero
      omega
    exact ⟨hwork, h.workerOpen, h.workerSession, h.seen hwork⟩

theorem enter_session (web : Web Url Env) (startOk : Bool) (m : Machine Url) :
    SessionSame (newSession m) (enter web startOk m) := by
  have hnet := checkNetwork_same (newSession m)
  have hfin := hnet.trans (finishResponse_session web startOk _)
  exact hfin.trans (cancelFailed_session _ _)

/-- The answer to a slot that is not stale. -/
theorem serve_answered (web : Web Url Env) (env : Env) (startOk : Bool) {current : BitVec 32}
    (hmine : m.slot.session = current)
    (herror : m.worker.workerErrorStatus = httpError ∨
      m.worker.workerErrorStatus = httpMissingBaseUrl)
    (hf : (serve web env startOk current m).core1 = .finish current) :
    Answered (serve web env startOk current m).slot := by
  have hsame := openTarget_session web env startOk m
  unfold serve at hf ⊢
  rw [if_neg (not_not_intro hmine)] at hf ⊢
  by_cases hbad : (openTarget web env startOk m).worker.stream.error.isSome = true
  · rw [if_pos hbad]
    have hst : (openTarget web env startOk m).worker.workerErrorStatus = httpError ∨
        (openTarget web env startOk m).worker.workerErrorStatus = httpMissingBaseUrl := by
      rcases hsame.errorStatus with he | he
      · rw [he]
        exact herror
      · exact Or.inr he
    exact Or.inr (Or.inr hst.symm)
  rw [if_neg hbad] at hf ⊢
  by_cases hmore : (openTarget web env startOk m).worker.ring.count < slotSize ∧
      ((openTarget web env startOk m).worker.active ∨
        !(openTarget web env startOk m).worker.stream.done)
  · rw [if_pos hmore] at hf
    cases hf
  · rw [if_neg hmore]
    by_cases hzero : (openTarget web env startOk m).worker.ring.count = 0
    · -- an empty chunk is the end
      rw [not_and_or, Nat.not_lt] at hmore
      have hend := hmore.resolve_left (by rw [hzero]; decide)
      rw [not_or, Bool.not_eq_true, Bool.not_eq_true, Bool.not_eq_false'] at hend
      refine Or.inr (Or.inl ?_)
      simp [fillSlot, hzero, RingBuffer.drain, hend.1, hend.2, Machine.note]
    · refine Or.inl ?_
      show min (openTarget web env startOk m).worker.ring.count slotSize ≠ 0
      have hpos : 0 < slotSize := by decide
      omega

theorem serve_session (web : Web Url Env) (env : Env) (startOk : Bool) (current : BitVec 32)
    (m : Machine Url) : SessionSame m (serve web env startOk current m) := by
  have hopen := openTarget_session web env startOk m
  unfold serve
  split
  · exact ⟨rfl, rfl, Or.inl rfl⟩
  extract_lets t
  split
  · exact ⟨hopen.workerOpen, hopen.workerSession, hopen.errorStatus⟩
  split
  · exact ⟨hopen.workerOpen, hopen.workerSession, hopen.errorStatus⟩
  · exact ⟨hopen.workerOpen, hopen.workerSession, hopen.errorStatus⟩

theorem Inv.core1Moves {web : Web Url Env} {env : Env} {startOk : Bool} (h : Inv m)
    (ht : Core1Moves web env startOk m t)
    (hwrap : m.core1 = .outside → m.workerOpen = 0 → m.opens < 2 ^ 32)
    (htimely : ∀ current, m.core1 = .finish current → m.slot.session ≠ current →
      m.slot.session ≠ m.session) : Inv t := by
  have hown := h.toOwned.core1Moves ht
  cases ht with
  | enter hc =>
    obtain ⟨hwork, hle, hsession, herror⟩ := h.newSession (hwrap hc)
    have hs := enter_session web startOk m
    obtain ⟨⟨hport, hses, hcore0, hawait, hopens, -, -, -⟩, hstate, hslot, -⟩ :=
      enter_same web startOk m
    refine ⟨hown, ?_, ?_, ?_, ?_, fun _ => ?_, fun _ => ?_, fun hd => ?_, nofun, fun ha => ?_⟩
    · rw [show (enter web startOk m).opens = m.opens from hopens]
      exact h.opens
    · rw [show (enter web startOk m).session = m.session from hses,
        show (enter web startOk m).opens = m.opens from hopens]
      exact h.session
    · rw [hs.workerSession, hsession, hs.workerOpen]
    · rw [hs.workerOpen, show (enter web startOk m).opens = m.opens from hopens]
      exact hle
    · rcases hs.errorStatus with he | he
      · rw [he]
        exact herror
      · exact Or.inr he
    · rw [hs.workerOpen]
      exact hwork
    · rw [show (enter web startOk m).slotState = m.slotState from hstate] at hd
      rw [show (enter web startOk m).slot = m.slot from hslot,
        show (enter web startOk m).session = m.session from hses,
        show (enter web startOk m).port = m.port from hport,
        show (enter web startOk m).core0 = m.core0 from hcore0]
      exact h.slot hd
    · rw [show (enter web startOk m).awaiting = m.awaiting from hawait] at ha
      rw [show (enter web startOk m).port = m.port from hport]
      exact h.awaiting ha
  | found current hc hs =>
    exact ⟨hown, h.opens, h.session, h.workerSession, h.workerOpen, h.seen,
      fun _ => h.inside (by rw [hc]; nofun), h.slot, nofun, h.awaiting⟩
  | pass current hc =>
    exact ⟨hown, h.opens, h.session, h.workerSession, h.workerOpen, h.seen, fun hne => absurd rfl hne,
      h.slot, nofun, h.awaiting⟩
  | serve current hc =>
    have hpend := h.core1
    rw [hc] at hpend
    have hwork : m.workerOpen ≠ 0 := h.inside (by rw [hc]; nofun)
    obtain ⟨hsame, hstate, hpc⟩ := serve_same web env startOk current m
    have hs := serve_session web env startOk current m
    refine ⟨hown, ?_, ?_, ?_, ?_, fun _ => ?_, fun _ => ?_, fun hd => ?_, fun c hf hmine => ?_,
      fun ha => ?_⟩
    · rw [hsame.opens]
      exact h.opens
    · rw [hsame.session, hsame.opens]
      exact h.session
    · rw [hs.workerSession, hs.workerOpen]
      exact h.workerSession
    · rw [hs.workerOpen, hsame.opens]
      exact h.workerOpen
    · rcases hs.errorStatus with he | he
      · rw [he]
        exact h.seen hwork
      · exact Or.inr he
    · rw [hs.workerOpen]
      exact hwork
    · rw [hstate] at hd
      exact absurd (hpend.symm.trans hd) nofun
    · have heq : c = current := by
        rcases hpc with hpc | hpc
        · rw [hpc] at hf
          cases hf
        · rw [hpc] at hf
          cases hf
          rfl
      subst heq
      rw [hsame.slotSession] at hmine
      exact serve_answered web env startOk hmine (h.seen hwork) hf
    · rw [hsame.awaiting] at ha
      rw [hsame.port]
      exact h.awaiting ha
  | finish current hc =>
    refine ⟨hown, h.opens, h.session, h.workerSession, h.workerOpen, h.seen, fun hne => absurd rfl hne,
      fun _ => ?_, nofun, h.awaiting⟩
    by_cases hmine : m.slot.session = current
    · exact Or.inl (h.finish current hc hmine)
    · exact Or.inr (Or.inl (htimely current hc hmine))

/-- A network event leaves core 0, the slot and the worker's session alone. -/
theorem Inv.event (h : Inv m) (hsame : SlotSame m t) (hs : SessionSame m t) : Inv t := by
  refine ⟨hsame.owned h.toOwned, ?_, ?_, ?_, ?_, fun hw => ?_, fun hc => ?_, fun hd => ?_,
    fun current hf hmine => ?_, fun ha => ?_⟩
  · rw [hsame.opens]
    exact h.opens
  · rw [hsame.session, hsame.opens]
    exact h.session
  · rw [hs.workerSession, hs.workerOpen]
    exact h.workerSession
  · rw [hs.workerOpen, hsame.opens]
    exact h.workerOpen
  · rw [hs.workerOpen] at hw
    rcases hs.errorStatus with he | he
    · rw [he]
      exact h.seen hw
    · exact Or.inr he
  · rw [hsame.core1] at hc
    rw [hs.workerOpen]
    exact h.inside hc
  · rw [hsame.slotState] at hd
    rw [hsame.slot, hsame.session, hsame.port, hsame.core0]
    exact h.slot hd
  · rw [hsame.core1] at hf
    rw [hsame.slot] at hmine ⊢
    exact h.finish current hf hmine
  · rw [hsame.awaiting] at ha
    rw [hsame.port]
    exact h.awaiting ha

theorem settle_session (m : Machine Url) (stream : Stream) (ring : RingBuffer UInt8) (n : Nat)
    (f : Session Url → Session Url) : SessionSame m
      ({ m with worker := settle { m.worker with stream := stream, ring := ring } }.note n f) := by
  unfold settle
  split
  · exact ⟨rfl, rfl, Or.inl rfl⟩
  · exact ⟨rfl, rfl, Or.inl rfl⟩

theorem receive_session (data : List UInt8) (m : Machine Url) : SessionSame m (receive data m) := by
  unfold receive
  split
  · exact ⟨rfl, rfl, Or.inl rfl⟩
  · exact settle_session m _ _ _ _

theorem Inv.step (web : Web Url Env) (h : Inv m) (a : Action Env) (ht : Timely m a) :
    Inv (step web m a) := by
  have hite {c : Prop} [Decidable c] {t : Machine Url} (ht : c → Inv t) :
      Inv (if c then t else m) := by
    split
    · next hc => exact ht hc
    · exact h
  have hworker (w : Worker Url) (hs : w.workerSession = m.worker.workerSession)
      (he : w.workerErrorStatus = m.worker.workerErrorStatus) : Inv { m with worker := w } :=
    h.event (slotSame_worker m w m.workerOpen m.history) ⟨rfl, hs, Or.inl he⟩
  cases a with
  | out address data => exact hite fun hc => out_inv h (isIdle_eq hc) address data
  | inp address => exact hite fun hc => inp_inv h (isIdle_eq hc) address
  | core0 => exact h.core0Moves (core0Step_moves m)
  | core1 env startOk => exact h.core1Moves (core1Step_moves web env startOk m) ht.1 ht.2
  | install => exact hite fun _ => hworker _ rfl rfl
  | networkState connected generation => exact hite fun _ => hworker _ rfl rfl
  | receive data => exact hite fun _ => h.event (receive_same data m) (receive_session data m)
  | remoteClose => exact hite fun _ => h.event (remoteClose_same m) (settle_session m _ _ _ _)
  | error message => exact hite fun _ => hworker _ rfl rfl

/-- **A chunk request** whose run meets the condition completes with data, the end of the file
or an error: until the Z80 has seen the outcome, the status is BUSY or the outcome. -/
theorem chunk_completes (web : Web Url Env) (actions : List (Action Env))
    (h : Along (step web) Timely .start actions) : Honest (run (step web) .start actions) :=
  (Along.invariant (fun _ a ht hi => hi.step web a ht) start_inv h).honest

end

/-- Every name is a URL. -/
def plainWeb : Web Unit Unit := ⟨fun _ _ => .ok (), fun _ _ => none⟩

/-- The Z80 opens a session for a name of one letter and requests a chunk of it. -/
def requestChunk : List (Action Unit) :=
  [.out 21 1, .core0, .out 22 97, .out 22 0, .out 21 3, .core0, .core0, .core0]

/-- The Z80 reads the status, up to the read itself. -/
def pollStatus : List (Action Unit) := [.inp 21, .core0, .core0, .core0]

def service (n : Nat) : List (Action Unit) := List.replicate n (.core1 () true)

theorem offline_completes :
    (run (step plainWeb) .start (requestChunk ++ service 4 ++ pollStatus)).port.status = httpError ∧
      Honest (run (step plainWeb) .start (requestChunk ++ service 4 ++ pollStatus)) := by
  refine ⟨by decide +kernel, chunk_completes plainWeb _ ?_⟩
  refine ⟨trivial, trivial, trivial, trivial, trivial, trivial, trivial, trivial,
    ⟨fun _ => ?_, nofun⟩, ⟨nofun, nofun⟩, ⟨nofun, nofun⟩, ⟨nofun, fun c hc hne => ?_⟩, trivial,
    trivial, trivial, trivial, trivial⟩
  · decide +kernel
  · cases hc
    exact absurd (by decide +kernel) hne

/-- Core 1 has loaded the session when the Z80 opens the next one and requests a chunk. -/
theorem race_completes_idle :
    (run (step plainWeb) .start (service 1 ++ requestChunk ++ service 3 ++ pollStatus)).port.status =
        httpIdle ∧
      ¬Honest (run (step plainWeb) .start (service 1 ++ requestChunk ++ service 3 ++ pollStatus)) := by
  refine ⟨by decide +kernel, fun h => ?_⟩
  have hst := h (by decide +kernel)
  revert hst
  unfold Outcome
  decide +kernel

end Z80Sbc.Http.Completion
