import Z80Sbc.Http.Receiving

/-! # The file port end to end

What the Z80 has read of a session is a prefix of what went into the slot for it, and
that a prefix of the body. The rest is in the slot: answered and not yet taken by core 0,
or taken and not yet read. The tag of the slot tells sessions apart as long as the
counter does not come round while a slot or core 1 holds on to an old one. -/

namespace Z80Sbc.Http.Delivery
open Z80Sbc.Data Z80Sbc.Http Z80Sbc.Http.Ownership Z80Sbc.Http.Receiving Z80Sbc.Concurrent

section
variable {Url Env : Type} {web : Web Url Env} {m t : Machine Url}

/-- The slot holds an answer to the live session, which core 0 has still to take. -/
def Answering (m : Machine Url) : Prop :=
  m.port.wantChunk = true ∧ m.slotOpen = m.opens ∧
    (m.slotState = .done ∨ ∃ current, m.core1 = .finish current)

/-- The session that core 1 has loaded. -/
def Core1.current : Core1 → Option (BitVec 32)
  | .outside => none
  | .check current | .serve current | .finish current => some current

/-- The sessions are numbered, and core 1 has its bytes. -/
structure Books (web : Web Url Env) (m : Machine Url) : Prop where
  session : m.session = BitVec.ofNat 32 m.opens
  workerSession : m.worker.workerSession = BitVec.ofNat 32 m.workerOpen
  workerOpen : m.workerOpen ≤ m.opens
  slotSession : m.slot.session = BitVec.ofNat 32 m.slotOpen
  slotOpen : m.slotOpen ≤ m.opens
  current : ∀ current ∈ Core1.current m.core1, current = m.worker.workerSession
  errorStatus : m.worker.workerErrorStatus ≠ httpEof
  receives : Receives web m.worker (m.history m.workerOpen)
  chain : ∀ k, Chain web (m.history k).name (m.history k).connections
  taken : ∀ k, (m.history k).taken <+: (m.history k).response.2
  reads : ∀ k, (m.history k).reads <+: (m.history k).taken
  unseen : ∀ k, m.workerOpen < k → (m.history k).connections = [] ∧ (m.history k).taken = []
  later : ∀ k, m.opens < k → m.history k = .empty

/-- What is on its way to the Z80. -/
structure Front (m : Machine Url) : Prop where
  filename : m.port.filename = (m.history m.opens).name
  typing : m.port.collecting = true →
    m.port.wantChunk = false ∧ (m.workerOpen = m.opens → m.worker.opened = false)
  publishing : ∀ k, m.core0 = .publish k → m.slotOpen = m.opens
  posted : m.slotState = .pending ∨ (∃ k, m.core0 = .publish k) →
    m.slot.filename = (m.history m.slotOpen).name ∧
      (m.slotOpen = m.opens → m.port.wantChunk = true)
  reading : m.port.position < m.port.length → m.port.length = m.slot.length + 1 ∧
    (m.history m.opens).taken =
      (m.history m.opens).reads ++ m.slot.bytes.drop (m.port.position - 1)
  answering : Answering m →
    (m.history m.opens).taken = (m.history m.opens).reads ++ m.slot.bytes
  quiet : m.port.length ≤ m.port.position → ¬Answering m →
    (m.history m.opens).taken = (m.history m.opens).reads
  held : m.slotOpen = m.opens → m.slotState = .done → m.port.wantChunk = false →
    m.port.position < m.port.length ∨ (∃ k, m.core0 = .release k) ∨ m.core0 = .free
  spent : (∃ k, m.core0 = .release k) ∨ m.core0 = .free →
    ¬(m.port.wantChunk = true ∧ m.slotOpen = m.opens)
  eofSlot : m.slot.status = httpEof → Answering m → (m.history m.opens).Finished
  eofPort : m.port.status = httpEof → (m.history m.opens).Finished ∧
    m.port.length ≤ m.port.position ∧ m.port.wantChunk = false
  eofFinal : m.port.position < m.port.length → m.port.finalStatus = httpEof →
    (m.history m.opens).Finished

/-- The counter does not come round on an old session. -/
def NoWrap (m : Machine Url) : Prop :=
  m.opens < m.workerOpen + 2 ^ 32 ∧ (m.slotState ≠ .idle → m.opens < m.slotOpen + 2 ^ 32)

theorem start_books : Books web (.start : Machine Url) := by
  refine ⟨rfl, rfl, Nat.zero_le _, rfl, Nat.zero_le _, nofun, nofun, ?_, fun _ => .nil,
    fun _ => List.nil_prefix, fun _ => List.nil_prefix, fun _ _ => ⟨rfl, rfl⟩, fun _ _ => rfl⟩
  exact ⟨.nil, fun _ => ⟨rfl, rfl, ⟨Nat.succ_pos _, Nat.zero_le _, rfl⟩⟩, List.nil_prefix, nofun,
    fun h => absurd rfl h, fun _ => ⟨rfl, rfl⟩, nofun, nofun, nofun⟩

theorem start_front : Front (.start : Machine Url) := by
  have hnot : ¬Answering (.start : Machine Url) := nofun
  refine ⟨rfl, nofun, nofun, ?_, nofun, fun h => absurd h hnot, fun _ _ => rfl, nofun, nofun,
    fun _ h => absurd h hnot, nofun, nofun⟩
  rintro (h | ⟨k, h⟩)
  · cases h
  · cases h

/-- Tags that agree belong to one session, if neither is too old. -/
theorem tag_inj {i j n : Nat} (h : BitVec.ofNat 32 i = BitVec.ofNat 32 j) (hi : i ≤ n) (hj : j ≤ n)
    (hi' : n < i + 2 ^ 32) (hj' : n < j + 2 ^ 32) : i = j := by
  have hmod := congrArg BitVec.toNat h
  rw [BitVec.toNat_ofNat, BitVec.toNat_ofNat] at hmod
  omega

/-! ## Core 0 -/

/-- Core 0 changes its port. -/
theorem Books.port (h : Books web m) (p : Port) (pc : Core0) (b : Bool) (s : SlotState) :
    Books web { m with port := p, core0 := pc, awaiting := b, slotState := s } :=
  ⟨h.session, h.workerSession, h.workerOpen, h.slotSession, h.slotOpen, h.current, h.errorStatus,
    h.receives, h.chain, h.taken, h.reads, h.unseen, h.later⟩

theorem unread_done (h : Owned m) (hread : m.port.position < m.port.length) :
    m.slotState = .done ∧ m.port.wantChunk = false := by
  have h0 := h.core0
  cases hc : m.core0 with
  | idle => rw [hc] at h0; exact h0 hread
  | read _ => rw [hc] at h0; exact h0 hread
  | pump _ => rw [hc] at h0; exact absurd hread (Nat.not_lt.mpr h0)
  | take _ => rw [hc] at h0; exact absurd hread (Nat.not_lt.mpr h0.1)
  | release _ => rw [hc] at h0; exact absurd hread (Nat.not_lt.mpr h0.1)
  | free => rw [hc] at h0; exact absurd hread (Nat.not_lt.mpr h0.1)
  | post _ => rw [hc] at h0; exact absurd hread (Nat.not_lt.mpr h0.1)
  | publish _ => rw [hc] at h0; exact absurd hread (Nat.not_lt.mpr h0.1)

theorem openSession_books (h : Books web m) (collecting : Bool) :
    Books web (openSession collecting m) := by
  refine ⟨?_, h.workerSession, Nat.le_succ_of_le h.workerOpen, h.slotSession,
    Nat.le_succ_of_le h.slotOpen, h.current, h.errorStatus, h.receives, h.chain, h.taken, h.reads,
    h.unseen, fun k hk => h.later k (Nat.lt_of_succ_lt hk)⟩
  show m.session + 1 = BitVec.ofNat 32 (m.opens + 1)
  rw [h.session, BitVec.ofNat_add]
  rfl

theorem openSession_front (hb : Books web m) (h : Front m)
    (collecting : Bool) : Front (openSession collecting m) := by
  have hempty : m.history (m.opens + 1) = .empty := hb.later _ (Nat.lt_succ_self _)
  have hnot : ¬Answering (openSession collecting m) := nofun
  have hslot : m.slotOpen ≠ m.opens + 1 := Nat.ne_of_lt (Nat.lt_succ_of_le hb.slotOpen)
  have hworker : m.workerOpen ≠ m.opens + 1 := Nat.ne_of_lt (Nat.lt_succ_of_le hb.workerOpen)
  refine ⟨?_, fun _ => ⟨rfl, fun hw => absurd hw hworker⟩, nofun, ?_, nofun, fun ha => absurd ha hnot,
    fun _ _ => ?_, fun hn => absurd hn hslot, fun _ hw => absurd hw.2 hslot, fun _ ha => absurd ha hnot, nofun, nofun⟩
  · show [] = (m.history (m.opens + 1)).name
    rw [hempty]
    rfl
  · rintro (hp | ⟨k, hk⟩)
    · exact ⟨(h.posted (Or.inl hp)).1, fun hn => absurd hn hslot⟩
    · cases hk
  · show (m.history (m.opens + 1)).taken = (m.history (m.opens + 1)).reads
    rw [hempty]
    rfl

/-- Core 0 changes its port and nothing of what is on its way. -/
theorem Front.port (h : Front m) {p : Port} {pc : Core0} {b : Bool}
    (hname : p.filename = m.port.filename)
    (hpos : p.position = m.port.position ∧ p.length = m.port.length)
    (hfinal : p.finalStatus = m.port.finalStatus) (hwant : p.wantChunk = m.port.wantChunk)
    (htyping : p.collecting = true → m.port.collecting = true)
    (hstatus : p.status = httpEof → m.port.status = httpEof)
    (hpublish : ∀ k, pc = .publish k → m.core0 = .publish k)
    (hheld : m.slotOpen = m.opens → m.slotState = .done → m.port.wantChunk = false →
      m.port.position < m.port.length ∨ (∃ k, pc = .release k) ∨ pc = .free)
    (hspent : (∃ k, pc = .release k) ∨ pc = .free →
      ¬(m.port.wantChunk = true ∧ m.slotOpen = m.opens)) :
    Front { m with port := p, core0 := pc, awaiting := b } := by
  have hans : Answering { m with port := p, core0 := pc, awaiting := b } ↔ Answering m := by
    unfold Answering
    rw [hwant]
  refine ⟨hname.trans h.filename, fun hc => ?_, fun k hk => h.publishing k (hpublish k hk), ?_,
    fun hr => ?_, fun ha => h.answering (hans.mp ha), fun hr ha => ?_, ?_, ?_,
    fun hs ha => h.eofSlot hs (hans.mp ha), fun hs => ?_, fun hr hf => ?_⟩
  · rw [hwant]
    exact h.typing (htyping hc)
  · rintro (hp | ⟨k, hk⟩)
    · rw [hwant]
      exact h.posted (Or.inl hp)
    · rw [hwant]
      exact h.posted (Or.inr ⟨k, hpublish k hk⟩)
  · rw [hpos.1, hpos.2] at hr ⊢
    exact h.reading hr
  · rw [hpos.1, hpos.2] at hr
    exact h.quiet hr (hans.not.mp ha)
  · rw [hpos.1, hpos.2, hwant]
    exact hheld
  · rw [hwant]
    exact hspent
  · rw [hpos.1, hpos.2, hwant]
    exact h.eofPort (hstatus hs)
  · rw [hpos.1, hpos.2] at hr
    exact h.eofFinal hr (hfinal ▸ hf)

/-- While the name is typed, core 1 has started nothing for it. -/
theorem typing_unconnected (hb : Books web m) (h : Front m) (hc : m.port.collecting = true) :
    (m.history m.opens).connections = [] := by
  by_cases hw : m.workerOpen = m.opens
  · by_contra hsome
    have hopened := (h.typing hc).2 hw
    rw [← hw] at hsome
    rw [hb.receives.opened hsome] at hopened
    cases hopened
  · exact (hb.unseen _ (Nat.lt_of_le_of_ne hb.workerOpen hw)).1

/-- A byte of the name. -/
def typed (data : UInt8) (m : Machine Url) : Machine Url :=
  { m with port := { m.port with filename := m.port.filename ++ [data] } }.note m.opens
    fun s => { s with name := s.name ++ [data] }

/-- Core 0 notes something about the live session, and nothing about its bytes. -/
theorem Books.note (hb : Books web m) {f : Session Url → Session Url}
    (hconn : (f (m.history m.opens)).connections = (m.history m.opens).connections)
    (htaken : (f (m.history m.opens)).taken = (m.history m.opens).taken)
    (hchain : Chain web (f (m.history m.opens)).name (m.history m.opens).connections)
    (hreads : (f (m.history m.opens)).reads <+: (m.history m.opens).taken) :
    Books web (m.note m.opens f) := by
  have hself : (m.note m.opens f).history m.opens = f (m.history m.opens) :=
    Function.update_self ..
  have hother (k : Nat) (hk : k ≠ m.opens) : (m.note m.opens f).history k = m.history k :=
    Function.update_of_ne hk _ _
  have hresponse : (f (m.history m.opens)).response = (m.history m.opens).response := by
    rw [Session.response, Session.response, hconn]
  have hrest {P : Session Url → Prop} (hP : ∀ k, P (m.history k)) (hlive : P (f (m.history m.opens)))
      (k : Nat) : P ((m.note m.opens f).history k) := by
    by_cases hk : k = m.opens
    · rw [hk, hself]
      exact hlive
    · rw [hother k hk]
      exact hP k
  refine ⟨hb.session, hb.workerSession, hb.workerOpen, hb.slotSession, hb.slotOpen, hb.current,
    hb.errorStatus, ?_, hrest (P := fun s => Chain web s.name s.connections) hb.chain ?_,
    hrest (P := fun s => s.taken <+: s.response.2) hb.taken ?_,
    hrest (P := fun s => s.reads <+: s.taken) hb.reads ?_, fun k hk => ?_, fun k hk => ?_⟩
  · show Receives web m.worker ((m.note m.opens f).history m.workerOpen)
    have hr := hb.receives
    by_cases hk : m.workerOpen = m.opens
    · rw [hk] at hr ⊢
      rw [hself]
      refine ⟨by rw [hconn]; exact hchain, ?_, ?_, ?_, ?_, hr.unopened, hr.active, hr.clean, ?_⟩
      · rw [hresponse, htaken]
        exact hr.live
      · rw [hresponse, htaken]
        exact hr.taken
      · rw [hconn]
        exact hr.target
      · rw [hconn]
        exact hr.opened
      · rw [hconn]
        exact hr.rested
    · rw [hother _ hk]
      exact hr
  · rw [hconn]
    exact hchain
  · rw [hresponse, htaken]
    exact hb.taken m.opens
  · rw [htaken]
    exact hreads
  · by_cases hn : k = m.opens
    · rw [hn, hself, hconn, htaken]
      exact hb.unseen m.opens (hn ▸ hk)
    · rw [hother k hn]
      exact hb.unseen k hk
  · rw [hother k (Nat.ne_of_gt hk)]
    exact hb.later k hk

theorem typed_books (hb : Books web m) (h : Front m) (hc : m.port.collecting = true)
    (data : UInt8) : Books web (typed data m) := by
  have hchain : Chain web ((m.history m.opens).name ++ [data]) (m.history m.opens).connections := by
    rw [typing_unconnected hb h hc]
    exact .nil
  have hnote : Books web (m.note m.opens fun s => { s with name := s.name ++ [data] }) :=
    hb.note rfl rfl hchain (hb.reads m.opens)
  exact hnote.port _ _ _ _

theorem typed_front (hidle : m.core0 = .idle) (h : Front m)
    (hc : m.port.collecting = true) (data : UInt8) : Front (typed data m) := by
  have hself : (typed data m).history m.opens =
      { m.history m.opens with name := (m.history m.opens).name ++ [data] } :=
    Function.update_self ..
  have htaken : ((typed data m).history m.opens).taken = (m.history m.opens).taken := by rw [hself]
  have hreads : ((typed data m).history m.opens).reads = (m.history m.opens).reads := by rw [hself]
  have hfin (hf : (m.history m.opens).Finished) : ((typed data m).history m.opens).Finished := by
    rw [hself]
    exact hf
  refine ⟨?_, h.typing, h.publishing, ?_, fun hr => ?_, fun ha => ?_, fun hr ha => ?_, h.held,
    h.spent, fun hs ha => hfin (h.eofSlot hs ha), fun hs => ?_, fun hr hf => hfin (h.eofFinal hr hf)⟩
  · show m.port.filename ++ [data] = ((typed data m).history m.opens).name
    rw [hself, h.filename]
  · rintro (hp | ⟨k, hk⟩)
    · obtain ⟨hname, hwant⟩ := h.posted (Or.inl hp)
      have hne : m.slotOpen ≠ m.opens := by
        intro heq
        have hw := hwant heq
        rw [(h.typing hc).1] at hw
        cases hw
      refine ⟨?_, hwant⟩
      show m.slot.filename = ((typed data m).history m.slotOpen).name
      rw [show (typed data m).history m.slotOpen = m.history m.slotOpen from
        Function.update_of_ne hne _ _]
      exact hname
    · rw [show m.core0 = .publish k from hk] at hidle
      cases hidle
  · obtain ⟨hlen, ht⟩ := h.reading hr
    exact ⟨hlen, by rw [show (typed data m).opens = m.opens from rfl, htaken, hreads]; exact ht⟩
  · rw [show (typed data m).opens = m.opens from rfl, htaken, hreads]
    exact h.answering ha
  · rw [show (typed data m).opens = m.opens from rfl, htaken, hreads]
    exact h.quiet hr ha
  · obtain ⟨hf, hrest⟩ := h.eofPort hs
    exact ⟨hfin hf, hrest⟩

/-- A chunk is requested. -/
theorem request_front (howned : Owned m) (hidle : m.core0 = .idle) (h : Front m)
    (hfree : m.port.wantChunk = false ∧ m.port.length ≤ m.port.position)
    (hname : m.port.collecting = false) :
    Front { m with
      port := { m.port with wantChunk := true, status := httpBusy }
      core0 := .pump .out
      awaiting := true } := by
  have hbefore : ¬Answering m := by
    rintro ⟨hw, -⟩
    rw [hfree.1] at hw
    cases hw
  -- the slot holds nothing of this session
  have hslot (hopen : m.slotOpen = m.opens) : m.slotState = .idle := by
    cases hs : m.slotState with
    | idle => rfl
    | pending =>
      have hw := (h.posted (Or.inl hs)).2 hopen
      rw [hfree.1] at hw
      cases hw
    | done =>
      rcases h.held hopen hs hfree.1 with hlt | ⟨k, hk⟩ | hk
      · exact absurd hlt (Nat.not_lt.mpr hfree.2)
      · rw [hidle] at hk
        cases hk
      · rw [hidle] at hk
        cases hk
  have hafter : ¬Answering { m with
      port := { m.port with wantChunk := true, status := httpBusy }
      core0 := .pump .out
      awaiting := true } := by
    rintro ⟨-, hopen, hd | ⟨current, hf⟩⟩
    · exact absurd ((hslot hopen).symm.trans hd) nofun
    · have hpend := howned.core1
      rw [show m.core1 = .finish current from hf] at hpend
      exact absurd ((hslot hopen).symm.trans hpend) nofun
  refine ⟨h.filename, fun hc => ?_, nofun, ?_, fun hr => absurd hr (Nat.not_lt.mpr hfree.2),
    fun ha => absurd ha hafter, fun hr _ => h.quiet hr hbefore, nofun, ?_,
    fun _ ha => absurd ha hafter, nofun, fun hr => absurd hr (Nat.not_lt.mpr hfree.2)⟩
  · rw [show m.port.collecting = true from hc] at hname
    cases hname
  · rintro (hp | ⟨k, hk⟩)
    · exact ⟨(h.posted (Or.inl hp)).1, fun _ => rfl⟩
    · cases hk
  · rintro (⟨k, hk⟩ | hk)
    · cases hk
    · cases hk

theorem out_front (hb : Books web m) (howned : Owned m) (hidle : m.core0 = .idle) (h : Front m)
    (address data : UInt8) : Books web (out address data m) ∧ Front (out address data m) := by
  -- the status of the port, or the end of the name
  have hport (p : Port) (hname : p.filename = m.port.filename)
      (hpos : p.position = m.port.position ∧ p.length = m.port.length)
      (hfinal : p.finalStatus = m.port.finalStatus) (hwant : p.wantChunk = m.port.wantChunk)
      (htyping : p.collecting = true → m.port.collecting = true)
      (hstatus : p.status = httpEof → m.port.status = httpEof) :
      Books web { m with port := p } ∧ Front { m with port := p } :=
    ⟨hb.port p m.core0 m.awaiting m.slotState, h.port hname hpos hfinal hwant htyping hstatus
      (fun _ hk => hk) h.held h.spent⟩
  have herror : httpError ≠ httpEof := nofun
  unfold out
  split
  · split
    · exact ⟨openSession_books hb _, openSession_front hb h _⟩
    split
    · split
      · exact ⟨hb, h⟩
      next hfree =>
      rw [not_or, Nat.not_lt, Bool.not_eq_true] at hfree
      split
      · exact hport _ rfl ⟨rfl, rfl⟩ rfl rfl id fun hs => absurd hs herror
      next hname =>
      rw [not_or, Bool.not_eq_true] at hname
      split
      · exact ⟨hb, h⟩
      · exact ⟨hb.port _ _ _ _, request_front howned hidle h hfree hname.1⟩
    · exact ⟨hb, h⟩
  split
  · next hdata =>
    split
    · refine hport _ rfl ⟨rfl, rfl⟩ rfl rfl nofun fun hs => ?_
      by_cases hbad : m.port.overflow ∨ m.port.filename = []
      · rw [if_pos hbad] at hs
        exact absurd hs herror
      · rwa [if_neg hbad] at hs
    split
    · exact ⟨typed_books hb h hdata.2 data, typed_front hidle h hdata.2 data⟩
    · exact hport _ rfl ⟨rfl, rfl⟩ rfl rfl id fun hs => absurd hs herror
  · exact ⟨hb, h⟩

theorem inp_front (hb : Books web m) (hidle : m.core0 = .idle) (h : Front m) (address : UInt8) :
    Books web (inp address m) ∧ Front (inp address m) := by
  refine ⟨hb.port _ _ _ _, h.port rfl ⟨rfl, rfl⟩ rfl rfl id id (fun k hk => ?_) ?_ ?_⟩
  · split at hk
    · cases hk
    · cases hk
  · intro ho hs hw
    rcases h.held ho hs hw with hlt | ⟨k, hk⟩ | hk
    · exact Or.inl hlt
    · rw [hidle] at hk
      cases hk
    · rw [hidle] at hk
      cases hk
  · rintro (⟨k, hk⟩ | hk)
    · split at hk
      · cases hk
      · cases hk
    · split at hk
      · cases hk
      · cases hk

/-- The slot is idle, and core 0 posts its request or goes on. -/
theorem idleSlot_front (h : Front m) (hs : m.slotState = .idle)
    (k : After) : Front (m.idleSlot k) := by
  refine h.port rfl ⟨rfl, rfl⟩ rfl rfl id id (fun j hj => ?_)
    (fun _ hd => absurd (hs.symm.trans hd) nofun) ?_
  · split at hj
    · cases hj
    · cases k <;> cases hj
  · rintro (⟨j, hj⟩ | hj)
    · split at hj
      · cases hj
      · cases k <;> cases hj
    · split at hj
      · cases hj
      · cases k <;> cases hj

/-- An idle slot that gives nothing to the live session. -/
theorem release_front (h : Front m)
    (hpc : (∃ k, m.core0 = .release k) ∨ m.core0 = .free)
    (hread : m.port.length ≤ m.port.position) (pc : Core0)
    (hpc' : (∀ k, pc ≠ .publish k) ∧ (∀ k, pc ≠ .release k) ∧ pc ≠ .free) :
    Front { m with slotState := .idle, core0 := pc } := by
  have hspent := h.spent hpc
  have hbefore : ¬Answering m := fun ha => hspent ⟨ha.1, ha.2.1⟩
  have hafter : ¬Answering { m with slotState := .idle, core0 := pc } :=
    fun ha => hspent ⟨ha.1, ha.2.1⟩
  refine ⟨h.filename, h.typing, fun k hk => absurd hk (hpc'.1 k), ?_,
    fun hr => absurd hr (Nat.not_lt.mpr hread), fun ha => absurd ha hafter,
    fun hr _ => h.quiet hr hbefore, nofun, ?_, fun _ ha => absurd ha hafter, h.eofPort, h.eofFinal⟩
  · rintro (hp | ⟨k, hk⟩)
    · cases hp
    · exact absurd hk (hpc'.1 k)
  · rintro (⟨k, hk⟩ | hk)
    · exact absurd hk (hpc'.2.1 k)
    · exact absurd hk hpc'.2.2

theorem next_quiet (k : After) :
    (∀ j, k.next ≠ .publish j) ∧ (∀ j, k.next ≠ .release j) ∧ k.next ≠ .free := by
  cases k with
  | out => exact ⟨nofun, nofun, nofun⟩
  | inp _ => exact ⟨nofun, nofun, nofun⟩

/-- The answer is taken, or the slot belongs to another session. -/
theorem takeSlot_front (hb : Books web m) (h : Front m) (hwrap : NoWrap m)
    (hdone : m.slotState = .done) (k : After) : Front (takeSlot k m) := by
  unfold takeSlot
  split
  · next hmine =>
    have hopen : m.slotOpen = m.opens := by
      have htag := hmine.1
      rw [hb.slotSession, hb.session] at htag
      have hlt := hwrap.2 (by rw [hdone]; intro h; cases h)
      exact tag_inj htag hb.slotOpen (Nat.le_refl _) hlt (Nat.lt_add_of_pos_right (by decide))
    have hans : Answering m := ⟨hmine.2, hopen, Or.inl hdone⟩
    have htaken := h.answering hans
    have htyping : m.port.collecting = true → False := by
      intro hcol
      have hw := hmine.2
      rw [(h.typing hcol).1] at hw
      cases hw
    have hposted {pc : Core0} (hpc : ∀ j, pc ≠ .publish j) :
        ¬(m.slotState = .pending ∨ ∃ j, pc = .publish j) := by
      rintro (hp | ⟨j, hj⟩)
      · exact absurd (hdone.symm.trans hp) (by intro h; cases h)
      · exact hpc j hj
    have hidle (p : Port) (pc : Core0) (hp : p.wantChunk = false) :
        ¬Answering { m with port := p, core0 := pc } := by
      rintro ⟨hw, -⟩
      rw [show p.wantChunk = true from hw] at hp
      cases hp
    by_cases hl : m.slot.length = 0
    · have hbytes : m.slot.bytes = [] := by rw [Slot.bytes, hl]; rfl
      rw [hbytes, List.append_nil] at htaken
      simp only [hl, ne_eq, not_true_eq_false, if_false]
      exact ⟨h.filename, fun hcol => (htyping hcol).elim, (by intro _ h; cases h),
        fun hp => absurd hp (hposted (by intro _ h; cases h)), fun hr => absurd hr (Nat.not_lt.mpr (Nat.le_refl 0)),
        fun ha => absurd ha (hidle _ _ rfl), fun _ _ => htaken,
        fun _ _ _ => Or.inr (Or.inl ⟨k, rfl⟩), fun _ hw => absurd hw.1 (by intro h; cases h),
        fun _ ha => absurd ha (hidle _ _ rfl),
        fun hs => ⟨h.eofSlot hs hans, Nat.le_refl 0, rfl⟩,
        fun hr => absurd hr (Nat.not_lt.mpr (Nat.le_refl 0))⟩
    · obtain ⟨hpublish, hrelease, hfree⟩ := next_quiet k
      simp only [hl, ne_eq, not_false_eq_true, if_true]
      exact ⟨h.filename, fun hcol => (htyping hcol).elim, fun j hj => absurd hj (hpublish j),
        fun hp => absurd hp (hposted hpublish), fun _ => ⟨rfl, htaken⟩,
        fun ha => absurd ha (hidle _ _ rfl), fun hr => absurd hr (Nat.not_succ_le_zero _),
        fun _ _ _ => Or.inl (Nat.succ_pos _), fun _ hw => absurd hw.1 (by intro h; cases h),
        fun _ ha => absurd ha (hidle _ _ rfl), (by intro h; cases h), fun _ hs => h.eofSlot hs hans⟩
  · next hnot =>
    refine h.port rfl ⟨rfl, rfl⟩ rfl rfl id id (by intro _ h; cases h) (fun _ _ _ => Or.inr (Or.inl ⟨k, rfl⟩)) ?_
    rintro (⟨j, -⟩ | hj)
    · rintro ⟨hw, hopen⟩
      exact hnot ⟨by rw [hb.slotSession, hb.session, hopen], hw⟩
    · cases hj

/-- The byte that is read is the next one of the chunk. -/
theorem chunkByte_next {s : Slot} {n : Nat} (hpos : n ≠ 0) (hlt : n < s.length + 1) :
    s.bytes.drop (n - 1) = s.data (n - 1) :: s.bytes.drop n := by
  obtain ⟨i, rfl⟩ : ∃ i, n = i + 1 := Nat.exists_eq_succ_of_ne_zero hpos
  have hi : i < s.bytes.length := by
    simp only [Slot.bytes, List.length_map, List.length_range]
    exact Nat.lt_of_succ_lt_succ hlt
  rw [Nat.add_sub_cancel, List.drop_eq_getElem_cons hi]
  simp [Slot.bytes]

/-- What the Z80 has read after one more byte, which counts the chunk or belongs to it. -/
def readsAfter (m : Machine Url) : List UInt8 :=
  if m.port.position ≠ 0 then (m.history m.opens).reads ++ [chunkByte m] else (m.history m.opens).reads

theorem readsAfter_spec (h : Front m) (hread : m.port.position < m.port.length) :
    (m.history m.opens).taken = readsAfter m ++ m.slot.bytes.drop m.port.position := by
  obtain ⟨hlen, htaken⟩ := h.reading hread
  unfold readsAfter
  by_cases hpos : m.port.position = 0
  · rw [if_neg (not_not_intro hpos), htaken, hpos]
  · rw [hlen] at hread
    rw [if_pos hpos, htaken, chunkByte_next hpos hread, chunkByte, if_pos hpos, List.append_assoc]
    rfl

theorem readByte_books (hb : Books web m) (h : Front m) (hread : m.port.position < m.port.length) :
    Books web (readByte m) := by
  have hnote : Books web (m.note m.opens fun s =>
      { s with reads := if m.port.position ≠ 0 then s.reads ++ [chunkByte m] else s.reads }) :=
    hb.note rfl rfl (hb.chain m.opens) ⟨_, (readsAfter_spec h hread).symm⟩
  exact hnote.port _ _ _ _

theorem readByte_front (howned : Owned m) (h : Front m)
    (hread : m.port.position < m.port.length) : Front (readByte m) := by
  obtain ⟨hdone, hwant⟩ := unread_done howned hread
  obtain ⟨hlen, -⟩ := h.reading hread
  have hnext := readsAfter_spec h hread
  have hself : (readByte m).history m.opens =
      { m.history m.opens with reads := readsAfter m } := Function.update_self ..
  have hnot : ¬Answering (readByte m) := by
    rintro ⟨hw, -⟩
    rw [show m.port.wantChunk = true from hw] at hwant
    cases hwant
  have hfin (hf : (m.history m.opens).Finished) : ((readByte m).history m.opens).Finished := by
    rw [hself]
    exact hf
  have hpc : (readByte m).core0 = if m.port.position + 1 = m.port.length then .free else .idle := rfl
  have hstatus : (readByte m).port.status = if m.port.position + 1 = m.port.length then
      m.port.finalStatus else m.port.status := rfl
  refine ⟨?_, h.typing, fun k hk => ?_, ?_, fun hr => ⟨hlen, ?_⟩, fun ha => absurd ha hnot,
    fun hr _ => ?_, fun _ _ _ => ?_, fun _ hw => ?_, fun _ ha => absurd ha hnot, fun hs => ?_,
    fun _ hf => hfin (h.eofFinal hread hf)⟩
  · show m.port.filename = ((readByte m).history m.opens).name
    rw [hself]
    exact h.filename
  · rw [hpc] at hk
    split at hk
    · cases hk
    · cases hk
  · rintro (hp | ⟨k, hk⟩)
    · exact absurd (hdone.symm.trans hp) nofun
    · rw [hpc] at hk
      split at hk
      · cases hk
      · cases hk
  · show ((readByte m).history m.opens).taken = ((readByte m).history m.opens).reads ++ _
    rw [hself]
    exact hnext
  · -- the whole chunk has been read
    have hend : m.port.length ≤ m.port.position + 1 := hr
    show ((readByte m).history m.opens).taken = ((readByte m).history m.opens).reads
    rw [hself]
    have hdrop : m.slot.bytes.drop m.port.position = [] := by
      refine List.drop_eq_nil_iff.mpr ?_
      simp only [Slot.bytes, List.length_map, List.length_range]
      omega
    rw [hdrop, List.append_nil] at hnext
    exact hnext
  · by_cases hlast : m.port.position + 1 = m.port.length
    · exact Or.inr (Or.inr (by rw [hpc, if_pos hlast]))
    · exact Or.inl (show m.port.position + 1 < m.port.length by omega)
  · rw [show m.port.wantChunk = true from hw.1] at hwant
    cases hwant
  · rw [hstatus] at hs
    split at hs
    · next hlast => exact ⟨hfin (h.eofFinal hread hs), Nat.le_of_eq hlast.symm, hwant⟩
    · exact absurd hread (Nat.not_lt.mpr (h.eofPort hs).2.1)

theorem post_books (hb : Books web m) (k : After) :
    Books web
      { m with
        slot := { m.slot with session := m.session, filename := m.port.filename }
        slotOpen := m.opens
        core0 := .publish k } :=
  ⟨hb.session, hb.workerSession, hb.workerOpen, hb.session, Nat.le_refl _, hb.current,
    hb.errorStatus, hb.receives, hb.chain, hb.taken, hb.reads, hb.unseen, hb.later⟩

/-- With the slot idle, core 1 has no answer for it. -/
theorem idle_unfinished (howned : Owned m) (hs : m.slotState = .idle) (current : BitVec 32) :
    m.core1 ≠ .finish current := by
  intro hf
  have hpend := howned.core1
  rw [hf] at hpend
  exact absurd (hs.symm.trans hpend) nofun

theorem post_front (howned : Owned m) (h : Front m) {k : After}
    (h0 : m.port.length ≤ m.port.position ∧ m.slotState = .idle ∧ m.port.wantChunk = true) :
    Front
      { m with
        slot := { m.slot with session := m.session, filename := m.port.filename }
        slotOpen := m.opens
        core0 := .publish k } := by
  have hno {s : SlotState} {c : Core1} (hs : s = .idle) (hc : ∀ current, c ≠ .finish current) :
      ¬(s = .done ∨ ∃ current, c = .finish current) := by
    rintro (hd | ⟨current, hf⟩)
    · exact absurd (hs.symm.trans hd) nofun
    · exact hc current hf
  have hidle := hno h0.2.1 (idle_unfinished howned h0.2.1)
  have hbefore : ¬Answering m := fun ha => hidle ha.2.2
  refine ⟨h.filename, h.typing, fun _ _ => rfl, fun _ => ⟨h.filename, fun _ => h0.2.2⟩,
    fun hr => absurd hr (Nat.not_lt.mpr h0.1), fun ha => absurd ha.2.2 hidle,
    fun hr _ => h.quiet hr hbefore, fun _ hd => absurd (h0.2.1.symm.trans hd) nofun, ?_,
    fun _ ha => absurd ha.2.2 hidle, h.eofPort, h.eofFinal⟩
  rintro (⟨j, hj⟩ | hj)
  · cases hj
  · cases hj

theorem publish_front (howned : Owned m) (h : Front m) {k : After} (hc : m.core0 = .publish k)
    (h0 : m.port.length ≤ m.port.position ∧ m.slotState = .idle ∧ m.port.wantChunk = true) :
    Front { m with slotState := .pending, core0 := k.next } := by
  obtain ⟨hpublish, hrelease, hfree⟩ := next_quiet k
  have hunfinished := idle_unfinished howned h0.2.1
  have hbefore : ¬Answering m := by
    rintro ⟨-, -, hd | ⟨current, hf⟩⟩
    · exact absurd (h0.2.1.symm.trans hd) nofun
    · exact hunfinished current hf
  have hafter : ¬Answering { m with slotState := .pending, core0 := k.next } := by
    rintro ⟨-, -, hd | ⟨current, hf⟩⟩
    · cases hd
    · exact hunfinished current hf
  refine ⟨h.filename, h.typing, fun j hj => absurd hj (hpublish j),
    fun _ => h.posted (Or.inr ⟨k, hc⟩), fun hr => absurd hr (Nat.not_lt.mpr h0.1),
    fun ha => absurd ha hafter, fun hr _ => h.quiet hr hbefore, nofun, ?_,
    fun _ ha => absurd ha hafter, h.eofPort, h.eofFinal⟩
  rintro (⟨j, hj⟩ | hj)
  · exact absurd hj (hrelease j)
  · exact absurd hj hfree

theorem core0_front (hb : Books web m) (howned : Owned m) (h : Front m) (hwrap : NoWrap m)
    (ht : Core0Moves m t) : Books web t ∧ Front t := by
  have h0 := howned.core0
  cases ht with
  | idle hc => exact ⟨hb, h⟩
  | found k hc hs =>
    rw [hc] at h0
    refine ⟨hb.port _ _ _ _, h.port rfl ⟨rfl, rfl⟩ rfl rfl id id nofun (fun ho _ hw => ?_) ?_⟩
    · rcases h.held ho hs hw with hlt | ⟨j, hj⟩ | hj
      · exact absurd hlt (Nat.not_lt.mpr h0)
      · rw [hc] at hj
        cases hj
      · rw [hc] at hj
        cases hj
    · rintro (⟨j, hj⟩ | hj)
      · cases hj
      · cases hj
  | empty k hc hs =>
    rw [hc] at h0
    exact ⟨hb.port _ _ _ _, idleSlot_front h hs k⟩
  | wait k hc hs =>
    obtain ⟨hpublish, hrelease, hfree⟩ := next_quiet k
    refine ⟨hb.port _ _ _ _, h.port rfl ⟨rfl, rfl⟩ rfl rfl id id (fun j hj => absurd hj (hpublish j))
      (fun _ hd => absurd (hs.symm.trans hd) nofun) ?_⟩
    rintro (⟨j, hj⟩ | hj)
    · exact absurd hj (hrelease j)
    · exact absurd hj hfree
  | take k hc =>
    rw [hc] at h0
    refine ⟨?_, takeSlot_front hb h hwrap h0.2 k⟩
    unfold takeSlot
    split
    · exact hb.port _ _ _ _
    · exact hb.port _ _ _ _
  | release k hc =>
    rw [hc] at h0
    have hidle := release_front h (Or.inl ⟨k, hc⟩) h0.1 .idle ⟨nofun, nofun, nofun⟩
    exact ⟨hb.port _ _ _ _, idleSlot_front hidle rfl k⟩
  | post k hc =>
    rw [hc] at h0
    exact ⟨post_books hb k, post_front howned h h0⟩
  | publish k hc =>
    rw [hc] at h0
    exact ⟨hb.port _ _ _ _, publish_front howned h hc h0⟩
  | read address hc =>
    have hstay (p : Port) (b : Bool) (hp : p = m.port) :
        Books web { m with port := p, core0 := .idle, awaiting := b } ∧
          Front { m with port := p, core0 := .idle, awaiting := b } := by
      subst hp
      refine ⟨hb.port _ _ _ _, h.port rfl ⟨rfl, rfl⟩ rfl rfl id id nofun (fun ho hs hw => ?_) nofun⟩
      rcases h.held ho hs hw with hlt | ⟨j, hj⟩ | hj
      · exact Or.inl hlt
      · rw [hc] at hj
        cases hj
      · rw [hc] at hj
        cases hj
    unfold readPort
    split
    · exact hstay _ _ rfl
    split
    · exact hstay _ _ rfl
    · next hread =>
      rw [not_or, Nat.not_le] at hread
      exact ⟨readByte_books hb h hread.2, readByte_front howned h hread.2⟩
  | free hc =>
    rw [hc] at h0
    exact ⟨hb.port _ _ _ _, release_front h (Or.inr hc) h0.1 .idle ⟨nofun, nofun, nofun⟩⟩

/-! ## Core 1 -/

theorem Books.works {bytes : List UInt8} (hb : Books web m) (hsame : Core1Only m t)
    (hw : Works web bytes m t) (hs : Completion.SessionSame m t)
    (hcurrent : ∀ current ∈ Core1.current t.core1, current = m.worker.workerSession) :
    Books web t := by
  have hopen := hw.workerOpen
  refine ⟨?_, ?_, ?_, ?_, ?_, ?_, ?_, ?_, fun k => ?_, fun k => ?_, fun k => ?_, fun k hk => ?_,
    fun k hk => ?_⟩
  · rw [hsame.session, hsame.opens]
    exact hb.session
  · rw [hs.workerSession, hopen]
    exact hb.workerSession
  · rw [hopen, hsame.opens]
    exact hb.workerOpen
  · rw [hsame.slotSession, hsame.slotOpen]
    exact hb.slotSession
  · rw [hsame.slotOpen, hsame.opens]
    exact hb.slotOpen
  · rw [hs.workerSession]
    exact hcurrent
  · rcases hs.errorStatus with he | he
    · rw [he]
      exact hb.errorStatus
    · rw [he]
      nofun
  · rw [hopen]
    exact hw.receives
  · by_cases hk : k = m.workerOpen
    · rw [hk]
      exact hw.receives.chain
    · rw [hw.others k hk]
      exact hb.chain k
  · by_cases hk : k = m.workerOpen
    · rw [hk]
      exact hw.receives.taken
    · rw [hw.others k hk]
      exact hb.taken k
  · have hkept := hw.session k
    rw [hkept.reads, hkept.taken]
    exact (hb.reads k).trans (List.prefix_append _ _)
  · rw [hopen] at hk
    rw [hw.others k (Nat.ne_of_gt hk)]
    exact hb.unseen k hk
  · rw [hsame.opens] at hk
    rw [hw.others k (Nat.ne_of_gt (Nat.lt_of_le_of_lt hb.workerOpen hk))]
    exact hb.later k hk

/-- Core 1 leaves the slot as it is, or gives it back. -/
theorem Front.works (h : Front m) (hsame : Core1Only m t) (hslot : t.slot = m.slot)
    (hkept : ∀ k, Kept [] (m.history k) (t.history k)) (hans : Answering t ↔ Answering m)
    (hpending : t.slotState = .pending → m.slotState = .pending)
    (hdone : m.slotOpen = m.opens → t.slotState = .done → m.port.wantChunk = false →
      m.slotState = .done)
    (htyping : m.port.collecting = true → t.workerOpen = m.opens → t.worker.opened = false) :
    Front t := by
  obtain ⟨hport, hsession, hcore0, hawaiting, hopens, hslotOpen, -, -⟩ := hsame
  have htaken (k : Nat) : (t.history k).taken = (m.history k).taken := by
    rw [(hkept k).taken, List.append_nil]
  have hfin := (hkept m.opens).finished
  refine ⟨?_, ?_, ?_, ?_, ?_, ?_, ?_, ?_, ?_, ?_, ?_, ?_⟩
  · rw [hport, hopens, (hkept m.opens).name]
    exact h.filename
  · rw [hport, hopens]
    exact fun hc => ⟨(h.typing hc).1, htyping hc⟩
  · rw [hcore0, hslotOpen, hopens]
    exact h.publishing
  · rw [hcore0, hslotOpen, hopens, hport, hslot, (hkept m.slotOpen).name]
    rintro (hp | hk)
    · exact h.posted (Or.inl (hpending hp))
    · exact h.posted (Or.inr hk)
  · rw [hport, hopens, hslot, htaken, (hkept m.opens).reads]
    exact h.reading
  · rw [hopens, hslot, htaken, (hkept m.opens).reads, hans]
    exact h.answering
  · rw [hport, hopens, htaken, (hkept m.opens).reads, hans]
    exact h.quiet
  · rw [hport, hopens, hslotOpen, hcore0]
    exact fun ho hd hw => h.held ho (hdone ho hd hw) hw
  · rw [hport, hopens, hslotOpen, hcore0]
    exact h.spent
  · rw [hslot, hans, hopens]
    exact fun hs ha => hfin (h.eofSlot hs ha)
  · rw [hport, hopens]
    intro hs
    obtain ⟨hf, hrest⟩ := h.eofPort hs
    exact ⟨hfin hf, hrest⟩
  · rw [hport, hopens]
    exact fun hr hs => hfin (h.eofFinal hr hs)

/-- Core 1 between two calls of its service, or at the start of one. -/
theorem outside_front (hb : Books web m) (h : Front m) (hc : m.core1 = .outside)
    (hsame : SlotSame m { t with core1 := m.core1 }) (hw : Works web [] m t)
    (hs : Completion.SessionSame m t)
    (hcurrent : ∀ current ∈ Core1.current t.core1, current = m.worker.workerSession)
    (hfinish : ∀ current, t.core1 ≠ .finish current)
    (hopened : t.worker.opened = m.worker.opened) : Books web t ∧ Front t := by
  have honly : Core1Only m t := ⟨hsame.port, hsame.session, hsame.core0, hsame.awaiting,
    hsame.opens, hsame.slotOpen, hsame.slotSession, hsame.filename⟩
  have hstate : t.slotState = m.slotState := hsame.slotState
  have hans : Answering t ↔ Answering m := by
    unfold Answering
    rw [honly.port, honly.slotOpen, honly.opens, hstate, hc]
    have hleft : ¬∃ current, t.core1 = .finish current := fun ⟨current, hf⟩ => hfinish current hf
    have hright : ¬∃ current, Core1.outside = .finish current := fun ⟨current, hf⟩ => nomatch hf
    rw [iff_false_intro hleft, iff_false_intro hright]
  refine ⟨hb.works honly hw hs hcurrent, h.works honly hsame.slot (fun k => hw.untaken k) hans
    (fun hp => hstate ▸ hp) (fun _ hd _ => hstate ▸ hd) fun hcol ho => ?_⟩
  rw [hopened]
  exact (h.typing hcol).2 (by rw [← ho, hw.workerOpen])

/-- When its service starts, core 1 works for the live session. -/
theorem newSession_books (hb : Books web m) (hwrap : NoWrap m) (hc : m.core1 = .outside) :
    Books web (newSession m) ∧ (newSession m).workerOpen = m.opens ∧
      (newSession m).worker.workerSession = m.session := by
  by_cases hne : m.session = m.worker.workerSession
  · have hopen : m.workerOpen = m.opens := by
      have htag := hne.symm
      rw [hb.session, hb.workerSession] at htag
      exact tag_inj htag hb.workerOpen (Nat.le_refl _) hwrap.1 (Nat.lt_add_of_pos_right (by decide))
    rw [newSession, if_neg (not_not_intro hne)]
    exact ⟨hb, hopen, hne.symm⟩
  · have hlt : m.workerOpen < m.opens := by
      refine Nat.lt_of_le_of_ne hb.workerOpen fun heq => hne ?_
      rw [hb.session, hb.workerSession, heq]
    obtain ⟨hconn, htaken⟩ := hb.unseen _ hlt
    rw [newSession, if_pos hne]
    refine ⟨⟨hb.session, hb.session, Nat.le_refl _, hb.slotSession, hb.slotOpen, ?_, nofun,
      receives_new _ _ hconn htaken, hb.chain, hb.taken, hb.reads, ?_, hb.later⟩, rfl, rfl⟩
    · rw [show Core1.current m.core1 = none by rw [hc]; rfl]
      nofun
    · intro k hk
      rw [show m.history k = .empty from hb.later k hk]
      exact ⟨rfl, rfl⟩

theorem newSession_front (h : Front m) : Front (newSession m) := by
  unfold newSession
  split
  · next hne =>
    exact ⟨h.filename, fun hcol => ⟨(h.typing hcol).1, fun _ => rfl⟩, h.publishing, h.posted,
      h.reading, h.answering, h.quiet, h.held, h.spent, h.eofSlot, h.eofPort, h.eofFinal⟩
  · exact h

theorem enter_opened (startOk : Bool) (m : Machine Url) :
    (enter web startOk m).worker.opened = (newSession m).worker.opened := by
  have hnet (w : Worker Url) : (checkNetwork w).opened = w.opened := by
    unfold checkNetwork
    split
    · rfl
    · rfl
  have hcancel (w : Worker Url) : (cancelFailed w).opened = w.opened := by
    unfold cancelFailed
    split
    · rfl
    · rfl
  have hfinish (m : Machine Url) : (finishResponse web startOk m).worker.opened = m.worker.opened := by
    unfold finishResponse
    split
    · extract_lets t u
      split
      · split
        · rfl
        · cases startOk with
          | true => rfl
          | false => rfl
      · rfl
    · rfl
  show (cancelFailed _).opened = _
  rw [hcancel, hfinish]
  exact hnet _

theorem enter_front (hb : Books web m) (h : Front m) (hwrap : NoWrap m) (hc : m.core1 = .outside)
    (startOk : Bool) : Books web (enter web startOk m) ∧ Front (enter web startOk m) := by
  obtain ⟨hb', hopen, hsession⟩ := newSession_books hb hwrap hc
  have hout : (newSession m).core1 = .outside := (newSession_same m).core1.trans hc
  have hsame : SlotSame (newSession m) { enter web startOk m with core1 := (newSession m).core1 } := by
    have hnet := slotSame_worker (newSession m) (checkNetwork (newSession m).worker)
      (newSession m).workerOpen (newSession m).history
    have hfin := hnet.trans (finishResponse_same web startOk _)
    exact ⟨⟨hfin.port, hfin.session, hfin.core0, hfin.awaiting, hfin.opens, hfin.slotOpen,
      hfin.slotSession, hfin.filename⟩, hfin.slotState, hfin.slot, rfl⟩
  refine outside_front hb' (newSession_front h) hout hsame (enter_works hb'.receives startOk)
    (Completion.enter_session web startOk m) ?_ nofun (enter_opened startOk m)
  intro current hcur
  cases hcur
  exact hsession.symm

theorem serve_front (hb : Books web m) (howned : Owned m) (h : Front m) (hwrap : NoWrap m)
    {current : BitVec 32} (hc : m.core1 = .serve current) (env : Env) (startOk : Bool) :
    Books web (serve web env startOk current m) ∧ Front (serve web env startOk current m) := by
  have hpending : m.slotState = .pending := by
    have h1 := howned.core1
    rwa [hc] at h1
  have hcurrent : current = m.worker.workerSession := hb.current current (by rw [hc]; rfl)
  have hread : m.port.length ≤ m.port.position := by
    by_contra hlt
    have hdone := (unread_done howned (Nat.not_le.mp hlt)).1
    exact absurd (hpending.symm.trans hdone) nofun
  obtain ⟨hname, hwant⟩ := h.posted (Or.inl hpending)
  have hmine (htag : m.slot.session = current) : m.slotOpen = m.workerOpen := by
    rw [hcurrent, hb.slotSession, hb.workerSession] at htag
    exact tag_inj htag hb.slotOpen hb.workerOpen (hwrap.2 (by rw [hpending]; nofun)) hwrap.1
  have hbefore : ¬Answering m := by
    rintro ⟨-, -, hd | ⟨c, hf⟩⟩
    · exact absurd (hpending.symm.trans hd) nofun
    · rw [hc] at hf
      cases hf
  obtain ⟨honly, hstate, -⟩ := serve_same web env startOk current m
  have hsession := Completion.serve_session web env startOk current m
  -- while the name is typed the slot is for another session
  have htyping (hcol : m.port.collecting = true)
      (ho : (serve web env startOk current m).workerOpen = m.opens) :
      (serve web env startOk current m).worker.opened = false := by
    rw [hsession.workerOpen] at ho
    by_cases htag : m.slot.session = current
    · have hw := hwant ((hmine htag).trans ho)
      rw [(h.typing hcol).1] at hw
      cases hw
    · rw [serve, if_pos htag]
      exact (h.typing hcol).2 ho
  rcases serve_works hb.receives env startOk current (fun htag => by rw [hname, hmine htag])
    hb.errorStatus with ⟨hpc, hslot, hw⟩ | ⟨hpc, hw, hstale, heof⟩
  · have hans : Answering (serve web env startOk current m) ↔ Answering m := by
      refine iff_of_false ?_ hbefore
      rintro ⟨-, -, hd | ⟨c, hf⟩⟩
      · rw [hstate] at hd
        exact absurd (hpending.symm.trans hd) nofun
      · rw [hpc] at hf
        cases hf
    refine ⟨hb.works honly hw hsession ?_, h.works honly hslot (fun k => hw.untaken k) hans
      (fun _ => hpending) (fun _ hd _ => hstate ▸ hd) htyping⟩
    rw [hpc]
    nofun
  · refine ⟨hb.works honly hw hsession ?_, ?_⟩
    · rw [hpc]
      intro c hcur
      cases hcur
      exact hcurrent
    generalize hserve : serve web env startOk current m = t at *
    obtain ⟨hport, -, hcore0, -, hopens, hslotOpen, -, hfilename⟩ := honly
    have hlive := hw.session m.opens
    have htaken := hlive.taken
    rw [h.quiet hread hbefore, ← hlive.reads] at htaken
    have hans (ha : Answering t) : m.slotOpen = m.opens := by
      rw [← hslotOpen, ← hopens]
      exact ha.2.1
    have hbytes (hopen : m.slotOpen = m.opens) :
        (if m.opens = m.workerOpen then t.slot.bytes else []) = t.slot.bytes := by
      by_cases htag : m.slot.session = current
      · rw [if_pos (hopen.symm.trans (hmine htag))]
      · rw [hstale htag, ite_self]
    refine ⟨?_, ?_, ?_, ?_, ?_, ?_, ?_, ?_, ?_, ?_, ?_, ?_⟩
    · rw [hport, hopens, hlive.name]
      exact h.filename
    · rw [hport, hopens]
      exact fun hcol => ⟨(h.typing hcol).1, htyping hcol⟩
    · rw [hcore0, hslotOpen, hopens]
      exact h.publishing
    · rw [hport, hslotOpen, hopens, hfilename, (hw.session m.slotOpen).name]
      exact fun _ => ⟨hname, hwant⟩
    · rw [hport]
      exact fun hr => absurd hr (Nat.not_lt.mpr hread)
    · intro ha
      rw [hopens, htaken, hbytes (hans ha)]
    · intro _ ha
      rw [hopens, htaken]
      have hnone : (if m.opens = m.workerOpen then t.slot.bytes else []) = [] := by
        by_cases hw' : m.opens = m.workerOpen
        · rw [if_pos hw']
          by_cases htag : m.slot.session = current
          · -- it would be answered
            have hopen := (hmine htag).trans hw'.symm
            refine absurd ⟨?_, ?_, Or.inr ⟨current, hpc⟩⟩ ha
            · rw [hport]
              exact hwant hopen
            · rw [hslotOpen, hopens]
              exact hopen
          · exact hstale htag
        · rw [if_neg hw']
      rw [hnone, List.append_nil]
    · rw [hstate]
      exact fun _ hd => absurd (hpending.symm.trans hd) nofun
    · rw [hcore0, hport, hslotOpen, hopens]
      exact h.spent
    · intro hs ha
      obtain ⟨htag, hfin⟩ := heof hs
      rw [hopens, ← hans ha, hmine htag]
      exact hfin
    · rw [hport, hopens]
      intro hs
      obtain ⟨hf, hrest⟩ := h.eofPort hs
      exact ⟨hlive.finished hf, hrest⟩
    · rw [hport, hopens]
      exact fun hr hs => hlive.finished (h.eofFinal hr hs)

theorem finish_front (hb : Books web m) (howned : Owned m) (h : Front m) {current : BitVec 32}
    (hc : m.core1 = .finish current) :
    Books web { m with slotState := .done, core1 := .outside } ∧
      Front { m with slotState := .done, core1 := .outside } := by
  have hpending : m.slotState = .pending := by
    have h1 := howned.core1
    rwa [hc] at h1
  have hworks : Works web [] m { m with slotState := .done, core1 := .outside } :=
    ⟨rfl, fun _ _ => rfl, hb.receives, .refl _⟩
  have honly : Core1Only m { m with slotState := .done, core1 := .outside } :=
    ⟨rfl, rfl, rfl, rfl, rfl, rfl, rfl, rfl⟩
  have hans : Answering { m with slotState := .done, core1 := .outside } ↔ Answering m :=
    ⟨fun ha => ⟨ha.1, ha.2.1, Or.inr ⟨current, hc⟩⟩, fun ha => ⟨ha.1, ha.2.1, Or.inl rfl⟩⟩
  refine ⟨hb.works honly hworks ⟨rfl, rfl, Or.inl rfl⟩ nofun, h.works honly rfl
    (fun k => hworks.untaken k) hans nofun (fun ho _ hw => ?_) fun hcol => (h.typing hcol).2⟩
  rw [(h.posted (Or.inl hpending)).2 ho] at hw
  cases hw

/-- Core 1 moves on between two accesses. -/
theorem check_front (hb : Books web m) (h : Front m) {current : BitVec 32}
    (hc : m.core1 = .check current) (pc : Core1)
    (hpc : pc = .serve current ∨ pc = .outside) :
    Books web { m with core1 := pc } ∧ Front { m with core1 := pc } := by
  have hworks : Works web [] m { m with core1 := pc } :=
    ⟨rfl, fun _ _ => rfl, hb.receives, .refl _⟩
  have honly : Core1Only m { m with core1 := pc } := ⟨rfl, rfl, rfl, rfl, rfl, rfl, rfl, rfl⟩
  have hcurrent : current = m.worker.workerSession := hb.current current (by rw [hc]; rfl)
  have hans : Answering { m with core1 := pc } ↔ Answering m := by
    have hleft : ¬∃ c, pc = .finish c := by
      rintro ⟨c, hf⟩
      rcases hpc with hpc | hpc
      · rw [hpc] at hf
        cases hf
      · rw [hpc] at hf
        cases hf
    have hright : ¬∃ c, m.core1 = .finish c := by
      rintro ⟨c, hf⟩
      rw [hc] at hf
      cases hf
    unfold Answering
    rw [iff_false_intro hright]
    show _ ∧ _ ∧ (_ ∨ ∃ c, pc = .finish c) ↔ _
    rw [iff_false_intro hleft]
  refine ⟨hb.works honly hworks ⟨rfl, rfl, Or.inl rfl⟩ ?_, h.works honly rfl
    (fun k => hworks.untaken k) hans id (fun _ hd _ => hd) fun hcol => (h.typing hcol).2⟩
  rcases hpc with rfl | rfl
  · intro c hcur
    cases hcur
    exact hcurrent
  · nofun

theorem core1_front {env : Env} {startOk : Bool} (hb : Books web m) (howned : Owned m) (h : Front m)
    (hwrap : NoWrap m) (ht : Core1Moves web env startOk m t) : Books web t ∧ Front t := by
  cases ht with
  | enter hc => exact enter_front hb h hwrap hc startOk
  | found current hc hs => exact check_front hb h hc _ (Or.inl rfl)
  | pass current hc => exact check_front hb h hc _ (Or.inr rfl)
  | serve current hc => exact serve_front hb howned h hwrap hc env startOk
  | finish current hc => exact finish_front hb howned h hc

/-! ## Runs -/

/-- What holds in every state that is reached. -/
structure Inv (web : Web Url Env) (m : Machine Url) : Prop extends Owned m where
  books : Books web m
  front : Front m

theorem start_inv : Inv web (.start : Machine Url) := ⟨start_owned, start_books, start_front⟩

/-- A network event. -/
theorem Inv.event (h : Inv web m) (hc : m.core1 = .outside) (hsame : SlotSame m t)
    (hw : Works web [] m t) (hs : Completion.SessionSame m t)
    (hopened : t.worker.opened = m.worker.opened) : Books web t ∧ Front t := by
  have hpc : t.core1 = .outside := hsame.core1.trans hc
  refine outside_front h.books h.front hc ?_ hw hs (by rw [hpc]; nofun) (by rw [hpc]; nofun) hopened
  exact ⟨⟨hsame.port, hsame.session, hsame.core0, hsame.awaiting, hsame.opens, hsame.slotOpen,
    hsame.slotSession, hsame.filename⟩, hsame.slotState, hsame.slot, rfl⟩

theorem Inv.step (h : Inv web m) (hwrap : NoWrap m) (a : Action Env) :
    Inv web (Http.step web m a) := by
  have hstay : Books web m ∧ Front m := ⟨h.books, h.front⟩
  have hite {c : Prop} [Decidable c] {t : Machine Url} (ht : c → Books web t ∧ Front t) :
      Books web (if c then t else m) ∧ Front (if c then t else m) := by
    split
    · next hc => exact ht hc
    · exact hstay
  have hreceives := h.books.receives
  suffices hnext : Books web (Http.step web m a) ∧ Front (Http.step web m a) from
    ⟨h.toOwned.step web a, hnext.1, hnext.2⟩
  cases a with
  | out address data =>
    exact hite fun hc => out_front h.books h.toOwned (isIdle_eq hc) h.front address data
  | inp address => exact hite fun hc => inp_front h.books (isIdle_eq hc) h.front address
  | core0 => exact core0_front h.books h.toOwned h.front hwrap (core0Step_moves m)
  | core1 env startOk =>
    exact core1_front h.books h.toOwned h.front hwrap (core1Step_moves web env startOk m)
  | install =>
    refine hite fun hc => h.event (isOutside_eq hc) (slotSame_worker m _ _ _)
      (works_worker (hreceives.other _ _ _ _ _ _ _ _)) ⟨rfl, rfl, Or.inl rfl⟩ rfl
  | networkState connected generation =>
    refine hite fun hc => h.event (isOutside_eq hc) (slotSame_worker m _ _ _)
      (works_worker (hreceives.other _ _ _ _ _ _ _ _)) ⟨rfl, rfl, Or.inl rfl⟩ rfl
  | receive data =>
    refine hite fun hc => h.event (isOutside_eq hc) (receive_same data m)
      (receive_works hreceives data) (Completion.receive_session data m) ?_
    unfold receive
    split
    · rfl
    · show (settle _).opened = _
      rw [settle_eq]
  | remoteClose =>
    refine hite fun hc => h.event (isOutside_eq hc) (remoteClose_same m)
      (remoteClose_works hreceives) ?_ ?_
    · exact Completion.settle_session m _ _ _ _
    · show (settle _).opened = _
      rw [settle_eq]
  | error message =>
    refine hite fun hc => h.event (isOutside_eq hc) (slotSame_worker m _ _ _)
      (works_worker (hreceives.ioError message)) ⟨rfl, rfl, Or.inl rfl⟩ rfl

theorem out_slot (address data : UInt8) (m : Machine Url) : (out address data m).slot = m.slot := by
  unfold out
  split_ifs <;> rfl

/-- The data and the length of the slot change only on core 1, with the slot pending, and its
name only on core 0, with the slot idle. -/
def SlotKept (m : Machine Url) (a : Action Env) (t : Machine Url) : Prop :=
  (t.slot.data ≠ m.slot.data ∨ t.slot.length ≠ m.slot.length →
    m.slotState = .pending ∧ ∃ env startOk, a = .core1 env startOk) ∧
  (t.slot.filename ≠ m.slot.filename → m.slotState = .idle ∧ a = .core0)

theorem slotKept_of_eq {a : Action Env} (h : t.slot = m.slot) : SlotKept m a t := by
  refine ⟨fun hd => ?_, fun hn => absurd (by rw [h]) hn⟩
  rcases hd with hd | hd
  · exact absurd (by rw [h]) hd
  · exact absurd (by rw [h]) hd

theorem core0_slotKept (h : Owned m) (ht : Core0Moves m t) :
    SlotKept m (.core0 : Action Env) t := by
  have h0 := h.core0
  cases ht with
  | idle hc => exact slotKept_of_eq rfl
  | found k hc hs => exact slotKept_of_eq rfl
  | empty k hc hs => exact slotKept_of_eq rfl
  | wait k hc hs => exact slotKept_of_eq rfl
  | take k hc =>
    refine slotKept_of_eq ?_
    unfold takeSlot
    split
    · rfl
    · rfl
  | release k hc => exact slotKept_of_eq rfl
  | post k hc =>
    rw [hc] at h0
    refine ⟨?_, fun _ => ⟨h0.2.1, rfl⟩⟩
    rintro (hd | hd)
    · exact absurd rfl hd
    · exact absurd rfl hd
  | publish k hc => exact slotKept_of_eq rfl
  | read address hc =>
    refine slotKept_of_eq ?_
    unfold readPort
    split_ifs <;> rfl
  | free hc => exact slotKept_of_eq rfl

theorem core1_slotKept {env : Env} {startOk : Bool} (h : Owned m)
    (ht : Core1Moves web env startOk m t) : SlotKept m (.core1 env startOk : Action Env) t := by
  have h1 := h.core1
  cases ht with
  | enter hc => exact slotKept_of_eq (enter_same web startOk m).slot
  | found current hc hs => exact slotKept_of_eq rfl
  | pass current hc => exact slotKept_of_eq rfl
  | serve current hc =>
    rw [hc] at h1
    obtain ⟨hsame, -⟩ := serve_same web env startOk current m
    exact ⟨fun _ => ⟨h1, env, startOk, rfl⟩, fun hn => absurd hsame.filename hn⟩
  | finish current hc => exact slotKept_of_eq rfl

theorem step_slotKept (h : Owned m) (a : Action Env) : SlotKept m a (step web m a) := by
  have hite {c : Prop} [Decidable c] {t : Machine Url} (ht : t.slot = m.slot) :
      SlotKept m a (if c then t else m) := by
    split
    · exact slotKept_of_eq ht
    · exact slotKept_of_eq rfl
  cases a with
  | out address data => exact hite (out_slot address data m)
  | inp address => exact hite rfl
  | core0 => exact core0_slotKept h (core0Step_moves m)
  | core1 env startOk => exact core1_slotKept h (core1Step_moves web env startOk m)
  | install => exact hite rfl
  | networkState connected generation => exact hite rfl
  | receive data => exact hite (receive_same data m).slot
  | remoteClose => exact hite (remoteClose_same m).slot
  | error message => exact hite rfl

/-- What the Z80 is promised of a session: its requests start from its name, and the bytes
read are the first ones of the body they lead to. -/
def Delivered (web : Web Url Env) (s : Session Url) : Prop :=
  Chain web s.name s.connections ∧ s.reads <+: s.response.2

theorem Inv.eof (h : Inv web m) (heof : m.port.status = httpEof) :
    (m.history m.opens).Complete ∧ (m.history m.opens).reads = (m.history m.opens).response.2 := by
  obtain ⟨hfin, hread, hwant⟩ := h.front.eofPort heof
  have hnot : ¬Answering m := by
    rintro ⟨hw, -⟩
    rw [hwant] at hw
    cases hw
  exact ⟨hfin.1, (h.front.quiet hread hnot).symm.trans hfin.2⟩

/-- **The file port** delivers every session its own response, in order and without a gap,
and reports its end when all of it has been read, while the counter does not come round. -/
theorem file_port_delivers (web : Web Url Env) (actions : List (Action Env))
    (h : Along (step web) (fun m _ => NoWrap m) .start actions) :
    (∀ k, Delivered web ((run (step web) .start actions).history k)) ∧
      ((run (step web) .start actions).port.status = httpEof →
        ((run (step web) .start actions).history (run (step web) .start actions).opens).Complete ∧
        ((run (step web) .start actions).history (run (step web) .start actions).opens).reads =
          ((run (step web) .start actions).history
            (run (step web) .start actions).opens).response.2) ∧
      ∀ a, SlotKept (run (step web) .start actions) a (step web (run (step web) .start actions) a) := by
  have hinv : Inv web (run (step web) .start actions) :=
    Along.invariant (fun _ a hw hi => hi.step hw a) start_inv h
  exact ⟨fun k => ⟨hinv.books.chain k, (hinv.books.reads k).trans (hinv.books.taken k)⟩, hinv.eof,
    fun a => step_slotKept hinv.toOwned a⟩

instance (m : Machine Url) : Decidable (NoWrap m) :=
  inferInstanceAs (Decidable (_ ∧ _))

end

/-! ## A file of one byte -/

/-- Every name is a URL. -/
def namedWeb : Web (List UInt8) Unit := ⟨fun _ name => .ok name, fun _ _ => none⟩

/-- The Z80 opens a session for a name of one letter and requests a chunk of it. -/
def request (letter : UInt8) : List (Action Unit) :=
  [.out 21 1, .core0, .out 22 letter, .out 22 0, .out 21 3, .core0]

/-- Core 1 receives a body of one byte, and is about to put it into the slot. -/
def fetched : List (Action Unit) :=
  [.core0, .core0, .install, .networkState true 1] ++ List.replicate 3 (.core1 () true) ++
    [.receive (ascii "HTTP/1.1 200 OK\x0d\n\x0d\nX".toList), .remoteClose, .core1 () true, .core1 () true]

/-- The answer, and the reads of the status, the count and the byte. -/
def readBack : List (Action Unit) :=
  List.replicate 2 (.core1 () true) ++ [.inp 21, .core0, .core0, .core0, .inp 22, .core0, .inp 22,
    .core0, .core0]

/-- One byte arrives, and the end of the file behind it. -/
theorem one_byte_delivered :
    (run (step namedWeb) .start (request 97 ++ fetched ++ readBack)).port.status = httpEof ∧
      ((run (step namedWeb) .start (request 97 ++ fetched ++ readBack)).history 2).reads = [88] ∧
      Delivered namedWeb
        ((run (step namedWeb) .start (request 97 ++ fetched ++ readBack)).history 2) :=
  ⟨by decide +kernel, by decide +kernel,
    (file_port_delivers namedWeb (request 97 ++ fetched ++ readBack) (by decide +kernel)).1 2⟩

/-! ## When the counter comes round -/

/-- The Z80 gives CLOSE over and over. -/
def closes (n : Nat) : List (Action Unit) :=
  (List.replicate n [.out 21 4, .core0]).flatten

theorem close_pending {Url : Type} {web : Web Url Unit} {m : Machine Url}
    (hc : m.core0 = .idle) (hs : m.slotState = .pending) :
    step web (step web m (.out 21 4)) .core0 =
      { m with
        port := .zero
        core0 := .idle
        session := m.session + 1
        awaiting := false
        opens := m.opens + 1 } := by
  have hout : step web m (.out 21 4) = openSession false m := by
    simp [step, hc, Core0.isIdle, out, httpCommandPort, httpClose, httpSetFilename]
  rw [hout]
  show core0Step (openSession false m) = _
  simp [core0Step, openSession, hs, After.next, Port.zero]

/-- With the slot pending, each of them only counts. -/
theorem run_closes {Url : Type} {web : Web Url Unit} {m : Machine Url} (n : Nat)
    (hc : m.core0 = .idle) (hs : m.slotState = .pending) :
    run (step web) m (closes (n + 1)) =
      { m with
        port := .zero
        core0 := .idle
        session := m.session + BitVec.ofNat 32 (n + 1)
        awaiting := false
        opens := m.opens + (n + 1) } := by
  induction n generalizing m with
  | zero => exact close_pending hc hs
  | succ n ih =>
    have hrun : run (step web) m (closes (n + 1 + 1)) =
        run (step web) (step web (step web m (.out 21 4)) .core0) (closes (n + 1)) := rfl
    have hnum : m.session + 1 + BitVec.ofNat 32 (n + 1) = m.session + BitVec.ofNat 32 (n + 1 + 1) := by
      rw [BitVec.add_assoc, BitVec.ofNat_add (n + 1) 1, BitVec.add_comm (BitVec.ofNat 32 (n + 1))]
      rfl
    rw [hrun, close_pending hc hs]
    have hnext := @ih
      { m with
        port := .zero
        core0 := .idle
        session := m.session + 1
        awaiting := false
        opens := m.opens + 1 } rfl hs
    refine hnext.trans ?_
    simp only [hnum, Nat.add_assoc, Nat.add_comm 1]

/-- Core 1 has a chunk of one session in its hands while 2^32 others are opened. -/
def comeRound : List (Action Unit) :=
  request 97 ++ fetched ++ closes (2 ^ 32 - 1) ++ (request 98 ++ readBack)

/-- The Z80 reads a byte of the old file under the new name. -/
theorem old_session_delivered :
    ((run (step namedWeb) .start comeRound).history (2 ^ 32 + 2)).name = [98] ∧
      ((run (step namedWeb) .start comeRound).history (2 ^ 32 + 2)).reads = [88] ∧
      ¬Delivered namedWeb ((run (step namedWeb) .start comeRound).history (2 ^ 32 + 2)) := by
  have hrun : run (step namedWeb) .start comeRound =
      run (step namedWeb)
        (run (step namedWeb) (run (step namedWeb) .start (request 97 ++ fetched))
          (closes (2 ^ 32 - 2 + 1)))
        (request 98 ++ readBack) := by
    rw [comeRound, show (2 ^ 32 - 1 : Nat) = 2 ^ 32 - 2 + 1 from rfl,
      run_append _ _ (request 98 ++ readBack), run_append _ _ (closes _)]
  rw [hrun, run_closes _ (isIdle_eq (by decide +kernel)) (by decide +kernel)]
  refine ⟨by decide +kernel, by decide +kernel, fun h => ?_⟩
  have hprefix := h.2
  revert hprefix
  decide +kernel

end Z80Sbc.Http.Delivery
