import Z80Sbc.Concurrent.Run
import Z80Sbc.Http.Url

/-! # Redirects

Every request of a session goes to what its name loads or to where the request before it
redirects, and there are at most five of the second kind. So whatever holds of the targets
that are accepted, and of two that follow each other, holds of all requests of every run. -/

namespace Z80Sbc.Http.Redirects
open Z80Sbc.Http Z80Sbc.Concurrent

section
variable {Url Env : Type} {web : Web Url Env} {m t u : Machine Url}

/-- Targets with the last one first, each of them where the one before it redirects. -/
inductive Follows (web : Web Url Env) : List Url → Prop where
  | nil : Follows web []
  | first {env : Env} {name : List UInt8} {url : Url} (load : web.loadTarget env name = .ok url) :
      Follows web [url]
  | next {location : List UInt8} {url target : Url} {urls : List Url}
      (redirect : web.redirect url location = some target) (before : Follows web (url :: urls)) :
      Follows web (target :: url :: urls)

def targets (s : Session Url) : List Url := s.connections.map Connection.target

/-- How many redirects are followed in a session. -/
def redirectLimit : Nat := 5

structure Limited (web : Web Url Env) (m : Machine Url) : Prop where
  session : m.session = BitVec.ofNat 32 m.opens
  workerSession : m.worker.workerSession = BitVec.ofNat 32 m.workerOpen
  workerOpen : m.workerOpen ≤ m.opens
  unseen : ∀ k, m.workerOpen < k → targets (m.history k) = []
  follows : ∀ k, Follows web (targets (m.history k))
  limit : ∀ k, (targets (m.history k)).length ≤ redirectLimit + 1
  counted : (targets (m.history m.workerOpen)).length ≤ m.worker.redirects + 1
  target : ∀ url ∈ (targets (m.history m.workerOpen)).head?, m.worker.target = some url
  unopened : m.worker.opened = false → targets (m.history m.workerOpen) = []
  active : m.worker.active = true → targets (m.history m.workerOpen) ≠ []

/-- No request was started, and no session begun. -/
structure Quiet (m t : Machine Url) : Prop where
  session : t.session = m.session
  opens : t.opens = m.opens
  workerOpen : t.workerOpen = m.workerOpen
  workerSession : t.worker.workerSession = m.worker.workerSession
  redirects : t.worker.redirects = m.worker.redirects
  target : t.worker.target = m.worker.target
  opened : t.worker.opened = m.worker.opened
  active : t.worker.active = true → m.worker.active = true
  targets : ∀ k, targets (t.history k) = targets (m.history k)

theorem Quiet.refl (m : Machine Url) : Quiet m m :=
  ⟨rfl, rfl, rfl, rfl, rfl, rfl, rfl, id, fun _ => rfl⟩

theorem Quiet.trans (h : Quiet m t) (h' : Quiet t u) : Quiet m u :=
  ⟨h'.session.trans h.session, h'.opens.trans h.opens, h'.workerOpen.trans h.workerOpen,
    h'.workerSession.trans h.workerSession, h'.redirects.trans h.redirects,
    h'.target.trans h.target, h'.opened.trans h.opened, fun ha => h.active (h'.active ha),
    fun k => (h'.targets k).trans (h.targets k)⟩

theorem Limited.quiet (h : Limited web m) (hq : Quiet m t) : Limited web t := by
  refine ⟨?_, ?_, ?_, fun k hk => ?_, fun k => ?_, fun k => ?_, ?_, ?_, fun ho => ?_, fun ha => ?_⟩
  · rw [hq.session, hq.opens]
    exact h.session
  · rw [hq.workerSession, hq.workerOpen]
    exact h.workerSession
  · rw [hq.workerOpen, hq.opens]
    exact h.workerOpen
  · rw [hq.workerOpen] at hk
    rw [hq.targets]
    exact h.unseen k hk
  · rw [hq.targets]
    exact h.follows k
  · rw [hq.targets]
    exact h.limit k
  · rw [hq.workerOpen, hq.targets, hq.redirects]
    exact h.counted
  · rw [hq.workerOpen, hq.targets, hq.target]
    exact h.target
  · rw [hq.opened] at ho
    rw [hq.workerOpen, hq.targets]
    exact h.unopened ho
  · rw [hq.workerOpen, hq.targets]
    exact h.active (hq.active ha)

/-- What is noted in a session leaves its targets alone. -/
theorem quiet_note (f : Session Url → Session Url) (hf : ∀ s, targets (f s) = targets s)
    (n : Nat) : Quiet m (m.note n f) := by
  refine ⟨rfl, rfl, rfl, rfl, rfl, rfl, rfl, id, fun k => ?_⟩
  show targets (Function.update m.history n (f (m.history n)) k) = _
  by_cases hk : k = n
  · rw [hk, Function.update_self]
    exact hf _
  · rw [Function.update_of_ne hk]

/-! ## Core 0 -/

theorem openSession_limited (h : Limited web m) (collecting : Bool) :
    Limited web (openSession collecting m) := by
  refine ⟨?_, h.workerSession, Nat.le_succ_of_le h.workerOpen, h.unseen, h.follows, h.limit,
    h.counted, h.target, h.unopened, h.active⟩
  show m.session + 1 = BitVec.ofNat 32 (m.opens + 1)
  rw [h.session, BitVec.ofNat_add]
  rfl

theorem out_limited (h : Limited web m) (address data : UInt8) :
    Limited web (out address data m) := by
  unfold out
  split
  · split
    · exact openSession_limited h _
    split
    · split
      · exact h
      split
      · exact h.quiet ⟨rfl, rfl, rfl, rfl, rfl, rfl, rfl, id, fun _ => rfl⟩
      split
      · exact h
      · exact h.quiet ⟨rfl, rfl, rfl, rfl, rfl, rfl, rfl, id, fun _ => rfl⟩
    · exact h
  split
  · split
    · exact h.quiet ⟨rfl, rfl, rfl, rfl, rfl, rfl, rfl, id, fun _ => rfl⟩
    split
    · have hport : Quiet m
          { m with port := { m.port with filename := m.port.filename ++ [data] } } :=
        ⟨rfl, rfl, rfl, rfl, rfl, rfl, rfl, id, fun _ => rfl⟩
      exact h.quiet (hport.trans
        (quiet_note (fun s => { s with name := s.name ++ [data] }) (fun _ => rfl) m.opens))
    · exact h.quiet ⟨rfl, rfl, rfl, rfl, rfl, rfl, rfl, id, fun _ => rfl⟩
  · exact h

theorem readPort_quiet (address : UInt8) (m : Machine Url) : Quiet m (readPort address m).2 := by
  unfold readPort
  split
  · exact ⟨rfl, rfl, rfl, rfl, rfl, rfl, rfl, id, fun _ => rfl⟩
  split
  · exact ⟨rfl, rfl, rfl, rfl, rfl, rfl, rfl, id, fun _ => rfl⟩
  · refine ⟨rfl, rfl, rfl, rfl, rfl, rfl, rfl, id, ?_⟩
    exact (quiet_note (m := m) (fun s => { s with
      reads := if m.port.position ≠ 0 then s.reads ++ [chunkByte m] else s.reads })
      (fun _ => rfl) m.opens).targets

theorem core0Step_quiet (m : Machine Url) : Quiet m (core0Step m) := by
  unfold core0Step
  split
  · exact .refl m
  · split
    · exact ⟨rfl, rfl, rfl, rfl, rfl, rfl, rfl, id, fun _ => rfl⟩
    · exact ⟨rfl, rfl, rfl, rfl, rfl, rfl, rfl, id, fun _ => rfl⟩
    · exact ⟨rfl, rfl, rfl, rfl, rfl, rfl, rfl, id, fun _ => rfl⟩
  · unfold takeSlot
    split
    · exact ⟨rfl, rfl, rfl, rfl, rfl, rfl, rfl, id, fun _ => rfl⟩
    · exact ⟨rfl, rfl, rfl, rfl, rfl, rfl, rfl, id, fun _ => rfl⟩
  · exact ⟨rfl, rfl, rfl, rfl, rfl, rfl, rfl, id, fun _ => rfl⟩
  · exact ⟨rfl, rfl, rfl, rfl, rfl, rfl, rfl, id, fun _ => rfl⟩
  · exact ⟨rfl, rfl, rfl, rfl, rfl, rfl, rfl, id, fun _ => rfl⟩
  · exact readPort_quiet _ m
  · exact ⟨rfl, rfl, rfl, rfl, rfl, rfl, rfl, id, fun _ => rfl⟩

/-! ## Core 1 -/

/-- The worker goes on with what it has. -/
theorem quiet_worker {w : Worker Url} (hsession : w.workerSession = m.worker.workerSession)
    (hredirects : w.redirects = m.worker.redirects) (htarget : w.target = m.worker.target)
    (hopened : w.opened = m.worker.opened) (hactive : w.active = true → m.worker.active = true) :
    Quiet m { m with worker := w } :=
  ⟨rfl, rfl, rfl, hsession, hredirects, htarget, hopened, hactive, fun _ => rfl⟩

theorem ioError_quiet (message : String) (m : Machine Url) :
    Quiet m { m with worker := ioError message m.worker } :=
  quiet_worker rfl rfl rfl rfl fun h => Bool.noConfusion h

theorem settle_quiet (w : Worker Url) (m : Machine Url) (h : Quiet m { m with worker := w }) :
    Quiet m { m with worker := settle w } := by
  unfold settle
  split
  · exact ⟨rfl, rfl, rfl, h.workerSession, h.redirects, h.target, h.opened,
      fun ha => Bool.noConfusion ha, fun _ => rfl⟩
  · exact h

theorem received_targets (data : List UInt8) (s : Session Url) :
    targets (s.received data) = targets s := by
  unfold targets Session.received
  cases s.connections with
  | nil => rfl
  | cons c cs => rfl

theorem closed_targets (s : Session Url) : targets s.closed = targets s := by
  unfold targets Session.closed
  cases s.connections with
  | nil => rfl
  | cons c cs => rfl

theorem receive_quiet (data : List UInt8) (m : Machine Url) : Quiet m (receive data m) := by
  unfold receive
  split
  · exact .refl m
  · refine Quiet.trans (settle_quiet _ m ?_) (quiet_note _ (received_targets _) _)
    exact quiet_worker rfl rfl rfl rfl id

theorem remoteClose_quiet (m : Machine Url) : Quiet m (remoteClose m) := by
  refine Quiet.trans (settle_quiet _ m ?_) (quiet_note _ closed_targets _)
  exact quiet_worker rfl rfl rfl rfl id

theorem newSession_limited (h : Limited web m) : Limited web (newSession m) := by
  unfold newSession
  split
  next hnew =>
    have hlater : m.workerOpen < m.opens := by
      refine Nat.lt_of_le_of_ne h.workerOpen fun heq => hnew ?_
      rw [h.session, h.workerSession, heq]
    have hnil : targets (m.history m.opens) = [] := h.unseen _ hlater
    refine ⟨h.session, h.session, Nat.le_refl _, fun k hk => h.unseen k (Nat.lt_trans hlater hk),
      h.follows, h.limit, ?_, ?_, fun _ => hnil, fun ha => Bool.noConfusion ha⟩
    · show (targets (m.history m.opens)).length ≤ _
      rw [hnil]
      exact Nat.zero_le _
    · intro url hurl
      change url ∈ (targets (m.history m.opens)).head? at hurl
      rw [hnil] at hurl
      cases hurl
  · exact h

theorem checkNetwork_quiet (m : Machine Url) :
    Quiet m { m with worker := checkNetwork m.worker } := by
  unfold checkNetwork
  split
  · exact ioError_quiet _ m
  · exact .refl m

theorem cancelFailed_quiet (m : Machine Url) (pc : Core1) :
    Quiet m { m with worker := cancelFailed m.worker, core1 := pc } := by
  unfold cancelFailed
  split
  · exact ⟨rfl, rfl, rfl, rfl, rfl, rfl, rfl, id, fun _ => rfl⟩
  · exact ⟨rfl, rfl, rfl, rfl, rfl, rfl, rfl, id, fun _ => rfl⟩

/-- A request is started: it is one more, and follows the ones before it. -/
theorem startRequest_limited {url : Url} {ok : Bool} {message : String}
    (h : Limited web { m with worker := { m.worker with active := false } })
    (hfollows : Follows web (url :: targets (m.history m.workerOpen)))
    (hcounted : (targets (m.history m.workerOpen)).length ≤ m.worker.redirects)
    (hlimit : (targets (m.history m.workerOpen)).length ≤ redirectLimit)
    (hopened : m.worker.opened = true) :
    Limited web (startRequest url ok message m) := by
  have hself : targets ((startRequest url ok message m).history m.workerOpen) =
      url :: targets (m.history m.workerOpen) := by
    show targets (Function.update m.history m.workerOpen _ m.workerOpen) = _
    rw [Function.update_self]
    rfl
  have hother (k : Nat) (hk : k ≠ m.workerOpen) :
      targets ((startRequest url ok message m).history k) = targets (m.history k) := by
    show targets (Function.update m.history m.workerOpen _ k) = _
    rw [Function.update_of_ne hk]
  have hworker : (startRequest url ok message m).worker.workerSession = m.worker.workerSession ∧
      (startRequest url ok message m).worker.redirects = m.worker.redirects ∧
      (startRequest url ok message m).worker.target = some url ∧
      (startRequest url ok message m).worker.opened = m.worker.opened := by
    cases ok with
    | true => exact ⟨rfl, rfl, rfl, rfl⟩
    | false => exact ⟨rfl, rfl, rfl, rfl⟩
  have hopen : (startRequest url ok message m).workerOpen = m.workerOpen := rfl
  refine ⟨h.session, ?_, h.workerOpen, fun k hk => ?_, fun k => ?_, fun k => ?_, ?_, ?_,
    fun ho => ?_, fun _ => ?_⟩
  · rw [hworker.1]
    exact h.workerSession
  · rw [hother k (Nat.ne_of_gt hk)]
    exact h.unseen k hk
  · by_cases hk : k = m.workerOpen
    · rw [hk, hself]
      exact hfollows
    · rw [hother k hk]
      exact h.follows k
  · by_cases hk : k = m.workerOpen
    · rw [hk, hself]
      exact Nat.succ_le_succ hlimit
    · rw [hother k hk]
      exact h.limit k
  · rw [hopen, hself, hworker.2.1]
    exact Nat.succ_le_succ hcounted
  · rw [hopen, hself, hworker.2.2.1]
    intro v hv
    exact hv.symm ▸ rfl
  · rw [hworker.2.2.2, hopened] at ho
    cases ho
  · rw [hopen, hself]
    exact List.cons_ne_nil _ _

/-- A response that is complete is followed at most five times. -/
theorem finishResponse_limited (h : Limited web m) (startOk : Bool) :
    Limited web (finishResponse web startOk m) := by
  unfold finishResponse
  split
  next hdone =>
    have hne := h.active hdone.1
    obtain ⟨url, urls, hurls⟩ := List.exists_cons_of_ne_nil hne
    have htarget : m.worker.target = some url := h.target url (by rw [hurls]; rfl)
    have hopened : m.worker.opened = true := by
      cases ho : m.worker.opened with
      | true => rfl
      | false => exact absurd (h.unopened ho) hne
    have hraise {w : Worker Url} (hsession : w.workerSession = m.worker.workerSession)
        (hredirects : m.worker.redirects ≤ w.redirects) (ht : w.target = m.worker.target)
        (ho : w.opened = m.worker.opened) (hactive : w.active = false) :
        Limited web { m with worker := w } := by
      refine ⟨h.session, hsession.trans h.workerSession, h.workerOpen, h.unseen, h.follows, h.limit,
        Nat.le_trans h.counted (Nat.succ_le_succ hredirects), fun v hv => ht.trans (h.target v hv),
        fun hno => h.unopened (ho.symm.trans hno), fun ha => ?_⟩
      rw [hactive] at ha
      cases ha
    dsimp only
    split
    · split
      · exact hraise rfl (Nat.le_succ _) rfl rfl rfl
      next next hnext =>
        obtain ⟨hfew, hredirect⟩ : ¬5 < m.worker.redirects + 1 ∧
            web.redirect url m.worker.stream.location = some next := by
          by_cases hmany : 5 < m.worker.redirects + 1
          · rw [if_pos hmany] at hnext
            cases hnext
          · rw [if_neg hmany] at hnext
            refine ⟨hmany, ?_⟩
            rw [show m.worker.target = some url from htarget] at hnext
            exact hnext
        refine startRequest_limited (hraise rfl (Nat.le_succ _) rfl rfl rfl) ?_ h.counted ?_ hopened
        · show Follows web (next :: targets (m.history m.workerOpen))
          rw [hurls]
          exact .next hredirect (hurls ▸ h.follows m.workerOpen)
        · exact Nat.le_trans h.counted (Nat.le_of_not_lt hfew)
    · exact hraise rfl (Nat.le_refl _) rfl rfl rfl
  · exact h

theorem enter_limited (h : Limited web m) (startOk : Bool) :
    Limited web (enter web startOk m) := by
  have hfinish := finishResponse_limited
    ((newSession_limited h).quiet (checkNetwork_quiet (newSession m))) startOk
  exact hfinish.quiet (cancelFailed_quiet _ _)

/-- The first request of a session goes to what its name loads. -/
theorem openTarget_limited (h : Limited web m) (env : Env) (startOk : Bool) :
    Limited web (openTarget web env startOk m) := by
  unfold openTarget
  split
  · exact h
  next hopened =>
    have hnil : targets (m.history m.workerOpen) = [] :=
      h.unopened (Bool.eq_false_iff.mpr hopened)
    have hstop {w : Worker Url} (hsession : w.workerSession = m.worker.workerSession)
        (hactive : w.active = false) : Limited web { m with worker := w } := by
      refine ⟨h.session, hsession.trans h.workerSession, h.workerOpen, h.unseen, h.follows, h.limit,
        ?_, fun v hv => ?_, fun _ => hnil, fun ha => ?_⟩
      · show (targets (m.history m.workerOpen)).length ≤ _
        rw [hnil]
        exact Nat.zero_le _
      · change v ∈ (targets (m.history m.workerOpen)).head? at hv
        rw [hnil] at hv
        cases hv
      · rw [hactive] at ha
        cases ha
    dsimp only
    split
    · exact hstop rfl rfl
    · split
      · exact hstop rfl rfl
      · exact hstop rfl rfl
      next url hload =>
        refine startRequest_limited (hstop rfl rfl) ?_ ?_ ?_ rfl
        · show Follows web (url :: targets (m.history m.workerOpen))
          rw [hnil]
          exact .first hload
        · show (targets (m.history m.workerOpen)).length ≤ _
          rw [hnil]
          exact Nat.zero_le _
        · show (targets (m.history m.workerOpen)).length ≤ _
          rw [hnil]
          exact Nat.zero_le _

theorem fillSlot_quiet (m : Machine Url) (pc : Core1) :
    Quiet m { fillSlot m with core1 := pc } :=
  ⟨rfl, rfl, rfl, rfl, rfl, rfl, rfl, id, (quiet_note (m := m) (fun s => { s with
    taken := s.taken ++ (m.worker.ring.drain ringSize (min m.worker.ring.count slotSize)).1 })
    (fun _ => rfl) m.workerOpen).targets⟩

theorem serve_limited (h : Limited web m) (env : Env) (startOk : Bool) (current : BitVec 32) :
    Limited web (serve web env startOk current m) := by
  unfold serve
  split
  · exact h.quiet ⟨rfl, rfl, rfl, rfl, rfl, rfl, rfl, id, fun _ => rfl⟩
  · have hopen := openTarget_limited h env startOk
    generalize openTarget web env startOk m = t at hopen ⊢
    dsimp only
    split
    · exact hopen.quiet ⟨rfl, rfl, rfl, rfl, rfl, rfl, rfl, id, fun _ => rfl⟩
    split
    · exact hopen.quiet ⟨rfl, rfl, rfl, rfl, rfl, rfl, rfl, id, fun _ => rfl⟩
    · exact hopen.quiet (fillSlot_quiet t _)

theorem core1Step_limited (h : Limited web m) (env : Env) (startOk : Bool) :
    Limited web (core1Step web env startOk m) := by
  unfold core1Step
  split
  · exact enter_limited h startOk
  · exact h.quiet ⟨rfl, rfl, rfl, rfl, rfl, rfl, rfl, id, fun _ => rfl⟩
  next current _ => exact serve_limited h env startOk current
  · exact h.quiet ⟨rfl, rfl, rfl, rfl, rfl, rfl, rfl, id, fun _ => rfl⟩

/-! ## Runs -/

theorem step_limited (h : Limited web m) (a : Action Env) : Limited web (step web m a) := by
  cases a with
  | out address data =>
    simp only [step]
    split
    · exact out_limited h address data
    · exact h
  | inp address =>
    simp only [step]
    split
    · exact h.quiet ⟨rfl, rfl, rfl, rfl, rfl, rfl, rfl, id, fun _ => rfl⟩
    · exact h
  | core0 => exact h.quiet (core0Step_quiet m)
  | core1 env startOk => exact core1Step_limited h env startOk
  | install =>
    simp only [step]
    split
    · exact h.quiet (quiet_worker rfl rfl rfl rfl id)
    · exact h
  | networkState connected generation =>
    simp only [step]
    split
    · exact h.quiet (quiet_worker rfl rfl rfl rfl id)
    · exact h
  | receive data =>
    simp only [step]
    split
    · exact h.quiet (receive_quiet data m)
    · exact h
  | remoteClose =>
    simp only [step]
    split
    · exact h.quiet (remoteClose_quiet m)
    · exact h
  | error message =>
    simp only [step]
    split
    · exact h.quiet (ioError_quiet message m)
    · exact h

theorem start_limited : Limited web (.start : Machine Url) := by
  refine ⟨rfl, rfl, Nat.zero_le _, fun _ _ => rfl, fun _ => .nil, fun _ => Nat.zero_le _,
    Nat.zero_le _, fun url hurl => ?_, fun _ => rfl, fun ha => ?_⟩
  · cases hurl
  · exact absurd ha Bool.false_ne_true

theorem run_limited (as : List (Action Env)) : Limited web (run (step web) .start as) :=
  run_invariant (I := Limited web) (fun _ a h => step_limited h a) start_limited as

end

/-! ## What is requested -/

/-- What is requested of targets, with the last one first. -/
structure Safe (urls : List HttpUrl) : Prop where
  valid : ∀ url ∈ urls, url.Valid
  requests : ∀ url ∈ urls, (requestText url).splitOn 10 = requestLines url ∧
    ∀ line ∈ requestLines url, 13 ∉ line.dropLast
  secure : urls.Pairwise fun later earlier => earlier.https = true → later.https = true

theorem Safe.cons {target : HttpUrl} {urls : List HttpUrl} (h : Safe urls) (hvalid : target.Valid)
    (hsecure : ∀ url ∈ urls, url.https = true → target.https = true) : Safe (target :: urls) := by
  refine ⟨fun url hurl => ?_, fun url hurl => ?_, List.pairwise_cons.mpr ⟨hsecure, h.secure⟩⟩
  · rcases List.mem_cons.mp hurl with rfl | hurl
    · exact hvalid
    · exact h.valid url hurl
  · rcases List.mem_cons.mp hurl with rfl | hurl
    · exact requestText_lines hvalid
    · exact h.requests url hurl

theorem Follows.safe {urls : List HttpUrl} (h : Follows urlWeb urls) : Safe urls := by
  induction h with
  | nil => exact ⟨nofun, nofun, .nil⟩
  | first hload =>
    refine Safe.cons ⟨nofun, nofun, .nil⟩ (loadTarget_valid hload).1 fun url hurl => ?_
    cases hurl
  | next hredirect _ ih =>
    obtain ⟨hvalid, hkeeps⟩ := urlRedirect_valid hredirect
    refine ih.cons hvalid fun url hurl hhttps => hkeeps ?_
    -- the target before is as secure as all the ones before it
    rcases List.mem_cons.mp hurl with rfl | hurl
    · exact hhttps
    · exact (List.pairwise_cons.mp ih.secure).1 url hurl hhttps

/-- Every URL that is accepted, by its text, by a name or by a redirect, has the host and the
port of its authority and makes a request of the lines of its format; every chain of redirects
stays secure once it is, and relative names and locations stay where they are; a session
follows five redirects at most. -/
theorem redirects_safe :
    (∀ text url, urlParse text = some url → Safe [url]) ∧
    (∀ urls, Follows urlWeb urls → Safe urls) ∧
    (∀ env name url, loadTarget env name = .ok url → absolute name = false →
      ∃ base, urlParse (env.base.getD []) = some base ∧ url.https = base.https ∧
        url.authority = base.authority ∧ url.host = base.host ∧ url.port = base.port) ∧
    (∀ url target location, url.Valid → Relative location →
      urlRedirect url location = some target →
      target.https = url.https ∧ target.authority = url.authority ∧ target.host = url.host ∧
        target.port = url.port) ∧
    ∀ (as : List (Action HttpEnv)) (k : Nat),
      Follows urlWeb (targets ((run (step urlWeb) .start as).history k)) ∧
        (targets ((run (step urlWeb) .start as).history k)).length ≤ redirectLimit + 1 := by
  refine ⟨fun text url hparse => ?_, fun urls h => h.safe, fun env name url hload hrelative => ?_,
    fun url target location hurl hrelative h => urlRedirect_relative hurl hrelative h,
    fun as k => ?_⟩
  · refine Safe.cons ⟨nofun, nofun, .nil⟩ (urlParse_valid hparse) fun url hurl => ?_
    cases hurl
  · exact (loadTarget_valid hload).2 hrelative
  · have hlimited : Limited urlWeb _ := run_limited as
    exact ⟨hlimited.follows k, hlimited.limit k⟩

end Z80Sbc.Http.Redirects
