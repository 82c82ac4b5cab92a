import Z80Sbc.Http.Response
import Z80Sbc.Http.Completion

/-! # Core 1's half of the delivery

The worker, its decoder and its ring agree with the connections of the session it works
for: what went into the slot, and then what is in the ring, is the body decoded so far. -/

namespace Z80Sbc.Http.Receiving
open Z80Sbc.Data Z80Sbc.Http Z80Sbc.Http.Ownership

section
variable {Url Env : Type} {web : Web Url Env} {w : Worker Url} {s t u : Session Url}

/-- The worker has what came over the last connection. -/
structure Receives (web : Web Url Env) (w : Worker Url) (s : Session Url) : Prop where
  chain : Chain web s.name s.connections
  live : w.stream.error = none → w.stream = s.response.1 ∧
    s.taken ++ w.ring.toList ringSize = s.response.2 ∧ w.ring.Ok ringSize
  taken : s.taken <+: s.response.2
  target : ∀ c ∈ s.connections.head?, w.target = some c.target
  opened : s.connections ≠ [] → w.opened = true
  unopened : w.opened = false → w.stream.done = false ∧ w.stream.state = .status
  active : w.active = true → w.opened = true
  clean : w.active = true → w.stream.done = true → w.stream.error = none
  rested : w.opened = true → w.stream.error = none → s.connections ≠ [] ∧
    (w.active = false → w.stream.done = true ∧ w.stream.status < 300)

/-- In a session core 1 has taken `bytes` for the slot, and left the name and the reads alone. -/
structure Kept (bytes : List UInt8) (s t : Session Url) : Prop where
  name : t.name = s.name
  reads : t.reads = s.reads
  taken : t.taken = s.taken ++ bytes
  finished : s.Finished → t.Finished

theorem Kept.refl (s : Session Url) : Kept [] s s := ⟨rfl, rfl, (List.append_nil _).symm, id⟩

theorem Kept.trans {bytes : List UInt8} (h : Kept [] s t) (h' : Kept bytes t u) :
    Kept bytes s u := by
  refine ⟨h'.name.trans h.name, h'.reads.trans h.reads, ?_, fun hf => h'.finished (h.finished hf)⟩
  rw [h'.taken, h.taken, List.append_nil]

theorem kept_of_eq (hname : t.name = s.name) (hreads : t.reads = s.reads)
    (htaken : t.taken = s.taken) (hf : s.Finished → t.Finished) : Kept [] s t :=
  ⟨hname, hreads, by rw [htaken, List.append_nil], hf⟩

/-! ## Events -/

theorem Receives.ioError (h : Receives web w s) (message : String) :
    Receives web (ioError message w) s := by
  have hbad : (Http.ioError message w).stream.error ≠ none := by
    show w.stream.error.or (some message) ≠ none
    cases w.stream.error with
    | none => nofun
    | some _ => nofun
  exact ⟨h.chain, fun he => absurd he hbad, h.taken, h.target, h.opened, h.unopened, nofun, nofun,
    fun _ he => absurd he hbad⟩

theorem emit_spec (r : RingBuffer UInt8) (c : UInt8) (r' : RingBuffer UInt8)
    (h : r.Ok ringSize) (he : emit r c = some r') :
    r'.Ok ringSize ∧ r'.toList ringSize = r.toList ringSize ++ [c] := by
  unfold emit at he
  split at he
  · cases he
  · next hfull =>
    cases he
    have hlt : r.count < ringSize := Nat.lt_of_le_of_ne h.count hfull
    exact ⟨h.push hlt c, RingBuffer.toList_push h hlt c⟩

theorem feed_halted {κ : Type} (emit : κ → UInt8 → Option κ) (data : List UInt8) {s : Stream}
    (h : halted s = true) (k : κ) : feed emit data s k = (0, s, k) := by
  cases data with
  | nil => rfl
  | cons c data => simp [feed, h]

/-- An error of the decoder ends the transfer, and nothing else changes. -/
theorem settle_eq (w : Worker Url) :
    settle w = { w with active := w.active && w.stream.error.isNone } := by
  unfold settle
  split
  · next message he =>
    unfold ioError
    simp only [he, Option.some_or, Option.isNone_some, Bool.and_false]
    rw [← he]
  · next he => simp [he]

theorem Receives.settle (h : Receives web w s) : Receives web (settle w) s := by
  unfold Http.settle
  split
  · exact h.ioError _
  · exact h

theorem received_nil (s : Session Url) : s.received [] = s := by
  cases s with
  | mk name connections taken reads =>
    cases connections with
    | nil => rfl
    | cons c cs => simp [Session.received]

/-- The last connection has come further. -/
def SameRequests (s t : Session Url) : Prop :=
  t.name = s.name ∧ ((s.connections = [] ∧ t.connections = []) ∨
    ∃ c d cs, s.connections = c :: cs ∧ t.connections = d :: cs ∧ d.target = c.target)

theorem received_same (data : List UInt8) (s : Session Url) : SameRequests s (s.received data) := by
  refine ⟨rfl, ?_⟩
  unfold Session.received
  cases s.connections with
  | nil => exact Or.inl ⟨rfl, rfl⟩
  | cons c cs => exact Or.inr ⟨c, _, cs, rfl, rfl, rfl⟩

theorem closed_same (s : Session Url) : SameRequests s s.closed := by
  refine ⟨rfl, ?_⟩
  unfold Session.closed
  cases s.connections with
  | nil => exact Or.inl ⟨rfl, rfl⟩
  | cons c cs => exact Or.inr ⟨c, _, cs, rfl, rfl, rfl⟩

theorem SameRequests.nil (h : SameRequests s t) : t.connections = [] ↔ s.connections = [] := by
  rcases h.2 with ⟨hs, ht⟩ | ⟨c, d, cs, hs, ht, -⟩
  · rw [hs, ht]
  · rw [hs, ht]
    exact ⟨nofun, nofun⟩

theorem SameRequests.chain (h : SameRequests s t) (hs : Chain web s.name s.connections) :
    Chain web t.name t.connections := by
  rw [h.1]
  rcases h.2 with ⟨-, ht⟩ | ⟨c, d, cs, hc, ht, hd⟩
  · rw [ht]
    exact .nil
  · rw [ht]
    rw [hc] at hs
    exact hs.last hd

theorem SameRequests.target (h : SameRequests s t) {target : Option Url}
    (hs : ∀ c ∈ s.connections.head?, target = some c.target) :
    ∀ c ∈ t.connections.head?, target = some c.target := by
  rcases h.2 with ⟨-, ht⟩ | ⟨c, d, cs, hc, ht, hd⟩
  · rw [ht]
    nofun
  · rw [ht]
    intro e he
    cases he
    rw [hd]
    exact hs c (by rw [hc]; rfl)

/-- A finished session has nothing to wait for. -/
theorem Receives.halted (h : Receives web w s) (hf : s.Finished) : halted w.stream = true := by
  cases he : w.stream.error with
  | none => simp [Http.halted, (h.live he).1, hf.1.2.1]
  | some message => simp [Http.halted, he]

theorem Receives.receive (h : Receives web w s) (hactive : w.active = true) (data : List UInt8) :
    let r := feed emit data w.stream w.ring
    Receives web (Http.settle { w with stream := r.2.1, ring := r.2.2 })
      (s.received (data.take r.1)) ∧ Kept [] s (s.received (data.take r.1)) := by
  intro r
  by_cases hhalt : Http.halted w.stream = true
  · have hr : r = (0, w.stream, w.ring) := feed_halted emit data hhalt w.ring
    rw [hr, List.take_zero, received_nil]
    exact ⟨h.settle, .refl s⟩
  have hopen : w.stream.error = none ∧ w.stream.done = false := by
    simpa [Http.halted] using hhalt
  obtain ⟨hstream, hbody, hring⟩ := h.live hopen.1
  have hsome : s.connections ≠ [] := (h.rested (h.active hactive) hopen.1).1
  obtain ⟨-, hnext, hok, hout⟩ := @feed_decode _ emit (RingBuffer.toList ringSize)
    (RingBuffer.Ok ringSize) emit_spec data w.stream w.ring hring
  have hresponse := (s.response_received (data.take r.1)
    (by rw [← hstream]; simpa using hhalt)).resolve_right hsome
  rw [← hstream] at hresponse
  have hkept : Kept [] s (s.received (data.take r.1)) :=
    kept_of_eq rfl rfl rfl fun hf => absurd (h.halted hf) hhalt
  refine ⟨?_, hkept⟩
  rw [settle_eq]
  have hsame := received_same (data.take r.1) s
  refine ⟨hsame.chain h.chain, fun _ => ⟨?_, ?_, hok⟩, ?_, hsame.target h.target, ?_, ?_, ?_, ?_,
    ?_⟩
  · rw [hresponse]
    exact hnext
  · rw [hresponse, ← hbody, List.append_assoc]
    exact congrArg (s.taken ++ ·) hout
  · rw [hresponse]
    exact h.taken.trans (List.prefix_append _ _)
  · intro _
    exact h.active hactive
  · intro ho
    exact absurd (h.active hactive) (by simpa using ho)
  · intro _
    exact h.active hactive
  · intro ha _
    exact Option.isNone_iff_eq_none.mp (Bool.and_eq_true_iff.mp ha).2
  · intro _ he
    refine ⟨hsame.nil.not.mpr hsome, fun ha => ?_⟩
    rw [show w.active = true from hactive, show r.2.1.error = none from he] at ha
    cases ha

theorem Receives.remoteClose (h : Receives web w s) :
    Receives web (Http.settle { w with stream := streamClose w.stream }) s.closed ∧
      Kept [] s s.closed := by
  have hsame := closed_same s
  have hbody : s.closed.response.2 = s.response.2 := by
    rcases s.response_closed with hr | hc
    · rw [hr]
    · simp [Session.response, hc, hsame.nil.mpr hc]
  have hkept : Kept [] s s.closed := by
    refine kept_of_eq rfl rfl rfl fun hf => ?_
    have hr := s.response_closed.resolve_right hf.1.1
    rw [streamClose_done hf.1.2.1] at hr
    exact ⟨⟨hsame.nil.not.mpr hf.1.1, by rw [hr]; exact hf.1.2⟩, by rw [hr]; exact hf.2⟩
  have hclose (he : (streamClose w.stream).error = none) :
      w.stream.error = none ∧ s.connections ≠ [] := by
    have hok : w.stream.error = none := by
      by_contra hbad
      rw [streamClose_error (Option.isSome_iff_ne_none.mpr hbad)] at he
      exact hbad he
    refine ⟨hok, fun hc => ?_⟩
    rw [(h.live hok).1, Session.response, hc] at he
    cases he
  refine ⟨?_, hkept⟩
  rw [settle_eq]
  refine ⟨hsame.chain h.chain, fun he => ?_, ?_, hsame.target h.target, ?_, ?_, ?_, ?_, ?_⟩
  · obtain ⟨hok, hsome⟩ := hclose he
    obtain ⟨hstream, hlist, hring⟩ := h.live hok
    rw [s.response_closed.resolve_right hsome]
    exact ⟨congrArg streamClose hstream, hlist, hring⟩
  · rw [hbody]
    exact h.taken
  · intro hsome
    exact h.opened (hsame.nil.not.mp hsome)
  · intro ho
    obtain ⟨hdone, hstate⟩ := h.unopened ho
    show (streamClose w.stream).done = false ∧ (streamClose w.stream).state = .status
    cases he : w.stream.error with
    | none => simp [streamClose, hdone, hstate, he]
    | some message => simp [streamClose, hdone, hstate, he]
  · exact fun ha => h.active (Bool.and_eq_true_iff.mp ha).1
  · exact fun ha _ => Option.isNone_iff_eq_none.mp (Bool.and_eq_true_iff.mp ha).2
  · intro ho he
    obtain ⟨hok, hsome⟩ := hclose he
    refine ⟨hsame.nil.not.mpr hsome, fun ha => ?_⟩
    have hidle : w.active = false := by
      rw [show (streamClose w.stream).error = none from he] at ha
      simpa using ha
    obtain ⟨hdone, hstatus⟩ := (h.rested ho hok).2 hidle
    show (streamClose w.stream).done = true ∧ (streamClose w.stream).status < 300
    rw [streamClose_done hdone]
    exact ⟨hdone, hstatus⟩

/-! ## The service -/

theorem receives_new (w : Worker Url) (session : BitVec 32) (hs : s.connections = [])
    (ht : s.taken = []) :
    Receives web
      { w with
        backendRunning := false
        workerSession := session
        opened := false
        active := false
        ring := w.ring.clear
        redirects := 0
        workerErrorStatus := httpError
        stream := streamInit } s := by
  have hr : s.response = (streamInit, []) := by rw [Session.response, hs]
  refine ⟨by rw [hs]; exact .nil, fun _ => ⟨by rw [hr], ?_, .clear (by decide)⟩, ?_, ?_, ?_, ?_,
    (by intro h; cases h), (by intro h; cases h), (by intro h; cases h)⟩
  · rw [ht, hr]
    exact RingBuffer.toList_nil rfl
  · rw [ht]
    exact List.nil_prefix
  · rw [hs]
    intro _ h
    cases h
  · exact fun hsome => absurd hs hsome
  · exact fun _ => ⟨rfl, rfl⟩

/-- A request is started, where nothing of an older one is left. -/
theorem Receives.start {url : Url} {ok : Bool} {message : String}
    (hchain : Chain web s.name (⟨url, [], false⟩ :: s.connections)) (hopened : w.opened = true)
    (hactive : w.active = true) (hdone : w.stream.done = false)
    (htaken : s.taken = [])
    (hlive : w.stream.error = none → w.stream = streamInit ∧ w.ring.toList ringSize = [] ∧
      w.ring.Ok ringSize) :
    let v := { w with target := some url, backendRunning := true }
    Receives web (if ok then v else Http.ioError message v) (s.started url) := by
  intro v
  have hr : (s.started url).response = (streamInit, []) := rfl
  have hv : Receives web v (s.started url) := by
    refine ⟨hchain, fun he => ?_, ?_, ?_, fun _ => hopened, ?_, fun _ => hopened, ?_, ?_⟩
    · obtain ⟨hstream, hlist, hring⟩ := hlive he
      rw [hr]
      refine ⟨hstream, ?_, hring⟩
      show s.taken ++ w.ring.toList ringSize = []
      rw [htaken, hlist]
      rfl
    · show s.taken <+: _
      rw [htaken]
      exact List.nil_prefix
    · intro c hc
      cases hc
      rfl
    · exact fun ho => absurd hopened (by simpa using ho)
    · exact fun _ hd => absurd hd (by simp [v, hdone])
    · exact fun _ _ => ⟨nofun, fun ha => absurd hactive (by simpa using ha)⟩
  split
  · exact hv
  · exact hv.ioError message

/-- The fields that say nothing about the bytes. -/
theorem Receives.other (h : Receives web w s) (session : BitVec 32) (generation transfer : UInt32)
    (installed online running : Bool) (redirects : Nat) (status : UInt8) :
    Receives web
      { w with
        workerSession := session
        networkGeneration := generation
        transferNetwork := transfer
        installed := installed
        online := online
        backendRunning := running
        redirects := redirects
        workerErrorStatus := status } s :=
  ⟨h.chain, h.live, h.taken, h.target, h.opened, h.unopened, h.active, h.clean, h.rested⟩

theorem response_redirect {c : Connection Url} (h : 300 ≤ c.response.1.status) :
    c.response.2 = [] := by
  have hclose (t : Stream) : (streamClose t).status = t.status := by
    unfold streamClose
    split_ifs <;> rfl
  refine @decode_redirect c.wire ?_
  cases hc : c.closed with
  | true => simpa [Connection.response, hc, hclose] using h
  | false => simpa [Connection.response, hc] using h

/-! ## The session of the service -/

/-- Core 1 has worked for its session, and taken `bytes` of it. -/
structure Works (web : Web Url Env) (bytes : List UInt8) (m t : Machine Url) : Prop where
  workerOpen : t.workerOpen = m.workerOpen
  others : ∀ k, k ≠ m.workerOpen → t.history k = m.history k
  receives : Receives web t.worker (t.history m.workerOpen)
  kept : Kept bytes (m.history m.workerOpen) (t.history m.workerOpen)

variable {m t u : Machine Url}

theorem Works.trans {bytes : List UInt8} (h : Works web [] m t) (h' : Works web bytes t u) :
    Works web bytes m u := by
  have hopen := h.workerOpen
  refine ⟨h'.workerOpen.trans hopen, fun k hk => ?_, ?_, ?_⟩
  · rw [h'.others k (by rwa [hopen]), h.others k hk]
  · rw [← hopen]
    exact h'.receives
  · rw [← hopen]
    exact (hopen ▸ h.kept).trans h'.kept

theorem Works.session {bytes : List UInt8} (hw : Works web bytes m t) (k : Nat) :
    Kept (if k = m.workerOpen then bytes else []) (m.history k) (t.history k) := by
  by_cases hk : k = m.workerOpen
  · rw [if_pos hk, hk]
    exact hw.kept
  · rw [if_neg hk, hw.others k hk]
    exact .refl _

theorem Works.untaken (hw : Works web [] m t) (k : Nat) : Kept [] (m.history k) (t.history k) := by
  have hk := hw.session k
  rwa [ite_self] at hk

theorem works_worker (h : Receives web w (m.history m.workerOpen)) :
    Works web [] m { m with worker := w } :=
  ⟨rfl, fun _ _ => rfl, h, .refl _⟩

theorem works_note {f : Session Url → Session Url} {bytes : List UInt8} (hopen : t.workerOpen = m.workerOpen)
    (hhist : t.history =
      Function.update m.history m.workerOpen (f (m.history m.workerOpen)))
    (h : Receives web t.worker (f (m.history m.workerOpen)))
    (hk : Kept bytes (m.history m.workerOpen) (f (m.history m.workerOpen))) :
    Works web bytes m t := by
  have hself : t.history m.workerOpen = f (m.history m.workerOpen) := by
    rw [hhist, Function.update_self]
  refine ⟨hopen, fun k hk => by rw [hhist, Function.update_of_ne hk], ?_, ?_⟩
  · rw [hself]
    exact h
  · rw [hself]
    exact hk

theorem receive_works (h : Receives web m.worker (m.history m.workerOpen)) (data : List UInt8) :
    Works web [] m (receive data m) := by
  unfold receive
  split
  · exact works_worker h
  next hactive =>
  obtain ⟨hrec, hkept⟩ := h.receive (by simpa using hactive) data
  exact works_note rfl rfl hrec hkept

theorem remoteClose_works (h : Receives web m.worker (m.history m.workerOpen)) :
    Works web [] m (remoteClose m) := by
  obtain ⟨hrec, hkept⟩ := h.remoteClose
  exact works_note rfl rfl hrec hkept

theorem finishResponse_works (h : Receives web m.worker (m.history m.workerOpen))
    (startOk : Bool) : Works web [] m (finishResponse web startOk m) := by
  unfold finishResponse
  split
  · next hend =>
    have hok := h.clean hend.1 hend.2
    have hopened := h.active hend.1
    obtain ⟨hstream, hbody, hring⟩ := h.live hok
    obtain ⟨c, cs, hc⟩ : ∃ c cs, (m.history m.workerOpen).connections = c :: cs :=
      List.exists_cons_of_ne_nil (h.rested hopened hok).1
    have hresponse : (m.history m.workerOpen).response = c.response := by rw [Session.response, hc]
    rw [hresponse] at hstream hbody
    extract_lets t u
    split
    · next hstatus =>
      have hempty : c.response.2 = [] := response_redirect (by rw [← hstream]; exact hstatus)
      obtain ⟨htaken, hlist⟩ := List.append_eq_nil_iff.mp (hbody.trans hempty)
      split
      · exact works_worker ((h.other _ _ _ _ _ _ _ _).ioError _)
      · next url hurl =>
        have htarget : web.redirect c.target c.response.1.location = some url := by
          rw [← hstream]
          split at hurl
          · cases hurl
          · rwa [show u.worker.target = some c.target from h.target c (by rw [hc]; rfl),
              Option.bind_some] at hurl
        have hchain : Chain web (m.history m.workerOpen).name
            (⟨url, [], false⟩ :: (m.history m.workerOpen).connections) := by
          have hbefore := h.chain
          rw [hc] at hbefore ⊢
          exact .redirect [] false hbefore (by rw [← hstream]; exact hend.2) (by rw [← hstream]; exact hok)
            (by rw [← hstream]; exact hstatus) htarget
        refine works_note rfl rfl (.start hchain hopened hend.1 rfl htaken fun _ => ⟨rfl, hlist, hring⟩)
          (kept_of_eq rfl rfl rfl fun hf => ?_)
        have hlow := hf.1.2.2.2
        rw [hresponse, ← hstream] at hlow
        exact absurd hstatus (Nat.not_le.mpr hlow)
    · next hstatus =>
      exact works_worker ⟨h.chain, h.live, h.taken, h.target, h.opened, h.unopened, (by intro h; cases h), (by intro h; cases h),
        fun ho he => ⟨(h.rested ho he).1, fun _ => ⟨hend.2, Nat.not_le.mp hstatus⟩⟩⟩
  · exact works_worker h

theorem checkNetwork_works (h : Receives web m.worker (m.history m.workerOpen)) :
    Works web [] m { m with worker := checkNetwork m.worker } := by
  unfold checkNetwork
  split
  · exact works_worker (h.ioError _)
  · exact works_worker h

theorem cancelFailed_works (h : Receives web m.worker (m.history m.workerOpen)) (pc : Core1) :
    Works web [] m { m with worker := cancelFailed m.worker, core1 := pc } := by
  unfold cancelFailed
  split
  · exact ⟨rfl, fun _ _ => rfl, h.other _ _ _ _ _ _ _ _, .refl _⟩
  · exact ⟨rfl, fun _ _ => rfl, h, .refl _⟩

/-- From the session it has found to its load of the slot's state. -/
theorem enter_works (h : Receives web (newSession m).worker
    ((newSession m).history (newSession m).workerOpen)) (startOk : Bool) :
    Works web [] (newSession m) (enter web startOk m) := by
  have hnet := checkNetwork_works h
  have hfin := hnet.trans (finishResponse_works hnet.receives startOk)
  have hopen := hfin.workerOpen
  exact hfin.trans (cancelFailed_works (by rw [hopen]; exact hfin.receives) _)

/-- The first chunk of a session starts its request. -/
theorem openTarget_works (h : Receives web m.worker (m.history m.workerOpen)) (env : Env)
    (startOk : Bool)
    (hname : m.slot.filename = (m.history m.workerOpen).name) :
    Works web [] m (openTarget web env startOk m) := by
  unfold openTarget
  split
  · exact works_worker h
  next hopened =>
  have hopened : m.worker.opened = false := by simpa using hopened
  have hnone : (m.history m.workerOpen).connections = [] := by
    by_contra hsome
    rw [h.opened hsome] at hopened
    cases hopened
  have hresponse : (m.history m.workerOpen).response = (streamInit, []) := by
    rw [Session.response, hnone]
  obtain ⟨hdone, hstate⟩ := h.unopened hopened
  have hidle : m.worker.active = false := by
    by_contra ha
    rw [h.active (by simpa using ha)] at hopened
    cases hopened
  have hempty : (m.history m.workerOpen).taken = [] := by
    have htaken := h.taken
    rw [hresponse] at htaken
    exact List.prefix_nil.mp htaken
  -- a target that cannot be had is an error
  have hfail (v : Worker Url) (hbad : v.stream.error ≠ none) (ha : v.active = false)
      (ho : v.opened = true) : Works web [] m { m with worker := v } := by
    refine works_worker ⟨h.chain, fun he => absurd he hbad, h.taken, ?_, fun _ => ho, ?_, ?_, ?_,
      fun _ he => absurd he hbad⟩
    · rw [hnone]
      intro _ h
      cases h
    · exact fun hn => absurd ho (by simpa using hn)
    · exact fun hn => absurd hn (by simp [ha])
    · exact fun hn => absurd hn (by simp [ha])
  have herror (v : Worker Url) (message : String) : (ioError message v).stream.error ≠ none := by
    show v.stream.error.or (some message) ≠ none
    cases v.stream.error with
    | none => intro h; cases h
    | some _ => intro h; cases h
  extract_lets v
  split
  · exact hfail _ (herror _ _) rfl rfl
  split
  · exact hfail _ (herror _ _) rfl rfl
  · exact hfail _ (herror _ _) rfl rfl
  · next url hurl =>
    have hchain : Chain web (m.history m.workerOpen).name
        (⟨url, [], false⟩ :: (m.history m.workerOpen).connections) := by
      rw [hnone]
      exact .first [] false (by rw [← hname]; exact hurl)
    refine works_note rfl rfl (.start hchain rfl rfl hdone hempty fun he => ?_)
      (kept_of_eq rfl rfl rfl fun hf => absurd hnone hf.1.1)
    obtain ⟨hstream, hlist, hring⟩ := h.live he
    rw [hresponse] at hstream hlist
    exact ⟨hstream, (List.append_eq_nil_iff.mp hlist).2, hring⟩

/-! ## The slot -/

/-- Bytes go into the slot. -/
def took (bytes : List UInt8) (s : Session Url) : Session Url := { s with taken := s.taken ++ bytes }

theorem fillSlot_works (h : Receives web m.worker (m.history m.workerOpen))
    (hopened : m.worker.opened = true) (hok : m.worker.stream.error = none) :
    Works web (fillSlot m).slot.bytes m (fillSlot m) ∧
      ((fillSlot m).slot.status = httpEof → ((fillSlot m).history m.workerOpen).Finished) := by
  obtain ⟨hstream, hbody, hring⟩ := h.live hok
  obtain ⟨hsome, hrest⟩ := h.rested hopened hok
  obtain ⟨hring', htake, hdrop, hcount⟩ := RingBuffer.drain_spec hring
    (Nat.min_le_left m.worker.ring.count slotSize)
  generalize hd : RingBuffer.drain ringSize (min m.worker.ring.count slotSize) m.worker.ring = d
    at hring' htake hdrop hcount
  obtain ⟨bytes, ring⟩ := d
  dsimp only at hring' htake hdrop hcount
  have hsplit : bytes ++ ring.toList ringSize = m.worker.ring.toList ringSize := by
    rw [htake, hdrop, List.take_append_drop]
  have hhist : (fillSlot m).history =
      Function.update m.history m.workerOpen (took bytes (m.history m.workerOpen)) := by
    simp only [fillSlot, hd, Machine.note]
    rfl
  have hself : (fillSlot m).history m.workerOpen = took bytes (m.history m.workerOpen) := by
    rw [hhist, Function.update_self]
  have hworker : (fillSlot m).worker = { m.worker with ring := ring } := by
    simp only [fillSlot, hd, Machine.note]
  have hbytes : (fillSlot m).slot.bytes = bytes := by
    have hlen : bytes.length = min m.worker.ring.count slotSize := by
      rw [htake, List.length_take, RingBuffer.length_toList, Nat.min_eq_left (Nat.min_le_left _ _)]
    have hslot : (fillSlot m).slot.bytes = (List.range bytes.length).map
        fun i => bytes.getD i (m.slot.data i) := by
      rw [hlen]
      simp only [Slot.bytes, fillSlot, hd, Machine.note]
    rw [hslot]
    refine List.ext_getElem (by simp) fun i _ hi => ?_
    simp [hi]
  have htaken : (m.history m.workerOpen).taken ++ (bytes ++ ring.toList ringSize) =
      (m.history m.workerOpen).response.2 := by
    rw [hsplit, hbody]
  have hfull : (took bytes (m.history m.workerOpen)).taken ++ ring.toList ringSize =
      (m.history m.workerOpen).response.2 := by
    rw [← htaken, ← List.append_assoc]
    rfl
  refine ⟨works_note rfl hhist ?_ ⟨rfl, rfl, by rw [hbytes]; rfl, fun hf => ⟨hf.1, ?_⟩⟩,
    fun heof => ?_⟩
  · rw [hworker]
    refine ⟨h.chain, fun _ => ⟨hstream, hfull, hring'⟩, ?_, h.target, h.opened, h.unopened,
      h.active, h.clean, h.rested⟩
    exact ⟨_, hfull⟩
  · -- there was nothing left to take
    rw [← hf.2, List.append_right_eq_self, List.append_eq_nil_iff] at htaken
    show (m.history m.workerOpen).taken ++ bytes = _
    rw [htaken.1, List.append_nil]
    exact hf.2
  · have hstatus : (fillSlot m).slot.status = if !m.worker.active ∧ m.worker.stream.done ∧
        ring.count = 0 then httpEof else httpIdle := by
      simp only [fillSlot, hd, Machine.note]
    rw [hstatus] at heof
    split at heof
    · next hend =>
      obtain ⟨hdone, hlow⟩ := hrest (by simpa using hend.1)
      rw [RingBuffer.toList_nil hend.2.2, List.append_nil] at hfull
      rw [hself]
      rw [hstream] at hdone hlow hok
      exact ⟨⟨hsome, hdone, hok, hlow⟩, hfull⟩
    · cases heof

/-- A call of the service works for its session. It leaves the slot as it is, or answers it
with the bytes it has taken; for another session it takes none. -/
theorem serve_works (h : Receives web m.worker (m.history m.workerOpen)) (env : Env)
    (startOk : Bool) (current : BitVec 32)
    (hname : m.slot.session = current → m.slot.filename = (m.history m.workerOpen).name)
    (hstatus : m.worker.workerErrorStatus ≠ httpEof) :
    ((serve web env startOk current m).core1 = .outside ∧
      (serve web env startOk current m).slot = m.slot ∧
      Works web [] m (serve web env startOk current m)) ∨
    ((serve web env startOk current m).core1 = .finish current ∧
      Works web (serve web env startOk current m).slot.bytes m (serve web env startOk current m) ∧
      (m.slot.session ≠ current → (serve web env startOk current m).slot.bytes = []) ∧
      ((serve web env startOk current m).slot.status = httpEof → m.slot.session = current ∧
        ((serve web env startOk current m).history m.workerOpen).Finished)) := by
  unfold serve
  split
  · exact Or.inr ⟨rfl, ⟨rfl, fun _ _ => rfl, h, .refl _⟩, fun _ => rfl, nofun⟩
  next hmine =>
  have hmine := not_not.mp hmine
  have hopen := openTarget_works h env startOk (hname hmine)
  have hslot := (openTarget_same web env startOk m).slot
  have herror : (openTarget web env startOk m).worker.workerErrorStatus ≠ httpEof := by
    rcases (Completion.openTarget_session web env startOk m).errorStatus with he | he
    · rwa [he]
    · rw [he]
      nofun
  have hopened : (openTarget web env startOk m).worker.opened = true := by
    unfold openTarget
    split
    · next ho => exact ho
    · extract_lets v
      split
      · rfl
      split
      · rfl
      · rfl
      · cases startOk with
        | true => rfl
        | false => rfl
  extract_lets t
  have hwork : Works web [] m t := hopen
  have hrec := hwork.receives
  split
  · next hbad =>
    have hbad : t.worker.stream.error ≠ none := Option.isSome_iff_ne_none.mp hbad
    refine Or.inr ⟨rfl, ⟨hwork.workerOpen, hwork.others, ?_, hwork.kept⟩, fun _ => rfl,
      fun heof => absurd heof herror⟩
    exact ⟨hrec.chain, fun he => absurd he hbad, hrec.taken, hrec.target, hrec.opened, hrec.unopened,
      hrec.active, hrec.clean, hrec.rested⟩
  next hgood =>
  split
  · exact Or.inl ⟨rfl, hslot, hwork.workerOpen, hwork.others, hwork.receives, hwork.kept⟩
  · have hok : t.worker.stream.error = none := by simpa using hgood
    obtain ⟨hfill, heof⟩ := fillSlot_works (m := t) (by rw [hwork.workerOpen]; exact hrec) hopened hok
    have hall := hwork.trans hfill
    refine Or.inr ⟨rfl, ⟨hall.workerOpen, hall.others, hall.receives, hall.kept⟩,
      fun hne => absurd hmine hne, fun hs => ⟨hmine, ?_⟩⟩
    rw [hwork.workerOpen] at heof
    exact heof hs

end

end Z80Sbc.Http.Receiving
