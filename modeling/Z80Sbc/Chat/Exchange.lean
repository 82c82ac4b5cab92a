import Mathlib.Data.List.Induction
import Mathlib.Data.List.Perm.Basic
import Z80Sbc.Chat.Confinement

/-! # Runs of the network side

The generations only grow, and every request that is made stands in the run. So what holds of one
step holds of every run that takes fewer than 2^32 generations. -/

namespace Z80Sbc.Chat.Exchange
open Z80Sbc.Chat Network HeaderLines Confinement
open Z80Sbc.Env (Entry getValue normalizeKey)

variable {n : Network}

/-! ## Frames -/

theorem frame_fail (message : String) (n : Network) : Frame n (n.fail message) := ⟨rfl, rfl⟩

theorem frame_flush (output : Written) (n : Network) : Frame n (n.flush output) := by
  cases output with
  | error => exact frame_fail _ n
  | ok => exact .refl n
  | memory => exact .refl n

theorem frame_accept (data : List UInt8) (n : Network) : Frame n (n.accept data) := by
  unfold accept
  split
  next => exact .refl n
  next => exact ⟨rfl, rfl⟩

theorem Frame.ite {m p q : Network} {c : Prop} [Decidable c] (hp : Frame m p) (hq : Frame m q) :
    Frame m (if c then p else q) := by
  split
  next => exact hp
  next => exact hq

theorem frame_sendRequest (write output : Written) (n : Network) :
    Frame n (n.sendRequest write output) := by
  unfold sendRequest
  refine Frame.ite (.refl n) (Frame.ite (frame_flush output n) ?_)
  cases write with
  | ok =>
    refine Frame.trans ?_ (frame_flush output _)
    exact Frame.ite (frame_accept _ n) (frame_accept _ n)
  | memory => exact frame_flush output n
  | error => exact frame_fail _ n

theorem frame_deliver (copied : Bool) (n : Network) : Frame n (n.deliver copied) := by
  unfold deliver
  split
  next => exact .refl n
  next =>
    dsimp only
    split
    next => exact frame_fail _ n
    next =>
      split
      next => exact ⟨rfl, rfl⟩
      next => exact ⟨rfl, rfl⟩

theorem frame_report (n : Network) : Frame n n.report := by
  unfold report
  split
  next => exact Frame.ite ⟨rfl, rfl⟩ (.refl n)
  next => exact .refl n

theorem frame_finish (n : Network) : Frame n n.finish := by
  have hclosed : Frame n (if n.service.active && n.remoteClosed && n.pending.isNone &&
      n.failure.isNone then n.fail "Chat stream closed before [DONE]" else n) :=
    Frame.ite (frame_fail _ n) (.refl n)
  have hreported := hclosed.trans (frame_report _)
  unfold finish
  exact hreported.trans (Frame.ite (.refl _) ⟨rfl, rfl⟩)

theorem frame_call (token : UInt32) (c : Callback) (n : Network) : Frame n (n.call token c) := by
  cases c with
  | error =>
    show Frame n (n.socketError token)
    exact Frame.ite (.refl n) ⟨rfl, rfl⟩
  | connected pcb ok =>
    show Frame n (n.connected token pcb ok)
    exact Frame.ite (.refl n) (Frame.ite (frame_fail _ n) ⟨rfl, rfl⟩)
  | receive pcb data ok =>
    show Frame n (n.receive token pcb data ok)
    refine Frame.ite (.refl n) ?_
    cases data with
    | none => exact Frame.ite (p := { n with remoteClosed := true }) ⟨rfl, rfl⟩ ⟨rfl, rfl⟩
    | some chain =>
      exact Frame.ite (frame_fail _ n) (Frame.ite (frame_fail _ n) (Frame.ite (.refl n) ⟨rfl, rfl⟩))

/-! ## The service -/

/-- Whether the network is lost to a request. -/
def lost (i : Polling) (n : Network) : Bool :=
  n.service.active && (!i.online || i.generation != n.service.generation)

theorem pollChat_eq (i : Polling) (n : Network) : pollChat i n =
    { (if lost i n then n.cancel else n) with
      service := networkPoll i.online i.generation n.service } := by
  unfold pollChat lost
  dsimp only
  split
  next => rfl
  next => rfl

theorem inv_pollChat (h : Inv n) {i : Polling} (hfew : (Network.pollChat i n).number < 2 ^ 32) :
    Inv (Network.pollChat i n) := by
  rw [pollChat_eq] at hfew ⊢
  split
  next hlost =>
    rw [if_pos hlost] at hfew
    exact (h.cancel hfew).serve (keeps_networkPoll _ _ _)
  next => exact h.serve (keeps_networkPoll _ _ _)

theorem pollChat_made (i : Polling) (n : Network) :
    n.number ≤ (pollChat i n).number ∧ (pollChat i n).started = n.started := by
  rw [pollChat_eq]
  split
  next => exact ⟨Nat.le_succ _, rfl⟩
  next => exact ⟨le_refl _, rfl⟩

/-- What the service does behind its poll. -/
def polled (i : Polling) (n : Network) : Network :=
  let n :=
    if n.service.active && n.failure.isNone && i.timeout then
      n.fail "HTTP stream timed out (120 seconds)"
    else n
  let n :=
    if n.service.active && n.failure.isNone && n.client.isSome then n.sendRequest i.write i.output
    else n
  if n.service.active && n.failure.isNone then n.deliver i.copied else n

theorem networkService_eq (i : Polling) (n : Network) : networkService i n =
    if !(pollChat i { n with initialized := true }).running then
      pollChat i { n with initialized := true }
    else (polled i (pollChat i { n with initialized := true })).finish := rfl

theorem frame_polled (i : Polling) (n : Network) : Frame n (polled i n) := by
  have htimeout : Frame n (if n.service.active && n.failure.isNone && i.timeout then
      n.fail "HTTP stream timed out (120 seconds)" else n) := Frame.ite (frame_fail _ n) (.refl n)
  unfold polled
  refine htimeout.trans (Frame.trans ?_ (Frame.ite (frame_deliver i.copied _) (.refl _)))
  exact Frame.ite (frame_sendRequest i.write i.output _) (.refl _)

theorem frame_networkService (i : Polling) (n : Network) :
    Frame (pollChat i { n with initialized := true }) (networkService i n) := by
  rw [networkService_eq]
  exact Frame.ite (.refl _) ((frame_polled i _).trans (frame_finish _))

theorem inv_polled (h : Inv n) (hrun : n.running = true) (i : Polling) :
    Inv (polled i n) := by
  have hdeliver : ∀ {n : Network}, Inv n →
      Inv (if n.service.active && n.failure.isNone then n.deliver i.copied else n) := by
    intro n h
    split
    next => exact h.deliver _
    next => exact h
  have hsend : ∀ {n : Network}, Inv n → n.running = true →
      Inv (if n.service.active && n.failure.isNone && n.client.isSome then
        n.sendRequest i.write i.output else n) := by
    intro n h hrun
    split
    next hguard =>
      rw [Bool.and_eq_true, Bool.and_eq_true] at hguard
      exact h.sendRequest hrun hguard.1.1 hguard.2 _ _
    next => exact h
  unfold polled
  refine hdeliver (hsend ?_ ?_)
  · split
    next => exact h.fail _
    next => exact h
  · split
    next => exact hrun
    next => exact hrun

theorem inv_networkService (h : Inv n) {i : Polling}
    (hfew : (Network.networkService i n).number < 2 ^ 32) : Inv (Network.networkService i n) := by
  rw [(frame_networkService i n).1] at hfew
  have hpolled : Inv (Network.pollChat i { n with initialized := true }) :=
    inv_pollChat (h.flags _ _ _ _ _) hfew
  rw [networkService_eq]
  split
  next => exact hpolled
  next hrun => exact (inv_polled hpolled (by simpa using hrun) i).finish

/-! ## Steps -/

/-- A name that was looked up is looked up no more. -/
theorem answered (h : Inv n) {i : Nat} {q : Query} (hq : n.queries[i]? = some q) :
    Inv { n with queries := n.queries.eraseIdx i } ∧
      q.number ∉ (n.queries.eraseIdx i).map (·.number) := by
  obtain ⟨hi, hget⟩ := List.getElem?_eq_some_iff.mp hq
  have hperm := (List.getElem_cons_eraseIdx_perm hi).map (·.number)
  have hnodup := hperm.nodup_iff.mpr h.single
  rw [List.map_cons, hget, List.nodup_cons] at hnodup
  have hsub : ∀ {k}, k ∈ n.queries.eraseIdx i → k ∈ n.queries :=
    fun hk => List.mem_of_mem_eraseIdx hk
  refine ⟨⟨⟨h.generation, fun k hk => h.queries k (hsub hk), hnodup.2, h.connections, h.distinct⟩,
    fun hrun hactive => ?_⟩, hnodup.1⟩
  obtain ⟨hlive, hstarted⟩ := h.live hrun hactive
  exact ⟨{ hlive with waiting := fun k hk => hlive.waiting k (hsub hk) }, hstarted⟩

theorem inv_step (h : Inv n) {e : Network.Event} (hfew : (n.step e).number < 2 ^ 32) :
    Inv (n.step e) := by
  cases e with
  | request env i data => exact h.request hfew
  | service i => exact inv_networkService h hfew
  | resolved query found o =>
    show Inv (n.answer query found o)
    unfold answer
    split
    next => exact h
    next q hq =>
      obtain ⟨hinv, hnot⟩ := answered h hq
      obtain ⟨htoken, -, hfresh⟩ := h.queries q (List.mem_of_getElem? hq)
      rw [← htoken] at hnot hfresh
      refine hinv.resolved hfresh hnot fun hrun hactive hnumber => ?_
      obtain ⟨hlive, -⟩ := h.live hrun hactive
      exact hlive.waiting q (List.mem_of_getElem? hq) (htoken.symm.trans hnumber)
  | callback connection c =>
    show Inv (n.called connection c)
    unfold called
    split
    next => exact h
    next k _ => exact h.call k.token c

/-- What a step makes of the generations and of the requests. -/
def Made (n : Network) (e : Network.Event) (n' : Network) : Prop :=
  n.number ≤ n'.number ∧ (n'.started = n.started ∨ ∃ env i, e = .request env i [3] ∧
    n'.started = n.started ++ [⟨n.number + 1, env, n.service.request⟩])

theorem Frame.made {n n' : Network} (h : Frame n n') (e : Network.Event) : Made n e n' :=
  ⟨h.1.ge, Or.inl h.2⟩

/-- The start of a request, and the error when it cannot be started. -/
theorem started_made {n m : Network} (hnumber : m.number = n.number)
    (hstarted : m.started = n.started) (hrequest : m.service.request = n.service.request)
    (env : Option (List Entry)) (i : Starting) : Made n (.request env i [3]) (if (start env i m).1 then (start env i m).2
      else { (start env i m).2 with
        service := chatError (text "Cannot start HTTP request".toList)
          (start env i m).2.service }) := by
  obtain ⟨hnumber', hstarted'⟩ := start_made env i m
  rw [hnumber] at hnumber'
  rw [hnumber, hstarted, hrequest] at hstarted'
  generalize start env i m = r at hnumber' hstarted' ⊢
  have hle : n.number ≤ r.2.number := (Nat.le_succ _).trans hnumber'.ge
  split
  next => exact ⟨hle, Or.inr ⟨env, i, rfl, hstarted'⟩⟩
  next => exact ⟨hle, Or.inr ⟨env, i, rfl, hstarted'⟩⟩

theorem serve_made (env : Option (List Entry)) (i : Starting) (data : List UInt8) (n : Network) :
    Made n (.request env i data) (n.serve env i data) := by
  unfold serve
  split
  next => exact Frame.made (.refl n) _
  next =>
    split
    next => exact ⟨Nat.le_succ _, Or.inl rfl⟩
    next =>
      split
      next hstart =>
        obtain ⟨rfl, hoff, hne, honline⟩ := hstart
        dsimp only
        split
        next => exact ⟨le_refl _, Or.inl rfl⟩
        next =>
          have hmade := started_made (n := n) (m := { n with
              endpoint := (loadSettings env).2
              service := (chatService ⟨none, true⟩ [3] n.service).2.2 })
            rfl rfl (chatService_start hoff hne honline).1 env i
          exact hmade
      next => exact ⟨le_refl _, Or.inl rfl⟩

theorem step_made (n : Network) (e : Network.Event) : Made n e (n.step e) := by
  cases e with
  | request env i data => exact serve_made env i data n
  | service i =>
    obtain ⟨hnumber, hstarted⟩ := frame_networkService i n
    obtain ⟨hle, hsame⟩ := pollChat_made i { n with initialized := true }
    exact ⟨hnumber ▸ hle, Or.inl (hstarted.trans hsame)⟩
  | resolved query found o =>
    show Made n _ (n.answer query found o)
    unfold answer
    split
    next => exact Frame.made (.refl n) _
    next q _ => 
      obtain ⟨hnumber, hstarted⟩ := frame_resolved q.name found q.token o
        { n with queries := n.queries.eraseIdx query }
      exact ⟨hnumber.ge, Or.inl hstarted⟩
  | callback connection c =>
    show Made n _ (n.called connection c)
    unfold called
    split
    next => exact Frame.made (.refl n) _
    next k _ => exact Frame.made (frame_call k.token c n) _

/-! ## Runs -/

theorem run_concat (events : List Network.Event) (e : Network.Event) :
    Network.run (events ++ [e]) = (Network.run events).step e :=
  List.foldl_concat ..

theorem inv_init : Inv Network.init := by
  refine ⟨⟨rfl, fun q hq => ?_, List.nodup_nil, fun c hc => ?_, List.nodup_nil⟩, fun hrun => ?_⟩
  · exact absurd hq List.not_mem_nil
  · exact absurd hc List.not_mem_nil
  · cases hrun

theorem inv_run {events : List Network.Event} (hfew : (Network.run events).number < 2 ^ 32) :
    Inv (Network.run events) := by
  induction events using List.reverseRecOn with
  | nil => exact inv_init
  | append_singleton events e ih =>
    rw [run_concat] at hfew ⊢
    exact inv_step (ih ((step_made (Network.run events) e).1.trans_lt hfew)) hfew

/-- Where a request was made. -/
theorem started_run {events : List Network.Event} {r : Request}
    (h : r ∈ (Network.run events).started) :
    ∃ before i after, events = before ++ .request r.env i [3] :: after ∧
      r.body = (Network.run before).service.request := by
  induction events using List.reverseRecOn with
  | nil => exact absurd h List.not_mem_nil
  | append_singleton events e ih =>
    rw [run_concat] at h
    have hbefore : r ∈ (Network.run events).started → ∃ before i after,
        events ++ [e] = before ++ .request r.env i [3] :: after ∧
          r.body = (Network.run before).service.request := by
      intro hr
      obtain ⟨before, i, after, rfl, hbody⟩ := ih hr
      exact ⟨before, i, after ++ [e], by simp, hbody⟩
    rcases (step_made (Network.run events) e).2 with hsame | ⟨env, i, rfl, hstarted⟩
    · rw [hsame] at h
      exact hbefore h
    · rw [hstarted] at h
      rcases List.mem_append.mp h with hr | hr
      · exact hbefore hr
      · rw [List.mem_singleton.mp hr]
        exact ⟨events, i, [], rfl, rfl⟩

/-! ## Earlier requests -/

theorem call_stale {token : UInt32} (h : n.current token = false) (c : Callback) :
    n.call token c = n := by
  have hguard : ∀ b, (!n.current token || b) = true := fun b => by rw [h]; rfl
  cases c with
  | error =>
    show n.socketError token = n
    unfold socketError
    rw [if_pos (by rw [h]; rfl)]
  | connected pcb ok =>
    show n.connected token pcb ok = n
    unfold connected
    rw [if_pos (hguard _)]
  | receive pcb data ok =>
    show n.receive token pcb data ok = n
    unfold receive
    rw [if_pos (hguard _)]

theorem current_stale {token : UInt32}
    (h : n.running = false ∨ token ≠ n.generation) : n.current token = false := by
  rw [Bool.eq_false_iff, ne_eq, current_iff, not_and_or]
  rcases h with h | h
  · exact Or.inl (by rw [h]; decide)
  · exact Or.inr h

/-- A connection of an earlier request, or of one that is over, changes nothing. -/
theorem called_stale (h : Inv n) {connection : Nat} {k : Connection}
    (hk : n.connections[connection]? = some k)
    (hstale : n.running = false ∨ k.request.number ≠ n.number) (c : Callback) :
    n.called connection c = n := by
  obtain ⟨hexact, hle, -⟩ := h.connections k (List.mem_of_getElem? hk)
  have hpos := hexact.positive
  have hgeneration := h.generation
  have hother : n.running = false ∨ k.token ≠ n.generation := by
    rcases hstale with hstale | hstale
    · exact Or.inl hstale
    · refine Or.inr fun he => ?_
      rcases hexact.token with hzero | htoken
      · rw [← he, hzero] at hgeneration
        have hnone : 0 = n.number := hgeneration
        omega
      · rw [he] at htoken
        exact hstale (htoken.symm.trans hgeneration)
  unfold called
  rw [hk]
  exact call_stale (current_stale hother) c

/-- A name that was looked up for an earlier request, or for one that is over, opens nothing. -/
theorem answer_stale (h : Inv n) {query : Nat} {q : Query} (hq : n.queries[query]? = some q)
    (hstale : n.running = false ∨ q.number ≠ n.number) (found : Bool) (o : Opening) :
    n.answer query found o = { n with queries := n.queries.eraseIdx query } := by
  obtain ⟨htoken, -⟩ := h.queries q (List.mem_of_getElem? hq)
  have hother : n.running = false ∨ q.token ≠ n.generation := by
    rcases hstale with hstale | hstale
    · exact Or.inl hstale
    · exact Or.inr fun he => hstale (by rw [← htoken, he, h.generation])
  have hcurrent := current_stale hother
  unfold answer
  rw [hq]
  dsimp only
  unfold resolved
  rw [if_pos]
  show (!n.current q.token || _ || _) = true
  rw [hcurrent]
  rfl

/-! ## Confinement -/

/-- What a connection did, in the run that it stands in. -/
structure Confined (events : List Network.Event) (c : Connection) : Prop where
  /-- Its request was made in the run, for the text that stood there. -/
  made : ∃ before i after, events = before ++ .request c.request.env i [3] :: after ∧
    c.request.body = (Network.run before).service.request
  sent : ∃ e, loadSettings c.request.env = (none, e) ∧ Configured c.request.env e ∧
    c.written <+: headerText e c.request.body.length ++ c.request.body ∧
    headerText e c.request.body.length =
      (headerLines e c.request.body.length).flatMap (· ++ crlf) ++ crlf ∧
    (∀ line ∈ headerLines e c.request.body.length, Whole line ∧
      (authorization <+: line → OpenAi c.request.env ∧ (c.connect ≠ none →
        c.connect = some (apiHost, 443) ∧ c.tls = true ∧ c.hostname = some apiHost))) ∧
    (c.connect = none → c.written = []) ∧
    (c.connect ≠ none → c.connect = some (e.host, e.port) ∧ c.tls = e.https ∧
      (e.https = true → c.hostname = some e.host))

theorem confined_of_exact {events : List Network.Event} {c : Connection} (h : Exact c)
    (hstarted : c.request ∈ (Network.run events).started) : Confined events c := by
  obtain ⟨e, hsettings, hwritten, hclosed, hto⟩ := h.sent
  have hconfigured := loadSettings_configured hsettings
  refine ⟨started_run hstarted, e, hsettings, hconfigured, hwritten, headerText_lines e _,
    fun line hline => ⟨headerLines_whole hconfigured hline, fun hauth => ?_⟩, hclosed, hto⟩
  obtain ⟨hprovider, hhttps, hhost, hport⟩ :=
    hconfigured.confined (authorization_line hline hauth)
  refine ⟨hprovider, fun hne => ?_⟩
  obtain ⟨hconnect, htls, hname⟩ := hto hne
  rw [hhost, hport] at hconnect
  rw [hhttps] at htls
  exact ⟨hconnect, htls, hhost ▸ hname hhttps⟩

theorem request_confined (events : List Network.Event)
    (hfew : (Network.run events).number < 2 ^ 32) :
    (∀ c ∈ (Network.run events).connections, Confined events c) ∧
    ((Network.run events).connections.map (·.request.number)).Nodup ∧
    (∀ connection k c, (Network.run events).connections[connection]? = some k →
      ((Network.run events).running = false ∨
        k.request.number ≠ (Network.run events).number) →
      (Network.run events).step (.callback connection c) = Network.run events) ∧
    (∀ query q found o, (Network.run events).queries[query]? = some q →
      ((Network.run events).running = false ∨ q.number ≠ (Network.run events).number) →
      (Network.run events).step (.resolved query found o) =
        { Network.run events with queries := (Network.run events).queries.eraseIdx query }) := by
  have hinv := inv_run hfew
  refine ⟨fun c hc => ?_, hinv.distinct, fun connection k c hk hstale => ?_,
    fun query q found o hq hstale => ?_⟩
  · obtain ⟨hexact, -, hstarted⟩ := hinv.connections c hc
    exact confined_of_exact hexact hstarted
  · exact called_stale hinv hk hstale c
  · exact answer_stale hinv hq hstale found o

/-- A request that is looked up, opened and sent, with these settings. -/
def exchange (entries : List Entry) : List Network.Event :=
  let service : Polling := ⟨true, 7, false, .ok, .ok, true⟩
  let i : Starting := ⟨true, true, .inProgress, ⟨true, true, true⟩⟩
  [.service service, .request none i [1, 123, 125], .request (some entries) i [3],
    .resolved 0 true ⟨true, true, true⟩, .callback 0 (.connected 0 true), .service service,
    .service service]

def openaiSettings : List Entry := [⟨providerName, openai⟩, ⟨keyName, [107]⟩]

theorem request_confined_sent :
    ∃ c ∈ (Network.run (exchange openaiSettings)).connections,
      c.written ≠ [] ∧ Confined (exchange openaiSettings) c := by
  have hsent : ∃ c ∈ (Network.run (exchange openaiSettings)).connections, c.written ≠ [] := by
    decide +kernel
  obtain ⟨c, hc, hwritten⟩ := hsent
  exact ⟨c, hc, hwritten, (request_confined _ (by decide +kernel)).1 c hc⟩

/-- A `CHAT_PROVIDER` that is set to nothing is as good as none. -/
theorem credential_empty_provider :
    ∃ entries, (Network.run (exchange entries)).number < 2 ^ 32 ∧
      getValue entries (normalizeKey providerName) 256 = some [] ∧
      ∃ c ∈ (Network.run (exchange entries)).connections, c.request.env = some entries ∧
        authorization ++ [107] ++ crlf <:+: c.written := by
  refine ⟨[⟨providerName, []⟩, ⟨keyName, [107]⟩], ?_⟩
  decide +kernel

end Z80Sbc.Chat.Exchange
