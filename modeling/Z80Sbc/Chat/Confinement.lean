import Z80Sbc.Chat.HeaderLines
import Z80Sbc.Chat.Network

/-! # What a request sends, and where

Every connection belongs to one request. The bytes that it accepted are the first of that
request's header and text, and it goes where the settings of the request say. What comes from an
earlier request changes nothing. -/

namespace Z80Sbc.Chat.Confinement
open Z80Sbc.Chat Network HeaderLines
open Z80Sbc.Env (Entry)

/-! ## The service -/

/-- A request that is not over was there, with the same text. -/
def Keeps (s s' : Service) : Prop := s'.active = true → s.active = true ∧ s'.request = s.request

theorem Keeps.refl (s : Service) : Keeps s s := fun ha => ⟨ha, rfl⟩

theorem Keeps.trans {s s' s'' : Service} (h : Keeps s s') (h' : Keeps s' s'') : Keeps s s'' := by
  intro ha
  obtain ⟨ha', hrequest'⟩ := h' ha
  obtain ⟨ha'', hrequest⟩ := h ha'
  exact ⟨ha'', hrequest'.trans hrequest⟩

theorem keeps_chatError (message : List UInt8) (s : Service) : Keeps s (chatError message s) :=
  fun h => by cases h

theorem keeps_chatReceive (data : List UInt8) (s : Service) : Keeps s (chatReceive data s).2 := by
  unfold chatReceive
  split
  next => exact .refl s
  next =>
    dsimp only
    split
    next => exact fun h => by cases h
    next =>
      dsimp only
      split
      next => exact fun h => by cases h
      next => exact fun h => ⟨h, rfl⟩

theorem keeps_networkPoll (connected : Bool) (generation : UInt32) (s : Service) :
    Keeps s (networkPoll connected generation s) := by
  have hreceive : ∀ s : Service,
      Keeps s (chatReceive [] { s with online := connected, generation := generation }).2 := by
    intro s
    refine Keeps.trans ?_ (keeps_chatReceive [] _)
    exact fun h => ⟨h, rfl⟩
  unfold networkPoll
  split
  next => exact (keeps_chatError _ s).trans (hreceive _)
  next => exact hreceive s

theorem keeps_ite {s : Service} {c : Prop} [Decidable c]
    {p q : Io.ServiceError × List UInt8 × Service} (hp : c → Keeps s p.2.2)
    (hq : ¬ c → Keeps s q.2.2) : Keeps s (if c then p else q).2.2 := by
  split
  next h => exact hp h
  next h => exact hq h

/-- Only a start makes the service active. -/
theorem keeps_chatService (o : Start) (data : List UInt8) {s : Service}
    (h : ¬ (data = [3] ∧ !s.active ∧ s.request ≠ [] ∧ s.online)) :
    Keeps s (chatService o data s).2.2 := by
  have hsame : Keeps s s := .refl s
  cases data with
  | nil => exact hsame
  | cons operation rest =>
    unfold chatService
    refine keeps_ite (fun _ => hsame) fun _ => keeps_ite (fun _ => hsame) fun hlength =>
      keeps_ite (fun _ ha => by cases ha) fun _ => keeps_ite (fun _ => ?_) fun _ =>
        keeps_ite (fun _ ha => by cases ha) fun _ => keeps_ite (fun h3 => ?_) fun _ =>
          keeps_ite (fun _ => hsame) fun _ => keeps_ite (fun _ => hsame) fun _ => ?_
    · -- the text grows only while no request is made
      refine keeps_ite (fun _ => hsame) fun hactive => keeps_ite (fun _ => hsame) fun _ =>
        keeps_ite (fun _ => hsame) fun _ ha => absurd ha hactive
    · refine keeps_ite (fun _ => hsame) fun hactive =>
        keeps_ite (fun _ => hsame) fun hne => ?_
      have hrest : rest = [] := by
        by_contra hrest
        refine hlength (Or.inr ?_)
        rw [h3, if_neg (by decide)]
        exact ⟨by decide, fun hc => hrest (List.length_eq_zero_iff.mp hc)⟩
      have hoffline : s.online ≠ true := by
        intro honline
        refine h ⟨by rw [h3, hrest], ?_, hne, honline⟩
        rw [Bool.not_eq_true] at hactive
        rw [hactive]
        rfl
      intro ha
      unfold startRequest at ha
      rw [if_pos] at ha
      · cases ha
      · show (!s.online) = true
        rw [Bool.eq_false_iff.mpr hoffline]
        rfl
    · exact fun ha => ⟨ha, rfl⟩

/-- A start that is allowed, before the network side of it. -/
theorem chatService_start {s : Service} (ha : (!s.active) = true) (hne : s.request ≠ [])
    (honline : s.online = true) :
    (chatService ⟨none, true⟩ [3] s).2.2.request = s.request ∧
      ∀ message b, (chatService ⟨some message, b⟩ [3] s).2.2.active = false := by
  have hactive : s.active = false := by
    rw [← Bool.not_eq_true']
    exact ha
  have hserve : ∀ o, chatService o [3] s = (.ok, [], startRequest o s) := by
    intro o
    show (if s.active then (Io.ServiceError.busyError, [], s)
      else if s.request = [] then (.invalidState, [], s) else (.ok, [], startRequest o s)) = _
    rw [if_neg (by rw [hactive]; decide), if_neg hne]
  have hon : ¬ (!(clearResponse { s with stream := streamInit }).online) = true := by
    show ¬ (!s.online) = true
    rw [honline]
    decide
  refine ⟨?_, fun message b => ?_⟩
  · rw [hserve]
    unfold startRequest
    rw [if_neg hon]
    rfl
  · rw [hserve]
    unfold startRequest
    rw [if_neg hon]
    rfl

/-! ## One connection -/

/-- What a connection has to do with the request that it was opened for. -/
structure Exact (c : Connection) : Prop where
  positive : 0 < c.request.number
  token : c.token = 0 ∨ c.token.toNat = c.request.number
  sent : ∃ e, loadSettings c.request.env = (none, e) ∧
    c.written <+: headerText e c.request.body.length ++ c.request.body ∧
      (c.connect = none → c.written = []) ∧
        (c.connect ≠ none → c.connect = some (e.host, e.port) ∧ c.tls = e.https ∧
          (e.https = true → c.hostname = some e.host))

/-- A request that is being made, as the network has it. -/
structure Live (n : Network) : Prop where
  number : n.request.number = n.number ∧ 0 < n.number
  settings : loadSettings n.request.env = (none, n.endpoint)
  body : n.service.request = n.request.body ∧ n.bodyLength = n.request.body.length
  header : n.header = headerText n.endpoint n.request.body.length
  headerSent : n.headerSent ≤ n.header.length
  bodySent : n.bodySent ≤ n.bodyLength ∧ (n.bodySent ≠ 0 → n.headerSent = n.header.length)
  client : ∀ i, n.client = some i → ∃ c, n.connections[i]? = some c ∧ c.request = n.request ∧
    (n.failure = none → c.connect ≠ none) ∧
      c.written = n.header.take n.headerSent ++ n.request.body.take n.bodySent
  unopened : n.number ∉ n.connections.map (·.request.number) → n.headerSent = 0 ∧ n.bodySent = 0
  waiting : ∀ q ∈ n.queries, q.number = n.number → q.name = n.endpoint.host

/-- What holds of the generations and of what was opened. -/
structure Base (n : Network) : Prop where
  generation : n.generation.toNat = n.number
  queries : ∀ q ∈ n.queries, q.token.toNat = q.number ∧ q.number ≤ n.number ∧
    q.number ∉ n.connections.map (·.request.number)
  single : (n.queries.map (·.number)).Nodup
  connections : ∀ c ∈ n.connections, Exact c ∧ c.request.number ≤ n.number ∧ c.request ∈ n.started
  distinct : (n.connections.map (·.request.number)).Nodup

structure Inv (n : Network) : Prop extends Base n where
  live : n.running = true → n.service.active = true → Live n ∧ n.request ∈ n.started

variable {n : Network}

/-- The service goes on, and the request is over or as it was. -/
theorem Inv.serve (h : Inv n) {s : Service} (hs : Keeps n.service s) :
    Inv { n with service := s } := by
  refine ⟨⟨h.generation, h.queries, h.single, h.connections, h.distinct⟩, fun hrun hactive => ?_⟩
  obtain ⟨hon, hrequest⟩ := hs hactive
  obtain ⟨hlive, hstarted⟩ := h.live hrun hon
  refine ⟨?_, hstarted⟩
  exact { hlive with body := ⟨hrequest.trans hlive.body.1, hlive.body.2⟩ }

theorem Inv.fail (h : Inv n) (message : String) : Inv (n.fail message) := by
  refine ⟨⟨h.generation, h.queries, h.single, h.connections, h.distinct⟩, fun hrun hactive => ?_⟩
  obtain ⟨hlive, hstarted⟩ := h.live hrun hactive
  refine ⟨{ hlive with client := fun i hi => ?_ }, hstarted⟩
  obtain ⟨c, hc, hrequest, -, hwritten⟩ := hlive.client i hi
  have hfailed : (n.fail message).failure = none → c.connect ≠ none := fun hnone => by cases hnone
  exact ⟨c, hc, hrequest, hfailed, hwritten⟩

/-- What the callbacks note down is not part of it. -/
theorem Inv.flags (h : Inv n) (ready closed initialized : Bool) (pending : Option (List UInt8))
    (offset : Nat) : Inv { n with
      handshakeReady := ready, remoteClosed := closed, initialized, pending,
      pendingOffset := offset } := by
  refine ⟨⟨h.generation, h.queries, h.single, h.connections, h.distinct⟩, fun hrun hactive => ?_⟩
  obtain ⟨hlive, hstarted⟩ := h.live hrun hactive
  exact ⟨{ hlive with }, hstarted⟩

theorem Inv.drop (h : Inv n) : Inv { n with client := none } := by
  refine ⟨⟨h.generation, h.queries, h.single, h.connections, h.distinct⟩, fun hrun hactive => ?_⟩
  obtain ⟨hlive, hstarted⟩ := h.live hrun hactive
  exact ⟨{ hlive with client := fun i hi => by cases hi }, hstarted⟩

theorem Inv.release (h : Inv n) : Inv { n with running := false }.releaseClient :=
  ⟨⟨h.generation, h.queries, h.single, h.connections, h.distinct⟩, fun hrun => by cases hrun⟩

theorem Base.cancel (h : Base n) (hfew : n.number + 1 < 2 ^ 32) : Inv n.cancel := by
  have hgeneration := h.generation
  have hnext : (n.generation + 1).toNat = n.number + 1 := by
    rw [UInt32.toNat_add, hgeneration]
    exact Nat.mod_eq_of_lt hfew
  have hne : n.generation + 1 ≠ 0 := by
    intro hzero
    rw [hzero] at hnext
    cases hnext
  refine ⟨⟨?_, fun q hq => ?_, h.single, fun c hc => ?_, h.distinct⟩, fun hrun => by cases hrun⟩
  · show (if n.generation + 1 = 0 then n.generation + 1 + 1 else n.generation + 1).toNat = _
    rw [if_neg hne]
    exact hnext
  · obtain ⟨htoken, hle, hnone⟩ := h.queries q hq
    exact ⟨htoken, Nat.le_succ_of_le hle, hnone⟩
  · obtain ⟨hexact, hle, hstarted⟩ := h.connections c hc
    exact ⟨hexact, Nat.le_succ_of_le hle, hstarted⟩

/-! ## Opening -/

theorem current_iff {token : UInt32} : n.current token = true ↔
    n.running = true ∧ token = n.generation := by
  unfold current
  rw [Bool.and_eq_true, beq_iff_eq]

/-- A request opens its connection before it has sent anything. -/
theorem Inv.open (h : Inv n) (hrun : n.running = true) (hactive : n.service.active = true)
    (hfresh : n.number ∉ n.connections.map (·.request.number))
    (hnot : n.number ∉ n.queries.map (·.number)) {c : Connection} (hc : Exact c)
    (hrequest : c.request = n.request) (hwritten : c.written = [])
    (hconnect : n.failure = none → c.connect ≠ none) :
    Inv { n with
      client := some n.connections.length
      connections := n.connections ++ [c] } := by
  obtain ⟨hlive, hstarted⟩ := h.live hrun hactive
  obtain ⟨hheader, hbody⟩ := hlive.unopened hfresh
  have hnumber : c.request.number = n.number := by rw [hrequest, hlive.number.1]
  have hnumbers : (n.connections ++ [c]).map (·.request.number) =
      n.connections.map (·.request.number) ++ [n.number] := by
    rw [List.map_append, List.map_singleton, hnumber]
  refine ⟨⟨h.generation, fun q hq => ?_, h.single, fun k hk => ?_, ?_⟩, fun _ _ => ⟨?_, hstarted⟩⟩
  · obtain ⟨htoken, hle, hnone⟩ := h.queries q hq
    refine ⟨htoken, hle, ?_⟩
    show q.number ∉ (n.connections ++ [c]).map (·.request.number)
    rw [hnumbers, List.mem_append, List.mem_singleton]
    rintro (hc | hc)
    · exact hnone hc
    · exact hnot (hc ▸ List.mem_map_of_mem hq)
  · rcases List.mem_append.mp hk with hk | hk
    · exact h.connections k hk
    · rw [List.mem_singleton.mp hk]
      exact ⟨hc, hnumber.le, hrequest ▸ hstarted⟩
  · show ((n.connections ++ [c]).map (·.request.number)).Nodup
    rw [hnumbers]
    exact List.nodup_append.mpr ⟨h.distinct, List.nodup_singleton _, fun a ha b hb he =>
      hfresh (List.mem_singleton.mp hb ▸ he ▸ ha)⟩
  · refine { hlive with client := fun i hi => ?_, unopened := fun hnone => ?_ }
    · cases hi
      refine ⟨c, List.getElem?_concat_length, hrequest, hconnect, ?_⟩
      show c.written = n.header.take n.headerSent ++ n.request.body.take n.bodySent
      rw [hheader, hbody, hwritten]
      rfl
    · exact ⟨hheader, hbody⟩

theorem Inv.resolved (h : Inv n) {name : List UInt8} {found : Bool} {token : UInt32} {o : Opening}
    (hfresh : token.toNat ∉ n.connections.map (·.request.number))
    (hnot : token.toNat ∉ n.queries.map (·.number))
    (hname : n.running = true → n.service.active = true → token.toNat = n.number →
      name = n.endpoint.host) : Inv (n.resolved name found token o) := by
  unfold Network.resolved
  split
  next => exact h
  next hguard =>
    rw [Bool.or_eq_true, Bool.or_eq_true, not_or, not_or] at hguard
    obtain ⟨⟨hcurrent, hfailure⟩, hactive⟩ := hguard
    obtain ⟨hrun, htoken⟩ := current_iff.mp (by simpa using hcurrent)
    have hon : n.service.active = true := by simpa using hactive
    have hnumber : token.toNat = n.number := by rw [htoken, h.generation]
    obtain ⟨hlive, -⟩ := h.live hrun hon
    have hhost : name = n.endpoint.host := hname hrun hon hnumber
    have hrequest : n.request.number = token.toNat := hlive.number.1.trans hnumber.symm
    have hpos : 0 < n.request.number := hlive.number.1 ▸ hlive.number.2
    rw [hnumber] at hfresh hnot
    split
    next => exact h.fail _
    next =>
      split
      next => exact h.drop.fail _
      next =>
        dsimp only
        split
        next =>
          refine (h.fail "TLS hostname verification setup failed").open hrun hon hfresh hnot ?_ rfl
            rfl fun hnone => by cases hnone
          exact ⟨hpos, Or.inl rfl, n.endpoint, hlive.settings, List.nil_prefix,
            fun _ => rfl, fun hc => absurd rfl hc⟩
        next =>
          have hopen := h.open hrun hon hfresh hnot
            (c := ⟨token, n.endpoint.https, if n.endpoint.https then some n.endpoint.host else none,
              some (name, n.endpoint.port), [], n.request⟩)
            ⟨hpos, Or.inr hrequest.symm, n.endpoint, hlive.settings, List.nil_prefix,
              fun _ => rfl, fun _ => ⟨by rw [hhost], rfl, fun hhttps => if_pos hhttps⟩⟩
            rfl rfl fun _ hc => by cases hc
          split
          next => exact hopen
          next => exact hopen.fail _

/-! ## Sending -/

theorem map_modify {l : List Connection} {i : Nat} {f : Connection → Connection}
    (hf : ∀ c, (f c).request = c.request) :
    (l.modify i f).map (·.request.number) = l.map (·.request.number) := by
  refine List.ext_getElem? fun j => ?_
  rw [List.getElem?_map, List.getElem?_map, List.getElem?_modify]
  cases l[j]? with
  | none => rfl
  | some c =>
    by_cases hij : i = j
    · simp [hij, hf]
    · simp [hij]

theorem mem_modify {l : List Connection} {i : Nat} {f : Connection → Connection} {c k : Connection}
    (hc : l[i]? = some c) (hk : k ∈ l.modify i f) : k ∈ l ∨ k = f c := by
  obtain ⟨j, hj⟩ := List.mem_iff_getElem?.mp hk
  rw [List.getElem?_modify] at hj
  by_cases hij : i = j
  · rw [← hij, hc] at hj
    simp only [↓reduceIte, Option.map_eq_map, Option.map_some, Option.some.injEq] at hj
    exact Or.inr hj.symm
  · simp only [if_neg hij, Option.map_eq_map, Option.map_id_fun', id_eq] at hj
    exact Or.inl (List.mem_of_getElem? hj)

theorem accept_sent (data : List UInt8) (n : Network) :
    (n.accept data).headerSent = n.headerSent ∧ (n.accept data).bodySent = n.bodySent := by
  unfold accept
  split
  next => exact ⟨rfl, rfl⟩
  next => exact ⟨rfl, rfl⟩

/-- The bytes that the connection accepts are the next ones. -/
theorem Inv.advance (h : Inv n) (hrun : n.running = true) (hactive : n.service.active = true)
    (hfailure : n.failure = none) {data : List UInt8} {header body : Nat}
    (hnext : n.header.take header ++ n.request.body.take body =
      n.header.take n.headerSent ++ n.request.body.take n.bodySent ++ data)
    (hheader : header ≤ n.header.length)
    (hbody : body ≤ n.bodyLength ∧ (body ≠ 0 → header = n.header.length))
    (hclient : n.client.isSome = true) :
    Inv { n.accept data with headerSent := header, bodySent := body } := by
  obtain ⟨hlive, hstarted⟩ := h.live hrun hactive
  obtain ⟨i, hi⟩ := Option.isSome_iff_exists.mp hclient
  obtain ⟨c, hc, hrequest, hconnect, hwritten⟩ := hlive.client i hi
  have haccept : n.accept data = { n with
      connections := n.connections.modify i fun c => { c with written := c.written ++ data } } := by
    unfold accept
    rw [hi]
  have hnumbers := map_modify (l := n.connections) (i := i)
    (f := fun c => { c with written := c.written ++ data }) fun _ => rfl
  obtain ⟨hexact, hle, hmade⟩ := h.connections c (List.mem_of_getElem? hc)
  rw [haccept]
  refine ⟨⟨h.generation, fun q hq => ?_, h.single, fun k hk => ?_, ?_⟩, fun _ _ => ⟨?_, hstarted⟩⟩
  · obtain ⟨htoken, hlq, hnone⟩ := h.queries q hq
    refine ⟨htoken, hlq, ?_⟩
    show q.number ∉ (n.connections.modify i _).map (·.request.number)
    rw [hnumbers]
    exact hnone
  · rcases mem_modify hc hk with hk | rfl
    · exact h.connections k hk
    · refine ⟨⟨hexact.positive, hexact.token, ?_⟩, hle, hmade⟩
      obtain ⟨e, hsettings, -, -, hto⟩ := hexact.sent
      have hendpoint : e = n.endpoint := by
        rw [hrequest, hlive.settings] at hsettings
        exact (Prod.mk.inj hsettings).2.symm
      refine ⟨e, hsettings, ?_, fun hnone => absurd hnone (hconnect hfailure), hto⟩
      show c.written ++ data <+: headerText e c.request.body.length ++ c.request.body
      rw [hwritten, ← hnext, hrequest, hendpoint, ← hlive.header]
      by_cases hbody0 : body = 0
      · rw [hbody0, List.take_zero, List.append_nil]
        exact (List.take_prefix _ _).trans (List.prefix_append _ _)
      · rw [hbody.2 hbody0, List.take_length]
        exact (List.prefix_append_right_inj _).mpr (List.take_prefix _ _)
  · show ((n.connections.modify i _).map (·.request.number)).Nodup
    rw [hnumbers]
    exact h.distinct
  · refine { hlive with
      headerSent := hheader
      bodySent := hbody
      client := fun j hj => ?_
      unopened := fun hnone => ?_ }
    · have hij : i = j := Option.some.inj (hi.symm.trans hj)
      refine ⟨{ c with written := c.written ++ data }, ?_, hrequest, hconnect, ?_⟩
      · show (n.connections.modify i _)[j]? = _
        rw [← hij, List.getElem?_modify, hc]
        simp
      · show c.written ++ data = n.header.take header ++ n.request.body.take body
        rw [hnext, hwritten]
    · have hin : n.number ∈ n.connections.map (·.request.number) := by
        rw [← hlive.number.1, ← hrequest]
        exact List.mem_map_of_mem (List.mem_of_getElem? hc)
      refine absurd ?_ hnone
      show n.number ∈ (n.connections.modify i _).map (·.request.number)
      rw [hnumbers]
      exact hin

theorem Inv.flush (h : Inv n) (output : Written) : Inv (n.flush output) := by
  cases output with
  | error => exact h.fail _
  | ok => exact h
  | memory => exact h

theorem Inv.sendRequest (h : Inv n) (hrun : n.running = true) (hactive : n.service.active = true)
    (hclient : n.client.isSome = true) (write output : Written) :
    Inv (n.sendRequest write output) := by
  obtain ⟨hlive, -⟩ := h.live hrun hactive
  have hbodyLength := hlive.body.2
  have hheaderSent := hlive.headerSent
  have hbodySent := hlive.bodySent
  unfold Network.sendRequest
  split
  next => exact h
  next hguard =>
    have hfailure : n.failure = none := by
      rw [Bool.or_eq_true, not_or] at hguard
      exact Option.not_isSome_iff_eq_none.mp hguard.2
    by_cases hin : n.headerSent < n.header.length
    · simp only [hin, decide_true, if_true]
      split
      next => exact h.flush output
      next =>
        cases write with
        | memory => exact h.flush output
        | error => exact h.fail _
        | ok =>
          have hbody0 : n.bodySent = 0 := by
            by_contra hne
            have hfull := hbodySent.2 hne
            omega
          obtain ⟨hh, hb⟩ := accept_sent
            ((n.header.drop n.headerSent).take (min (n.header.length - n.headerSent) workBytes)) n
          refine Inv.flush (h.advance hrun hactive hfailure ?_ ?_ ⟨?_, ?_⟩ hclient) output
          · rw [hh, hb, hbody0, List.take_zero, List.append_nil, List.append_nil, ← List.take_add]
          · rw [hh]
            omega
          · rw [hb]
            exact hbodySent.1
          · rw [hb]
            exact fun hne => absurd hbody0 hne
    · simp only [hin, decide_false, Bool.false_eq_true, if_false]
      split
      next => exact h.flush output
      next =>
        cases write with
        | memory => exact h.flush output
        | error => exact h.fail _
        | ok =>
          obtain ⟨hh, hb⟩ := accept_sent
            ((n.service.request.drop n.bodySent).take (min (n.bodyLength - n.bodySent) workBytes)) n
          refine Inv.flush (h.advance hrun hactive hfailure ?_ ?_ ⟨?_, ?_⟩ hclient) output
          · rw [hh, hb, hlive.body.1, List.append_assoc, ← List.take_add]
          · rw [hh]
            exact hheaderSent
          · rw [hb]
            omega
          · rw [hh]
            omega

/-! ## Starting -/

theorem Inv.query (h : Inv n) {q : Query} (htoken : q.token.toNat = q.number)
    (hle : q.number ≤ n.number) (hfresh : q.number ∉ n.connections.map (·.request.number))
    (hnot : q.number ∉ n.queries.map (·.number)) (hname : q.number = n.number →
      q.name = n.endpoint.host) : Inv { n with queries := n.queries ++ [q] } := by
  refine ⟨⟨h.generation, fun k hk => ?_, ?_, h.connections, h.distinct⟩, fun hrun hactive => ?_⟩
  · rcases List.mem_append.mp hk with hk | hk
    · exact h.queries k hk
    · rw [List.mem_singleton.mp hk]
      exact ⟨htoken, hle, hfresh⟩
  · show ((n.queries ++ [q]).map (·.number)).Nodup
    rw [List.map_append, List.map_singleton]
    exact List.nodup_append.mpr ⟨h.single, List.nodup_singleton _, fun a ha b hb he =>
      hnot (List.mem_singleton.mp hb ▸ he ▸ ha)⟩
  · obtain ⟨hlive, hstarted⟩ := h.live hrun hactive
    refine ⟨{ hlive with waiting := fun k hk hnumber => ?_ }, hstarted⟩
    rcases List.mem_append.mp hk with hk | hk
    · exact hlive.waiting k hk hnumber
    · rw [List.mem_singleton.mp hk] at hnumber ⊢
      exact hname hnumber

/-- The generations taken and the requests made are as they were. -/
def Frame (n n' : Network) : Prop := n'.number = n.number ∧ n'.started = n.started

theorem Frame.refl (n : Network) : Frame n n := ⟨rfl, rfl⟩

theorem Frame.trans {n n' n'' : Network} (h : Frame n n') (h' : Frame n' n'') : Frame n n'' :=
  ⟨h'.1.trans h.1, h'.2.trans h.2⟩

theorem frame_resolved (name : List UInt8) (found : Bool) (token : UInt32) (o : Opening)
    (n : Network) : Frame n (n.resolved name found token o) := by
  unfold Network.resolved
  split
  next => exact .refl n
  next =>
    split
    next => exact ⟨rfl, rfl⟩
    next =>
      split
      next => exact ⟨rfl, rfl⟩
      next =>
        dsimp only
        split
        next => exact ⟨rfl, rfl⟩
        next =>
          split
          next => exact ⟨rfl, rfl⟩
          next => exact ⟨rfl, rfl⟩

/-- A start takes one generation, for one request. -/
theorem start_made (env : Option (List Entry)) (i : Starting) (n : Network) :
    (start env i n).2.number = n.number + 1 ∧
      (start env i n).2.started = n.started ++ [⟨n.number + 1, env, n.service.request⟩] := by
  unfold start
  dsimp only
  split
  next => exact ⟨rfl, rfl⟩
  next =>
    split
    next => exact ⟨rfl, rfl⟩
    next =>
      split
      next => exact ⟨rfl, rfl⟩
      next =>
        split
        next =>
          obtain ⟨hnumber, hstarted⟩ := frame_resolved n.endpoint.host true n.cancel.generation
            i.opening _
          exact ⟨hnumber, hstarted⟩
        next => exact ⟨rfl, rfl⟩
        next => exact ⟨rfl, rfl⟩

theorem Base.start (h : Base n) {env : Option (List Entry)} (i : Starting)
    (hsettings : loadSettings env = (none, n.endpoint)) (hfew : n.number + 1 < 2 ^ 32) :
    Inv (Network.start env i n).2 := by
  have hcancel := h.cancel hfew
  have hgeneration : n.cancel.generation.toNat = n.number + 1 := hcancel.generation
  have hconnections : ∀ k ∈ n.connections.map (·.request.number), k ≤ n.number := by
    intro k hk
    obtain ⟨c, hc, rfl⟩ := List.mem_map.mp hk
    exact (h.connections c hc).2.1
  have hqueries : ∀ q ∈ n.queries, q.number ≤ n.number := fun q hq => (h.queries q hq).2.1
  have hfresh : n.number + 1 ∉ n.connections.map (·.request.number) := fun hc => by
    have hle := hconnections _ hc
    omega
  have hnot : n.number + 1 ∉ n.queries.map (·.number) := by
    intro hc
    obtain ⟨q, hq, he⟩ := List.mem_map.mp hc
    have hle := hqueries q hq
    omega
  -- the request as it is before anything is looked up
  have hready : Inv { n.cancel with
      bodyLength := n.service.request.length
      bodySent := 0
      headerSent := 0
      failure := none
      remoteClosed := false
      handshakeReady := false
      request := ⟨n.number + 1, env, n.service.request⟩
      started := n.started ++ [⟨n.number + 1, env, n.service.request⟩]
      header := headerText n.endpoint n.service.request.length
      running := true } := by
    refine ⟨⟨hgeneration, hcancel.queries, h.single, fun c hc => ?_, h.distinct⟩,
      fun _ _ => ⟨?_, ?_⟩⟩
    · obtain ⟨hexact, hle, hstarted⟩ := hcancel.connections c hc
      exact ⟨hexact, hle, List.mem_append_left _ hstarted⟩
    · refine ⟨⟨rfl, Nat.succ_pos _⟩, hsettings, ⟨rfl, rfl⟩, rfl, Nat.zero_le _,
        ⟨Nat.zero_le _, fun hc => absurd rfl hc⟩,
        fun i hi => absurd hi nofun, fun _ => ⟨rfl, rfl⟩, fun q hq he => ?_⟩
      have hle := hqueries q hq
      have hnumber : q.number = n.number + 1 := he
      omega
    · exact List.mem_append_right _ (List.mem_singleton.mpr rfl)
  unfold Network.start
  dsimp only
  split
  next =>
    refine ⟨⟨hgeneration, hcancel.queries, h.single, fun c hc => ?_, h.distinct⟩,
      fun hrun => by cases hrun⟩
    obtain ⟨hexact, hle, hstarted⟩ := hcancel.connections c hc
    exact ⟨hexact, hle, List.mem_append_left _ hstarted⟩
  next =>
    split
    next => exact hready.fail _
    next =>
      split
      next => exact hready.fail _
      next =>
        split
        next =>
          refine hready.resolved ?_ ?_ fun _ _ _ => rfl
          · show n.cancel.generation.toNat ∉ n.connections.map (·.request.number)
            rw [hgeneration]
            exact hfresh
          · show n.cancel.generation.toNat ∉ n.queries.map (·.number)
            rw [hgeneration]
            exact hnot
        next =>
          exact hready.query (q := ⟨_, _, _⟩) hgeneration (le_refl _) hfresh hnot fun _ => rfl
        next => exact hready.fail _

/-! ## The operations -/

/-- Nothing is made, so the service and the endpoint may be any. -/
theorem Inv.off (h : Inv n) {s : Service} {e : Endpoint}
    (hoff : n.running = false ∨ s.active = false) : Inv { n with service := s, endpoint := e } := by
  refine ⟨⟨h.generation, h.queries, h.single, h.connections, h.distinct⟩, fun hrun hactive => ?_⟩
  rcases hoff with hoff | hoff
  · exact absurd (hoff.symm.trans hrun) nofun
  · exact absurd (hoff.symm.trans hactive) nofun

theorem Inv.request (h : Inv n) {env : Option (List Entry)} {i : Starting} {data : List UInt8}
    (hfew : (n.serve env i data).number < 2 ^ 32) : Inv (n.serve env i data) := by
  unfold Network.serve at hfew ⊢
  split
  next => exact h
  next hinit =>
    rw [if_neg hinit] at hfew
    split
    next hstop =>
      rw [if_pos hstop] at hfew
      exact (h.cancel hfew).off (Or.inl rfl)
    next hstop =>
      rw [if_neg hstop] at hfew
      split
      next hstart =>
        rw [if_pos hstart] at hfew
        obtain ⟨rfl, hoff, hne, honline⟩ := hstart
        obtain ⟨-, hrefused⟩ := chatService_start hoff hne honline
        dsimp only at hfew ⊢
        split
        next message hmessage => exact h.off (Or.inr (hrefused message false))
        next hnone =>
          rw [hnone] at hfew
          dsimp only at hfew
          have hsettings : loadSettings env = (none, (loadSettings env).2) := by
            rw [← hnone]
          have hbase : Base { n with
              endpoint := (loadSettings env).2
              service := (chatService ⟨none, true⟩ [3] n.service).2.2 } :=
            ⟨h.generation, h.queries, h.single, h.connections, h.distinct⟩
          obtain ⟨hnumber, -⟩ := start_made env i { n with
            endpoint := (loadSettings env).2
            service := (chatService ⟨none, true⟩ [3] n.service).2.2 }
          have hbound : n.number + 1 < 2 ^ 32 := by
            rw [← hnumber]
            split at hfew
            next => exact hfew
            next => exact hfew
          have hinv := hbase.start i hsettings hbound
          split
          next => exact hinv
          next => exact hinv.serve (keeps_chatError _ _)
      next hstart =>
        exact h.serve (keeps_chatService _ _ hstart)

theorem Inv.deliver (h : Inv n) (copied : Bool) : Inv (n.deliver copied) := by
  unfold Network.deliver
  split
  next => exact h
  next chain _ =>
    dsimp only
    split
    next => exact h.fail _
    next =>
      have hserve := h.serve (keeps_chatReceive ((chain.drop n.pendingOffset).take
        (min workBytes (chain.length - n.pendingOffset))) n.service)
      split
      next => exact hserve.flags _ _ _ _ _
      next => exact hserve.flags _ _ _ _ _

theorem Inv.report (h : Inv n) : Inv n.report := by
  unfold Network.report
  split
  next message _ =>
    split
    next => exact h.serve (keeps_chatError message n.service)
    next => exact h
  next => exact h

theorem Inv.finish (h : Inv n) : Inv n.finish := by
  have hover : ∀ {n : Network}, Inv n →
      Inv (if n.service.active then n else { n with running := false }.releaseClient) := by
    intro n h
    split
    next => exact h
    next => exact h.release
  unfold Network.finish
  refine hover (Inv.report ?_)
  split
  next => exact h.fail _
  next => exact h

theorem Inv.socketError (h : Inv n) (token : UInt32) : Inv (n.socketError token) := by
  unfold Network.socketError
  split
  next => exact h
  next => exact h.drop.fail _

theorem Inv.connected (h : Inv n) (token : UInt32) (pcb : Nat) (ok : Bool) :
    Inv (n.connected token pcb ok) := by
  unfold Network.connected
  split
  next => exact h
  next =>
    split
    next => exact h.fail _
    next => exact h.flags _ _ _ _ _

theorem Inv.receive (h : Inv n) (token : UInt32) (pcb : Nat) (data : Option (List UInt8))
    (ok : Bool) : Inv (n.receive token pcb data ok) := by
  unfold Network.receive
  split
  next => exact h
  next =>
    have hclosed : Inv { n with remoteClosed := true } := h.flags _ _ _ _ _
    split
    next =>
      dsimp only
      split
      next => exact hclosed
      next => exact hclosed.fail _
    next =>
      split
      next => exact h.fail _
      next =>
        split
        next => exact h.fail _
        next =>
          split
          next => exact h
          next => exact h.flags _ _ _ _ _

theorem Inv.call (h : Inv n) (token : UInt32) (c : Callback) : Inv (n.call token c) := by
  cases c with
  | error => exact h.socketError token
  | connected pcb ok => exact h.connected token pcb ok
  | receive pcb data ok => exact h.receive token pcb data ok

end Z80Sbc.Chat.Confinement
