import Z80Sbc.Chat.Service

/-! # A chat response is read in order

Since the response was cleared, what the reads have returned, what the ring holds and what
is left of the error are the emitted text and the text of the first error. Nothing is
emitted behind an error, so this stays true of every step. -/

namespace Z80Sbc.Chat
open Z80Sbc.Data

/-- The text of the first error. -/
def firstError (s : Service) : List UInt8 :=
  match s.errors with
  | [] => []
  | message :: _ => errorTextOf message

/-- What waits in the ring. -/
def waiting (s : Service) : List UInt8 := s.ring.toList z80ChatResponseBytes

theorem errorTextOf_ne (message : List UInt8) : errorTextOf message ≠ [] := by
  intro h
  have hlen := congrArg List.length h
  simp [errorTextOf, text] at hlen

structure Ordered (s : Service) : Prop where
  ring : s.ring.Ok z80ChatResponseBytes
  error : s.errorText = firstError s
  position : s.errorPosition ≤ s.errorText.length
  order : s.returned ++ waiting s ++ s.errorText.drop s.errorPosition = s.emitted ++ s.errorText
  running : s.active = true → s.errors = []
  decoded : Agrees s.opened s.used s.stream s.emitted

/-- Only these fields matter for the order. -/
theorem Ordered.transfer {s t : Service} (h : Ordered s) (hring : t.ring = s.ring)
    (htext : t.errorText = s.errorText) (hposition : t.errorPosition = s.errorPosition)
    (hemitted : t.emitted = s.emitted) (hreturned : t.returned = s.returned)
    (herrors : t.errors = s.errors) (hactive : t.active = true → s.active = true)
    (hdecoded : Agrees t.opened t.used t.stream t.emitted) : Ordered t := by
  refine ⟨?_, ?_, ?_, ?_, ?_, hdecoded⟩
  · rw [hring]
    exact h.ring
  · unfold firstError
    rw [htext, herrors]
    exact h.error
  · rw [htext, hposition]
    exact h.position
  · unfold waiting
    rw [hring, htext, hposition, hemitted, hreturned]
    exact h.order
  · intro ht
    rw [herrors]
    exact h.running (hactive ht)

theorem Ordered.stop {s : Service} (h : Ordered s) : Ordered { s with active := false } :=
  h.transfer rfl rfl rfl rfl rfl rfl (fun hfalse => by cases hfalse) h.decoded

theorem Ordered.clear (s : Service) : Ordered (clearResponse s) := by
  refine ⟨RingBuffer.Ok.clear (by decide), rfl, Nat.le_refl _, ?_, fun _ => rfl, ?_⟩
  · show [] ++ s.ring.clear.toList z80ChatResponseBytes ++ _ = _
    rw [RingBuffer.toList_nil rfl]
    rfl
  · exact ⟨rfl, by simp [clearResponse, decodeFrom], rfl⟩

/-- While no error has been raised, its text is empty. -/
theorem Ordered.quiet {s : Service} (h : Ordered s) (hnone : s.errors = []) :
    s.errorText = [] ∧ s.errorPosition = 0 := by
  have htext : s.errorText = [] := by
    rw [h.error, firstError, hnone]
  refine ⟨htext, ?_⟩
  have hposition := h.position
  rw [htext] at hposition
  exact Nat.le_zero.mp hposition

theorem Ordered.chatError {s : Service} (h : Ordered s) (message : List UInt8) :
    Ordered (chatError message s) := by
  cases hcases : s.errors with
  | nil =>
    obtain ⟨htext, hposition⟩ := h.quiet hcases
    have horder := h.order
    rw [htext, hposition, List.drop_nil, List.append_nil, List.append_nil] at horder
    refine ⟨h.ring, ?_, ?_, ?_, fun hfalse => Bool.noConfusion hfalse,
      h.decoded⟩
    · show (if s.errorText = [] then _ else _) = firstError { s with errors := s.errors ++ _ }
      rw [if_pos htext, hcases]
      rfl
    · show s.errorPosition ≤ List.length _
      rw [hposition]
      exact Nat.zero_le _
    · show s.returned ++ waiting s ++ List.drop s.errorPosition _ = s.emitted ++ _
      rw [horder, hposition, List.drop_zero]
  | cons first others =>
    have htext : s.errorText ≠ [] := by
      rw [h.error, firstError, hcases]
      exact errorTextOf_ne first
    have hkept : (if s.errorText = [] then errorTextOf message else s.errorText) = s.errorText :=
      if_neg htext
    refine ⟨h.ring, ?_, ?_, ?_, fun hfalse => Bool.noConfusion hfalse,
      h.decoded⟩
    · show (if s.errorText = [] then _ else _) = firstError { s with errors := s.errors ++ _ }
      rw [hkept, h.error, hcases]
      unfold firstError
      rw [hcases]
      rfl
    · show s.errorPosition ≤ List.length (if s.errorText = [] then _ else _)
      rw [hkept]
      exact h.position
    · show s.returned ++ waiting s ++ List.drop s.errorPosition (if s.errorText = [] then _ else _)
        = s.emitted ++ (if s.errorText = [] then _ else _)
      rw [hkept]
      exact h.order

/-- Emitting a byte puts it behind those that wait, in a ring that has room. -/
theorem emit_spec {returned : List UInt8} {k k' : RingBuffer UInt8 × List UInt8} {c : UInt8}
    (hk : k.1.Ok z80ChatResponseBytes ∧ returned ++ k.1.toList z80ChatResponseBytes = k.2)
    (h : emit k c = some k') :
    (k'.1.Ok z80ChatResponseBytes ∧ returned ++ k'.1.toList z80ChatResponseBytes = k'.2) ∧
      k'.2 = k.2 ++ [c] := by
  obtain ⟨hok, hlist⟩ := hk
  unfold emit at h
  split at h
  · cases h
  next hfull =>
  cases h
  have hroom : k.1.count < z80ChatResponseBytes := Nat.lt_of_le_of_ne hok.count hfull
  refine ⟨⟨hok.push hroom c, ?_⟩, rfl⟩
  show returned ++ (k.1.push z80ChatResponseBytes c).toList z80ChatResponseBytes = k.2 ++ [c]
  rw [RingBuffer.toList_push hok hroom, ← List.append_assoc, hlist]

/-- What a piece does to the response while the request is active. -/
theorem Ordered.fed {s : Service} (h : Ordered s) (hactive : s.active = true)
    (data : List UInt8) :
    let r := feed emit data s.stream (s.ring, s.emitted)
    Ordered { s with
      stream := r.2.1
      ring := r.2.2.1
      emitted := r.2.2.2
      used := s.used ++ data.take r.1 } := by
  have hnone := h.running hactive
  obtain ⟨htext, hposition⟩ := h.quiet hnone
  have horder := h.order
  rw [htext, List.drop_nil, List.append_nil, List.append_nil] at horder
  obtain ⟨-, ⟨hok, hlist⟩, hagrees⟩ := @Agrees.feed _ emit Prod.snd
    (fun k => k.1.Ok z80ChatResponseBytes ∧
      s.returned ++ k.1.toList z80ChatResponseBytes = k.2)
    (fun k c k' => emit_spec) s.opened s.stream s.used (s.ring, s.emitted) h.decoded
    ⟨h.ring, horder⟩ data
  generalize feed emit data s.stream (s.ring, s.emitted) = r at hok hlist hagrees ⊢
  refine ⟨hok, h.error, h.position, ?_, fun _ => hnone, hagrees⟩
  show s.returned ++ r.2.2.1.toList z80ChatResponseBytes ++ s.errorText.drop s.errorPosition =
    r.2.2.2 ++ s.errorText
  rw [hlist, htext, List.drop_nil]

theorem Ordered.receive {s : Service} (h : Ordered s) (data : List UInt8) :
    Ordered (chatReceive data s).2 := by
  unfold chatReceive
  split
  · exact h
  next hactive =>
  have hfed := h.fed (by simpa using hactive) data
  generalize feed emit data s.stream (s.ring, s.emitted) = r at hfed ⊢
  dsimp only at hfed ⊢
  split
  · exact hfed.chatError _
  · split
    · exact hfed.stop
    · exact hfed

theorem Ordered.poll {s : Service} (h : Ordered s) (connected : Bool) (generation : UInt32) :
    Ordered (networkPoll connected generation s) := by
  have hset : ∀ {u : Service}, Ordered u →
      Ordered { u with online := connected, generation := generation } := fun hu =>
    hu.transfer rfl rfl rfl rfl rfl rfl id hu.decoded
  unfold networkPoll
  dsimp only
  split
  · exact (hset (h.chatError _)).receive []
  · exact (hset h).receive []

theorem Ordered.start (o : Start) (s : Service) : Ordered (startRequest o s) := by
  have hclear := Ordered.clear { s with stream := streamInit }
  unfold startRequest
  dsimp only
  split
  · exact hclear.chatError _
  · split
    · exact hclear.chatError _
    · have hrunning : Ordered
          { clearResponse { s with stream := streamInit } with active := true } :=
        ⟨hclear.ring, hclear.error, hclear.position, hclear.order, fun _ => rfl, hclear.decoded⟩
      split
      · exact hrunning
      · exact hrunning.chatError _

theorem drop_length_take (n : Nat) (l : List UInt8) : l.drop (l.take n).length = l.drop n := by
  rw [List.length_take]
  rcases Nat.le_total n l.length with hle | hle
  · rw [Nat.min_eq_left hle]
  · rw [Nat.min_eq_right hle, List.drop_length, List.drop_eq_nil_of_le hle]

/-- A read returns the next bytes of what waits and of what is left of the error. -/
theorem readBytes_spec {s : Service} (h : Ordered s) (maximum : Nat) :
    Ordered (readBytes maximum s).2 ∧
      (readBytes maximum s).1 = (waiting s ++ s.errorText.drop s.errorPosition).take maximum ∧
      (readBytes maximum s).2.returned = s.returned ++ (readBytes maximum s).1 := by
  obtain ⟨hok, htake, hdrop, -⟩ :=
    RingBuffer.drain_spec h.ring (Nat.min_le_right maximum s.ring.count)
  have hlen : (waiting s).length = s.ring.count := RingBuffer.length_toList
  unfold readBytes
  generalize s.ring.drain z80ChatResponseBytes (min maximum s.ring.count) = r at hok htake hdrop ⊢
  obtain ⟨fromRing, ring⟩ := r
  dsimp only at hok htake hdrop ⊢
  have hfirst : fromRing = (waiting s).take maximum := by
    rw [htake]
    show (waiting s).take _ = _
    rw [← hlen, ← List.take_take, List.take_length]
  have hrest : ring.toList z80ChatResponseBytes = (waiting s).drop maximum := by
    rw [hdrop]
    show (waiting s).drop _ = _
    rw [← hlen, ← List.length_take, drop_length_take]
  have hroom : maximum - fromRing.length = maximum - (waiting s).length := by
    rw [hfirst, List.length_take]
    omega
  have hread : fromRing ++ (s.errorText.drop s.errorPosition).take (maximum - fromRing.length) =
      (waiting s ++ s.errorText.drop s.errorPosition).take maximum := by
    rw [hroom, hfirst, List.take_append]
  refine ⟨⟨hok, h.error, ?_, ?_, h.running, h.decoded⟩, hread, rfl⟩
  · show s.errorPosition + List.length _ ≤ s.errorText.length
    have hposition := h.position
    rw [List.length_take, List.length_drop]
    omega
  · show s.returned ++ (_ ++ _) ++ ring.toList z80ChatResponseBytes ++ s.errorText.drop (_ + _) =
      s.emitted ++ s.errorText
    rw [hread, hrest, ← List.drop_drop, drop_length_take, hroom, List.append_assoc,
      ← List.drop_append, List.append_assoc, List.take_append_drop, ← List.append_assoc]
    exact h.order

theorem Ordered.request {s : Service} (h : Ordered s) (o : Start) (data : List UInt8) :
    Ordered (chatService o data s).2.2 := by
  unfold chatService
  split
  · exact h
  next operation rest =>
  split
  · exact h
  by_cases hlength : (operation = 1 ∧ rest.length < 1) ∨
      (if operation = 5 then rest.length ≠ 2 else operation ≠ 1 ∧ rest.length ≠ 0)
  · rw [if_pos hlength]
    exact h
  rw [if_neg hlength]
  split
  · exact h.transfer rfl rfl rfl rfl rfl rfl (fun hfalse => Bool.noConfusion hfalse) h.decoded
  split
  · split
    · exact h
    split
    · exact h
    split
    · exact h
    · exact h.transfer rfl rfl rfl rfl rfl rfl id h.decoded
  split
  · exact Ordered.clear _
  split
  · split
    · exact h
    split
    · exact h
    · exact Ordered.start o s
  split
  · exact h
  · dsimp only
    split
    · exact h
    · exact (readBytes_spec h _).1

theorem step_ordered {s : Service} (h : Ordered s) (e : ServiceEvent) : Ordered (step s e) := by
  cases e with
  | receive data => exact h.receive data
  | poll connected generation => exact h.poll connected generation
  | error message => exact h.chatError message
  | request o data => exact h.request o data

theorem run_ordered (events : List ServiceEvent) : Ordered (run events) := by
  have hfrom : ∀ {s : Service}, Ordered s → Ordered (events.foldl step s) := by
    induction events with
    | nil => exact fun h => h
    | cons e events ih => exact fun h => ih (step_ordered h e)
  refine hfrom ⟨⟨by decide, by decide, rfl⟩, rfl, Nat.le_refl _, rfl, fun _ => rfl, ?_⟩
  exact ⟨rfl, rfl, rfl⟩

/-- The status says that there is more exactly while something is left to return. -/
theorem status_eof {s : Service} (h : Ordered s) :
    status s = z80ChatEof ↔ s.active = false ∧ s.returned = s.emitted ++ firstError s := by
  have hlen : (waiting s).length = s.ring.count := RingBuffer.length_toList
  have hleft : s.returned = s.emitted ++ firstError s ↔
      s.ring.count = 0 ∧ s.errorText.drop s.errorPosition = [] := by
    rw [← h.error, ← h.order, List.append_assoc, List.self_eq_append_right,
      List.append_eq_nil_iff, ← hlen, List.length_eq_zero_iff]
  rw [hleft]
  unfold status
  split
  next hmore =>
    refine ⟨fun hready => absurd hready (by decide), ?_⟩
    rintro ⟨-, hcount, htext⟩
    rcases hmore with hmore | hmore
    · exact absurd hcount hmore
    · exact absurd htext hmore
  next hdone =>
    rw [not_or, not_not, not_not] at hdone
    cases s.active with
    | false => exact ⟨fun _ => ⟨rfl, hdone⟩, fun _ => rfl⟩
    | true => exact ⟨fun hwaiting => absurd hwaiting (by decide), fun h => Bool.noConfusion h.1⟩

/-- An answered read. -/
theorem read_answer {o : Start} {data response : List UInt8} {s t : Service}
    (h : chatService o (5 :: data) s = (.ok, response, t)) :
    ∃ maximum, 0 < maximum ∧ maximum ≤ maxPayload - 3 ∧
      t = (readBytes maximum s).2 ∧
      response = status t :: UInt8.ofNat (readBytes maximum s).1.length ::
        UInt8.ofNat ((readBytes maximum s).1.length / 256) :: (readBytes maximum s).1 := by
  unfold chatService at h
  dsimp only at h
  rw [if_neg (by decide)] at h
  by_cases hlength : ((5 : UInt8) = 1 ∧ data.length < 1) ∨
      (if (5 : UInt8) = 5 then data.length ≠ 2 else (5 : UInt8) ≠ 1 ∧ data.length ≠ 0)
  · rw [if_pos hlength] at h
    cases h
  rw [if_neg hlength, if_neg (by decide), if_neg (by decide), if_neg (by decide), if_neg (by decide),
    if_neg (by decide)] at h
  split at h
  · cases h
  next hmax =>
  cases h
  exact ⟨_, by omega, by omega, rfl, rfl⟩

/-- In every run the returned bytes are a prefix of the emitted text and the first error, and
the status is end of file exactly when nothing is left and nothing is under way. Each answered
read returns the next bytes. The emitted text is that of the bytes used since the start. -/
theorem response_order (events : List ServiceEvent) :
    let s := run events
    s.returned <+: s.emitted ++ firstError s ∧
      s.returned ++ waiting s ++ s.errorText.drop s.errorPosition = s.emitted ++ firstError s ∧
      (status s = z80ChatEof ↔ s.active = false ∧ s.returned = s.emitted ++ firstError s) ∧
      s.emitted ++ pending s.stream =
        pending s.opened ++ (decodeFrom s.used (flushed s.opened)).2 ∧
      ∀ o data response t, chatService o (5 :: data) s = (.ok, response, t) →
        response.getD 0 0 = status t ∧
          (status t = z80ChatEof ↔ t.active = false ∧ t.returned = t.emitted ++ firstError t) ∧
          t.emitted = s.emitted ∧ firstError t = firstError s ∧
          t.returned = s.returned ++ response.drop 3 := by
  intro s
  have h : Ordered s := run_ordered events
  have horder : s.returned ++ waiting s ++ s.errorText.drop s.errorPosition =
      s.emitted ++ firstError s := by
    rw [← h.error]
    exact h.order
  refine ⟨⟨_, by rw [← horder, List.append_assoc]⟩, horder, status_eof h, h.decoded.output, ?_⟩
  intro o data response t ht
  obtain ⟨maximum, -, -, rfl, rfl⟩ := read_answer ht
  obtain ⟨hordered, -, hreturned⟩ := readBytes_spec h maximum
  exact ⟨rfl, status_eof hordered, rfl, rfl, hreturned⟩

end Z80Sbc.Chat
