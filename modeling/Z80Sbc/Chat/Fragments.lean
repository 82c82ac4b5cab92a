import Mathlib.Algebra.Group.Nat.Defs
import Z80Sbc.Chat.Stream
import Z80Sbc.Data.Delivery

/-! # The chat decoder does not see how its input is cut

The caller offers what is left of the data in pieces, which may be empty, and `emit` may
refuse any byte of the text. Whatever the pieces and the refusals are, decoder and text are those
of one feed of the bytes used; and no byte is used before the text held back has gone out. But one
feed too loses the text of an event that ends with the last byte of a Content-Length. -/

namespace Z80Sbc.Chat
open Z80Sbc.Data

/-! ## The whole input -/

/-- The text of the last event has been emitted. -/
def flushed (s : Stream) : Stream := { s with position := s.position + (pending s).length }

/-- What is decoded of the data from a state with no text to emit. -/
def decodeFrom : List UInt8 → Stream → Stream × List UInt8
  | [], s => (s, [])
  | c :: data, s =>
    if halted s then (s, [])
    else
      let s := consume c s
      let (t, out) := decodeFrom data (flushed s)
      (t, pending s ++ out)

def decodeUsed : List UInt8 → Stream → Nat
  | [], _ => 0
  | c :: data, s => if halted s then 0 else decodeUsed data (flushed (consume c s)) + 1

theorem pending_flushed (s : Stream) : pending (flushed s) = [] := by
  unfold flushed pending
  dsimp only
  split
  · rfl
  · rw [List.drop_eq_nil_iff, List.length_drop]
    omega

theorem flushed_of_nil {s : Stream} (h : pending s = []) : flushed s = s := by
  unfold flushed
  rw [h]
  rfl

theorem decodeFrom_halted {s : Stream} (h : halted s = true) (data : List UInt8) :
    decodeFrom data s = (s, []) ∧ decodeUsed data s = 0 := by
  cases data with
  | nil => exact ⟨rfl, rfl⟩
  | cons c data => simp [decodeFrom, decodeUsed, h]

theorem decodeFrom_nil (data : List UInt8) {s : Stream} (h : pending s = []) :
    pending (decodeFrom data s).1 = [] := by
  induction data generalizing s with
  | nil => exact h
  | cons c data ih =>
    rw [decodeFrom]
    split
    · exact h
    · exact ih (pending_flushed _)

theorem decodeFrom_append (a b : List UInt8) (s : Stream) (h : decodeUsed a s = a.length) :
    decodeFrom (a ++ b) s = ((decodeFrom b (decodeFrom a s).1).1,
        (decodeFrom a s).2 ++ (decodeFrom b (decodeFrom a s).1).2) ∧
      decodeUsed (a ++ b) s = a.length + decodeUsed b (decodeFrom a s).1 := by
  induction a generalizing s with
  | nil => simp [decodeFrom]
  | cons c a ih =>
    by_cases hh : halted s = true
    · simp [decodeUsed, hh] at h
    · simp only [decodeUsed, hh, if_false, Bool.false_eq_true, List.length_cons,
        Nat.add_right_cancel_iff] at h
      obtain ⟨hdecode, hused⟩ := ih _ h
      constructor
      · simp only [List.cons_append, decodeFrom, hh, if_false, Bool.false_eq_true, hdecode,
          List.append_assoc]
      · simp only [List.cons_append, decodeUsed, decodeFrom, hh, if_false, Bool.false_eq_true, hused,
          List.length_cons]
        omega

/-! ## One feed -/

/-- One byte of the pending text goes out. -/
theorem pending_next {s : Stream} {c : UInt8} {cs : List UInt8} (hcs : pending s = c :: cs) :
    pending { s with position := s.position + 1 } = cs ∧
      flushed { s with position := s.position + 1 } = flushed s := by
  have herr : s.error.isSome = false := by
    by_contra hne
    rw [Bool.not_eq_false] at hne
    rw [pending, if_pos hne] at hcs
    cases hcs
  have hnext : pending { s with position := s.position + 1 } = cs := by
    unfold pending at hcs ⊢
    dsimp only
    rw [herr, if_neg Bool.false_ne_true] at hcs ⊢
    rw [← List.drop_drop, hcs]
    rfl
  refine ⟨hnext, ?_⟩
  unfold flushed
  rw [hnext, hcs]
  simp [Nat.add_comm, Nat.add_left_comm]

/-- What a flush does: some of the text goes out, and all of it unless a byte is refused. -/
theorem flush_spec {κ : Type} {emit : κ → UInt8 → Option κ} {out : κ → List UInt8}
    {ok : κ → Prop} (hemit : ∀ k c k', ok k → emit k c = some k' → ok k' ∧ out k' = out k ++ [c])
    (s : Stream) (k : κ) (hk : ok k) :
    let r := flush emit (pending s) s k
    flushed r.2.1 = flushed s ∧ ok r.2.2 ∧ out r.2.2 ++ pending r.2.1 = out k ++ pending s ∧
      (r.1 = true → r.2.1 = flushed s) ∧ out k <+: out r.2.2 := by
  obtain ⟨cs, hcs⟩ : ∃ cs, pending s = cs := ⟨_, rfl⟩
  rw [hcs]
  induction cs generalizing s k with
  | nil => exact ⟨rfl, hk, by rw [flush, hcs], fun _ => (flushed_of_nil hcs).symm,
      List.prefix_refl _⟩
  | cons c cs ih =>
    cases hc : emit k c with
    | none => simp [flush, hc, hk, hcs]
    | some k' =>
      obtain ⟨hk', hout⟩ := hemit k c k' hk hc
      obtain ⟨hnext, hflushed⟩ := pending_next hcs
      obtain ⟨h1, h2, h3, h4, h5⟩ := ih { s with position := s.position + 1 } k' hk' hnext
      simp only [flush, hc]
      refine ⟨h1.trans hflushed, h2, ?_, fun ht => (h4 ht).trans hflushed, ?_⟩
      · rw [h3, hout]
        simp
      · rw [hout] at h5
        exact (List.prefix_append _ _).trans h5

/-- A feed uses a prefix of its data: what is out and what is to come are the text of it. -/
theorem feed_decode {κ : Type} {emit : κ → UInt8 → Option κ} {out : κ → List UInt8}
    {ok : κ → Prop} (hemit : ∀ k c k', ok k → emit k c = some k' → ok k' ∧ out k' = out k ++ [c])
    (data : List UInt8) (s : Stream) (k : κ) (hk : ok k) :
    let r := feed emit data s k
    let d := decodeFrom (data.take r.1) (flushed s)
    r.1 ≤ data.length ∧ ok r.2.2 ∧ flushed r.2.1 = d.1 ∧
      out r.2.2 ++ pending r.2.1 = out k ++ pending s ++ d.2 ∧
      decodeUsed (data.take r.1) (flushed s) = r.1 ∧
      out k <+: out r.2.2 ∧ (r.1 ≠ 0 → out k ++ pending s <+: out r.2.2) := by
  induction data generalizing s k with
  | nil =>
    obtain ⟨h1, h2, h3, -, h5⟩ := flush_spec hemit s k hk
    rw [feed]
    generalize flush emit (pending s) s k = r at *
    refine ⟨Nat.le_refl 0, h2, h1, ?_, rfl, h5, fun h => absurd rfl h⟩
    rw [h3, List.take_nil, decodeFrom, List.append_nil]
  | cons c data ih =>
    obtain ⟨h1, h2, h3, h4, h5⟩ := flush_spec hemit s k hk
    rw [feed]
    generalize flush emit (pending s) s k = r at *
    obtain ⟨taken, t, k'⟩ := r
    dsimp only at h1 h2 h3 h4 h5 ⊢
    by_cases hstop : (!taken || halted t) = true
    · rw [if_pos hstop]
      refine ⟨Nat.zero_le _, h2, h1, ?_, rfl, h5, fun h => absurd rfl h⟩
      rw [h3, List.take_zero, decodeFrom, List.append_nil]
    · rw [if_neg hstop]
      rw [Bool.or_eq_true, not_or, Bool.not_eq_true', Bool.not_eq_false] at hstop
      have ht := h4 hstop.1
      have hpending : pending t = [] := by rw [ht]; exact pending_flushed s
      have hmore : halted (flushed s) = false := by
        rw [← ht]
        exact Bool.eq_false_iff.mpr hstop.2
      rw [hpending, List.append_nil] at h3
      obtain ⟨i1, i2, i3, i4, i5, i6, -⟩ := ih (consume c t) k' h2
      generalize feed emit data (consume c t) k' = r' at *
      obtain ⟨used, u, k''⟩ := r'
      dsimp only at i1 i2 i3 i4 i5 i6 ⊢
      rw [List.take_succ_cons, decodeFrom, decodeUsed, hmore, if_neg Bool.false_ne_true,
        if_neg Bool.false_ne_true, ← ht]
      dsimp only
      refine ⟨Nat.succ_le_succ i1, i2, i3, ?_, congrArg (· + 1) i5, h5.trans i6, fun _ => ?_⟩
      · rw [i4, h3]
        simp
      · rw [← h3]
        exact i6

/-! ## Pieces and refusals -/

/-- The decoder refuses nothing: all that can be used is, and all text goes out. -/
theorem feed_acceptAll (data : List UInt8) (s : Stream) (sent : List UInt8) :
    feed acceptAll data s sent = (decodeUsed data (flushed s), (decodeFrom data (flushed s)).1,
      sent ++ pending s ++ (decodeFrom data (flushed s)).2) := by
  have hflush : ∀ (cs : List UInt8) (s : Stream) (sent : List UInt8), pending s = cs →
      flush acceptAll cs s sent = (true, flushed s, sent ++ cs) := by
    intro cs
    induction cs with
    | nil =>
      intro s sent hcs
      rw [flush, flushed_of_nil hcs, List.append_nil]
    | cons c cs ih =>
      intro s sent hcs
      obtain ⟨hnext, hflushed⟩ := pending_next hcs
      simp only [flush, acceptAll]
      rw [ih _ _ hnext, hflushed, List.append_assoc]
      rfl
  induction data generalizing s sent with
  | nil =>
    rw [feed, hflush _ s sent rfl]
    simp [decodeUsed, decodeFrom]
  | cons c data ih =>
    rw [feed, hflush _ s sent rfl]
    by_cases h : halted (flushed s) = true
    · simp [decodeUsed, decodeFrom, h]
    · rw [Bool.not_eq_true] at h
      simp [decodeUsed, decodeFrom, h, ih]

/-- What is out and what is to come are the text of the bytes used. -/
structure Agrees (s : Stream) (used : List UInt8) (stream : Stream) (sent : List UInt8) :
    Prop where
  decoded : flushed stream = (decodeFrom used (flushed s)).1
  output : sent ++ pending stream = pending s ++ (decodeFrom used (flushed s)).2
  all : decodeUsed used (flushed s) = used.length

theorem Agrees.feed {κ : Type} {emit : κ → UInt8 → Option κ} {out : κ → List UInt8}
    {ok : κ → Prop} (hemit : ∀ k c k', ok k → emit k c = some k' → ok k' ∧ out k' = out k ++ [c])
    {s stream : Stream} {used : List UInt8} {k : κ} (h : Agrees s used stream (out k)) (hk : ok k)
    (data : List UInt8) :
    let r := feed emit data stream k
    r.1 ≤ data.length ∧ ok r.2.2 ∧ Agrees s (used ++ data.take r.1) r.2.1 (out r.2.2) := by
  obtain ⟨hle, hok, hstream, hsent, hused, -⟩ := feed_decode hemit data stream k hk
  generalize Chat.feed emit data stream k = r at *
  obtain ⟨n, t, k'⟩ := r
  dsimp only at hle hok hstream hsent hused ⊢
  have hn : (data.take n).length = n := by
    rw [List.length_take]
    omega
  rw [h.decoded] at hstream hsent hused
  obtain ⟨hdecode, hall⟩ := decodeFrom_append used (data.take n) (flushed s) h.all
  refine ⟨hle, hok, ?_, ?_, ?_⟩
  · rw [hdecode, hstream]
  · rw [hdecode, hsent, h.output, List.append_assoc]
  · rw [hall, hused, List.length_append, hn]

/-- A feed whose receiver answers as it likes. -/
theorem Agrees.accept {s stream : Stream} {used sent : List UInt8} (h : Agrees s used stream sent)
    (answer : List UInt8 → UInt8 → Bool) (data : List UInt8) :
    let r := Chat.feed (Data.accept answer) data stream sent
    r.1 ≤ data.length ∧ Agrees s (used ++ data.take r.1) r.2.1 r.2.2 := by
  obtain ⟨hle, -, hagrees⟩ := @Agrees.feed _ (Data.accept answer) (fun sent => sent)
    (fun _ => True) (fun _ _ _ _ hk => ⟨trivial, accept_eq hk⟩) s stream used sent h trivial data
  exact ⟨hle, hagrees⟩

/-! ## Everything stays in range -/

/-- What holds of the validator's state for its text holds behind every value. -/
structure Stable (P : Json → Prop) : Prop where
  advance : ∀ j p, P j → P { j with rest := p }
  flag : ∀ j p e, P j → P { j with rest := p, providerError := e }
  capture : ∀ j p (cps : List Nat), cps.length < z80ChatLineMax → P j →
    P { j with rest := p, text := cps.map ascii, contentSeen := true }

section
variable {P : Json → Prop} {v : Nat → Json → Option Json} {path : Nat}

theorem members_keeps (hP : Stable P) (hv : ∀ path j t, P j → v path j = some t → P t) :
    ∀ n j t, P j → members v path n j = some t → P t := by
  intro n
  induction n with
  | zero =>
    intro j t _ h
    cases h
  | succ n ih =>
    intro j t hj h
    simp only [members, Option.bind_eq_bind, Option.bind_eq_some_iff, Prod.exists] at h
    obtain ⟨key, p, -, p', -, u, hu, h⟩ := h
    have hPu := hv _ _ _ (hP.flag j p' _ hj) hu
    split at h
    · cases h
    split at h
    · cases h
      exact hP.advance _ _ hPu
    split at h
    · cases h
    · exact ih _ _ (hP.advance _ _ hPu) h

theorem elements_keeps (hP : Stable P) (hv : ∀ path j t, P j → v path j = some t → P t) :
    ∀ n index j t, P j → elements v path n index j = some t → P t := by
  intro n
  induction n with
  | zero =>
    intro index j t _ h
    cases h
  | succ n ih =>
    intro index j t hj h
    simp only [elements, Option.bind_eq_bind, Option.bind_eq_some_iff] at h
    obtain ⟨u, hu, h⟩ := h
    have hPu := hv _ _ _ hj hu
    split at h
    · cases h
    split at h
    · cases h
      exact hP.advance _ _ hPu
    split at h
    · cases h
    · exact ih _ _ _ (hP.advance _ _ hPu) h

end

theorem stringValue_keeps {P : Json → Prop} (hP : Stable P) {path : Nat} {j t : Json} (hj : P j)
    (h : stringValue path j = some t) : P t := by
  unfold stringValue at h
  split at h
  · cases h
  split at h
  · cases h
  split at h
  · cases h
    exact hP.advance _ _ hj
  split at h
  · cases h
  next hlen =>
  cases h
  exact hP.capture _ _ _ (Nat.lt_of_not_le hlen) hj

theorem value_keeps {P : Json → Prop} (hP : Stable P) :
    ∀ levels path j t, P j → value levels path j = some t → P t := by
  intro levels
  induction levels with
  | zero =>
    intro path j t _ h
    cases h
  | succ levels ih =>
    intro path j t hj h
    have hw := hP.advance j (whitespace j.rest) hj
    unfold value at h
    dsimp only at h
    split at h
    · cases h
    split at h
    · split at h
      · cases h
        exact hP.advance _ _ hj
      · exact members_keeps hP ih _ _ _ (hP.advance _ _ hj) h
    split at h
    · split at h
      · cases h
        exact hP.advance _ _ hj
      · exact elements_keeps hP ih _ _ _ _ (hP.advance _ _ hj) h
    split at h
    · exact stringValue_keeps hP hw h
    · unfold plainValue at h
      simp only [Option.map_eq_some_iff] at h
      obtain ⟨p, -, rfl⟩ := h
      exact hP.advance _ _ hj

/-- The text of an event fits its buffer. -/
theorem eventData_short {data content : List UInt8} (h : eventData data = .text content) :
    content.length < z80ChatLineMax := by
  have hP : Stable fun j => j.text.length < z80ChatLineMax :=
    ⟨fun _ _ h => h, fun _ _ _ h => h, fun _ _ cps hlen _ => by simpa using hlen⟩
  unfold eventData at h
  split at h
  · cases h
  dsimp only at h
  split at h
  · cases h
  split at h
  · cases h
  next j hj =>
  have hempty : ([] : List UInt8).length < z80ChatLineMax := by decide
  have hlen := value_keeps hP _ _ _ _ hempty hj
  split at h
  · cases h
  split at h
  · cases h
  cases h
  exact hlen

/-- The buffers are indexed inside their bounds and the counters are what they count. -/
structure InRange (s : Stream) : Prop where
  line : s.line.length < z80ChatLineMax
  content : s.content.length < z80ChatLineMax
  position : s.position ≤ s.content.length
  digits : s.chunkDigits ≤ 8
  size : s.chunkPhase = .size → s.chunkSize.toNat < 16 ^ s.chunkDigits
  data : s.chunkPhase = .data → s.chunkSize ≠ 0
  delimiter : s.chunkPhase = .cr ∨ s.chunkPhase = .lf → s.chunkSize = 0

/-- The fields that the end of a line leaves alone. -/
structure SameChunk (s t : Stream) : Prop where
  phase : t.chunkPhase = s.chunkPhase
  size : t.chunkSize = s.chunkSize
  digits : t.chunkDigits = s.chunkDigits
  chunked : s.phase = .body → t.chunked = s.chunked
  haveLength : s.phase = .body → t.haveLength = s.haveLength
  remaining : s.phase = .body → t.remaining = s.remaining

theorem event_spec {s : Stream} (h : InRange s) : InRange (event s) ∧ SameChunk s (event s) := by
  have hsame {t : Stream} (h1 : t.chunkPhase = s.chunkPhase) (h2 : t.chunkSize = s.chunkSize)
      (h3 : t.chunkDigits = s.chunkDigits) (h4 : t.chunked = s.chunked)
      (h5 : t.haveLength = s.haveLength) (h6 : t.remaining = s.remaining) : SameChunk s t :=
    ⟨h1, h2, h3, fun _ => h4, fun _ => h5, fun _ => h6⟩
  unfold event
  split
  · exact ⟨h, hsame rfl rfl rfl rfl rfl rfl⟩
  dsimp only
  generalize eventData _ = e, hdata : eventData _ = e at *
  cases e with
  | done => exact ⟨{ h with }, hsame rfl rfl rfl rfl rfl rfl⟩
  | text content =>
    exact ⟨{ h with content := eventData_short hdata, position := Nat.zero_le _ },
      hsame rfl rfl rfl rfl rfl rfl⟩
  | error message =>
    refine ⟨{ h with content := ?_, position := Nat.zero_le _ }, hsame rfl rfl rfl rfl rfl rfl⟩
    show ([] : List UInt8).length < z80ChatLineMax
    decide

theorem statusLine_spec {s : Stream} (h : InRange s) (hp : s.phase = .statusLine) :
    InRange (statusLine s) ∧ SameChunk s (statusLine s) := by
  have hne : s.phase ≠ .body := by
    rw [hp]
    decide
  unfold statusLine
  split
  · exact ⟨{ h with }, ⟨rfl, rfl, rfl, fun hb => absurd hb hne, fun hb => absurd hb hne,
      fun hb => absurd hb hne⟩⟩
  · exact ⟨{ h with }, ⟨rfl, rfl, rfl, fun hb => absurd hb hne, fun hb => absurd hb hne,
      fun hb => absurd hb hne⟩⟩

theorem header_spec {s : Stream} (h : InRange s) (hp : s.phase = .headers) :
    InRange (header s) ∧ SameChunk s (header s) := by
  have hne : s.phase ≠ .body := by
    rw [hp]
    decide
  have hsame {t : Stream} (h1 : t.chunkPhase = s.chunkPhase) (h2 : t.chunkSize = s.chunkSize)
      (h3 : t.chunkDigits = s.chunkDigits) : SameChunk s t :=
    ⟨h1, h2, h3, fun hb => absurd hb hne, fun hb => absurd hb hne, fun hb => absurd hb hne⟩
  unfold header
  split
  · exact ⟨{ h with }, hsame rfl rfl rfl⟩
  dsimp only
  split
  · exact ⟨{ h with }, hsame rfl rfl rfl⟩
  split
  · split
    · exact ⟨{ h with }, hsame rfl rfl rfl⟩
    split
    · exact ⟨{ h with }, hsame rfl rfl rfl⟩
    · exact ⟨{ h with }, hsame rfl rfl rfl⟩
  split
  · exact ⟨{ h with }, hsame rfl rfl rfl⟩
  split
  · exact ⟨{ h with }, hsame rfl rfl rfl⟩
  · exact ⟨h, hsame rfl rfl rfl⟩

theorem wholeLine_spec {s : Stream} (h : InRange s) :
    InRange (wholeLine s) ∧ SameChunk s (wholeLine s) := by
  unfold wholeLine
  split
  next hp => exact statusLine_spec h hp
  next hp =>
    have hne : s.phase ≠ .body := by
      rw [hp]
      decide
    split
    · exact header_spec h hp
    split
    · exact ⟨{ h with }, ⟨rfl, rfl, rfl, fun _ => rfl, fun _ => rfl, fun _ => rfl⟩⟩
    · exact ⟨{ h with }, ⟨rfl, rfl, rfl, fun _ => rfl, fun _ => rfl, fun _ => rfl⟩⟩
  next hp =>
    split
    · split
      · exact ⟨{ h with }, ⟨rfl, rfl, rfl, fun _ => rfl, fun _ => rfl, fun _ => rfl⟩⟩
      · exact ⟨h, ⟨rfl, rfl, rfl, fun _ => rfl, fun _ => rfl, fun _ => rfl⟩⟩
    split
    · exact event_spec h
    · exact ⟨h, ⟨rfl, rfl, rfl, fun _ => rfl, fun _ => rfl, fun _ => rfl⟩⟩

theorem line_spec {s : Stream} (h : InRange s) (c : UInt8) :
    InRange (line s c) ∧ SameChunk s (line s c) := by
  have hrefl {t : Stream} (h1 : t.chunkPhase = s.chunkPhase) (h2 : t.chunkSize = s.chunkSize)
      (h3 : t.chunkDigits = s.chunkDigits) (h4 : t.chunked = s.chunked)
      (h5 : t.haveLength = s.haveLength) (h6 : t.remaining = s.remaining) : SameChunk s t :=
    ⟨h1, h2, h3, fun _ => h4, fun _ => h5, fun _ => h6⟩
  have hline := h.line
  unfold line
  split
  · exact ⟨{ h with }, hrefl rfl rfl rfl rfl rfl rfl⟩
  split
  · split
    · exact ⟨{ h with }, hrefl rfl rfl rfl rfl rfl rfl⟩
    next hfull =>
    refine ⟨{ h with line := ?_ }, hrefl rfl rfl rfl rfl rfl rfl⟩
    rw [List.length_append, List.length_singleton]
    omega
  -- a newline: the line without its carriage return is looked at, and then the next one starts
  dsimp only
  have hcut : InRange { s with
      line := if s.line.getLast? = some 13 then s.line.dropLast else s.line } := by
    refine { h with line := ?_ }
    show (if s.line.getLast? = some 13 then s.line.dropLast else s.line).length < _
    split
    · rw [List.length_dropLast]
      omega
    · exact hline
  obtain ⟨hrange, hsame⟩ := wholeLine_spec hcut
  refine ⟨{ hrange with line := ?_ }, ⟨hsame.phase, hsame.size, hsame.digits, hsame.chunked,
    hsame.haveLength, hsame.remaining⟩⟩
  show ([] : List UInt8).length < z80ChatLineMax
  decide

theorem shift_exact {n : UInt32} {d k : Nat} (hn : n.toNat < 16 ^ k) (hk : k < 8) (hd : d < 16) :
    ((n <<< 4) ||| UInt32.ofNat d).toNat = n.toNat * 16 + d := by
  have hpow : 16 ^ k ≤ 16 ^ 7 := Nat.pow_le_pow_right (by decide) (by omega)
  have hsmall : n.toNat < 2 ^ 28 := by
    have h7 : (16 : Nat) ^ 7 = 2 ^ 28 := by decide
    omega
  have hshift : (n <<< 4).toNat = n.toNat * 16 := by
    rw [UInt32.toNat_shiftLeft]
    show n.toNat <<< 4 % 2 ^ 32 = _
    rw [Nat.shiftLeft_eq]
    omega
  have hof : (UInt32.ofNat d).toNat = d := by
    rw [UInt32.toNat_ofNat']
    omega
  rw [UInt32.toNat_or, hshift, hof]
  have hmul : n.toNat * 16 = n.toNat <<< 4 := by rw [Nat.shiftLeft_eq]
  rw [hmul, Nat.shiftLeft_add_eq_or_of_lt (by omega)]

theorem hex_lt {c : UInt8} {d : Nat} (h : hex c = some d) : d < 16 := by
  unfold hex at h
  have hc := c.toNat_lt
  split at h
  next hr =>
    have h57 := UInt8.le_iff_toNat_le.mp hr.2
    have hd : c.toNat - 48 = d := Option.some.inj h
    have h57 : c.toNat ≤ 57 := h57
    omega
  split at h
  next hr =>
    have h102 : c.toNat ≤ 102 := UInt8.le_iff_toNat_le.mp hr.2
    have hd : c.toNat - 97 + 10 = d := Option.some.inj h
    omega
  split at h
  next hr =>
    have h70 : c.toNat ≤ 70 := UInt8.le_iff_toNat_le.mp hr.2
    have hd : c.toNat - 65 + 10 = d := Option.some.inj h
    omega
  · cases h

theorem sizeByte_spec {s : Stream} (h : InRange s) (hp : s.chunkPhase = .size) (c : UInt8) :
    InRange (sizeByte c s) := by
  have hnew {t : Stream} (h1 : t.line = s.line) (h2 : t.content = s.content)
      (h3 : t.position = s.position) (h4 : t.chunkDigits = s.chunkDigits)
      (h5 : t.chunkSize = s.chunkSize) (h6 : t.chunkPhase = .size ∨ t.chunkPhase = .sizeLf) :
      InRange t := {
    line := by
      rw [h1]
      exact h.line
    content := by
      rw [h2]
      exact h.content
    position := by
      rw [h2, h3]
      exact h.position
    digits := by
      rw [h4]
      exact h.digits
    size := fun _ => by
      rw [h4, h5]
      exact h.size hp
    data := fun ht => by
      rcases h6 with h6 | h6 <;> rw [h6] at ht <;> cases ht
    delimiter := fun ht => by
      rcases h6 with h6 | h6 <;> rw [h6] at ht <;> rcases ht with ht | ht <;> cases ht }
  unfold sizeByte
  split
  · exact hnew rfl rfl rfl rfl rfl (Or.inr rfl)
  split
  · exact hnew rfl rfl rfl rfl rfl (Or.inl hp)
  split
  · dsimp only
    split
    · exact hnew rfl rfl rfl rfl rfl (Or.inl hp)
    · exact hnew rfl rfl rfl rfl rfl (Or.inl hp)
  cases hc : hex c with
  | none => exact hnew rfl rfl rfl rfl rfl (Or.inl hp)
  | some digit =>
    dsimp only
    split
    swap
    · exact hnew rfl rfl rfl rfl rfl (Or.inl hp)
    next hroom =>
    have hexact := shift_exact (h.size hp) hroom.2 (hex_lt hc)
    have hlt := h.size hp
    have hd := hex_lt hc
    refine { h with
      digits := hroom.2
      size := fun _ => ?_
      data := fun ht => ?_
      delimiter := fun ht => ?_ }
    · show _ < 16 ^ (s.chunkDigits + 1)
      rw [hexact, Nat.pow_succ]
      omega
    · have ht : s.chunkPhase = .data := ht
      rw [hp] at ht
      cases ht
    · have ht : s.chunkPhase = .cr ∨ s.chunkPhase = .lf := ht
      rw [hp] at ht
      rcases ht with ht | ht <;> cases ht

theorem sub_one_exact {n : UInt32} (h : n ≠ 0) : (n - 1).toNat + 1 = n.toNat := by
  have h0 : n.toNat ≠ 0 := fun h0 => h (UInt32.toNat_inj.mp h0)
  have hone : (1 : UInt32) ≤ n := by
    rw [UInt32.le_iff_toNat_le]
    show 1 ≤ n.toNat
    omega
  rw [UInt32.toNat_sub_of_le _ _ hone]
  show n.toNat - 1 + 1 = n.toNat
  omega

/-- A byte of the data of a chunk. -/
theorem dataByte_spec {s : Stream} (h : InRange s) (hp : s.chunkPhase = .data) (c : UInt8) :
    InRange (chunkByte c s) ∧ (chunkByte c s).chunkSize.toNat + 1 = s.chunkSize.toNat := by
  obtain ⟨hrange, hsame⟩ := line_spec h c
  have hsize : (line s c).chunkSize = s.chunkSize := hsame.size
  have hphase : (line s c).chunkPhase = .data := hsame.phase.trans hp
  unfold chunkByte
  rw [hp]
  dsimp only
  have hexact := sub_one_exact (h.data hp)
  by_cases h0 : (line s c).chunkSize - 1 = 0
  · rw [if_pos h0]
    refine ⟨{ hrange with size := ?_, data := ?_, delimiter := fun _ => h0 }, ?_⟩
    · intro ht
      cases ht
    · intro ht
      cases ht
    · show ((line s c).chunkSize - 1).toNat + 1 = _
      rw [hsize]
      exact hexact
  · rw [if_neg h0]
    refine ⟨{ hrange with size := ?_, data := fun _ => h0, delimiter := ?_ }, ?_⟩
    · intro ht
      have ht : (line s c).chunkPhase = .size := ht
      rw [hphase] at ht
      cases ht
    · intro ht
      have ht : (line s c).chunkPhase = .cr ∨ (line s c).chunkPhase = .lf := ht
      rw [hphase] at ht
      rcases ht with ht | ht <;> cases ht
    · show ((line s c).chunkSize - 1).toNat + 1 = _
      rw [hsize]
      exact hexact

theorem chunkByte_spec {s : Stream} (h : InRange s) (c : UInt8) : InRange (chunkByte c s) := by
  have hdata := fun hp => (dataByte_spec h hp c).1
  unfold chunkByte at hdata ⊢
  split
  next hp => exact sizeByte_spec h hp c
  next hp =>
    unfold delimiter
    split
    · exact { h with }
    by_cases h0 : s.chunkSize = 0
    · refine { h with size := ?_, data := ?_, delimiter := ?_ } <;> simp [h0]
    · refine { h with size := ?_, data := ?_, delimiter := ?_ } <;> simp [h0]
  next hp =>
    have hd := hdata hp
    rw [hp] at hd
    exact hd
  next hp =>
    unfold delimiter
    split
    · exact { h with }
    · refine { h with size := ?_, data := ?_, delimiter := fun _ => h.delimiter (Or.inl hp) }
      · simp
      · simp
  next hp =>
    unfold delimiter
    split
    · exact { h with }
    · refine { h with digits := Nat.zero_le _, size := fun _ => ?_, data := ?_, delimiter := ?_ }
      · have h0 : s.chunkSize = 0 := h.delimiter (Or.inr hp)
        show s.chunkSize.toNat < 16 ^ 0
        rw [h0]
        decide
      · simp
      · simp
  next hp =>
    dsimp only
    split
    · exact { h with }
    · exact (line_spec (s := { s with headerBytes := s.headerBytes + 1 }) { h with } c).1

theorem plainByte_spec {s : Stream} (h : InRange s) (hp : s.phase = .body) (c : UInt8) :
    InRange (plainByte c s) ∧ (s.haveLength = true → s.remaining ≠ 0 →
      (plainByte c s).remaining.toNat + 1 = s.remaining.toNat) ∧
    (s.remaining = 0 → s.haveLength = true → (plainByte c s).remaining = 0) := by
  obtain ⟨hrange, hsame⟩ := line_spec h c
  unfold plainByte
  by_cases hend : (s.haveLength && s.remaining == 0) = true
  · rw [if_pos hend]
    rw [Bool.and_eq_true, beq_iff_eq] at hend
    exact ⟨{ h with }, fun _ hne => absurd hend.2 hne, fun h0 _ => h0⟩
  rw [if_neg hend]
  dsimp only
  rw [hsame.haveLength hp]
  by_cases hlen : s.haveLength = true
  · rw [if_pos hlen]
    have hne : s.remaining ≠ 0 := by
      intro h0
      rw [hlen, h0] at hend
      exact hend rfl
    have hexact := sub_one_exact hne
    have hremaining := hsame.remaining hp
    rw [← hremaining] at hexact
    split
    · refine ⟨{ hrange with }, fun _ _ => ?_, fun h0 => absurd h0 hne⟩
      rw [← hremaining]
      exact hexact
    · refine ⟨{ hrange with }, fun _ _ => ?_, fun h0 => absurd h0 hne⟩
      rw [← hremaining]
      exact hexact
  · rw [if_neg hlen]
    exact ⟨hrange, fun hl => absurd hl hlen, fun _ hl => absurd hl hlen⟩

theorem consume_spec {s : Stream} (h : InRange s) (c : UInt8) : InRange (consume c s) := by
  unfold consume
  split
  · dsimp only
    split
    · exact { h with }
    · exact (line_spec (s := { s with headerBytes := s.headerBytes + 1 }) { h with } c).1
  next hp =>
    rw [ne_eq, not_not] at hp
    split
    · exact (plainByte_spec h hp c).1
    · exact chunkByte_spec h c

theorem flushed_spec {s : Stream} (h : InRange s) : InRange (flushed s) := by
  refine { h with position := ?_ }
  have hpos := h.position
  have hlen : (pending s).length ≤ s.content.length - s.position := by
    unfold pending
    split
    · exact Nat.zero_le _
    · exact Nat.le_of_eq List.length_drop
  show s.position + (pending s).length ≤ s.content.length
  omega

theorem decodeFrom_spec (data : List UInt8) {s : Stream} (h : InRange s) :
    InRange (decodeFrom data s).1 := by
  induction data generalizing s with
  | nil => exact h
  | cons c data ih =>
    rw [decodeFrom]
    split
    · exact h
    · exact ih (flushed_spec (consume_spec h c))

theorem inRange_init : InRange streamInit := by
  refine ⟨?_, ?_, Nat.le_refl 0, Nat.zero_le _, fun _ => ?_, fun h => ?_, fun _ => rfl⟩
  · show ([] : List UInt8).length < z80ChatLineMax
    decide
  · show ([] : List UInt8).length < z80ChatLineMax
    decide
  · show (0 : UInt32).toNat < 16 ^ 0
    decide
  · cases h

/-- A Content-Length that is taken is the number that its digits are. -/
theorem contentLength_exact {n m : UInt32} {p : List UInt8} (h : contentLength n p = some m) :
    m.toNat = p.foldl (fun n c => n * 10 + (c.toNat - 48)) n.toNat := by
  induction p generalizing n with
  | nil =>
    cases h
    rfl
  | cons c p ih =>
    rw [contentLength] at h
    split at h
    · cases h
    next hok =>
    simp only [not_or] at hok
    obtain ⟨h48, hle, hbig⟩ := hok
    have hc48 : 48 ≤ c.toNat := UInt8.le_iff_toNat_le.mp (UInt8.not_lt.mp h48)
    have hdigit : (c - 48).toNat = c.toNat - 48 :=
      UInt8.toNat_sub_of_le c 48 (UInt8.le_iff_toNat_le.mpr hc48)
    have hc := c.toNat_lt
    have hn : n.toNat ≤ 429496728 := UInt32.le_iff_toNat_le.mp (UInt32.not_lt.mp hbig)
    have h57 : c.toNat ≤ 57 := UInt8.le_iff_toNat_le.mp (UInt8.not_lt.mp hle)
    have hstep : (n * 10 + (c - 48).toUInt32).toNat = n.toNat * 10 + (c.toNat - 48) := by
      rw [UInt32.toNat_add, UInt32.toNat_mul, UInt8.toNat_toUInt32, hdigit]
      show (n.toNat * 10 % 2 ^ 32 + (c.toNat - 48)) % 2 ^ 32 = _
      omega
    rw [ih h, hstep]
    rfl

/-! ## The decoder and its input -/

/-- A flush that is cut short has not run past the text. -/
theorem flush_inRange {κ : Type} (emit : κ → UInt8 → Option κ) (s : Stream) (k : κ)
    (h : InRange s) : InRange (flush emit (pending s) s k).2.1 := by
  obtain ⟨cs, hcs⟩ : ∃ cs, pending s = cs := ⟨_, rfl⟩
  rw [hcs]
  induction cs generalizing s k with
  | nil => exact h
  | cons c cs ih =>
    have herr : s.error.isSome = false := by
      by_contra hne
      rw [Bool.not_eq_false] at hne
      rw [pending, if_pos hne] at hcs
      cases hcs
    have hdrop : s.content.drop s.position = c :: cs := by
      rwa [pending, herr, if_neg Bool.false_ne_true] at hcs
    have hlt : s.position < s.content.length := by
      by_contra hge
      rw [List.drop_eq_nil_of_le (Nat.not_lt.mp hge)] at hdrop
      cases hdrop
    have hnext : pending { s with position := s.position + 1 } = cs := by
      unfold pending
      dsimp only
      rw [herr, if_neg Bool.false_ne_true, ← List.drop_drop, hdrop]
      rfl
    cases hc : emit k c with
    | none => simpa [flush, hc] using h
    | some k' =>
      simp only [flush, hc]
      exact ih { s with position := s.position + 1 } k' { h with position := hlt } hnext

theorem feed_inRange {κ : Type} (emit : κ → UInt8 → Option κ) (data : List UInt8) (s : Stream)
    (k : κ) (h : InRange s) : InRange (feed emit data s k).2.1 := by
  induction data generalizing s k with
  | nil => exact flush_inRange emit s k h
  | cons c data ih =>
    have hflush := flush_inRange emit s k h
    rw [feed]
    generalize flush emit (pending s) s k = r at *
    obtain ⟨taken, t, k'⟩ := r
    dsimp only at hflush ⊢
    split
    · exact hflush
    · exact ih (consume c t) k' (consume_spec hflush c)

/-- What the counters are, behind any feeds. -/
structure Counts (s : Stream) : Prop where
  inRange : InRange s
  /-- a byte of a body with a length is counted once, and the count does not wrap -/
  remaining : s.phase = .body → s.chunked = false → s.haveLength = true → ∀ c,
    (s.remaining ≠ 0 → (consume c s).remaining.toNat + 1 = s.remaining.toNat) ∧
      (s.remaining = 0 → (consume c s).remaining = 0)
  /-- and so is a byte of a chunk -/
  chunk : s.phase = .body → s.chunked = true → s.chunkPhase = .data → ∀ c,
    (consume c s).chunkSize.toNat + 1 = s.chunkSize.toNat

theorem counts {s : Stream} (h : InRange s) : Counts s where
  inRange := h
  remaining hbody hchunked hlen c := by
    obtain ⟨-, hmore, hnone⟩ := plainByte_spec h hbody c
    have hconsume : consume c s = plainByte c s := by
      unfold consume
      rw [if_neg (not_not.mpr hbody), hchunked, if_pos (by decide)]
    rw [hconsume]
    exact ⟨hmore hlen, fun h0 => hnone h0 hlen⟩
  chunk hbody hchunked hdata c := by
    have hconsume : consume c s = chunkByte c s := by
      unfold consume
      rw [if_neg (not_not.mpr hbody), hchunked, if_neg (by decide)]
    rw [hconsume]
    exact (dataByte_spec h hdata c).2

/-! ## The text of the events -/

/-- The line that a newline ends. -/
def stripped (line : List UInt8) : List UInt8 :=
  if line.getLast? = some 13 then line.dropLast else line

/-- The text of the event on a line. -/
def lineText (line : List UInt8) : List UInt8 :=
  if line.take 5 ≠ text ['d', 'a', 't', 'a', ':'] then []
  else
    match eventData (if (line.drop 5).head? = some 32 then (line.drop 5).drop 1 else line.drop 5) with
    | .text content => content
    | _ => []

/-- The next byte is one of the event stream. -/
def inEvents (s : Stream) : Bool :=
  s.phase = .body && if s.chunked then s.chunkPhase = .data else !(s.haveLength && s.remaining == 0)

/-- The text of the event that a byte ends. -/
def finished (c : UInt8) (s : Stream) : List UInt8 :=
  if inEvents s = true ∧ c = 10 then lineText (stripped s.line) else []

/-- The text of all the events that the bytes end. -/
def texts : List UInt8 → Stream → List UInt8
  | [], _ => []
  | c :: data, s => if halted s then [] else finished c s ++ texts data (flushed (consume c s))

/-- The byte is the last one of a Content-Length, and ends an event that has a text. -/
structure Swallows (c : UInt8) (s : Stream) : Prop where
  body : s.phase = .body
  plain : s.chunked = false
  haveLength : s.haveLength = true
  last : s.remaining = 1
  text : finished c s ≠ []

theorem pending_same {s t : Stream} (herr : s.error = none) (hs : pending s = [])
    (hcontent : t.content = s.content) (hposition : t.position = s.position) : pending t = [] := by
  rw [pending, herr, if_neg (by decide)] at hs
  rw [pending, hcontent, hposition, hs, ite_self]

theorem pending_event {s : Stream} (herr : s.error = none) (hs : pending s = []) :
    pending (event s) = lineText s.line := by
  unfold event lineText
  split
  · exact hs
  dsimp only
  generalize eventData _ = e
  cases e with
  | done => exact hs
  | text content =>
    show (if s.error.isSome then [] else content.drop 0) = content
    rw [herr]
    rfl
  | error message => rfl

theorem lineText_done {s : Stream} (h : s.done = false) (hdone : (event s).done = true) :
    lineText s.line = [] := by
  unfold event at hdone
  unfold lineText
  split
  · rfl
  next hdata =>
  rw [if_neg hdata] at hdone
  dsimp only at hdone
  generalize eventData _ = e at hdone ⊢
  cases e with
  | done => rfl
  | text content =>
    rw [show s.done = true from hdone] at h
    cases h
  | error message => rfl

theorem statusLine_content (s : Stream) :
    (statusLine s).content = s.content ∧ (statusLine s).position = s.position := by
  unfold statusLine
  split
  · exact ⟨rfl, rfl⟩
  · exact ⟨rfl, rfl⟩

theorem header_content (s : Stream) :
    (header s).content = s.content ∧ (header s).position = s.position := by
  unfold header
  split
  · exact ⟨rfl, rfl⟩
  dsimp only
  split
  · exact ⟨rfl, rfl⟩
  split
  · split
    · exact ⟨rfl, rfl⟩
    split
    · exact ⟨rfl, rfl⟩
    · exact ⟨rfl, rfl⟩
  split
  · exact ⟨rfl, rfl⟩
  split
  · exact ⟨rfl, rfl⟩
  · exact ⟨rfl, rfl⟩

/-- Before the body, and behind the last chunk, a line is no event. -/
theorem wholeLine_content {s : Stream}
    (h : s.phase ≠ .body ∨ s.chunkPhase = .trailers ∧ s.chunked = true) :
    (wholeLine s).content = s.content ∧ (wholeLine s).position = s.position := by
  unfold wholeLine
  split
  · exact statusLine_content s
  · split
    · exact header_content s
    split
    · exact ⟨rfl, rfl⟩
    · exact ⟨rfl, rfl⟩
  next hbody =>
    rw [if_pos (h.resolve_left (not_not.mpr hbody))]
    split
    · exact ⟨rfl, rfl⟩
    · exact ⟨rfl, rfl⟩

theorem line_content {s : Stream}
    (h : s.phase ≠ .body ∨ s.chunkPhase = .trailers ∧ s.chunked = true) (c : UInt8) :
    (line s c).content = s.content ∧ (line s c).position = s.position := by
  unfold line
  split
  · exact ⟨rfl, rfl⟩
  split
  · split
    · exact ⟨rfl, rfl⟩
    · exact ⟨rfl, rfl⟩
  · exact wholeLine_content (s := { s with
      line := if s.line.getLast? = some 13 then s.line.dropLast else s.line }) h

theorem wholeLine_events {s : Stream} (hbody : s.phase = .body)
    (hphase : ¬(s.chunkPhase = .trailers ∧ s.chunked = true)) :
    wholeLine s = if s.line ≠ [] then event s else s := by
  unfold wholeLine
  rw [hbody]
  exact if_neg hphase

/-- In the event stream a newline gives the text of its line. -/
theorem line_events {s : Stream} (hbody : s.phase = .body)
    (hphase : ¬(s.chunkPhase = .trailers ∧ s.chunked = true)) (herr : s.error = none)
    (hdone : s.done = false) (hs : pending s = []) (c : UInt8) :
    pending (line s c) = (if c = 10 then lineText (stripped s.line) else []) ∧
      ((line s c).done = true → c = 10 ∧ lineText (stripped s.line) = []) := by
  have hno {t : Stream} (h : t.done = s.done) (ht : t.done = true) : False := by
    rw [h, hdone] at ht
    cases ht
  unfold line
  by_cases h0 : c = 0
  · rw [if_pos h0, h0]
    exact ⟨rfl, fun ht => (hno rfl ht).elim⟩
  rw [if_neg h0]
  by_cases h10 : c = 10
  swap
  · rw [if_pos h10, if_neg h10]
    split
    · exact ⟨rfl, fun ht => (hno rfl ht).elim⟩
    · exact ⟨pending_same herr hs rfl rfl, fun ht => (hno rfl ht).elim⟩
  rw [if_neg (not_not.mpr h10), if_pos h10]
  dsimp only
  rw [show (if s.line.getLast? = some 13 then s.line.dropLast else s.line) = stripped s.line from
    rfl]
  generalize stripped s.line = l
  rw [wholeLine_events (s := { s with line := l }) hbody hphase]
  by_cases hl : l = []
  · rw [if_neg (not_not.mpr hl), hl]
    exact ⟨pending_same herr hs rfl rfl, fun ht => (hno rfl ht).elim⟩
  rw [if_pos hl]
  exact ⟨pending_event (s := { s with line := l }) herr hs,
    fun ht => ⟨h10, lineText_done (s := { s with line := l }) hdone ht⟩⟩

theorem sizeByte_content (s : Stream) (c : UInt8) :
    (sizeByte c s).content = s.content ∧ (sizeByte c s).position = s.position := by
  unfold sizeByte
  split
  · exact ⟨rfl, rfl⟩
  split
  · exact ⟨rfl, rfl⟩
  split
  · dsimp only
    split
    · exact ⟨rfl, rfl⟩
    · exact ⟨rfl, rfl⟩
  split
  · split
    · exact ⟨rfl, rfl⟩
    · exact ⟨rfl, rfl⟩
  · exact ⟨rfl, rfl⟩

theorem chunkByte_content {s : Stream} (h : s.chunkPhase ≠ .data) (hchunked : s.chunked = true)
    (c : UInt8) : (chunkByte c s).content = s.content ∧ (chunkByte c s).position = s.position := by
  unfold chunkByte
  split
  · exact sizeByte_content s c
  · unfold delimiter
    split
    · exact ⟨rfl, rfl⟩
    · exact ⟨rfl, rfl⟩
  next hdata => exact absurd hdata h
  · unfold delimiter
    split
    · exact ⟨rfl, rfl⟩
    · exact ⟨rfl, rfl⟩
  · unfold delimiter
    split
    · exact ⟨rfl, rfl⟩
    · exact ⟨rfl, rfl⟩
  next htrailers =>
    dsimp only
    split
    · exact ⟨rfl, rfl⟩
    · exact line_content (s := { s with headerBytes := s.headerBytes + 1 })
        (Or.inr ⟨htrailers, hchunked⟩) c

theorem sub_one_zero {n : UInt32} : n - 1 = 0 ↔ n = 1 := by
  constructor
  · intro h
    have hsum := congrArg (· + 1) h
    simpa only [UInt32.sub_add_cancel, UInt32.zero_add] using hsum
  · rintro rfl
    rfl

/-- What a byte gives to emit is the text of the event that it ends, unless it is swallowed. -/
theorem pending_consume {s : Stream} (hrange : InRange s) (hrun : halted s = false)
    (hs : pending s = []) (c : UInt8) :
    (Swallows c s → pending (consume c s) = []) ∧
      (¬Swallows c s → pending (consume c s) = finished c s) := by
  rw [halted, Bool.or_eq_false_iff, Option.isSome_eq_false_iff, Option.isNone_iff_eq_none] at hrun
  obtain ⟨herr, hdone⟩ := hrun
  unfold consume
  by_cases hbody : s.phase = .body
  swap
  · -- the status line and the headers
    have hfinished : finished c s = [] := if_neg fun h => by simp [inEvents, hbody] at h
    rw [if_pos hbody, hfinished]
    refine ⟨fun h => absurd h.body hbody, fun _ => ?_⟩
    dsimp only
    split
    · rfl
    · obtain ⟨hcontent, hposition⟩ :=
        line_content (s := { s with headerBytes := s.headerBytes + 1 }) (Or.inl hbody) c
      exact pending_same herr hs hcontent hposition
  rw [if_neg (not_not.mpr hbody)]
  cases hchunked : s.chunked with
  | true =>
    rw [Bool.not_true, if_neg Bool.false_ne_true]
    refine ⟨fun h => Bool.noConfusion (hchunked.symm.trans h.plain), fun _ => ?_⟩
    by_cases hdata : s.chunkPhase = .data
    · have hevents : inEvents s = true := by simp [inEvents, hbody, hchunked, hdata]
      obtain ⟨hpending, -⟩ := line_events hbody (by simp [hdata]) herr hdone hs c
      have hfinished : finished c s = if c = 10 then lineText (stripped s.line) else [] := by
        simp [finished, hevents]
      rw [hfinished, ← hpending]
      unfold chunkByte
      rw [hdata]
      dsimp only
      split
      · rfl
      · rfl
    · have hfinished : finished c s = [] := if_neg fun h => by
        simp [inEvents, hbody, hchunked, hdata] at h
      obtain ⟨hcontent, hposition⟩ := chunkByte_content hdata hchunked c
      rw [hfinished]
      exact pending_same herr hs hcontent hposition
  | false =>
    rw [Bool.not_false, if_pos rfl]
    unfold plainByte
    by_cases hend : (s.haveLength && s.remaining == 0) = true
    · have hfinished : finished c s = [] := if_neg fun h => by
        simp [inEvents, hbody, hchunked, hend] at h
      rw [if_pos hend, hfinished]
      exact ⟨fun h => absurd hfinished h.text, fun _ => rfl⟩
    rw [if_neg hend]
    have hevents : inEvents s = true := by
      rw [Bool.not_eq_true] at hend
      simp [inEvents, hbody, hchunked, hend]
    obtain ⟨hpending, hlast⟩ := line_events hbody (by simp [hchunked]) herr hdone hs c
    have hfinished : finished c s = if c = 10 then lineText (stripped s.line) else [] := by
      simp [finished, hevents]
    rw [← hfinished] at hpending
    obtain ⟨-, hsame⟩ := line_spec hrange c
    dsimp only
    rw [hsame.haveLength hbody, hsame.remaining hbody]
    generalize line s c = u at hpending hlast ⊢
    cases hlength : s.haveLength with
    | false =>
      rw [if_neg Bool.false_ne_true]
      exact ⟨fun h => Bool.noConfusion (hlength.symm.trans h.haveLength), fun _ => hpending⟩
    | true =>
      rw [if_pos rfl]
      by_cases hstop : s.remaining - 1 = 0 ∧ (!u.done) = true
      · -- the last byte: the error is set behind the event
        rw [if_pos hstop]
        refine ⟨fun _ => rfl, fun h => ?_⟩
        have hempty : finished c s = [] := by
          by_contra hne
          exact h ⟨hbody, hchunked, hlength, sub_one_zero.mp hstop.1, hne⟩
        rw [hempty]
        rfl
      · rw [if_neg hstop]
        refine ⟨fun h => ?_, fun _ => hpending⟩
        have hdone' : u.done = true := by
          by_contra hne
          exact hstop ⟨sub_one_zero.mpr h.last, by rw [Bool.not_eq_true] at hne; rw [hne]; rfl⟩
        obtain ⟨h10, hnone⟩ := hlast hdone'
        exact absurd (by rw [hfinished, if_pos h10, hnone]) h.text

/-- Some byte of the data is swallowed. -/
def Loses (data : List UInt8) (s : Stream) : Prop :=
  ∃ before c behind, data = before ++ c :: behind ∧ decodeUsed before s = before.length ∧
    halted (decodeFrom before s).1 = false ∧ Swallows c (decodeFrom before s).1

/-- What is decoded is the text of the events. -/
theorem decode_texts (data : List UInt8) {s : Stream} (hrange : InRange s) (hs : pending s = [])
    (hno : ¬Loses data s) : (decodeFrom data s).2 = texts data s := by
  induction data generalizing s with
  | nil => rfl
  | cons c data ih =>
    by_cases hh : halted s = true
    · rw [(decodeFrom_halted hh _).1, texts, if_pos hh]
    rw [decodeFrom, texts, if_neg hh, if_neg hh]
    dsimp only
    have hrun : halted s = false := Bool.eq_false_iff.mpr hh
    have hkeeps : ¬Swallows c s := fun h => hno ⟨[], c, data, rfl, rfl, hrun, h⟩
    rw [(pending_consume hrange hrun hs c).2 hkeeps, ih (flushed_spec (consume_spec hrange c))
      (pending_flushed _) ?_]
    rintro ⟨before, c', behind, hsplit, hused, hmore, hswallow⟩
    refine hno ⟨c :: before, c', behind, by rw [hsplit, List.cons_append], ?_, ?_, ?_⟩
    · rw [decodeUsed, if_neg hh, hused, List.length_cons]
    · rw [decodeFrom, if_neg hh]
      exact hmore
    · rw [decodeFrom, if_neg hh]
      exact hswallow

/-- Nothing more is decoded than the events have. -/
theorem decode_le (data : List UInt8) {s : Stream} (hrange : InRange s) (hs : pending s = []) :
    (decodeFrom data s).2.length ≤ (texts data s).length := by
  induction data generalizing s with
  | nil => exact Nat.le_refl 0
  | cons c data ih =>
    by_cases hh : halted s = true
    · rw [(decodeFrom_halted hh _).1]
      exact Nat.zero_le _
    rw [decodeFrom, texts, if_neg hh, if_neg hh]
    dsimp only
    have hih := ih (flushed_spec (consume_spec hrange c)) (pending_flushed _)
    obtain ⟨hlost, hkept⟩ := pending_consume hrange (Bool.eq_false_iff.mpr hh) hs c
    rw [List.length_append, List.length_append]
    by_cases hswallow : Swallows c s
    · rw [hlost hswallow, List.length_nil]
      omega
    · rw [hkept hswallow]
      omega

theorem texts_append (a b : List UInt8) (s : Stream) (h : decodeUsed a s = a.length) :
    texts (a ++ b) s = texts a s ++ texts b (decodeFrom a s).1 := by
  induction a generalizing s with
  | nil => rfl
  | cons c a ih =>
    by_cases hh : halted s = true
    · simp [decodeUsed, hh] at h
    rw [decodeUsed, if_neg hh, List.length_cons, Nat.add_right_cancel_iff] at h
    rw [List.cons_append, texts, texts, decodeFrom, if_neg hh, if_neg hh, if_neg hh, ih _ h,
      List.append_assoc]

/-- A swallowed byte takes its text with it, and ends the run. -/
theorem decode_loses {before : List UInt8} {c : UInt8} {s : Stream} (hrange : InRange s)
    (hs : pending s = []) (hused : decodeUsed before s = before.length)
    (hmore : halted (decodeFrom before s).1 = false)
    (hswallow : Swallows c (decodeFrom before s).1) :
    (decodeFrom (before ++ [c]) s).2 ≠ texts (before ++ [c]) s := by
  intro heq
  have hend := decodeFrom_spec before hrange
  have hnil := decodeFrom_nil before hs
  have hle := decode_le before hrange hs
  rw [(decodeFrom_append before [c] s hused).1, texts_append before [c] s hused] at heq
  generalize (decodeFrom before s).1 = t at hmore hswallow hend hnil heq
  have hlost := (pending_consume hend hmore hnil c).1 hswallow
  have hlen := congrArg List.length heq
  simp only [decodeFrom, texts, hmore, Bool.false_eq_true, if_false, hlost, List.append_nil,
    List.length_append] at hlen
  exact hswallow.text (List.length_eq_zero_iff.mp (by omega))

/-- Whatever the pieces and the refusals: the decoder is that of one feed of the bytes used
but for the text it still holds back, which goes out before the next byte is used; when the
run is over, decoder and text are those of one feed of all the data. The indices and the
counters are in range. -/
structure OneFeed (data used : List UInt8) (d : Delivery Stream) : Prop where
  split : data = used ++ d.rest
  fed : feed acceptAll used streamInit [] =
    (used.length, flushed d.decoder, d.sent ++ pending d.decoder)
  ended : pending d.decoder = [] → d.rest = [] ∨ halted d.decoder = true →
    feed acceptAll data streamInit [] = (used.length, d.decoder, d.sent)
  next : ∀ o, (d.offer feed o).rest.length < d.rest.length →
    d.sent ++ pending d.decoder <+: (d.offer feed o).sent
  counts : Counts d.decoder

/-- The text of the events that the bytes used have ended is out, or it goes out before the next
byte is used. -/
structure Lossless (used : List UInt8) (d : Delivery Stream) : Prop where
  sent : d.sent ++ pending d.decoder = texts used streamInit
  next : ∀ o, (d.offer feed o).rest.length < d.rest.length →
    texts used streamInit <+: (d.offer feed o).sent

theorem delivery_whole (data : List UInt8) (offers : List Offer) :
    ∃ used, OneFeed data used (Delivery.run feed ⟨data, streamInit, []⟩ offers) := by
  have hstart : InRange (Delivery.mk data streamInit ([] : List UInt8)).decoder ∧
      Agrees streamInit [] streamInit [] := ⟨inRange_init, rfl, rfl, rfl⟩
  obtain ⟨used, hsplit, hrange, hagrees⟩ := Delivery.run_induct feed
    (P := fun used s sent => InRange s ∧ Agrees streamInit used s sent) (u := [])
    (d := ⟨data, streamInit, []⟩) (fun used s sent answer data ⟨hr, ha⟩ =>
      ⟨(ha.accept answer data).1, feed_inRange _ data s sent hr, (ha.accept answer data).2⟩)
    hstart offers
  generalize Delivery.run feed ⟨data, streamInit, []⟩ offers = d at *
  have hall : data = used ++ d.rest := hsplit
  have hused : decodeUsed used (flushed streamInit) = used.length := hagrees.all
  have hdecoded : flushed d.decoder = (decodeFrom used (flushed streamInit)).1 := hagrees.decoded
  have houtput : d.sent ++ pending d.decoder =
      pending streamInit ++ (decodeFrom used (flushed streamInit)).2 := hagrees.output
  have hfeed : feed acceptAll used streamInit [] =
      (used.length, flushed d.decoder, d.sent ++ pending d.decoder) := by
    rw [feed_acceptAll, hused, hdecoded, houtput, List.nil_append]
  refine ⟨used, hall, hfeed, ?_, ?_, counts hrange⟩
  · intro hnil hover
    have hflushed := flushed_of_nil hnil
    rw [hflushed, hnil, List.append_nil] at hfeed
    rcases hover with hrest | hhalt
    · have hdata : data = used := by rw [hall, hrest, List.append_nil]
      rw [hdata, hfeed]
    · have hstop := decodeFrom_halted hhalt d.rest
      obtain ⟨hd, hu⟩ := decodeFrom_append used d.rest (flushed streamInit) hused
      rw [← hdecoded, hflushed] at hd hu
      rw [hnil, List.append_nil] at houtput
      rw [feed_acceptAll, hall, hd, hu, hstop.1, hstop.2, houtput]
      simp
  · intro o hmore
    obtain ⟨hle, -, -, -, -, -, hsent⟩ := @feed_decode _ (accept o.answer) (fun sent => sent)
      (fun _ => True) (fun _ _ _ _ hk => ⟨trivial, accept_eq hk⟩) (d.rest.take o.size) d.decoder d.sent trivial
    refine hsent fun h0 => ?_
    unfold Delivery.offer at hmore
    dsimp only at hmore
    rw [h0] at hmore
    exact absurd hmore (Nat.lt_irrefl _)

/-- What is out and what is held back are what is decoded of the bytes used. -/
theorem OneFeed.output {data used : List UInt8} {d : Delivery Stream} (h : OneFeed data used d) :
    d.sent ++ pending d.decoder = (decodeFrom used streamInit).2 := by
  have hfed := h.fed
  rw [feed_acceptAll] at hfed
  exact (congrArg (fun r => r.2.2) hfed).symm

/-- One feed of the first bytes, with a receiver that refuses nothing. -/
def feedFirst (n : Nat) : List Offer := [⟨n, fun _ _ => true⟩]

theorem run_first (a b : List UInt8) (h : decodeUsed a streamInit = a.length) :
    (Delivery.run feed ⟨a ++ b, streamInit, []⟩ (feedFirst a.length)).rest = b := by
  show (a ++ b).drop (feed acceptAll ((a ++ b).take a.length) streamInit []).1 = b
  rw [List.take_left', feed_acceptAll]
  · exact (congrArg (List.drop · (a ++ b)) h).trans List.drop_left
  · rfl

/-- However the data is cut, the run is one feed of the bytes used; and it has the text of all
events exactly where none of them ends with the last byte of a Content-Length. -/
theorem chat_delivery_exact (data : List UInt8) :
    (∀ offers, ∃ used, OneFeed data used (Delivery.run feed ⟨data, streamInit, []⟩ offers)) ∧
    ((∀ offers, ∃ used, OneFeed data used (Delivery.run feed ⟨data, streamInit, []⟩ offers) ∧
        Lossless used (Delivery.run feed ⟨data, streamInit, []⟩ offers)) ↔
      ¬Loses data streamInit) := by
  refine ⟨delivery_whole data, fun h hloses => ?_, fun hno offers => ?_⟩
  · obtain ⟨before, c, behind, hsplit, hused, hmore, hswallow⟩ := hloses
    have hdata : data = (before ++ [c]) ++ behind := by
      rw [hsplit, List.append_assoc, List.singleton_append]
    have hone : decodeUsed (before ++ [c]) streamInit = (before ++ [c]).length := by
      rw [(decodeFrom_append before [c] streamInit hused).2]
      simp [decodeUsed, hmore]
    subst hdata
    obtain ⟨used, hwhole, hlossless⟩ := h (feedFirst (before ++ [c]).length)
    have hrest := run_first (before ++ [c]) behind hone
    have hused' := hwhole.split
    rw [hrest, List.append_cancel_right_eq] at hused'
    subst hused'
    exact decode_loses inRange_init rfl hused hmore hswallow
      (hwhole.output.symm.trans hlossless.sent)
  · obtain ⟨used, hwhole⟩ := delivery_whole data offers
    have htexts : (decodeFrom used streamInit).2 = texts used streamInit := by
      refine decode_texts used inRange_init rfl ?_
      rintro ⟨before, c, behind, hsplit, hswallow⟩
      refine hno ⟨before, c, behind ++ (Delivery.run feed ⟨data, streamInit, []⟩ offers).rest, ?_,
        hswallow⟩
      have hall := hwhole.split
      rw [hsplit, List.append_assoc, List.cons_append] at hall
      exact hall
    have hsent := hwhole.output.trans htexts
    exact ⟨used, hwhole, hsent, fun o hmore => hsent ▸ hwhole.next o hmore⟩

def eventHead : List UInt8 :=
  text "HTTP/1.1 200 OK\r\nContent-Type: text/event-stream\r\n".toList

def eventA : List UInt8 :=
  text "data: \x7b\"choices\":[\x7b\"delta\":\x7b\"content\":\"A\"\x7d\x7d]\x7d\n".toList

/-- A response whose Content-Length ends with the newline of its only event. -/
def lastEvent : List UInt8 := eventHead ++ text "Content-Length: 46\r\n\r\n".toList ++ eventA

/-- One whole feed of it emits nothing. -/
theorem last_text_lost :
    ¬∀ offers, ∃ used, OneFeed lastEvent used (Delivery.run feed ⟨lastEvent, streamInit, []⟩ offers) ∧
      Lossless used (Delivery.run feed ⟨lastEvent, streamInit, []⟩ offers) := by
  intro h
  obtain ⟨used, hwhole, hlossless⟩ := h (feedFirst lastEvent.length)
  have hdecode : decodeUsed lastEvent streamInit = lastEvent.length ∧
      (decodeFrom lastEvent streamInit).2 = [] ∧ texts lastEvent streamInit = [65] := by
    decide +kernel
  have hused := hwhole.split
  have hrest := run_first lastEvent [] hdecode.1
  rw [List.append_nil] at hrest
  rw [hrest, List.append_nil] at hused
  subst hused
  have hsent := hwhole.output.symm.trans hlossless.sent
  rw [hdecode.2.1, hdecode.2.2] at hsent
  cases hsent

-- in a chunk the same event is emitted
example : (feed acceptAll (eventHead ++ text "Transfer-Encoding: chunked\r\n\r\n2E\r\n".toList ++
    eventA ++ [13, 10]) streamInit []).2.2 = [65] := by decide +kernel

end Z80Sbc.Chat
