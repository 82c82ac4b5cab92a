import Z80Sbc.Data.Delivery
import Z80Sbc.Http.Stream

/-! # The decoder does not see how its input is cut

The caller offers what is left of the data in pieces, and `emit` may refuse any byte of the
body; the rest is offered again. Whatever the pieces and the refusals are, the bytes used so
far have had the effect of one feed of them that refuses nothing. -/

namespace Z80Sbc.Http
open Z80Sbc.Data

/-- One feed that refuses nothing: the number of bytes that it uses. -/
def decodeUsed : List UInt8 → Stream → Nat
  | [], _ => 0
  | c :: data, s => if halted s then 0 else decodeUsed data (consume c s) + 1

theorem feed_acceptAll (data : List UInt8) (s : Stream) (sent : List UInt8) :
    feed acceptAll data s sent =
      (decodeUsed data s, (decode data s).1, sent ++ (decode data s).2) := by
  induction data generalizing s sent with
  | nil => simp [feed, decodeUsed, decode]
  | cons c data ih =>
    by_cases h : halted s = true
    · simp [feed, decodeUsed, decode, h]
    · by_cases hb : inBody s = true
      · simp [feed, decodeUsed, decode, h, hb, acceptAll, ih]
      · simp [feed, decodeUsed, decode, h, hb, ih]

theorem decodeUsed_le (data : List UInt8) (s : Stream) : decodeUsed data s ≤ data.length := by
  induction data generalizing s with
  | nil => exact Nat.le_refl 0
  | cons c data ih =>
    rw [decodeUsed]
    split
    · exact Nat.zero_le _
    · exact Nat.succ_le_succ (ih _)

/-- Every byte of the prefix that a feed uses is used by a feed of the prefix alone. -/
theorem feed_used (answer : List UInt8 → UInt8 → Bool) (data : List UInt8) (s : Stream)
    (sent : List UInt8) :
    let used := (feed (accept answer) data s sent).1
    decodeUsed (data.take used) s = used := by
  induction data generalizing s sent with
  | nil => rfl
  | cons c data ih =>
    by_cases h : halted s = true
    · simp [feed, h, decodeUsed]
    by_cases hb : inBody s = true
    · by_cases ha : answer sent c = true
      · simp only [feed, h, hb, accept, ha, if_true, if_false, Bool.false_eq_true,
          List.take_succ_cons, decodeUsed]
        exact congrArg (· + 1) (ih _ _)
      · simp [feed, h, hb, accept, ha, decodeUsed]
    · simp only [feed, h, hb, if_false, Bool.false_eq_true, List.take_succ_cons, decodeUsed]
      exact congrArg (· + 1) (ih _ _)

theorem decodeUsed_append (a b : List UInt8) (s : Stream) (h : decodeUsed a s = a.length) :
    decodeUsed (a ++ b) s = a.length + decodeUsed b (decode a s).1 := by
  induction a generalizing s with
  | nil => simp [decode]
  | cons c a ih =>
    by_cases hh : halted s = true
    · simp [decodeUsed, hh] at h
    · simp only [decodeUsed, hh, if_false, Bool.false_eq_true, List.length_cons,
        Nat.add_right_cancel_iff] at h
      simp only [List.cons_append, decodeUsed, decode, hh, if_false, Bool.false_eq_true, ih _ h,
        List.length_cons]
      omega

/-- The decoder and the output are those of one feed of the bytes used, which uses all of
them. -/
structure Agrees (s : Stream) (used : List UInt8) (stream : Stream) (sent : List UInt8) :
    Prop where
  stream : stream = (decode used s).1
  sent : sent = (decode used s).2
  all : decodeUsed used s = used.length

theorem Agrees.feed {s : Stream} {used : List UInt8} {stream : Stream} {sent : List UInt8}
    (h : Agrees s used stream sent) (answer : List UInt8 → UInt8 → Bool) (data : List UInt8) :
    let r := feed (accept answer) data stream sent
    r.1 ≤ data.length ∧ Agrees s (used ++ data.take r.1) r.2.1 r.2.2 := by
  obtain ⟨hle, hstream, -, hsent⟩ := @feed_decode _ (accept answer) (fun sent => sent)
    (fun _ => True)
    (fun _ _ _ _ hk => ⟨trivial, accept_eq hk⟩) data stream sent trivial
  have hused := feed_used answer data stream sent
  generalize Http.feed (accept answer) data stream sent = r at *
  obtain ⟨n, t, out⟩ := r
  dsimp only at hle hstream hsent hused ⊢
  have hn : (data.take n).length = n := by
    rw [List.length_take]
    omega
  refine ⟨hle, ?_, ?_, ?_⟩
  · rw [decode_append, hstream, h.stream]
  · rw [decode_append, hsent, h.stream, h.sent]
  · rw [decodeUsed_append _ _ _ h.all, ← h.stream, hused, List.length_append, hn]

/-- Whatever the pieces and the refusals: the decoder and the output are those of one feed
of the bytes used, which uses all of them; when nothing is left or the decoder has stopped,
they are those of one feed of all the data. -/
theorem http_delivery_exact (data : List UInt8) (s : Stream) (offers : List Offer) :
    let d := Delivery.run feed ⟨data, s, []⟩ offers
    ∃ used, data = used ++ d.rest ∧
      feed acceptAll used s [] = (used.length, d.decoder, d.sent) ∧
      (d.rest = [] ∨ halted d.decoder = true →
        feed acceptAll data s [] = (used.length, d.decoder, d.sent)) := by
  obtain ⟨used, hsplit, h⟩ := Delivery.run_induct feed (P := Agrees s) (u := [])
    (d := ⟨data, s, []⟩) (fun used decoder sent answer data h => h.feed answer data)
    ⟨rfl, rfl, rfl⟩ offers
  generalize Delivery.run feed ⟨data, s, []⟩ offers = d at *
  have hall : data = used ++ d.rest := hsplit
  have hused : decodeUsed used s = used.length := h.all
  have hstream : d.decoder = (decode used s).1 := h.stream
  have hsent : d.sent = (decode used s).2 := h.sent
  have hfeed : feed acceptAll used s [] = (used.length, d.decoder, d.sent) := by
    rw [feed_acceptAll, hused, hstream, hsent, List.nil_append]
  refine ⟨used, hall, hfeed, ?_⟩
  rintro (hrest | hhalt)
  · have hdata : data = used := by rw [hall, hrest, List.append_nil]
    rw [hdata, hfeed]
  · have hstop : decodeUsed d.rest d.decoder = 0 := by
      cases hr : d.rest with
      | nil => rfl
      | cons c rest => simp [decodeUsed, hhalt]
    rw [feed_acceptAll, hall, decodeUsed_append _ _ _ hused, decode_append, ← hstream,
      hstop, decode_halted hhalt, hsent]
    simp

end Z80Sbc.Http
