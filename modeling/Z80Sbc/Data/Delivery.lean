import Mathlib.Tactic.Common

/-! # Data offered in pieces

A decoder is fed with pieces of its input and hands bytes to a receiver, which may refuse
one; the decoder says how many bytes it has used and the rest is offered again. -/

namespace Z80Sbc.Data

/-- A receiver with an answer to each byte, which may depend on what it has taken so far. -/
def accept (answer : List UInt8 → UInt8 → Bool) (sent : List UInt8) (c : UInt8) :
    Option (List UInt8) :=
  if answer sent c then some (sent ++ [c]) else none

/-- The receiver that refuses nothing. -/
def acceptAll (sent : List UInt8) (c : UInt8) : Option (List UInt8) := some (sent ++ [c])

theorem accept_eq {answer : List UInt8 → UInt8 → Bool} {sent sent' : List UInt8} {c : UInt8}
    (h : accept answer sent c = some sent') : sent' = sent ++ [c] := by
  unfold accept at h
  split at h
  · exact (Option.some.inj h).symm
  · cases h

/-- A feed: the receiver, the data, the decoder and what is sent; the bytes used. -/
abbrev Feed (σ : Type) :=
  (List UInt8 → UInt8 → Option (List UInt8)) → List UInt8 → σ → List UInt8 →
    Nat × σ × List UInt8

/-- The data not used yet, the decoder, and what has been sent. -/
structure Delivery (σ : Type) where
  rest : List UInt8
  decoder : σ
  sent : List UInt8

/-- A feed of the first `size` bytes that are left, and the answers of the receiver in it. -/
structure Offer where
  size : Nat
  answer : List UInt8 → UInt8 → Bool

namespace Delivery
variable {σ : Type} (feed : Feed σ)

def offer (d : Delivery σ) (o : Offer) : Delivery σ :=
  let (used, decoder, sent) := feed (accept o.answer) (d.rest.take o.size) d.decoder d.sent
  { rest := d.rest.drop used, decoder, sent }

def run (d : Delivery σ) (offers : List Offer) : Delivery σ := offers.foldl (offer feed) d

/-- What each feed adds to the bytes used holds of all of them. -/
theorem run_induct {P : List UInt8 → σ → List UInt8 → Prop}
    (hfeed : ∀ used decoder sent answer data, P used decoder sent →
      let r := feed (accept answer) data decoder sent
      r.1 ≤ data.length ∧ P (used ++ data.take r.1) r.2.1 r.2.2)
    {u : List UInt8} {d : Delivery σ} (h : P u d.decoder d.sent) (offers : List Offer) :
    ∃ more, d.rest = more ++ (d.run feed offers).rest ∧
      P (u ++ more) (d.run feed offers).decoder (d.run feed offers).sent := by
  induction offers generalizing d u with
  | nil => exact ⟨[], rfl, by rwa [List.append_nil]⟩
  | cons o offers ih =>
    obtain ⟨hle, hp⟩ := hfeed u d.decoder d.sent o.answer (d.rest.take o.size) h
    have htake : (d.rest.take o.size).take
        (feed (accept o.answer) (d.rest.take o.size) d.decoder d.sent).1 =
        d.rest.take (feed (accept o.answer) (d.rest.take o.size) d.decoder d.sent).1 := by
      rw [List.take_take, Nat.min_eq_left (Nat.le_trans hle (List.length_take_le _ _))]
    rw [htake] at hp
    obtain ⟨more, hrest, hp'⟩ := ih (d := d.offer feed o) hp
    refine ⟨_ ++ more, ?_, by rw [← List.append_assoc]; exact hp'⟩
    rw [List.append_assoc]
    show d.rest = _ ++ (more ++ ((d.offer feed o).run feed offers).rest)
    rw [← hrest]
    exact (List.take_append_drop _ d.rest).symm

end Delivery

end Z80Sbc.Data
