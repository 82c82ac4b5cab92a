import Z80Sbc.Weather.Lookup

/-! # What lies behind a reply

The scanner never gets past the brace that closes what it looks through, so the memory behind it
does not matter. -/

namespace Z80Sbc.Weather.Scanning
open Z80Sbc.Data.JsonGrammar JsonScan

/-- A text whose last byte that is not blank closes an object. -/
def Closed (w : List UInt8) : Prop := ∃ q a, w = q ++ 125 :: a ∧ Blank a

theorem skipWs_split (w : List UInt8) : ∃ a, w = a ++ skipWs w ∧ Blank a := by
  rcases blank_or w with hw | ⟨a, x, rest, rfl, ha, hx⟩
  · have hnil := skipWs_blank hw []
    rw [List.append_nil] at hnil
    exact ⟨w, by rw [hnil]; exact (List.append_nil w).symm, hw⟩
  · exact ⟨a, by rw [skipWs_blank ha, skipWs_cons hx], ha⟩

/-- What a search finds stands behind a colon. -/
theorem findKeyFrom_colon {pattern cursor : List UInt8} (fuel : Nat) : ∀ {range : List UInt8},
    findKeyFrom pattern fuel range = some cursor →
      ∃ p c, range = p ++ 58 :: (c ++ cursor) ∧ Blank c := by
  induction fuel with
  | zero => exact fun h => by cases h
  | succ fuel ih =>
    intro range h
    have hbehind {p s : List UInt8} (hs : findKeyFrom pattern fuel s = some cursor)
        (hrange : range = p ++ s) : ∃ p c, range = p ++ 58 :: (c ++ cursor) ∧ Blank c := by
      obtain ⟨q, c, rfl, hc⟩ := ih hs
      exact ⟨p ++ q, c, by rw [hrange, List.append_assoc], hc⟩
    rw [findKeyFrom] at h
    split at h
    swap
    · cases h
    split at h
    swap
    · exact hbehind h (List.take_append_drop 1 range).symm
    dsimp only at h
    obtain ⟨a, ha, -⟩ := skipWs_split (range.drop pattern.length)
    have hcursor :
        range = (range.take pattern.length ++ a) ++ skipWs (range.drop pattern.length) := by
      rw [List.append_assoc, ← ha, List.take_append_drop]
    split at h
    next hcolon =>
      obtain ⟨s, hs⟩ : ∃ s, skipWs (range.drop pattern.length) = 58 :: s := by
        cases hskip : skipWs (range.drop pattern.length) with
        | nil =>
          rw [hskip] at hcolon
          cases hcolon
        | cons y s =>
          rw [hskip] at hcolon
          cases hcolon
          exact ⟨s, rfl⟩
      rw [hs, List.drop_one, List.tail_cons] at h
      obtain ⟨c, hc, hblank⟩ := skipWs_split s
      rw [Option.some.inj h] at hc
      exact ⟨_, c, by rw [hcursor, hs, ← hc], hblank⟩
    · refine hbehind h (p := (range.take pattern.length ++ a) ++
        (skipWs (range.drop pattern.length)).take 1) ?_
      rw [List.append_assoc, List.take_append_drop]
      exact hcursor

theorem Closed.cursor {range key cursor : List UInt8} (h : Closed range)
    (hfound : findKey range key = some cursor) : Closed cursor := by
  obtain ⟨q, a, hrange, ha⟩ := h
  obtain ⟨p, c, hcolon, hc⟩ : ∃ p c, range = p ++ 58 :: (c ++ cursor) ∧ Blank c := by
    unfold findKey at hfound
    dsimp only at hfound
    split at hfound
    · cases hfound
    · exact findKeyFrom_colon _ hfound
  have hsplit : (p ++ 58 :: c) ++ cursor = q ++ 125 :: a := by
    rw [← hrange, hcolon, List.append_assoc, List.cons_append]
  rcases List.append_eq_append_iff.mp hsplit with ⟨t, hq, hcursor⟩ | ⟨t, hp, hcursor⟩
  · exact ⟨t, a, hcursor, ha⟩
  · cases t with
    | nil => exact ⟨[], a, hcursor.symm, ha⟩
    | cons x t =>
      obtain ⟨rfl, rfl⟩ := List.cons.inj hcursor
      have ht : Blank t := fun y hy => ha y (List.mem_append_left _ hy)
      exact absurd (last_unique hp hc ht (by decide) (by decide)) (by decide)

theorem strtol_brace (q r s : List UInt8) : strtol (q ++ 125 :: r) = strtol (q ++ 125 :: s) := by
  have hdigit : decide ((48 : UInt8) ≤ 125 ∧ (125 : UInt8) ≤ 57) = false := by decide
  have hspace : decide ((125 : UInt8) = 32 ∨ (9 : UInt8) ≤ 125 ∧ (125 : UInt8) ≤ 13) = false := by
    decide
  have hdrop (n : Nat) (hn : n ≤ q.length) (r : List UInt8) :
      (q ++ 125 :: r).drop n = q.drop n ++ 125 :: r := List.drop_append_of_le_length hn
  have hspaces (r : List UInt8) := @takeWhile_stop
    (fun c => decide (c = 32 ∨ 9 ≤ c ∧ c ≤ 13)) 125 hspace q r
  have hdigits (t r : List UInt8) :=
    @takeWhile_stop (fun c => decide (48 ≤ c ∧ c ≤ 57)) 125 hdigit t r
  have hlength : (q.takeWhile fun c => decide (c = 32 ∨ 9 ≤ c ∧ c ≤ 13)).length ≤ q.length :=
    (List.takeWhile_prefix _).length_le
  unfold strtol
  dsimp only
  rw [hspaces, hspaces, hdrop _ hlength, hdrop _ hlength]
  cases q.drop (q.takeWhile fun c => decide (c = 32 ∨ 9 ≤ c ∧ c ≤ 13)).length with
  | nil => rfl
  | cons y t =>
    simp only [List.cons_append, List.head?_cons, List.drop_one, List.tail_cons]
    by_cases hsigned : some y = some 45 ∨ some y = some 43
    · simp only [if_pos hsigned, hdigits]
      rfl
    · simp only [if_neg hsigned, ← List.cons_append, hdigits]
      rfl

section
variable {range key : List UInt8} (m m' : List UInt8)

theorem getInt_inside (h : Closed range) : getInt range m key = getInt range m' key := by
  unfold getInt
  cases hfound : findKey range key with
  | none => rfl
  | some cursor =>
    obtain ⟨q, a, rfl, -⟩ := h.cursor hfound
    dsimp only
    rw [List.append_assoc, List.append_assoc, List.cons_append, List.cons_append,
      strtol_brace q (a ++ m) (a ++ m')]

theorem getNumber_inside {floats : Floats} (hstops : Stops floats) {n : Nat} (h : Closed range) :
    getNumber floats range m key n = getNumber floats range m' key n := by
  unfold getNumber
  cases hfound : findKey range key with
  | none => rfl
  | some cursor =>
    obtain ⟨q, a, rfl, -⟩ := h.cursor hfound
    dsimp only
    rw [List.append_assoc, List.append_assoc, List.cons_append, List.cons_append,
      hstops.brace q (a ++ m), hstops.brace q (a ++ m')]

end

theorem matchEndFrom_closing {o c : UInt8} {range : List UInt8} :
    ∀ {depth length n : Nat} {inString escaped : Bool},
      matchEndFrom o c range depth inString escaped length = some n →
        ∃ k, n = length + k + 1 ∧ range[k]? = some c := by
  induction range with
  | nil => exact fun h => by cases h
  | cons x range ih =>
    intro depth length n inString escaped h
    have hnext {depth : Nat} {inString escaped : Bool}
        (hs : matchEndFrom o c range depth inString escaped (length + 1) = some n) :
        ∃ k, n = length + k + 1 ∧ (x :: range)[k]? = some c := by
      obtain ⟨k, hk, hclosing⟩ := ih hs
      exact ⟨k + 1, by omega, hclosing⟩
    rw [matchEndFrom] at h
    split at h
    · cases h
    split at h
    · split at h
      · exact hnext h
      split at h
      · exact hnext h
      · exact hnext h
    split at h
    · exact hnext h
    split at h
    · exact hnext h
    split at h
    next hclose =>
      split at h
      · exact ⟨0, by rw [← Option.some.inj h], congrArg some hclose⟩
      · exact hnext h
    · exact hnext h

theorem matchEnd_closed {range w : List UInt8} (h : matchEnd range = some w)
    (hopen : range.head? = some 123) : Closed w := by
  have hhead : range.headD 0 = 123 := by
    cases range with
    | nil => cases hopen
    | cons x range => exact Option.some.inj hopen
  unfold matchEnd at h
  dsimp only at h
  rw [hhead, if_pos rfl] at h
  obtain ⟨n, hn, rfl⟩ := Option.map_eq_some_iff.mp h
  obtain ⟨k, rfl, hk⟩ := matchEndFrom_closing hn
  refine ⟨range.take k, [], ?_, fun x hx => absurd hx List.not_mem_nil⟩
  rw [Nat.zero_add, List.take_add_one, hk]
  rfl

/-- The same object, whatever lies behind it. -/
def Same (o o' : Option Object) : Prop :=
  (o = none ∧ o' = none) ∨
    ∃ bytes m m', o = some ⟨bytes, m⟩ ∧ o' = some ⟨bytes, m'⟩ ∧ Closed bytes

theorem same_matchEnd {cursor : List UInt8} (hopen : cursor.head? = some 123) (m m' : List UInt8) :
    Same ((matchEnd cursor).map fun object => ⟨object, cursor.drop object.length ++ m⟩)
      ((matchEnd cursor).map fun object => ⟨object, cursor.drop object.length ++ m'⟩) := by
  cases hend : matchEnd cursor with
  | none => exact Or.inl ⟨rfl, rfl⟩
  | some w => exact Or.inr ⟨w, _, _, rfl, rfl, matchEnd_closed hend hopen⟩

theorem object_inside (range key m m' : List UInt8) :
    Same (object ⟨range, m⟩ key) (object ⟨range, m'⟩ key) := by
  have hmain (fuel : Nat) : ∀ s, Same (objectFrom key m fuel s) (objectFrom key m' fuel s) := by
    induction fuel with
    | zero => exact fun s => Or.inl ⟨rfl, rfl⟩
    | succ fuel ih =>
      intro s
      rw [objectFrom, objectFrom]
      by_cases hs : s = []
      · rw [if_pos hs, if_pos hs]
        exact Or.inl ⟨rfl, rfl⟩
      rw [if_neg hs, if_neg hs]
      cases findKey s key with
      | none => exact Or.inl ⟨rfl, rfl⟩
      | some cursor =>
        dsimp only
        by_cases hopen : (skipWs cursor).head? = some 123
        · rw [if_pos hopen, if_pos hopen]
          exact same_matchEnd hopen m m'
        · rw [if_neg hopen, if_neg hopen]
          exact ih _
  exact hmain _ _

theorem firstObject_inside (array m m' : List UInt8) :
    Same (firstObject array m) (firstObject array m') := by
  unfold firstObject
  dsimp only
  split
  next hopen => exact same_matchEnd hopen m m'
  · exact Or.inl ⟨rfl, rfl⟩

theorem firstArrayObject_inside (range key m m' : List UInt8) :
    Same (firstArrayObject ⟨range, m⟩ key) (firstArrayObject ⟨range, m'⟩ key) := by
  have hmain (fuel : Nat) : ∀ s,
      Same (firstArrayObjectFrom key m fuel s) (firstArrayObjectFrom key m' fuel s) := by
    induction fuel with
    | zero => exact fun s => Or.inl ⟨rfl, rfl⟩
    | succ fuel ih =>
      intro s
      rw [firstArrayObjectFrom, firstArrayObjectFrom]
      by_cases hs : s = []
      · rw [if_pos hs, if_pos hs]
        exact Or.inl ⟨rfl, rfl⟩
      rw [if_neg hs, if_neg hs]
      cases findKey s key with
      | none => exact Or.inl ⟨rfl, rfl⟩
      | some cursor =>
        dsimp only
        by_cases hopen : (skipWs cursor).head? = some 91
        · rw [if_pos hopen, if_pos hopen]
          cases matchEnd (skipWs cursor) with
          | none => exact Or.inl ⟨rfl, rfl⟩
          | some array => exact firstObject_inside _ _ _
        · rw [if_neg hopen, if_neg hopen]
          exact ih _
  exact hmain _ _

theorem parseConditions_inside {floats : Floats} (hstops : Stops floats) (bytes m m' : List UInt8)
    (output : Fields) (forecast : Bool) :
    parseConditions floats ⟨bytes, m⟩ output forecast =
      parseConditions floats ⟨bytes, m'⟩ output forecast := by
  unfold parseConditions
  dsimp only
  rcases object_inside bytes (text "main") m m' with ⟨h, h'⟩ | ⟨main, b, b', h, h', hmain⟩
  · rw [h, h']
  rcases firstArrayObject_inside bytes (text "weather") m m' with
    ⟨hw, hw'⟩ | ⟨weather, c, c', hw, hw', -⟩
  · rw [h, h', hw, hw']
  rw [h, h', hw, hw']
  dsimp only
  have hnumber (key : List UInt8) := @getNumber_inside main key b b' floats hstops FIELD_BYTES hmain
  rcases object_inside bytes (text "wind") m m' with ⟨hi, hi'⟩ | ⟨wind, d, d', hi, hi', hwind⟩
  · rw [hi, hi', hnumber, hnumber, hnumber]
  · rw [hi, hi', hnumber, hnumber, hnumber]
    dsimp only
    rw [@getNumber_inside wind (text "speed") d d' floats hstops FIELD_BYTES hwind]

end Z80Sbc.Weather.Scanning
