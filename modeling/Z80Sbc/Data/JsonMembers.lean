import Z80Sbc.Data.JsonGrammar

/-! # Where the members of an object are

A member is found by the texts before its name and behind its value. -/

namespace Z80Sbc.Data.JsonGrammar

/-- From the start of a text to the name of a member of its object; the members before are
whole. -/
inductive Before : List UInt8 → Prop where
  | first {l a : List UInt8} (lead : Blank l) (blank : Blank a) : Before (l ++ 123 :: a)
  | next {p k b c w d a : List UInt8} {key : List Nat} {v : Value} (before : Before p)
      (name : StringText key k) (colon : Blank b) (afterColon : Blank c)
      (value : Derives (.value v) w) (behind : Blank d) (blank : Blank a) :
      Before (p ++ (k ++ (b ++ 58 :: (c ++ (w ++ (d ++ 44 :: a))))))

/-- What stands behind a value in an object. -/
inductive Behind : List UInt8 → Prop where
  | comma {d m : List UInt8} (blank : Blank d) : Behind (d ++ 44 :: m)
  | brace {d m : List UInt8} (blank : Blank d) : Behind (d ++ 125 :: m)

/-- A member of the object that a text is: the text before its name, the name between its
quotes, the value, and the text behind it. -/
inductive MemberAt : List UInt8 → List UInt8 → List UInt8 → List UInt8 → List UInt8 → Prop where
  | mk {before n b c value behind : List UInt8} {v : Value} (prior : Before before)
      (colon : Blank b) (afterColon : Blank c) (derives : Derives (.value v) value)
      (rest : Behind behind) :
      MemberAt (before ++ (34 :: (n ++ 34 :: (b ++ 58 :: (c ++ (value ++ behind))))))
        before n value behind

theorem Before.blank {p a : List UInt8} (h : Before p) (ha : Blank a) : Before (p ++ a) := by
  cases h with
  | first lead blank =>
    rw [List.append_assoc, List.cons_append]
    exact .first lead (blank.append ha)
  | next before name colon afterColon value behind blank =>
    simp only [List.append_assoc, List.cons_append]
    exact .next before name colon afterColon value behind (blank.append ha)

/-- What ends a value in an object. -/
def Ends (x : UInt8) : Prop := x = 44 ∨ x = 125 ∨ space x = true

theorem Behind.head {w : List UInt8} (h : Behind w) : ∃ x rest, w = x :: rest ∧ Ends x := by
  have hend {d m : List UInt8} {x : UInt8} (hd : Blank d) (hx : Ends x) :
      ∃ y rest, d ++ x :: m = y :: rest ∧ Ends y := by
    cases d with
    | nil => exact ⟨x, m, rfl, hx⟩
    | cons y d => exact ⟨y, _, rfl, Or.inr (Or.inr (hd y (List.mem_cons_self ..)))⟩
  cases h with
  | comma blank => exact hend blank (Or.inl rfl)
  | brace blank => exact hend blank (Or.inr (Or.inl rfl))

/-! ## Members at any depth -/

/-- What begins at a place of a text. -/
inductive Place where
  | value
  | element
  | name

/-- What begins where a phrase does. -/
def Phrase.place : Phrase → Place
  | .value _ => .value
  | .elements _ => .element
  | .members _ => .name

/-- From the start of a text to a value, to an element of an array or to the name of a member; what
is left behind is whole. -/
inductive Upto : Place → List UInt8 → Prop where
  | start {a : List UInt8} (blank : Blank a) : Upto .value a
  | array {p a : List UInt8} (before : Upto .value p) (blank : Blank a) :
      Upto .element (p ++ 91 :: a)
  | object {p a : List UInt8} (before : Upto .value p) (blank : Blank a) :
      Upto .name (p ++ 123 :: a)
  | element {p : List UInt8} (before : Upto .element p) : Upto .value p
  | nextElement {p w d a : List UInt8} {v : Value} (before : Upto .element p)
      (value : Derives (.value v) w) (behind : Blank d) (blank : Blank a) :
      Upto .element (p ++ (w ++ (d ++ 44 :: a)))
  | member {p k b c : List UInt8} {key : List Nat} (before : Upto .name p)
      (name : StringText key k) (colon : Blank b) (afterColon : Blank c) :
      Upto .value (p ++ (k ++ (b ++ 58 :: c)))
  | nextMember {p k b c w d a : List UInt8} {key : List Nat} {v : Value} (before : Upto .name p)
      (name : StringText key k) (colon : Blank b) (afterColon : Blank c)
      (value : Derives (.value v) w) (behind : Blank d) (blank : Blank a) :
      Upto .name (p ++ (k ++ (b ++ 58 :: (c ++ (w ++ (d ++ 44 :: a))))))

/-- A member of a text at any depth: the text before its name, the name as it is written, and the
value. -/
inductive Nested : List UInt8 → List UInt8 → List UInt8 → List UInt8 → Prop where
  | mk {p k b c w rest : List UInt8} {key : List Nat} {v : Value} (prior : Upto .name p)
      (name : StringText key k) (colon : Blank b) (afterColon : Blank c)
      (derives : Derives (.value v) w) :
      Nested (p ++ (k ++ (b ++ 58 :: (c ++ (w ++ rest))))) p k w

theorem Upto.blank_element {p a : List UInt8} (h : Upto .element p) (ha : Blank a) :
    Upto .element (p ++ a) := by
  cases h with
  | array before blank =>
    rw [List.append_assoc, List.cons_append]
    exact .array before (blank.append ha)
  | nextElement before value behind blank =>
    simp only [List.append_assoc, List.cons_append]
    exact .nextElement before value behind (blank.append ha)

theorem Upto.blank_name {p a : List UInt8} (h : Upto .name p) (ha : Blank a) :
    Upto .name (p ++ a) := by
  cases h with
  | object before blank =>
    rw [List.append_assoc, List.cons_append]
    exact .object before (blank.append ha)
  | nextMember before name colon afterColon value behind blank =>
    simp only [List.append_assoc, List.cons_append]
    exact .nextMember before name colon afterColon value behind (blank.append ha)

/-! ## The bytes of a text -/

theorem utf8_bytes {cp : Nat} (hscalar : Scalar cp) {c : UInt8} (hc : c ∈ utf8 cp) :
    c.toNat = cp ∨ 128 ≤ c.toNat := by
  have hbound : cp < 0x110000 := by
    rcases hscalar with h | h <;> omega
  have htail (n : Nat) : 128 ≤ (tail n).toNat := by
    rw [tail, UInt8.toNat_ofNat_of_lt' (by rw [UInt8.size]; omega)]
    omega
  unfold utf8 at hc
  by_cases h1 : cp < 0x80
  · rw [if_pos h1, List.mem_singleton] at hc
    rw [hc, UInt8.toNat_ofNat_of_lt' (by rw [UInt8.size]; omega)]
    exact Or.inl rfl
  rw [if_neg h1] at hc
  refine Or.inr ?_
  by_cases h2 : cp < 0x800
  · rw [if_pos h2, List.mem_cons, List.mem_singleton] at hc
    rcases hc with rfl | rfl
    · rw [UInt8.toNat_ofNat_of_lt' (by rw [UInt8.size]; omega)]
      omega
    · exact htail _
  rw [if_neg h2] at hc
  by_cases h3 : cp < 0x10000
  · rw [if_pos h3, List.mem_cons, List.mem_cons, List.mem_singleton] at hc
    rcases hc with rfl | rfl | rfl
    · rw [UInt8.toNat_ofNat_of_lt' (by rw [UInt8.size]; omega)]
      omega
    · exact htail _
    · exact htail _
  rw [if_neg h3, List.mem_cons, List.mem_cons, List.mem_cons, List.mem_singleton] at hc
  rcases hc with rfl | rfl | rfl | rfl
  · rw [UInt8.toNat_ofNat_of_lt' (by rw [UInt8.size]; omega)]
    omega
  · exact htail _
  · exact htail _
  · exact htail _

theorem hexDigit_byte {c : UInt8} {n : Nat} (h : hexDigit c = some n) :
    48 ≤ c.toNat ∧ c.toNat ≠ 92 ∧ c.toNat ≤ 102 := by
  unfold hexDigit at h
  simp only [UInt8.le_iff_toNat_le, UInt8.reduceToNat] at h
  split at h
  · omega
  split at h
  · omega
  split at h
  · omega
  · cases h

/-- A value begins with a byte that prints. -/
theorem Derives.printable {v : Value} {w : List UInt8} (h : Derives (.value v) w) :
    ∃ c rest, w = c :: rest ∧ 32 < c.toNat := by
  have hinteger {i : List UInt8} (hi : Integer i) : ∃ c rest, i = c :: rest ∧ 32 < c.toNat := by
    cases hi with
    | zero => exact ⟨48, [], rfl, by decide⟩
    | digits _ hdigits =>
      have hdigit := hdigits.digits _ (List.mem_cons_self ..)
      unfold digit at hdigit
      simp only [Bool.and_eq_true, decide_eq_true_eq, UInt8.le_iff_toNat_le,
        UInt8.reduceToNat] at hdigit
      exact ⟨_, _, rfl, by omega⟩
  cases h with
  | literal hmem =>
    unfold literals at hmem
    simp only [List.mem_cons, List.not_mem_nil, or_false] at hmem
    rcases hmem with rfl | rfl | rfl <;> exact ⟨_, _, rfl, by decide⟩
  | number hnumber =>
    cases hnumber with
    | positive hi _ _ =>
      obtain ⟨c, rest, rfl, hc⟩ := hinteger hi
      exact ⟨c, _, rfl, hc⟩
    | negative _ _ _ => exact ⟨_, _, rfl, by decide⟩
  | string hstring =>
    cases hstring with
    | quoted _ => exact ⟨_, _, rfl, by decide⟩
  | emptyArray _ => exact ⟨_, _, rfl, by decide⟩
  | array _ => exact ⟨_, _, rfl, by decide⟩
  | emptyObject _ => exact ⟨_, _, rfl, by decide⟩
  | object _ => exact ⟨_, _, rfl, by decide⟩

end Z80Sbc.Data.JsonGrammar
