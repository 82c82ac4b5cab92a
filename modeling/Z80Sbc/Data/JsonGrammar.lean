import Mathlib.Tactic.Common

/-! # The grammar of JSON

RFC 8259 over bytes, in UTF-8. A string is its code points; of a literal or a number only the
place counts. A value may stand for several texts, but no text for several values. -/

namespace Z80Sbc.Data.JsonGrammar

inductive Value where
  | plain
  | string (cps : List Nat)
  | array (vs : List Value)
  | object (ms : List (List Nat × Value))

/-- Every value in it has at most `n` arrays and objects around it. -/
def Value.Within : Nat → Value → Prop
  | _, plain => True
  | _, string _ => True
  | 0, array vs => vs = []
  | 0, object ms => ms = []
  | n + 1, array vs => ∀ v ∈ vs, Within n v
  | n + 1, object ms => ∀ m ∈ ms, Within n m.2

/-! ## Strings -/

/-- What UTF-8 can hold. -/
def Scalar (cp : Nat) : Prop := cp < 0xD800 ∨ (0xDFFF < cp ∧ cp ≤ 0x10FFFF)

def tail (n : Nat) : UInt8 := UInt8.ofNat (0x80 + n % 64)

def utf8 (cp : Nat) : List UInt8 :=
  if cp < 0x80 then [UInt8.ofNat cp]
  else if cp < 0x800 then [UInt8.ofNat (0xC0 + cp / 64), tail cp]
  else if cp < 0x10000 then [UInt8.ofNat (0xE0 + cp / 4096), tail (cp / 64), tail cp]
  else [UInt8.ofNat (0xF0 + cp / 262144), tail (cp / 4096), tail (cp / 64), tail cp]

def hexDigit (c : UInt8) : Option Nat :=
  if 48 ≤ c ∧ c ≤ 57 then some (c.toNat - 48)
  else if 97 ≤ c ∧ c ≤ 102 then some (c.toNat - 97 + 10)
  else if 65 ≤ c ∧ c ≤ 70 then some (c.toNat - 65 + 10)
  else none

inductive FourHex : Nat → List UInt8 → Prop where
  | mk {a b c d : UInt8} {w x y z : Nat} (ha : hexDigit a = some w) (hb : hexDigit b = some x)
      (hc : hexDigit c = some y) (hd : hexDigit d = some z) :
      FourHex (((w * 16 + x) * 16 + y) * 16 + z) [a, b, c, d]

/-- The escapes of two characters, and what they stand for. -/
def escapes : List (UInt8 × Nat) :=
  [(34, 34), (92, 92), (47, 47), (98, 8), (102, 12), (110, 10), (114, 13), (116, 9)]

inductive Character : Nat → List UInt8 → Prop where
  | unescaped {cp : Nat} (control : 32 ≤ cp) (quote : cp ≠ 34) (backslash : cp ≠ 92)
      (scalar : Scalar cp) : Character cp (utf8 cp)
  | escaped {c : UInt8} {cp : Nat} (mem : (c, cp) ∈ escapes) : Character cp [92, c]
  | unicode {cp : Nat} {digits : List UInt8} (hex : FourHex cp digits) (scalar : Scalar cp) :
      Character cp (92 :: 117 :: digits)
  | pair {high low : Nat} {a b : List UInt8} (hexHigh : FourHex high a) (hexLow : FourHex low b)
      (isHigh : 0xD800 ≤ high ∧ high ≤ 0xDBFF) (isLow : 0xDC00 ≤ low ∧ low ≤ 0xDFFF) :
      Character (0x10000 + (high - 0xD800) * 1024 + (low - 0xDC00))
        (92 :: 117 :: a ++ 92 :: 117 :: b)

inductive Characters : List Nat → List UInt8 → Prop where
  | nil : Characters [] []
  | cons {cp : Nat} {cps : List Nat} {c w : List UInt8} (head : Character cp c)
      (tail : Characters cps w) : Characters (cp :: cps) (c ++ w)

inductive StringText : List Nat → List UInt8 → Prop where
  | quoted {cps : List Nat} {w : List UInt8} (characters : Characters cps w) :
      StringText cps (34 :: w ++ [34])

/-! ## Numbers -/

def digit (c : UInt8) : Bool := 48 ≤ c && c ≤ 57

structure Digits (w : List UInt8) : Prop where
  nonempty : w ≠ []
  digits : ∀ c ∈ w, digit c = true

inductive Integer : List UInt8 → Prop where
  | zero : Integer [48]
  | digits {c : UInt8} {w : List UInt8} (nonzero : c ≠ 48) (digits : Digits (c :: w)) :
      Integer (c :: w)

inductive Fraction : List UInt8 → Prop where
  | none : Fraction []
  | digits {w : List UInt8} (digits : Digits w) : Fraction (46 :: w)

inductive Exponent : List UInt8 → Prop where
  | none : Exponent []
  | digits {c : UInt8} {w : List UInt8} (letter : c = 101 ∨ c = 69) (digits : Digits w) :
      Exponent (c :: w)
  | signed {c sign : UInt8} {w : List UInt8} (letter : c = 101 ∨ c = 69)
      (isSign : sign = 43 ∨ sign = 45) (digits : Digits w) : Exponent (c :: sign :: w)

inductive Number : List UInt8 → Prop where
  | positive {i f e : List UInt8} (integer : Integer i) (fraction : Fraction f)
      (exponent : Exponent e) : Number (i ++ (f ++ e))
  | negative {i f e : List UInt8} (integer : Integer i) (fraction : Fraction f)
      (exponent : Exponent e) : Number (45 :: (i ++ (f ++ e)))

/-! ## Values -/

def space (c : UInt8) : Bool := c == 32 || c == 9 || c == 13 || c == 10

/-- Whitespace only. -/
def Blank (w : List UInt8) : Prop := ∀ c ∈ w, space c = true

/-- `true`, `false` and `null`. -/
def literals : List (List UInt8) :=
  [[116, 114, 117, 101], [102, 97, 108, 115, 101], [110, 117, 108, 108]]

/-- A value, or what stands between the brackets of an array or an object that is not empty. -/
inductive Phrase where
  | value (v : Value)
  | elements (vs : List Value)
  | members (ms : List (List Nat × Value))

inductive Derives : Phrase → List UInt8 → Prop where
  | literal {w : List UInt8} (mem : w ∈ literals) : Derives (.value .plain) w
  | number {w : List UInt8} (number : Number w) : Derives (.value .plain) w
  | string {cps : List Nat} {w : List UInt8} (string : StringText cps w) :
      Derives (.value (.string cps)) w
  | emptyArray {a : List UInt8} (blank : Blank a) : Derives (.value (.array [])) (91 :: a ++ [93])
  | array {vs : List Value} {w : List UInt8} (elements : Derives (.elements vs) w) :
      Derives (.value (.array vs)) (91 :: w ++ [93])
  | emptyObject {a : List UInt8} (blank : Blank a) :
      Derives (.value (.object [])) (123 :: a ++ [125])
  | object {ms : List (List Nat × Value)} {w : List UInt8} (members : Derives (.members ms) w) :
      Derives (.value (.object ms)) (123 :: w ++ [125])
  | lastElement {v : Value} {a w b : List UInt8} (before : Blank a) (value : Derives (.value v) w)
      (behind : Blank b) : Derives (.elements [v]) (a ++ (w ++ b))
  | element {v : Value} {vs : List Value} {a w b more : List UInt8} (before : Blank a)
      (value : Derives (.value v) w) (behind : Blank b) (rest : Derives (.elements vs) more) :
      Derives (.elements (v :: vs)) (a ++ (w ++ (b ++ 44 :: more)))
  | lastMember {key : List Nat} {v : Value} {a k b c w d : List UInt8} (before : Blank a)
      (name : StringText key k) (colon : Blank b) (afterColon : Blank c)
      (value : Derives (.value v) w) (behind : Blank d) :
      Derives (.members [(key, v)]) (a ++ (k ++ (b ++ 58 :: (c ++ (w ++ d)))))
  | member {key : List Nat} {v : Value} {ms : List (List Nat × Value)}
      {a k b c w d more : List UInt8} (before : Blank a) (name : StringText key k)
      (colon : Blank b) (afterColon : Blank c) (value : Derives (.value v) w) (behind : Blank d)
      (rest : Derives (.members ms) more) :
      Derives (.members ((key, v) :: ms))
        (a ++ (k ++ (b ++ 58 :: (c ++ (w ++ (d ++ 44 :: more))))))

theorem blank_nil : Blank [] := fun _ hx => absurd hx List.not_mem_nil

theorem Blank.append {a b : List UInt8} (ha : Blank a) (hb : Blank b) : Blank (a ++ b) := by
  intro c hc
  rcases List.mem_append.mp hc with hc | hc
  · exact ha c hc
  · exact hb c hc

/-- Whitespace in front of the members belongs to them. -/
theorem Derives.blank_members {ms : List (List Nat × Value)} {w a : List UInt8}
    (h : Derives (.members ms) w) (ha : Blank a) : Derives (.members ms) (a ++ w) := by
  cases h with
  | lastMember before name colon afterColon value behind =>
    rw [← List.append_assoc]
    exact .lastMember (ha.append before) name colon afterColon value behind
  | member before name colon afterColon value behind rest =>
    rw [← List.append_assoc]
    exact .member (ha.append before) name colon afterColon value behind rest

theorem Derives.blank_elements {vs : List Value} {w a : List UInt8}
    (h : Derives (.elements vs) w) (ha : Blank a) : Derives (.elements vs) (a ++ w) := by
  cases h with
  | lastElement before value behind =>
    rw [← List.append_assoc]
    exact .lastElement (ha.append before) value behind
  | element before value behind rest =>
    rw [← List.append_assoc]
    exact .element (ha.append before) value behind rest

/-- A value begins with a byte of its own. -/
theorem Derives.head {v : Value} {w : List UInt8} (h : Derives (.value v) w) :
    ∃ c rest, w = c :: rest ∧ space c = false ∧ c ≠ 93 := by
  have hdigit {c : UInt8} (hc : digit c = true) : space c = false ∧ c ≠ 93 := by
    rw [digit, Bool.and_eq_true, decide_eq_true_eq, decide_eq_true_eq] at hc
    have hlow : 48 ≤ c.toNat := UInt8.le_iff_toNat_le.mp hc.1
    have hhigh : c.toNat ≤ 57 := UInt8.le_iff_toNat_le.mp hc.2
    have hne {d : UInt8} (hd : d.toNat < 48 ∨ 57 < d.toNat) : c ≠ d := by
      rintro rfl
      omega
    unfold space
    simp only [Bool.or_eq_false_iff, beq_eq_false_iff_ne]
    exact ⟨⟨⟨⟨hne (by decide), hne (by decide)⟩, hne (by decide)⟩, hne (by decide)⟩,
      hne (by decide)⟩
  have hinteger {i : List UInt8} (hi : Integer i) :
      ∃ c rest, i = c :: rest ∧ space c = false ∧ c ≠ 93 := by
    cases hi with
    | zero => exact ⟨48, [], rfl, by decide, by decide⟩
    | digits _ hdigits =>
      exact ⟨_, _, rfl, hdigit (hdigits.digits _ (List.mem_cons_self ..))⟩
  cases h with
  | literal hmem =>
    unfold literals at hmem
    simp only [List.mem_cons, List.not_mem_nil, or_false] at hmem
    rcases hmem with rfl | rfl | rfl
    · exact ⟨_, _, rfl, by decide, by decide⟩
    · exact ⟨_, _, rfl, by decide, by decide⟩
    · exact ⟨_, _, rfl, by decide, by decide⟩
  | number hnumber =>
    cases hnumber with
    | positive hi _ _ =>
      obtain ⟨c, rest, rfl, hc⟩ := hinteger hi
      exact ⟨c, _, rfl, hc⟩
    | negative _ _ _ => exact ⟨_, _, rfl, by decide, by decide⟩
  | string hstring =>
    cases hstring with
    | quoted _ => exact ⟨_, _, rfl, by decide, by decide⟩
  | emptyArray _ => exact ⟨_, _, rfl, by decide, by decide⟩
  | array _ => exact ⟨_, _, rfl, by decide, by decide⟩
  | emptyObject _ => exact ⟨_, _, rfl, by decide, by decide⟩
  | object _ => exact ⟨_, _, rfl, by decide, by decide⟩

/-- Only an object begins with a brace. -/
theorem Derives.brace {v : Value} {w : List UInt8} (h : Derives (.value v) w) :
    (∃ ms, v = .object ms) ↔ w.head? = some 123 := by
  have hinteger {i : List UInt8} (hi : Integer i) (rest : List UInt8) :
      (i ++ rest).head? ≠ some 123 := by
    cases hi with
    | zero => exact fun hno => absurd (Option.some.inj hno) (by decide)
    | digits _ hdigits =>
      intro hno
      have hdigit := hdigits.digits _ (List.mem_cons_self ..)
      rw [Option.some.inj hno] at hdigit
      exact absurd hdigit (by decide)
  cases h with
  | literal hmem =>
    unfold literals at hmem
    simp only [List.mem_cons, List.not_mem_nil, or_false] at hmem
    refine ⟨fun hno => (by obtain ⟨ms, hms⟩ := hno; cases hms), fun hno => ?_⟩
    rcases hmem with rfl | rfl | rfl
    · exact absurd hno (by decide)
    · exact absurd hno (by decide)
    · exact absurd hno (by decide)
  | number hnumber =>
    refine ⟨fun hno => (by obtain ⟨ms, hms⟩ := hno; cases hms), fun hno => ?_⟩
    cases hnumber with
    | positive hi _ _ => exact absurd hno (hinteger hi _)
    | negative _ _ _ => exact absurd (Option.some.inj hno) (by decide)
  | string hstring =>
    refine ⟨fun hno => (by obtain ⟨ms, hms⟩ := hno; cases hms), fun hno => ?_⟩
    cases hstring with
    | quoted _ => exact absurd (Option.some.inj hno) (by decide)
  | emptyArray _ =>
    refine ⟨fun hno => (by obtain ⟨ms, hms⟩ := hno; cases hms), fun hno => ?_⟩
    exact absurd (Option.some.inj hno) (by decide)
  | array _ =>
    refine ⟨fun hno => (by obtain ⟨ms, hms⟩ := hno; cases hms), fun hno => ?_⟩
    exact absurd (Option.some.inj hno) (by decide)
  | emptyObject _ => exact ⟨fun _ => rfl, fun _ => ⟨_, rfl⟩⟩
  | object _ => exact ⟨fun _ => rfl, fun _ => ⟨_, rfl⟩⟩

end Z80Sbc.Data.JsonGrammar
