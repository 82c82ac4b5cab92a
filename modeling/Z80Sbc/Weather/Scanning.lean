import Z80Sbc.Data.JsonMembers
import Z80Sbc.Weather.Service

/-! # What the scanner finds in well-formed text -/

namespace Z80Sbc.Weather.Scanning
open Z80Sbc.Data.JsonGrammar JsonScan

/-! ## Brackets -/

/-- The brackets that a search counts. -/
def Brackets (o c : UInt8) : Prop := (o = 123 ∧ c = 125) ∨ (o = 91 ∧ c = 93)

/-- A byte that the search for a bracket goes over. -/
def Inert (x : UInt8) : Prop := x ≠ 0 ∧ x ≠ 34 ∧ x ≠ 91 ∧ x ≠ 93 ∧ x ≠ 123 ∧ x ≠ 125

/-- The search goes over a text and is as deep as before. -/
def Passes (o c : UInt8) (w : List UInt8) : Prop :=
  ∀ rest depth length, matchEndFrom o c (w ++ rest) (depth + 1) false false length =
    matchEndFrom o c rest (depth + 1) false false (length + w.length)

/-- Inside a string. -/
def PassesInside (o c : UInt8) (w : List UInt8) : Prop :=
  ∀ rest depth length, matchEndFrom o c (w ++ rest) depth true false length =
    matchEndFrom o c rest depth true false (length + w.length)

section
variable {o c : UInt8}

theorem Passes.append {v w : List UInt8} (hv : Passes o c v) (hw : Passes o c w) :
    Passes o c (v ++ w) := by
  intro rest depth length
  rw [List.append_assoc, hv, hw, List.length_append, Nat.add_assoc]

theorem PassesInside.append {v w : List UInt8} (hv : PassesInside o c v)
    (hw : PassesInside o c w) : PassesInside o c (v ++ w) := by
  intro rest depth length
  rw [List.append_assoc, hv, hw, List.length_append, Nat.add_assoc]

theorem passes_nil : Passes o c [] := fun _ _ _ => rfl

theorem passes_one (hb : Brackets o c) {x : UInt8} (hx : Inert x) : Passes o c [x] := by
  intro rest depth length
  obtain ⟨h0, h34, h91, h93, h123, h125⟩ := hx
  have ho : x ≠ o := by rcases hb with ⟨rfl, -⟩ | ⟨rfl, -⟩ <;> assumption
  have hc : x ≠ c := by rcases hb with ⟨-, rfl⟩ | ⟨-, rfl⟩ <;> assumption
  rw [List.singleton_append, matchEndFrom, if_neg h0, if_neg Bool.false_ne_true, if_neg h34,
    if_neg ho, if_neg hc]
  rfl

theorem passes_inert (hb : Brackets o c) {w : List UInt8} (hw : ∀ x ∈ w, Inert x) :
    Passes o c w := by
  induction w with
  | nil => exact passes_nil
  | cons x w ih =>
    exact (passes_one hb (hw x (List.mem_cons_self ..))).append
      (ih fun y hy => hw y (List.mem_cons_of_mem _ hy))

theorem inside_one {x : UInt8} (h0 : x ≠ 0) (h34 : x ≠ 34) (h92 : x ≠ 92) :
    PassesInside o c [x] := by
  intro rest depth length
  rw [List.singleton_append, matchEndFrom, if_neg h0, if_pos rfl, if_neg Bool.false_ne_true,
    if_neg h92, bne_iff_ne.mpr h34]
  rfl

theorem inside_escape {x : UInt8} (hx : x ≠ 0) : PassesInside o c [92, x] := by
  intro rest depth length
  show matchEndFrom o c (92 :: x :: rest) depth true false length = _
  rw [matchEndFrom, if_neg (by decide), if_pos rfl, if_neg Bool.false_ne_true, if_pos rfl,
    matchEndFrom, if_neg hx, if_pos rfl, if_pos rfl]
  rfl

theorem inside_list {w : List UInt8} (hw : ∀ x ∈ w, x ≠ 0 ∧ x ≠ 34 ∧ x ≠ 92) :
    PassesInside o c w := by
  induction w with
  | nil => exact fun _ _ _ => rfl
  | cons x w ih =>
    obtain ⟨h0, h34, h92⟩ := hw x (List.mem_cons_self ..)
    exact (inside_one h0 h34 h92).append (ih fun y hy => hw y (List.mem_cons_of_mem _ hy))

end

/-- A byte of a string that is not part of an escape. -/
def Ordinary (x : UInt8) : Prop := x ≠ 0 ∧ x ≠ 34 ∧ x ≠ 92

theorem ordinary_of_toNat {x : UInt8} (h : x.toNat ≠ 0 ∧ x.toNat ≠ 34 ∧ x.toNat ≠ 92) :
    Ordinary x := by
  refine ⟨?_, ?_, ?_⟩
  · rintro rfl
    exact h.1 rfl
  · rintro rfl
    exact h.2.1 rfl
  · rintro rfl
    exact h.2.2 rfl

theorem ordinary_utf8 {cp : Nat} (control : 32 ≤ cp) (quote : cp ≠ 34) (backslash : cp ≠ 92)
    (scalar : Scalar cp) {x : UInt8} (hx : x ∈ utf8 cp) : Ordinary x := by
  have hbytes := utf8_bytes scalar hx
  exact ordinary_of_toNat (by omega)

theorem ordinary_hex {n : Nat} {digits : List UInt8} (h : FourHex n digits) :
    digits.length = 4 ∧ ∀ x ∈ digits, Ordinary x := by
  cases h with
  | mk ha hb hc hd =>
    refine ⟨rfl, fun x hx => ?_⟩
    have hex {y : UInt8} {k : Nat} (hy : Data.JsonGrammar.hexDigit y = some k) : Ordinary y := by
      have hbyte := hexDigit_byte hy
      exact ordinary_of_toNat (by omega)
    simp only [List.mem_cons, List.not_mem_nil, or_false] at hx
    rcases hx with rfl | rfl | rfl | rfl
    · exact hex ha
    · exact hex hb
    · exact hex hc
    · exact hex hd

theorem escape_ne {x : UInt8} {cp : Nat} (h : (x, cp) ∈ escapes) : x ≠ 0 := by
  rintro rfl
  have hno : ∀ e ∈ escapes, e.1 ≠ 0 := by decide
  exact hno _ h rfl

theorem inside_character {o c : UInt8} {cp : Nat} {w : List UInt8} (h : Character cp w) :
    PassesInside o c w := by
  have hhex {n : Nat} {digits : List UInt8} (hdigits : FourHex n digits) :
      PassesInside o c (92 :: 117 :: digits) :=
    (inside_escape (by decide)).append (inside_list (ordinary_hex hdigits).2)
  cases h with
  | unescaped control quote backslash scalar =>
    exact inside_list fun x hx => ordinary_utf8 control quote backslash scalar hx
  | escaped mem => exact inside_escape (escape_ne mem)
  | unicode hex _ => exact hhex hex
  | pair hexHigh hexLow _ _ => exact (hhex hexHigh).append (hhex hexLow)

theorem inside_characters {o c : UInt8} {cps : List Nat} {w : List UInt8} (h : Characters cps w) :
    PassesInside o c w := by
  induction h with
  | nil => exact fun _ _ _ => rfl
  | cons head _ ih => exact (inside_character head).append ih

theorem passes_string {o c : UInt8} {cps : List Nat} {w : List UInt8}
    (h : StringText cps w) : Passes o c w := by
  cases h with
  | @quoted w characters =>
    intro rest depth length
    rw [List.cons_append, List.cons_append, matchEndFrom, if_neg (by decide),
      if_neg Bool.false_ne_true, if_pos rfl, List.append_assoc,
      inside_characters characters, List.singleton_append, matchEndFrom, if_neg (by decide),
      if_pos rfl, if_neg Bool.false_ne_true, if_neg (by decide), List.length_cons,
      List.length_append]
    exact congrArg _ (by rw [List.length_singleton]; omega)

theorem inert_of_toNat {x : UInt8} (h : x.toNat ≠ 0 ∧ x.toNat ≠ 34 ∧ x.toNat ≠ 91 ∧
    x.toNat ≠ 93 ∧ x.toNat ≠ 123 ∧ x.toNat ≠ 125) : Inert x := by
  obtain ⟨h0, h34, h91, h93, h123, h125⟩ := h
  have hne {y : UInt8} (hy : x.toNat ≠ y.toNat) : x ≠ y := fun heq => hy (congrArg _ heq)
  exact ⟨hne h0, hne h34, hne h91, hne h93, hne h123, hne h125⟩

theorem inert_digit {x : UInt8} (h : digit x = true) : Inert x := by
  unfold digit at h
  rw [Bool.and_eq_true, decide_eq_true_eq, decide_eq_true_eq, UInt8.le_iff_toNat_le,
    UInt8.le_iff_toNat_le] at h
  exact inert_of_toNat (by simp only [UInt8.reduceToNat] at h; omega)

theorem inert_space {x : UInt8} (h : space x = true) : Inert x := by
  unfold space at h
  simp only [Bool.or_eq_true, beq_iff_eq] at h
  rcases h with ((rfl | rfl) | rfl) | rfl <;> exact ⟨by decide, by decide, by decide, by decide,
    by decide, by decide⟩

theorem inert_number {w : List UInt8} (h : Number w) : ∀ x ∈ w, Inert x := by
  have hpoint : Inert 46 ∧ Inert 45 ∧ Inert 43 ∧ Inert 101 ∧ Inert 69 ∧ Inert 48 := by
    refine ⟨?_, ?_, ?_, ?_, ?_, ?_⟩ <;>
      exact ⟨by decide, by decide, by decide, by decide, by decide, by decide⟩
  obtain ⟨hdot, hminus, hplus, hlower, hupper, hzero⟩ := hpoint
  have hdigits {w : List UInt8} (hw : Digits w) : ∀ x ∈ w, Inert x := fun x hx =>
    inert_digit (hw.digits x hx)
  have hinteger {i : List UInt8} (hi : Integer i) : ∀ x ∈ i, Inert x := by
    cases hi with
    | zero =>
      intro x hx
      rw [List.mem_singleton.mp hx]
      exact hzero
    | digits _ digits => exact hdigits digits
  have hfraction {f : List UInt8} (hf : Fraction f) : ∀ x ∈ f, Inert x := by
    cases hf with
    | none => exact fun x hx => absurd hx List.not_mem_nil
    | digits digits => exact List.forall_mem_cons.mpr ⟨hdot, hdigits digits⟩
  have hexponent {e : List UInt8} (he : Exponent e) : ∀ x ∈ e, Inert x := by
    cases he with
    | none => exact fun x hx => absurd hx List.not_mem_nil
    | digits letter digits =>
      refine List.forall_mem_cons.mpr ⟨?_, hdigits digits⟩
      rcases letter with rfl | rfl <;> assumption
    | signed letter isSign digits =>
      refine List.forall_mem_cons.mpr ⟨?_, List.forall_mem_cons.mpr ⟨?_, hdigits digits⟩⟩
      · rcases letter with rfl | rfl <;> assumption
      · rcases isSign with rfl | rfl <;> assumption
  have hall {i f e : List UInt8} (hi : Integer i) (hf : Fraction f) (he : Exponent e) :
      ∀ x ∈ i ++ (f ++ e), Inert x :=
    List.forall_mem_append.mpr
      ⟨hinteger hi, List.forall_mem_append.mpr ⟨hfraction hf, hexponent he⟩⟩
  cases h with
  | positive hi hf he => exact hall hi hf he
  | negative hi hf he => exact List.forall_mem_cons.mpr ⟨hminus, hall hi hf he⟩

theorem inert_literal {w : List UInt8} (h : w ∈ literals) : ∀ x ∈ w, Inert x := by
  unfold literals at h
  simp only [List.mem_cons, List.not_mem_nil, or_false] at h
  have hletter {x : UInt8} (hx : 97 ≤ x.toNat ∧ x.toNat ≤ 122) : Inert x :=
    inert_of_toNat (by omega)
  intro x hx
  refine hletter ?_
  rcases h with rfl | rfl | rfl <;>
  · simp only [List.mem_cons, List.not_mem_nil, or_false] at hx
    rcases hx with rfl | rfl | rfl | hx
    · decide
    · decide
    · decide
    · rcases hx with rfl | rfl <;> decide

/-- What stands between brackets passes with them. -/
theorem passes_bracketed {o c a b : UInt8} (hb : Brackets o c) (hab : Brackets a b)
    {w : List UInt8} (hw : Passes o c w) : Passes o c (a :: w ++ [b]) := by
  intro rest depth length
  have hsame : a = o ∧ b = c ∨ a ≠ o ∧ a ≠ c ∧ b ≠ o ∧ b ≠ c := by
    rcases hb with ⟨rfl, rfl⟩ | ⟨rfl, rfl⟩ <;> rcases hab with ⟨rfl, rfl⟩ | ⟨rfl, rfl⟩ <;> decide
  have hzero : a ≠ 0 ∧ b ≠ 0 ∧ a ≠ 34 ∧ b ≠ 34 := by
    rcases hab with ⟨rfl, rfl⟩ | ⟨rfl, rfl⟩ <;> decide
  have hdiffer : o ≠ c := by rcases hb with ⟨rfl, rfl⟩ | ⟨rfl, rfl⟩ <;> decide
  obtain ⟨ha0, hb0, ha34, hb34⟩ := hzero
  rw [List.cons_append, List.cons_append, matchEndFrom, if_neg ha0, if_neg Bool.false_ne_true,
    if_neg ha34, List.append_assoc, List.singleton_append]
  rcases hsame with ⟨rfl, rfl⟩ | ⟨hao, hac, hbo, hbc⟩
  · rw [if_pos rfl, hw, matchEndFrom, if_neg hb0, if_neg Bool.false_ne_true, if_neg hb34,
      if_neg hdiffer.symm, if_pos rfl, if_neg (by omega)]
    refine congrArg _ ?_
    simp only [List.length_cons, List.length_append, List.length_nil]
    omega
  · rw [if_neg hao, if_neg hac, hw, matchEndFrom, if_neg hb0, if_neg Bool.false_ne_true,
      if_neg hb34, if_neg hbo, if_neg hbc]
    refine congrArg _ ?_
    simp only [List.length_cons, List.length_append, List.length_nil]
    omega

/-- Whatever is derived is passed as a whole. -/
theorem passes_derives {o c : UInt8} (hb : Brackets o c) {ph : Phrase} {w : List UInt8}
    (h : Derives ph w) : Passes o c w := by
  have hblank {a : List UInt8} (ha : Blank a) : Passes o c a :=
    passes_inert hb fun x hx => inert_space (ha x hx)
  have hsign {x : UInt8} (hx : x = 44 ∨ x = 58) {w : List UInt8} (hw : Passes o c w) :
      Passes o c (x :: w) := by
    refine (passes_one hb ?_).append hw
    rcases hx with rfl | rfl <;>
      exact ⟨by decide, by decide, by decide, by decide, by decide, by decide⟩
  induction h with
  | literal mem => exact passes_inert hb (inert_literal mem)
  | number number => exact passes_inert hb (inert_number number)
  | string string => exact passes_string string
  | emptyArray blank => exact passes_bracketed hb (Or.inr ⟨rfl, rfl⟩) (hblank blank)
  | array _ ih => exact passes_bracketed hb (Or.inr ⟨rfl, rfl⟩) ih
  | emptyObject blank => exact passes_bracketed hb (Or.inl ⟨rfl, rfl⟩) (hblank blank)
  | object _ ih => exact passes_bracketed hb (Or.inl ⟨rfl, rfl⟩) ih
  | lastElement before _ behind ih => exact (hblank before).append (ih.append (hblank behind))
  | element before _ behind _ ih ihRest =>
    exact (hblank before).append (ih.append ((hblank behind).append (hsign (Or.inl rfl) ihRest)))
  | lastMember before name colon afterColon _ behind ih =>
    exact (hblank before).append ((passes_string name).append ((hblank colon).append
      (hsign (Or.inr rfl) ((hblank afterColon).append (ih.append (hblank behind))))))
  | member before name colon afterColon _ behind _ ih ihRest =>
    exact (hblank before).append ((passes_string name).append ((hblank colon).append
      (hsign (Or.inr rfl) ((hblank afterColon).append (ih.append
        ((hblank behind).append (hsign (Or.inl rfl) ihRest)))))))

/-- An array or an object ends where the search says. -/
theorem matchEnd_derives {v : Value} {w rest : List UInt8} (h : Derives (.value v) w)
    (hopen : w.head? = some 123 ∨ w.head? = some 91) : matchEnd (w ++ rest) = some w := by
  have hmain {a b : UInt8} (hab : Brackets a b) {inner : List UInt8} (hinner : Passes a b inner) :
      matchEnd ((a :: inner ++ [b]) ++ rest) = some (a :: inner ++ [b]) := by
    have hzero : a ≠ 0 ∧ b ≠ 0 ∧ a ≠ 34 ∧ b ≠ 34 ∧ b ≠ a ∧
        (if a = 123 then (125 : UInt8) else 93) = b := by
      rcases hab with ⟨rfl, rfl⟩ | ⟨rfl, rfl⟩ <;> decide
    obtain ⟨ha0, hb0, ha34, hb34, hne, hclose⟩ := hzero
    have hfound : matchEndFrom a b ((a :: inner ++ [b]) ++ rest) 0 false false 0 =
        some (inner.length + 2) := by
      rw [List.cons_append, List.cons_append, matchEndFrom, if_neg ha0, if_neg Bool.false_ne_true,
        if_neg ha34, if_pos rfl, List.append_assoc, hinner, List.singleton_append, matchEndFrom,
        if_neg hb0, if_neg Bool.false_ne_true, if_neg hb34, if_neg hne, if_pos rfl, if_pos rfl]
      exact congrArg some (by omega)
    unfold matchEnd
    dsimp only
    rw [show ((a :: inner ++ [b]) ++ rest).headD 0 = a from rfl, hclose, hfound, Option.map_some]
    refine congrArg some (List.take_left' ?_)
    simp only [List.length_cons, List.length_append, List.length_nil]
  have hinert {w : List UInt8} (hw : ∀ x ∈ w, Inert x) :
      ¬(w.head? = some 123 ∨ w.head? = some 91) := by
    intro hopen
    rcases hopen with hopen | hopen
    · exact (hw _ (List.mem_of_head? hopen)).2.2.2.2.1 rfl
    · exact (hw _ (List.mem_of_head? hopen)).2.2.1 rfl
  cases h with
  | emptyArray blank =>
    exact hmain (Or.inr ⟨rfl, rfl⟩)
      (passes_inert (Or.inr ⟨rfl, rfl⟩) fun x hx => inert_space (blank x hx))
  | array elements => exact hmain (Or.inr ⟨rfl, rfl⟩) (passes_derives (Or.inr ⟨rfl, rfl⟩) elements)
  | emptyObject blank =>
    exact hmain (Or.inl ⟨rfl, rfl⟩)
      (passes_inert (Or.inl ⟨rfl, rfl⟩) fun x hx => inert_space (blank x hx))
  | object members => exact hmain (Or.inl ⟨rfl, rfl⟩) (passes_derives (Or.inl ⟨rfl, rfl⟩) members)
  | literal mem => exact absurd hopen (hinert (inert_literal mem))
  | number number => exact absurd hopen (hinert (inert_number number))
  | string string =>
    cases string with
    | quoted _ =>
      rcases hopen with hopen | hopen <;> exact absurd (Option.some.inj hopen) (by decide)

/-! ## Names -/

/-- The name of a member that is written without escapes. -/
def Plain (key : List UInt8) : Prop := ∀ x ∈ key, x ≠ 34 ∧ x ≠ 123 ∧ x ≠ 44 ∧ space x = false

/-- The last byte of a text that is not blank opens an object or separates its members. -/
def Ready (w : List UInt8) : Prop :=
  ∀ p x a, w = p ++ x :: a → Blank a → space x = false → x = 123 ∨ x = 44

theorem Ready.suffix {p w : List UInt8} (h : Ready (p ++ w)) : Ready w := by
  intro q x a heq ha hx
  refine h (p ++ q) x a ?_ ha hx
  rw [heq, List.append_assoc]

theorem last_unique {p q a b : List UInt8} {x y : UInt8} (h : p ++ x :: a = q ++ y :: b)
    (ha : Blank a) (hb : Blank b) (hx : space x = false) (hy : space y = false) : x = y := by
  rcases List.append_eq_append_iff.mp h with ⟨t, -, ht⟩ | ⟨t, -, ht⟩
  · cases t with
    | nil => exact (List.cons.inj ht).1
    | cons z t =>
      have hmem : y ∈ a := by
        rw [(List.cons.inj ht).2]
        exact List.mem_append_right _ (List.mem_cons_self ..)
      exact absurd (ha y hmem) (by rw [hy]; exact Bool.false_ne_true)
  · cases t with
    | nil => exact (List.cons.inj ht).1.symm
    | cons z t =>
      have hmem : x ∈ b := by
        rw [(List.cons.inj ht).2]
        exact List.mem_append_right _ (List.mem_cons_self ..)
      exact absurd (hb x hmem) (by rw [hx]; exact Bool.false_ne_true)

theorem ready_of_before {w : List UInt8} (h : Before w) : Ready w := by
  have hend {p a : List UInt8} {s : UInt8} (hs : s = 123 ∨ s = 44) (ha : Blank a)
      (hspace : space s = false) : Ready (p ++ s :: a) := by
    intro q x b heq hb hx
    rw [← last_unique heq ha hb hspace hx]
    exact hs
  cases h with
  | first _ blank => exact hend (Or.inl rfl) blank (by decide)
  | @next p k b c w d a _ _ _ _ _ _ _ _ blank =>
    have hready := @hend (p ++ (k ++ (b ++ 58 :: (c ++ (w ++ d))))) a 44 (Or.inr rfl) blank
      (by decide)
    simpa only [List.append_assoc, List.cons_append] using hready

theorem skipWs_blank {b : List UInt8} (hb : Blank b) (w : List UInt8) :
    skipWs (b ++ w) = skipWs w := by
  induction b with
  | nil => rfl
  | cons x b ih =>
    have hx : isSpace x = true := hb x (List.mem_cons_self ..)
    unfold skipWs at ih ⊢
    rw [List.cons_append, List.dropWhile_cons_of_pos hx]
    exact ih fun y hy => hb y (List.mem_cons_of_mem _ hy)

theorem skipWs_cons {x : UInt8} (hx : space x = false) (w : List UInt8) :
    skipWs (x :: w) = x :: w := by
  unfold skipWs
  refine List.dropWhile_cons_of_neg ?_
  rw [show isSpace x = false from hx]
  exact Bool.false_ne_true

/-- A text is blank, or has a first byte that is not. -/
theorem blank_or (w : List UInt8) :
    Blank w ∨ ∃ a x rest, w = a ++ x :: rest ∧ Blank a ∧ space x = false := by
  induction w with
  | nil => exact Or.inl fun x hx => absurd hx List.not_mem_nil
  | cons y w ih =>
    by_cases hy : space y = true
    · rcases ih with hw | ⟨a, x, rest, rfl, ha, hx⟩
      · exact Or.inl (List.forall_mem_cons.mpr ⟨hy, hw⟩)
      · exact Or.inr ⟨y :: a, x, rest, rfl, List.forall_mem_cons.mpr ⟨hy, ha⟩, hx⟩
    · exact Or.inr ⟨[], y, w, rfl, fun x hx => absurd hx List.not_mem_nil,
        Bool.not_eq_true _ ▸ hy⟩

theorem findKeyFrom_match {key rest : List UInt8} (fuel : Nat) :
    findKeyFrom (34 :: key ++ [34]) (fuel + 1) (34 :: (key ++ 34 :: rest)) =
      if (skipWs rest).head? = some 58 then some (skipWs ((skipWs rest).drop 1))
      else findKeyFrom (34 :: key ++ [34]) fuel ((skipWs rest).drop 1) := by
  have happend : 34 :: (key ++ 34 :: rest) = (34 :: key ++ [34]) ++ rest := by
    simp only [List.cons_append, List.append_assoc, List.nil_append]
  have hlength : (34 :: key ++ [34]).length ≤ ((34 :: key ++ [34]) ++ rest).length :=
    Nat.le.intro List.length_append.symm
  have hhead : ((34 :: key ++ [34]) ++ rest).headD 0 ≠ 0 := by
    rw [List.cons_append, List.cons_append, List.headD_cons]
    decide
  rw [happend, findKeyFrom, if_pos ⟨hlength, hhead⟩, List.take_left' rfl, if_pos rfl,
    List.drop_left' rfl]

theorem findKeyFrom_skip {pattern range : List UInt8} {x : UInt8} (fuel : Nat) (hx : x ≠ 0)
    (hlength : pattern.length ≤ range.length + 1)
    (hno : ∀ rest, x :: range ≠ pattern ++ rest) :
    findKeyFrom pattern (fuel + 1) (x :: range) = findKeyFrom pattern fuel range := by
  rw [findKeyFrom, if_pos ⟨hlength, hx⟩, if_neg]
  · rfl
  · intro htake
    refine hno ((x :: range).drop pattern.length) ?_
    conv_lhs => rw [← List.take_append_drop pattern.length (x :: range), htake]

/-- What stands where a member's name may be taken for it. -/
def tagged (key b c value : List UInt8) : List UInt8 :=
  34 :: (key ++ 34 :: (b ++ 58 :: (c ++ value)))

/-- A name does not begin inside the name that is searched for. -/
theorem not_ready_name {key pre t b c value rest : List UInt8} (hkey : Plain key)
    (hne : pre ≠ []) (hpattern : 34 :: key ++ [34] = pre ++ t)
    (htail : tagged key b c value = t ++ rest) : ¬Ready pre := by
  intro hready
  have hnil : Blank [] := fun x hx => absurd hx List.not_mem_nil
  have hname : pre ≠ 34 :: key := by
    rintro rfl
    rcases List.eq_nil_or_concat key with rfl | ⟨k, s, rfl⟩
    · exact absurd (hready [] 34 [] rfl hnil (by decide)) (by decide)
    · obtain ⟨-, hbrace, hcomma, hspace⟩ := hkey s (by simp)
      rcases hready (34 :: k) s [] (by simp) hnil hspace with hs | hs
      · exact hbrace hs
      · exact hcomma hs
  cases t with
  | nil =>
    rw [List.append_nil] at hpattern
    exact absurd (hready (34 :: key) 34 [] hpattern.symm hnil (by decide)) (by decide)
  | cons z t =>
  cases pre with
  | nil => exact hne rfl
  | cons x pre =>
  obtain ⟨rfl, -⟩ := List.cons.inj htail
  obtain ⟨rfl, hinner⟩ := List.cons.inj hpattern
  rcases List.append_eq_append_iff.mp hinner with ⟨u, rfl, hu⟩ | ⟨u, rfl, hu⟩
  · cases u with
    | nil => exact hname (by rw [List.append_nil])
    | cons y u =>
      have hlength := congrArg List.length hu
      simp only [List.length_append, List.length_cons, List.length_nil] at hlength
      omega
  · cases u with
    | nil => exact hname (by rw [List.append_nil])
    | cons y u =>
      obtain ⟨rfl, -⟩ := List.cons.inj hu
      exact (hkey 34 (by simp)).1 rfl

/-- The search comes to the name, or stops at a member before it. -/
theorem findKeyFrom_reach {key b c value : List UInt8} (hkey : Plain key) (hb : Blank b)
    (hc : Blank c) (fuel : Nat) : ∀ {pre : List UInt8}, Ready pre → (∀ x ∈ pre, x ≠ 0) →
    pre.length < fuel →
    findKeyFrom (34 :: key ++ [34]) fuel (pre ++ tagged key b c value) = some (skipWs value) ∨
      ∃ p b' c' y more, pre = p ++ tagged key b' c' (y :: more) ∧ Blank b' ∧ Blank c' ∧
        space y = false ∧ findKeyFrom (34 :: key ++ [34]) fuel (pre ++ tagged key b c value) =
          some (y :: (more ++ tagged key b c value)) := by
  induction fuel with
  | zero => exact fun _ _ hlt => absurd hlt (Nat.not_lt_zero _)
  | succ fuel ih =>
    intro pre hready hzero hlt
    cases pre with
    | nil =>
      refine Or.inl ?_
      rw [List.nil_append, tagged, findKeyFrom_match, skipWs_blank hb, skipWs_cons (by decide),
        List.head?_cons, if_pos rfl, List.drop_one, List.tail_cons, skipWs_blank hc]
    | cons x pre =>
    by_cases hm : ∃ rest, (x :: pre) ++ tagged key b c value = (34 :: key ++ [34]) ++ rest
    swap
    · have hlength : (34 :: key ++ [34]).length ≤ (pre ++ tagged key b c value).length + 1 := by
        simp only [tagged, List.length_append, List.length_cons, List.length_nil]
        omega
      have hskip := findKeyFrom_skip fuel (hzero x (List.mem_cons_self ..)) hlength
        (fun rest heq => hm ⟨rest, heq⟩)
      rw [show (x :: pre) ++ tagged key b c value = x :: (pre ++ tagged key b c value) from rfl,
        hskip]
      rcases ih (hready.suffix (p := [x])) (fun y hy => hzero y (List.mem_cons_of_mem _ hy))
        (Nat.lt_of_succ_lt_succ hlt) with hfound | ⟨p, b', c', y, more, rfl, hstop⟩
      · exact Or.inl hfound
      · exact Or.inr ⟨x :: p, b', c', y, more, rfl, hstop⟩
    obtain ⟨rest, hrest⟩ := hm
    rcases List.append_eq_append_iff.mp hrest with ⟨t, hpattern, htail⟩ | ⟨t, hpre, rfl⟩
    · exact absurd hready (not_ready_name hkey (List.cons_ne_nil _ _) hpattern htail)
    rw [hpre] at hready
    rcases blank_or t with ht | ⟨a, y, r, rfl, ha, hy⟩
    · exact absurd (hready (34 :: key) 34 t (by simp) ht (by decide)) (by decide)
    have hrange : (x :: pre) ++ tagged key b c value =
        34 :: (key ++ 34 :: (a ++ y :: (r ++ tagged key b c value))) := by
      rw [hpre]
      simp only [List.cons_append, List.append_assoc, List.nil_append]
    rw [hrange, findKeyFrom_match, skipWs_blank ha, skipWs_cons hy, List.head?_cons]
    by_cases hcolon : y = 58
    · subst hcolon
      rw [if_pos rfl, List.drop_one, List.tail_cons]
      rcases blank_or r with hr | ⟨c', z, more, rfl, hc', hz⟩
      · refine absurd (hready ((34 :: key ++ [34]) ++ a) 58 r ?_ hr (by decide)) (by decide)
        simp only [List.cons_append, List.append_assoc]
      · refine Or.inr ⟨[], a, c', z, more, ?_, ha, hc', hz, ?_⟩
        · rw [hpre]
          simp only [tagged, List.cons_append, List.append_assoc, List.nil_append]
        · rw [List.append_assoc, skipWs_blank hc', List.cons_append, skipWs_cons hz]
    · rw [if_neg (fun h => hcolon (Option.some.inj h)), List.drop_one, List.tail_cons]
      have hsplit : (34 :: key ++ [34]) ++ (a ++ y :: r) =
          ((34 :: key ++ [34]) ++ (a ++ [y])) ++ r := by
        simp only [List.cons_append, List.append_assoc, List.nil_append]
      have hr : ∀ z ∈ r, z ≠ 0 := by
        intro z hz
        refine hzero z ?_
        rw [hpre, hsplit]
        exact List.mem_append_right _ hz
      rw [hsplit] at hready
      have hshort : r.length < fuel := by
        have hlength := congrArg List.length hpre
        simp only [List.length_append, List.length_cons, List.length_nil] at hlength hlt
        omega
      rcases ih hready.suffix hr hshort with hfound | ⟨p, b', c', z, more, rfl, hstop⟩
      · exact Or.inl hfound
      · refine Or.inr ⟨(34 :: key ++ [34]) ++ (a ++ [y]) ++ p, b', c', z, more, ?_, hstop⟩
        rw [hpre, hsplit]
        simp only [List.append_assoc]

end Z80Sbc.Weather.Scanning
