import Z80Sbc.Weather.Scanning

/-! # Looking up a documented member -/

namespace Z80Sbc.Weather.Scanning
open Z80Sbc.Data.JsonGrammar JsonScan

/-- A text that is taken for a member of this name; its value begins with a byte of the kind. -/
def Tagged (lead : UInt8 → Prop) (key w : List UInt8) : Prop :=
  ∃ b c x rest, w = tagged key b c (x :: rest) ∧ Blank b ∧ Blank c ∧ space x = false ∧ lead x

/-- No text that begins before the name is taken for it. -/
def Clear (lead : UInt8 → Prop) (key before tail : List UInt8) : Prop :=
  ∀ p w, before ++ tail = p ++ w → p.length < before.length → ¬Tagged lead key w

/-- A member of an object with a value of a kind, where nothing before it is taken for it. -/
def Lookup (lead : UInt8 → Prop) (range key value behind : List UInt8) : Prop :=
  ∃ before, MemberAt range before key value behind ∧ (∃ x, value.head? = some x ∧ lead x) ∧
    ∀ p w, range = p ++ w → p.length < before.length → ¬Tagged lead key w

/-- Any value. -/
def anyLead (_ : UInt8) : Prop := True

theorem Clear.suffix {lead : UInt8 → Prop} {key p before tail : List UInt8}
    (h : Clear lead key (p ++ before) tail) : Clear lead key before tail := by
  intro q w heq hlt
  refine h (p ++ q) w ?_ ?_
  · rw [List.append_assoc, List.append_assoc, heq]
  · rw [List.length_append, List.length_append]
    omega

theorem Clear.earlier {lead : UInt8 → Prop} {key p b c more before tail : List UInt8} {y : UInt8}
    (h : Clear lead key before tail) (hbefore : before = p ++ tagged key b c (y :: more))
    (hb : Blank b) (hc : Blank c) (hy : space y = false) : ¬lead y := by
  intro hlead
  have heq : before ++ tail = p ++ tagged key b c (y :: (more ++ tail)) := by
    rw [hbefore]
    simp only [tagged, List.append_assoc, List.cons_append]
  refine h p _ heq ?_ ⟨b, c, y, _, rfl, hb, hc, hy, hlead⟩
  rw [hbefore, List.length_append, tagged, List.length_cons]
  omega

/-- A name that the search takes. -/
def Short (key : List UInt8) : Prop := Plain key ∧ key.length < 62

theorem findKey_eq {range key : List UInt8} (h : Short key) :
    findKey range key = findKeyFrom (34 :: key ++ [34]) (range.length + 1) range := by
  have hshort : ¬64 ≤ (34 :: key ++ [34]).length := by
    have hlength := h.2
    simp only [List.length_append, List.length_cons, List.length_nil]
    omega
  exact if_neg hshort

section
variable {key range value behind memory : List UInt8}

theorem findKey_reach {b c pre : List UInt8} (hkey : Short key) (hb : Blank b) (hc : Blank c)
    (hready : Ready pre) (hzero : ∀ x ∈ pre, x ≠ 0) (hvalue : skipWs value = value) :
    findKey (pre ++ tagged key b c value) key = some value ∨
      ∃ p b' c' y more, pre = p ++ tagged key b' c' (y :: more) ∧ Blank b' ∧ Blank c' ∧
        space y = false ∧ findKey (pre ++ tagged key b c value) key =
          some (y :: (more ++ tagged key b c value)) := by
  rw [findKey_eq hkey]
  have hreach := @findKeyFrom_reach key b c value hkey.1 hb hc
    ((pre ++ tagged key b c value).length + 1) pre hready hzero (by rw [List.length_append]; omega)
  rwa [hvalue] at hreach

theorem derives_skip {v : Value} {w rest : List UInt8} (h : Derives (.value v) w) :
    skipWs (w ++ rest) = w ++ rest := by
  obtain ⟨x, w', rfl, hx, -⟩ := h.head
  exact skipWs_cons hx _

/-- A lookup of any value finds the documented member. -/
theorem findKey_lookup (hkey : Short key) (hzero : ∀ x ∈ range, x ≠ 0)
    (h : Lookup anyLead range key value behind) : findKey range key = some (value ++ behind) := by
  obtain ⟨before, hat, -, hclear⟩ := h
  cases hat with
  | @mk _ _ b c _ _ v prior colon afterColon derives _ =>
  have hbefore : ∀ x ∈ before, x ≠ 0 := fun x hx => hzero x (List.mem_append_left _ hx)
  rcases findKey_reach hkey colon afterColon (ready_of_before prior) hbefore
    (@derives_skip v value behind derives) with hfound | ⟨p, b', c', y, more, hpre, hb', hc', hy, -⟩
  · exact hfound
  · exact absurd trivial (@Clear.earlier anyLead _ _ _ _ _ _ _ _ hclear hpre hb' hc' hy)

/-- A search that goes on behind a value of another kind finds the documented member. -/
theorem search_lookup {F : Nat → List UInt8 → Option Object} {A : List UInt8 → Option Object}
    {lead : UInt8} (hkey : Short key)
    (hstep : ∀ n s cursor, s ≠ [] → findKey s key = some cursor → F (n + 1) s =
      if (skipWs cursor).head? = some lead then A (skipWs cursor)
      else F n ((skipWs cursor).drop 1))
    (hzero : ∀ x ∈ range, x ≠ 0) (h : Lookup (· = lead) range key value behind) {fuel : Nat}
    (hfuel : range.length < fuel) : F fuel range = A (value ++ behind) := by
  obtain ⟨before, hat, ⟨lead', hhead, rfl⟩, hclear⟩ := h
  cases hat with
  | @mk _ _ b c _ _ v prior colon afterColon derives _ =>
  have hskip := @derives_skip v value behind derives
  have hmain (fuel : Nat) : ∀ {pre : List UInt8}, Ready pre → (∀ x ∈ pre, x ≠ 0) →
      Clear (· = lead') key pre (tagged key b c (value ++ behind)) → pre.length < fuel →
      F fuel (pre ++ tagged key b c (value ++ behind)) = A (value ++ behind) := by
    induction fuel with
    | zero => exact fun _ _ _ hlt => absurd hlt (Nat.not_lt_zero _)
    | succ fuel ih =>
      intro pre hready hzero hclear hlt
      have hne : pre ++ tagged key b c (value ++ behind) ≠ [] :=
        List.append_ne_nil_of_right_ne_nil _ (List.cons_ne_nil _ _)
      rcases findKey_reach hkey colon afterColon hready hzero hskip with
        hfound | ⟨p, b', c', y, more, hpre, hb', hc', hy, hfound⟩
      · have hlead : (value ++ behind).head? = some lead' := by
          rw [List.head?_append, hhead]
          rfl
        rw [hstep _ _ _ hne hfound, hskip, if_pos hlead]
      · have hother := hclear.earlier hpre hb' hc' hy
        have hsuffix : pre = (p ++ tagged key b' c' [y]) ++ more := by
          rw [hpre]
          simp only [tagged, List.append_assoc, List.cons_append, List.nil_append]
        have hshort : more.length < pre.length := by
          rw [hsuffix, List.length_append, List.length_append, tagged, List.length_cons]
          omega
        rw [hstep _ _ _ hne hfound, skipWs_cons hy, List.head?_cons,
          if_neg (fun heq => hother (Option.some.inj heq)), List.drop_one, List.tail_cons]
        rw [hsuffix] at hready hclear hzero
        exact ih hready.suffix (fun x hx => hzero x (List.mem_append_right _ hx)) hclear.suffix
          (by omega)
  refine hmain fuel (ready_of_before prior) (fun x hx => hzero x (List.mem_append_left _ hx))
    hclear ?_
  refine Nat.lt_of_le_of_lt ?_ hfuel
  rw [List.length_append]
  exact Nat.le_add_right _ _

theorem object_lookup (hkey : Short key) (hzero : ∀ x ∈ range, x ≠ 0)
    (h : Lookup (· = 123) range key value behind) :
    object ⟨range, memory⟩ key = some ⟨value, behind ++ memory⟩ := by
  have hstep (n : Nat) (s cursor : List UInt8) (hs : s ≠ [])
      (hfound : findKey s key = some cursor) :
      objectFrom key memory (n + 1) s = if (skipWs cursor).head? = some 123 then
        (matchEnd (skipWs cursor)).map fun object =>
          ⟨object, (skipWs cursor).drop object.length ++ memory⟩
      else objectFrom key memory n ((skipWs cursor).drop 1) := by
    rw [objectFrom, if_neg hs, hfound]
  have hfound := search_lookup (F := objectFrom key memory)
    (A := fun s => (matchEnd s).map fun object => ⟨object, s.drop object.length ++ memory⟩)
    hkey hstep hzero h (Nat.lt_succ_self _)
  unfold object
  rw [hfound]
  obtain ⟨before, hat, ⟨x, hhead, rfl⟩, -⟩ := h
  cases hat with
  | mk _ _ _ derives _ =>
    rw [matchEnd_derives derives (Or.inl hhead), Option.map_some, List.drop_left' rfl]

/-- The object that an array begins with. -/
def FirstElement (array first rest : List UInt8) : Prop :=
  ∃ a v, array = 91 :: (a ++ (first ++ rest)) ∧ Blank a ∧ Derives (.value v) first ∧
    first.head? = some 123

theorem firstArrayObject_lookup {first rest : List UInt8} (hkey : Short key)
    (hzero : ∀ x ∈ range, x ≠ 0) (h : Lookup (· = 91) range key value behind)
    (hfirst : FirstElement value first rest) :
    firstArrayObject ⟨range, memory⟩ key = some ⟨first, rest ++ (behind ++ memory)⟩ := by
  have hstep (n : Nat) (s cursor : List UInt8) (hs : s ≠ [])
      (hfound : findKey s key = some cursor) :
      firstArrayObjectFrom key memory (n + 1) s = if (skipWs cursor).head? = some 91 then
        (matchEnd (skipWs cursor)).bind fun array =>
          firstObject array ((skipWs cursor).drop array.length ++ memory)
      else firstArrayObjectFrom key memory n ((skipWs cursor).drop 1) := by
    rw [firstArrayObjectFrom, if_neg hs, hfound]
  have hfound := search_lookup (F := firstArrayObjectFrom key memory)
    (A := fun s => (matchEnd s).bind fun array =>
      firstObject array (s.drop array.length ++ memory))
    hkey hstep hzero h (Nat.lt_succ_self _)
  unfold firstArrayObject
  rw [hfound]
  obtain ⟨before, hat, ⟨x, hhead, rfl⟩, -⟩ := h
  obtain ⟨a, v, rfl, ha, hderives, hopen⟩ := hfirst
  cases hat with
  | mk _ _ _ derives _ =>
    rw [matchEnd_derives derives (Or.inr hhead), Option.bind_some, List.drop_left' rfl]
    unfold firstObject
    obtain ⟨first', rfl⟩ : ∃ first', first = 123 :: first' := by
      cases first with
      | nil => cases hopen
      | cons x first =>
        cases hopen
        exact ⟨first, rfl⟩
    rw [List.drop_one, List.tail_cons, skipWs_blank ha, derives_skip hderives, List.cons_append,
      List.dropWhile_cons_of_neg (by decide)]
    dsimp only
    rw [List.head?_cons, if_pos rfl, ← List.cons_append, matchEnd_derives hderives (Or.inl rfl),
      Option.map_some, List.drop_left' rfl]

end

/-! ## Strings -/

/-- The escapes of control characters. -/
def controls : List UInt8 := [110, 114, 116, 98, 102]

/-- A string as it is stored: an escape of a control character is a blank, a code point a question
mark, and any other escape the character itself. -/
inductive Folded : List UInt8 → List UInt8 → Prop where
  | nil : Folded [] []
  | plain {x : UInt8} {w t : List UInt8} (quote : x ≠ 34) (backslash : x ≠ 92) (rest : Folded w t) :
      Folded (x :: w) (x :: t)
  | control {x : UInt8} {w t : List UInt8} (mem : x ∈ controls) (rest : Folded w t) :
      Folded (92 :: x :: w) (32 :: t)
  | unicode {digits w t : List UInt8} (four : digits.length = 4) (rest : Folded w t) :
      Folded (92 :: 117 :: (digits ++ w)) (63 :: t)
  | other {x : UInt8} {w t : List UInt8} (mem : x ∉ controls) (ne : x ≠ 117) (rest : Folded w t) :
      Folded (92 :: x :: w) (x :: t)

/-- A string and the text that is stored for it. -/
def StringOf (value t : List UInt8) : Prop := ∃ w, value = 34 :: (w ++ [34]) ∧ Folded w t

theorem Folded.append {v w s t : List UInt8} (hv : Folded v s) (hw : Folded w t) :
    Folded (v ++ w) (s ++ t) := by
  induction hv with
  | nil => exact hw
  | plain quote backslash _ ih => exact .plain quote backslash ih
  | control mem _ ih => exact .control mem ih
  | unicode four _ ih =>
    have hunicode := Folded.unicode four ih
    rwa [← List.append_assoc] at hunicode
  | other mem ne _ ih => exact .other mem ne ih

theorem folded_list {w : List UInt8} (hw : ∀ x ∈ w, Ordinary x) : Folded w w := by
  induction w with
  | nil => exact .nil
  | cons x w ih =>
    obtain ⟨-, hquote, hbackslash⟩ := hw x (List.mem_cons_self ..)
    exact .plain hquote hbackslash (ih fun y hy => hw y (List.mem_cons_of_mem _ hy))

theorem folded_character {cp : Nat} {w : List UInt8} (h : Character cp w) : ∃ t, Folded w t := by
  have hhex {n : Nat} {digits : List UInt8} (hdigits : FourHex n digits) :
      Folded (92 :: 117 :: digits) [63] := by
    have hunicode := Folded.unicode (ordinary_hex hdigits).1 .nil
    rwa [List.append_nil] at hunicode
  cases h with
  | unescaped control quote backslash scalar =>
    exact ⟨_, folded_list fun x hx => ordinary_utf8 control quote backslash scalar hx⟩
  | @escaped x _ mem =>
    by_cases hx : x ∈ controls
    · exact ⟨_, .control hx .nil⟩
    · have hno : ∀ e ∈ escapes, e.1 ≠ 117 := by decide
      exact ⟨_, .other hx (hno _ mem) .nil⟩
  | unicode hex _ => exact ⟨_, hhex hex⟩
  | pair hexHigh hexLow _ _ => exact ⟨_, (hhex hexHigh).append (hhex hexLow)⟩

theorem folded_characters {cps : List Nat} {w : List UInt8} (h : Characters cps w) :
    ∃ t, Folded w t := by
  induction h with
  | nil => exact ⟨_, .nil⟩
  | cons head _ ih =>
    obtain ⟨s, hs⟩ := folded_character head
    obtain ⟨t, ht⟩ := ih
    exact ⟨_, hs.append ht⟩

theorem stringOf_derives {v : Value} {value : List UInt8} (h : Derives (.value v) value)
    (hhead : value.head? = some 34) : ∃ t, StringOf value t := by
  have hinert {w : List UInt8} (hw : ∀ x ∈ w, Inert x) : w.head? ≠ some 34 := fun hopen =>
    (hw _ (List.mem_of_head? hopen)).2.1 rfl
  cases h with
  | literal mem => exact absurd hhead (hinert (inert_literal mem))
  | number number => exact absurd hhead (hinert (inert_number number))
  | string string =>
    cases string with
    | quoted characters =>
      obtain ⟨t, ht⟩ := folded_characters characters
      exact ⟨t, _, rfl, ht⟩
  | emptyArray _ => exact absurd (Option.some.inj hhead) (by decide)
  | array _ => exact absurd (Option.some.inj hhead) (by decide)
  | emptyObject _ => exact absurd (Option.some.inj hhead) (by decide)
  | object _ => exact absurd (Option.some.inj hhead) (by decide)

theorem stringFrom_folded {w t rest : List UInt8} (h : Folded w t) (hzero : ∀ x ∈ w, x ≠ 0) :
    ∀ room, stringFrom (w ++ 34 :: rest) room = (t.take room, true) := by
  have htake (x : UInt8) (t : List UInt8) (room : Nat) :
      (if 0 < room then (x :: t.take (room - 1), true) else (t.take (room - 1), true)) =
        ((x :: t).take room, true) := by
    cases room with
    | zero => rfl
    | succ room => rfl
  induction h with
  | nil =>
    intro room
    rw [List.nil_append, stringFrom, if_neg (by decide), if_pos rfl, List.take_nil]
  | @plain x w t quote backslash _ ih =>
    intro room
    have hx := hzero x (List.mem_cons_self ..)
    rw [List.cons_append, stringFrom, if_neg hx, if_neg quote]
    dsimp only
    rw [if_neg backslash, ih fun y hy => hzero y (List.mem_cons_of_mem _ hy)]
    exact htake x t room
  | @control x w t mem _ ih =>
    intro room
    have hx := hzero x (by simp)
    have hcontrol : x = 110 ∨ x = 114 ∨ x = 116 ∨ x = 98 ∨ x = 102 := by
      simpa only [controls, List.mem_cons, List.not_mem_nil, or_false] using mem
    rw [List.cons_append, List.cons_append, stringFrom, if_neg (by decide), if_neg (by decide)]
    dsimp only
    rw [if_pos rfl, if_neg hx, if_pos hcontrol, ih fun y hy => hzero y (by simp [hy])]
    exact htake 32 t room
  | @unicode digits w t four _ ih =>
    intro room
    rw [List.cons_append, List.cons_append, stringFrom, if_neg (by decide), if_neg (by decide)]
    dsimp only
    rw [if_pos rfl, if_neg (by decide), if_neg (by decide), if_pos rfl]
    have hdigits : 4 ≤ (((digits ++ w) ++ 34 :: rest).takeWhile (· ≠ 0)).length := by
      rw [List.append_assoc, List.takeWhile_append_of_pos, List.length_append]
      · omega
      · intro x hx
        exact decide_eq_true (hzero x (by simp [hx]))
    rw [Nat.min_eq_left hdigits, List.append_assoc, List.drop_left' four,
      ih fun y hy => hzero y (by simp [hy])]
    exact htake 63 t room
  | @other x w t mem ne _ ih =>
    intro room
    have hx := hzero x (by simp)
    have hcontrol : ¬(x = 110 ∨ x = 114 ∨ x = 116 ∨ x = 98 ∨ x = 102) := by
      intro hno
      exact mem (by simpa only [controls, List.mem_cons, List.not_mem_nil, or_false] using hno)
    rw [List.cons_append, List.cons_append, stringFrom, if_neg (by decide), if_neg (by decide)]
    dsimp only
    rw [if_pos rfl, if_neg hx, if_neg hcontrol, if_neg ne, ih fun y hy => hzero y (by simp [hy])]
    exact htake x t room

theorem getString_found {range key value behind t : List UInt8} {n : Nat}
    (hfound : findKey range key = some (value ++ behind)) (hzero : ∀ x ∈ value, x ≠ 0)
    (ht : StringOf value t) : getString range key n = (t.take (n - 1), true) := by
  obtain ⟨w, rfl, hw⟩ := ht
  have hinner : ∀ x ∈ w, x ≠ 0 := fun x hx => hzero x (by simp [hx])
  unfold getString
  rw [hfound]
  dsimp only
  rw [List.cons_append, List.head?_cons, if_pos rfl, List.drop_one, List.tail_cons,
    List.append_assoc, List.singleton_append]
  exact stringFrom_folded hw hinner _

/-- A string that was taken is that of the documented member. -/
theorem getString_lookup {range key value behind : List UInt8} {n : Nat} (hkey : Short key)
    (hzero : ∀ x ∈ range, x ≠ 0) (h : Lookup anyLead range key value behind)
    (htaken : (getString range key n).2 = true) :
    ∃ t, StringOf value t ∧ (getString range key n).1 = t.take (n - 1) := by
  have hfound := findKey_lookup hkey hzero h
  obtain ⟨before, hat, ⟨x, hhead, -⟩, -⟩ := h
  cases hat with
  | mk _ _ _ derives _ =>
  have hquote : value.head? = some 34 := by
    unfold getString at htaken
    rw [hfound] at htaken
    dsimp only at htaken
    by_cases hq : (value ++ behind).head? = some 34
    · rw [List.head?_append, hhead] at hq
      rw [hhead]
      exact hq
    · rw [if_neg hq] at htaken
      cases htaken
  obtain ⟨t, ht⟩ := stringOf_derives derives hquote
  have hinside : ∀ x ∈ value, x ≠ 0 := fun x hx => hzero x (by simp [hx])
  exact ⟨t, ht, congrArg Prod.fst (getString_found hfound hinside ht)⟩

/-! ## Numbers -/

/-- What is known of `strtod`: it takes the longest text that is a number, so it stops at what
ends a value, and a closing brace ends whatever it takes. -/
structure Stops (floats : Floats) : Prop where
  value : ∀ {v : Value} {w rest : List UInt8} {x : UInt8}, Derives (.value v) w → Ends x →
    floats.strtod (w ++ x :: rest) = floats.strtod w
  brace : ∀ (w rest : List UInt8), floats.strtod (w ++ 125 :: rest) = floats.strtod (w ++ [125])

/-- A number as it is stored. -/
def numberText (floats : Floats) (value : List UInt8) : List UInt8 :=
  (decimal (floats.round (floats.strtod value).1)).take (FIELD_BYTES - 1)

/-- A number that was taken is that of the documented member. -/
theorem getNumber_lookup {floats : Floats} (hstops : Stops floats)
    {range memory key value behind : List UInt8} (hkey : Short key) (hzero : ∀ x ∈ range, x ≠ 0)
    (h : Lookup anyLead range key value behind)
    (htaken : (getNumber floats range memory key FIELD_BYTES).2 = true) :
    (getNumber floats range memory key FIELD_BYTES).1 = numberText floats value := by
  have hfound := findKey_lookup hkey hzero h
  obtain ⟨before, hat, ⟨x, hhead, -⟩, -⟩ := h
  cases hat with
  | mk _ _ _ derives rest =>
  obtain ⟨y, more, rfl, hy⟩ := rest.head
  have hne : value ++ y :: more ≠ [] := List.append_ne_nil_of_right_ne_nil _ (List.cons_ne_nil _ _)
  have hstrtod : floats.strtod (value ++ y :: more ++ memory) = floats.strtod value := by
    rw [List.append_assoc, List.cons_append]
    exact hstops.value derives hy
  unfold getNumber at htaken ⊢
  rw [hfound] at htaken ⊢
  dsimp only at htaken ⊢
  rw [if_neg hne, hstrtod] at htaken ⊢
  split at htaken
  · cases htaken
  next hgood => rw [if_neg hgood]; rfl

theorem takeWhile_stop {test : UInt8 → Bool} {x : UInt8} (hx : test x = false)
    (w rest : List UInt8) : (w ++ x :: rest).takeWhile test = w.takeWhile test := by
  induction w with
  | nil => rw [List.nil_append, List.takeWhile_cons_of_neg (by rw [hx]; exact Bool.false_ne_true),
      List.takeWhile_nil]
  | cons y w ih =>
    rw [List.cons_append, List.takeWhile_cons, List.takeWhile_cons, ih]

/-- `strtol` stops at a byte that is not a digit. -/
theorem strtol_stop {y x : UInt8} {w rest : List UInt8} (hy : 32 < y.toNat)
    (hx : x.toNat < 48 ∨ 57 < x.toNat) : strtol (y :: w ++ x :: rest) = strtol (y :: w) := by
  have hspaces (r : List UInt8) :
      (y :: r).takeWhile (fun c => decide (c = 32 ∨ 9 ≤ c ∧ c ≤ 13)) = [] := by
    refine List.takeWhile_cons_of_neg ?_
    simp only [decide_eq_true_eq, UInt8.le_iff_toNat_le, UInt8.reduceToNat]
    rintro (rfl | hno)
    · exact absurd hy (by decide)
    · omega
  have hdigit : decide (48 ≤ x ∧ x ≤ 57) = false := by
    simp only [decide_eq_false_iff_not, UInt8.le_iff_toNat_le, UInt8.reduceToNat]
    omega
  unfold strtol
  dsimp only
  rw [List.cons_append, hspaces, hspaces, List.length_nil, List.drop_zero, List.drop_zero,
    List.head?_cons, List.head?_cons, List.drop_one, List.drop_one, List.tail_cons, List.tail_cons]
  by_cases hsigned : some y = some 45 ∨ some y = some 43
  · rw [if_pos hsigned, if_pos hsigned, takeWhile_stop hdigit, if_pos hsigned]
  · rw [if_neg hsigned, if_neg hsigned, ← List.cons_append, takeWhile_stop hdigit, if_neg hsigned]

/-- A value that is read as an integer, as a string of at most eleven bytes or as a number. -/
def IntegerOf (value : List UInt8) (n : Int) : Prop :=
  (∃ t, StringOf value t ∧ strtol (t.take 11) = (n, (t.take 11).length)) ∨
    (value.head? ≠ some 34 ∧ (strtol value).1 = n)

theorem ends_toNat {x : UInt8} (h : Ends x) : x.toNat < 48 ∨ 57 < x.toNat := by
  rcases h with rfl | rfl | h
  · exact Or.inl (by decide)
  · exact Or.inr (by decide)
  · unfold space at h
    simp only [Bool.or_eq_true, beq_iff_eq] at h
    rcases h with ((rfl | rfl) | rfl) | rfl <;> exact Or.inl (by decide)

/-- An integer that was read is that of the documented member. -/
theorem getInt_lookup {range memory key value behind : List UInt8} {n : Int} (hkey : Short key)
    (hzero : ∀ x ∈ range, x ≠ 0) (h : Lookup anyLead range key value behind)
    (htaken : getInt range memory key = some n) : IntegerOf value n := by
  have hfound := findKey_lookup hkey hzero h
  have hlookup := h
  obtain ⟨before, hat, ⟨x, hhead, -⟩, -⟩ := h
  cases hat with
  | mk _ _ _ derives rest =>
  obtain ⟨y, more, rfl, hy⟩ := rest.head
  obtain ⟨z, w, rfl, hz⟩ := derives.printable
  unfold getInt at htaken
  rw [hfound] at htaken
  dsimp only at htaken
  rw [if_neg (by exact List.cons_ne_nil _ _)] at htaken
  by_cases hquote : ((z :: w) ++ y :: more).head? = some 34
  · rw [if_pos hquote] at htaken
    split at htaken
    next hgood =>
      rw [Bool.and_eq_true, Bool.and_eq_true, Bool.and_eq_true, beq_iff_eq] at hgood
      obtain ⟨⟨⟨hwhole, -⟩, hlength⟩, -⟩ := hgood
      obtain ⟨t, ht, hstored⟩ := getString_lookup hkey hzero hlookup hwhole
      rw [hstored] at htaken hlength
      exact Or.inl ⟨t, ht, Prod.ext (Option.some.inj htaken) hlength⟩
    · cases htaken
  · rw [if_neg hquote] at htaken
    split at htaken
    · cases htaken
    · have hmemory : (z :: w ++ y :: more) ++ memory = z :: w ++ y :: (more ++ memory) :=
        List.append_assoc _ _ _
      rw [hmemory, strtol_stop hz (ends_toNat hy)] at htaken
      exact Or.inr ⟨hquote, Option.some.inj htaken⟩

end Z80Sbc.Weather.Scanning
