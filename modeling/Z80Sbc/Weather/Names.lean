import Z80Sbc.Weather.Lookup

/-! # The names that the scanner takes

In well-formed text the scanner takes for a member only what a member's name ends with, at any
depth; what a string value holds is never taken. -/

namespace Z80Sbc.Weather.Scanning
open Z80Sbc.Data.JsonGrammar JsonScan

/-- A byte of a documented name: a small letter or an underscore. -/
def Letter (x : UInt8) : Prop := 95 ≤ x.toNat ∧ x.toNat ≤ 122

instance (x : UInt8) : Decidable (Letter x) := inferInstanceAs (Decidable (_ ∧ _))

structure Word (key : List UInt8) : Prop where
  nonempty : key ≠ []
  letters : ∀ x ∈ key, Letter x

example : Word (text "feels_like") := ⟨by decide +kernel, by decide +kernel⟩

/-- A name as it is searched for. -/
def quote (key : List UInt8) : List UInt8 := 34 :: key ++ [34]

/-- The place where the name of a member ends with the quoted key; its value begins with a byte of
the kind. -/
inductive NamedAt (lead : UInt8 → Prop) (key range : List UInt8) : List UInt8 → Prop where
  | mk {before m value : List UInt8} {x : UInt8}
      (nested : Nested range before (m ++ quote key) value) (head : value.head? = some x)
      (kind : lead x) : NamedAt lead key range (before ++ m)

/-- A text that holds one value, between blanks. -/
def Holds (v : Value) (range : List UInt8) : Prop :=
  ∃ a w d, range = a ++ (w ++ d) ∧ Blank a ∧ Derives (.value v) w ∧ Blank d

/-! ## Strings -/

/-- What stands between the quotes of a string. -/
inductive Escaping : List UInt8 → Prop where
  | nil : Escaping []
  | plain {x : UInt8} {w : List UInt8} (quote : x ≠ 34) (backslash : x ≠ 92) (rest : Escaping w) :
      Escaping (x :: w)
  | escape {x : UInt8} {w : List UInt8} (rest : Escaping w) : Escaping (92 :: x :: w)

theorem Escaping.append {v w : List UInt8} (hv : Escaping v) (hw : Escaping w) :
    Escaping (v ++ w) := by
  induction hv with
  | nil => exact hw
  | plain quote backslash _ ih => exact .plain quote backslash ih
  | escape _ ih => exact .escape ih

theorem escaping_ordinary {w : List UInt8} (h : ∀ x ∈ w, Ordinary x) : Escaping w := by
  induction w with
  | nil => exact .nil
  | cons x w ih =>
    obtain ⟨-, hquote, hbackslash⟩ := h x (List.mem_cons_self ..)
    exact .plain hquote hbackslash (ih fun y hy => h y (List.mem_cons_of_mem _ hy))

theorem escaping_characters {cps : List Nat} {w : List UInt8} (h : Characters cps w) :
    Escaping w := by
  have hhex {n : Nat} {digits : List UInt8} (hdigits : FourHex n digits) :
      Escaping (92 :: 117 :: digits) := .escape (escaping_ordinary (ordinary_hex hdigits).2)
  induction h with
  | nil => exact .nil
  | cons head _ ih =>
    refine Escaping.append ?_ ih
    cases head with
    | unescaped control quote backslash scalar =>
      exact escaping_ordinary fun x hx => ordinary_utf8 control quote backslash scalar hx
    | escaped _ => exact .escape .nil
    | unicode hex _ => exact hhex hex
    | pair hexHigh hexLow _ _ => exact (hhex hexHigh).append (hhex hexLow)

/-- A quote up to the closing one is the closing one, or escaped. -/
theorem Escaping.quote_at {w rest p t : List UInt8} (h : Escaping w)
    (hsplit : w ++ 34 :: rest = p ++ 34 :: t) (hlt : p.length ≤ w.length) :
    p = w ∧ t = rest ∨ ∃ w', Escaping w' ∧ w = p ++ 34 :: w' ∧ t = w' ++ 34 :: rest := by
  induction h generalizing p with
  | nil =>
    obtain rfl := List.length_eq_zero_iff.mp (Nat.le_zero.mp hlt)
    exact Or.inl ⟨rfl, (List.cons.inj hsplit).2.symm⟩
  | @plain x w quote _ _ ih =>
    cases p with
    | nil => exact absurd (List.cons.inj hsplit).1 quote
    | cons y p =>
      obtain ⟨rfl, htail⟩ := List.cons.inj hsplit
      obtain ⟨rfl, rfl⟩ | ⟨w', hw', rfl, rfl⟩ := ih htail (Nat.le_of_succ_le_succ hlt)
      · exact Or.inl ⟨rfl, rfl⟩
      · exact Or.inr ⟨w', hw', rfl, rfl⟩
  | @escape x w rest' ih =>
    cases p with
    | nil => exact absurd (List.cons.inj hsplit).1 (by decide)
    | cons y p =>
    obtain ⟨hy, hsecond⟩ := List.cons.inj hsplit
    rw [← hy]
    cases p with
    | nil =>
      obtain ⟨rfl, rfl⟩ := List.cons.inj hsecond
      exact Or.inr ⟨w, rest', rfl, rfl⟩
    | cons z p =>
      obtain ⟨rfl, htail⟩ := List.cons.inj hsecond
      have hlt' : p.length ≤ w.length := by
        simp only [List.length_cons] at hlt
        omega
      obtain ⟨rfl, rfl⟩ | ⟨w', hw', rfl, rfl⟩ := ih htail hlt'
      · exact Or.inl ⟨rfl, rfl⟩
      · exact Or.inr ⟨w', hw', rfl, rfl⟩

/-- A word up to a quote is all that is left of the string. -/
theorem Escaping.word_quote {w key rest more : List UInt8} (h : Escaping w)
    (hkey : ∀ x ∈ key, Letter x) (hsplit : w ++ 34 :: rest = key ++ 34 :: more) :
    w = key ∧ more = rest := by
  induction h generalizing key with
  | nil =>
    cases key with
    | nil => exact ⟨rfl, (List.cons.inj hsplit).2.symm⟩
    | cons y key =>
      have hy := hkey y (List.mem_cons_self ..)
      rw [← (List.cons.inj hsplit).1] at hy
      exact absurd hy (by decide)
  | plain quote _ _ ih =>
    cases key with
    | nil => exact absurd (List.cons.inj hsplit).1 quote
    | cons y key =>
      obtain ⟨rfl, htail⟩ := List.cons.inj hsplit
      obtain ⟨rfl, rfl⟩ := ih (fun y hy => hkey y (List.mem_cons_of_mem _ hy)) htail
      exact ⟨rfl, rfl⟩
  | escape _ _ =>
    cases key with
    | nil => exact absurd (List.cons.inj hsplit).1 (by decide)
    | cons y key =>
      have hy := hkey y (List.mem_cons_self ..)
      rw [← (List.cons.inj hsplit).1] at hy
      exact absurd hy (by decide)

section
variable {lead : UInt8 → Prop} {key : List UInt8}

/-- What is taken for a member where a string is: the string ends with the quoted key. -/
theorem tagged_string {cps : List Nat} {k rest p t : List UInt8} (hkey : Word key)
    (h : StringText cps k) (hrest : ∀ x ∈ rest.head?, ¬Letter x) (heq : k ++ rest = p ++ t)
    (hlt : p.length < k.length) (htagged : Tagged lead key t) :
    k = p ++ quote key ∧ ∃ b c x more, rest = b ++ 58 :: (c ++ x :: more) ∧ Blank b ∧ Blank c ∧
      space x = false ∧ lead x := by
  obtain ⟨b, c, x, more, rfl, hb, hc, hx, hlead⟩ := htagged
  cases h with
  | @quoted w characters =>
  have hw := escaping_characters characters
  rw [tagged] at heq
  cases p with
  | nil =>
    have hinner : w ++ 34 :: rest = key ++ 34 :: (b ++ 58 :: (c ++ x :: more)) := by
      simpa only [List.cons_append, List.append_assoc, List.nil_append, List.cons.injEq, true_and]
        using heq
    obtain ⟨rfl, rfl⟩ := hw.word_quote hkey.letters hinner
    exact ⟨rfl, b, c, x, more, rfl, hb, hc, hx, hlead⟩
  | cons y p =>
    have hinner : w ++ 34 :: rest = p ++ 34 :: (key ++ 34 :: (b ++ 58 :: (c ++ x :: more))) := by
      simp only [List.cons_append, List.append_assoc, List.nil_append] at heq
      exact (List.cons.inj heq).2
    obtain ⟨rfl, -⟩ := List.cons.inj heq
    have hle : p.length ≤ w.length := by
      simp only [List.length_cons, List.length_append, List.length_nil] at hlt
      omega
    obtain ⟨-, hrest'⟩ | ⟨w', hw', rfl, hbehind⟩ := hw.quote_at hinner hle
    · obtain ⟨z, key, rfl⟩ := List.exists_cons_of_ne_nil hkey.nonempty
      refine absurd (hkey.letters z (List.mem_cons_self ..)) (hrest z ?_)
      rw [← hrest']
      rfl
    · obtain ⟨rfl, rfl⟩ := hw'.word_quote hkey.letters hbehind.symm
      refine ⟨?_, b, c, x, more, rfl, hb, hc, hx, hlead⟩
      simp only [quote, List.cons_append, List.append_assoc]

/-! ## The rest of a text -/

/-- What stands behind a value: nothing that goes on with it. -/
structure Shut (rest : List UInt8) : Prop where
  head : ∀ x ∈ rest.head?, ¬Letter x
  colon : (skipWs rest).head? ≠ some 58

theorem not_letter_space {x : UInt8} (h : space x = true) : ¬Letter x := by
  unfold space at h
  simp only [Bool.or_eq_true, beq_iff_eq] at h
  rcases h with ((rfl | rfl) | rfl) | rfl <;> decide

theorem head_blank {d rest : List UInt8} (hd : Blank d) (h : ∀ x ∈ rest.head?, ¬Letter x) :
    ∀ x ∈ (d ++ rest).head?, ¬Letter x := by
  cases d with
  | nil => exact h
  | cons y d =>
    intro x hx
    obtain rfl := Option.some.inj hx
    exact not_letter_space (hd y (List.mem_cons_self ..))

theorem Shut.blank {d rest : List UInt8} (h : Shut rest) (hd : Blank d) : Shut (d ++ rest) :=
  ⟨head_blank hd h.head, by rw [skipWs_blank hd]; exact h.colon⟩

theorem shut_sign {x : UInt8} (hx : x = 44 ∨ x = 93 ∨ x = 125) (rest : List UInt8) :
    Shut (x :: rest) := by
  refine ⟨fun y hy => ?_, ?_⟩
  · obtain rfl := Option.some.inj hy
    rcases hx with rfl | rfl | rfl <;> decide
  · rcases hx with rfl | rfl | rfl <;>
    · rw [skipWs_cons (by decide)]
      exact fun hno => absurd (Option.some.inj hno) (by decide)

/-- Whatever is taken for a member where `w` is, behind `q` and before `rest`, is the name of one. -/
def Covers (lead : UInt8 → Prop) (key q w rest : List UInt8) : Prop :=
  ∀ p t, w ++ rest = p ++ t → p.length < w.length → Tagged lead key t →
    NamedAt lead key (q ++ (w ++ rest)) (q ++ p)

theorem Covers.append {q v w rest : List UInt8} (hv : Covers lead key q v (w ++ rest))
    (hw : Covers lead key (q ++ v) w rest) : Covers lead key q (v ++ w) rest := by
  intro p t hsplit hlt htagged
  rw [List.append_assoc] at hsplit ⊢
  rcases Nat.lt_or_ge p.length v.length with hin | hout
  · exact hv p t hsplit hin htagged
  · obtain ⟨p', rfl⟩ : ∃ p', p = v ++ p' := by
      obtain ⟨u, rfl, -⟩ | ⟨u, rfl, -⟩ := List.append_eq_append_iff.mp hsplit
      · exact ⟨u, rfl⟩
      · rw [List.length_append] at hout
        obtain rfl := List.length_eq_zero_iff.mp (show u.length = 0 by omega)
        exact ⟨[], by rw [List.append_nil, List.append_nil]⟩
    rw [List.append_assoc] at hsplit
    rw [List.length_append, List.length_append] at hlt
    have hnamed := hw p' t (List.append_cancel_left hsplit) (by omega) htagged
    simpa only [List.append_assoc] using hnamed

/-- Nothing begins where no quote is. -/
theorem covers_quiet {q w rest : List UInt8} (h : ∀ x ∈ w, x ≠ 34) : Covers lead key q w rest := by
  rintro p t hsplit hlt ⟨b, c, x, more, rfl, -⟩
  obtain ⟨u, rfl, -⟩ | ⟨u, rfl, hu⟩ := List.append_eq_append_iff.mp hsplit
  · rw [List.length_append] at hlt
    omega
  · cases u with
    | nil =>
      rw [List.append_nil] at hlt
      exact absurd hlt (Nat.lt_irrefl _)
    | cons y u =>
      have hy := h y (List.mem_append_right _ (List.mem_cons_self ..))
      exact absurd (List.cons.inj hu).1.symm hy

theorem covers_blank {q a rest : List UInt8} (ha : Blank a) : Covers lead key q a rest :=
  covers_quiet fun _ hx => (inert_space (ha _ hx)).2.1

theorem covers_sign {q rest : List UInt8} {x : UInt8} (hx : x ≠ 34) :
    Covers lead key q [x] rest :=
  covers_quiet fun y hy => by rw [List.mem_singleton.mp hy]; exact hx

theorem Covers.cons {q w rest : List UInt8} {x : UInt8} (hx : x ≠ 34)
    (h : Covers lead key (q ++ [x]) w rest) : Covers lead key q (x :: w) rest :=
  (covers_sign hx).append h

/-- A string value is not taken for a member, nor is what it holds. -/
theorem covers_string {q k rest : List UInt8} {cps : List Nat} (hkey : Word key)
    (h : StringText cps k) (hrest : Shut rest) : Covers lead key q k rest := by
  intro p t hsplit hlt htagged
  obtain ⟨-, b, c, x, more, rfl, hb, -⟩ := tagged_string hkey h hrest.head hsplit hlt htagged
  refine absurd ?_ hrest.colon
  rw [skipWs_blank hb, skipWs_cons (by decide)]
  rfl

/-- The name of a member may be taken, if it ends with the key. -/
theorem covers_name {q k b c w rest : List UInt8} {cps : List Nat} {v : Value} (hkey : Word key)
    (hq : Upto .name q) (hname : StringText cps k) (hcolon : Blank b) (hafter : Blank c)
    (hvalue : Derives (.value v) w) :
    Covers lead key q k (b ++ 58 :: (c ++ (w ++ rest))) := by
  intro p t hsplit hlt htagged
  have hhead : ∀ x ∈ (b ++ 58 :: (c ++ (w ++ rest))).head?, ¬Letter x :=
    head_blank hcolon fun x hx => by
      obtain rfl := Option.some.inj hx
      decide
  obtain ⟨rfl, b', c', x, more, hbehind, hb', hc', hx, hlead⟩ :=
    tagged_string hkey hname hhead hsplit hlt htagged
  obtain ⟨z, w', rfl, hz, -⟩ := hvalue.head
  have hskip := congrArg skipWs hbehind
  rw [skipWs_blank hcolon, skipWs_blank hb', skipWs_cons (by decide), skipWs_cons (by decide)]
    at hskip
  have hvalues := congrArg skipWs (List.cons.inj hskip).2
  rw [skipWs_blank hafter, skipWs_blank hc', List.cons_append, skipWs_cons hz, skipWs_cons hx]
    at hvalues
  obtain ⟨rfl, -⟩ := List.cons.inj hvalues
  exact .mk (.mk hq hname hcolon hafter hvalue) rfl hlead

/-- Whatever is derived holds nothing that is taken but the names of members. -/
theorem covers_derives {ph : Phrase} {w : List UInt8} (hkey : Word key) (h : Derives ph w) :
    ∀ {q rest : List UInt8}, Upto ph.place q → Shut rest → Covers lead key q w rest := by
  induction h with
  | literal mem => exact fun _ _ => covers_quiet fun x hx => (inert_literal mem x hx).2.1
  | number number => exact fun _ _ => covers_quiet fun x hx => (inert_number number x hx).2.1
  | string string => exact fun _ hrest => covers_string hkey string hrest
  | emptyArray blank =>
    intro q rest hq hrest
    exact (covers_sign (by decide)).append ((covers_blank blank).append (covers_sign (by decide)))
  | array _ ih =>
    intro q rest hq hrest
    refine .cons (by decide) (.append ?_ (covers_sign (by decide)))
    exact ih (.array hq blank_nil) (shut_sign (by decide) _)
  | emptyObject blank =>
    intro q rest hq hrest
    exact .cons (by decide) ((covers_blank blank).append (covers_sign (by decide)))
  | object _ ih =>
    intro q rest hq hrest
    refine .cons (by decide) (.append ?_ (covers_sign (by decide)))
    exact ih (.object hq blank_nil) (shut_sign (by decide) _)
  | lastElement before _ behind ih =>
    intro q rest hq hrest
    refine (covers_blank before).append (.append ?_ (covers_blank behind))
    exact ih (.element (hq.blank_element before)) (hrest.blank behind)
  | element before value behind _ ih ihRest =>
    intro q rest hq hrest
    have hq' := hq.blank_element before
    refine (covers_blank before).append (.append (ih (.element hq') ?_)
      ((covers_blank behind).append (.cons (by decide) ?_)))
    · rw [List.append_assoc]
      exact (shut_sign (by decide) _).blank behind
    · have hnext := Upto.nextElement hq' value behind blank_nil
      simp only [List.append_assoc] at hnext ⊢
      exact ihRest hnext hrest
  | lastMember before name colon afterColon value behind ih =>
    intro q rest hq hrest
    have hq' := hq.blank_name before
    refine (covers_blank before).append (.append ?_ ((covers_blank colon).append
      (.cons (by decide) ((covers_blank afterColon).append
        (.append (ih ?_ (hrest.blank behind)) (covers_blank behind))))))
    · simp only [List.append_assoc, List.cons_append]
      exact covers_name hkey hq' name colon afterColon value
    · have hvalue := Upto.member hq' name colon afterColon
      simp only [List.append_assoc, List.cons_append, List.nil_append] at hvalue ⊢
      exact hvalue
  | member before name colon afterColon value behind _ ih ihRest =>
    intro q rest hq hrest
    have hq' := hq.blank_name before
    refine (covers_blank before).append (.append ?_ ((covers_blank colon).append
      (.cons (by decide) ((covers_blank afterColon).append (.append (ih ?_ ?_)
        ((covers_blank behind).append (.cons (by decide) ?_)))))))
    · simp only [List.append_assoc, List.cons_append]
      exact covers_name hkey hq' name colon afterColon value
    · have hvalue := Upto.member hq' name colon afterColon
      simp only [List.append_assoc, List.cons_append, List.nil_append] at hvalue ⊢
      exact hvalue
    · rw [List.append_assoc]
      exact (shut_sign (by decide) _).blank behind
    · have hnext := Upto.nextMember hq' name colon afterColon value behind blank_nil
      simp only [List.append_assoc, List.cons_append, List.nil_append] at hnext ⊢
      exact ihRest hnext hrest

/-- In a text that holds a value, the scanner takes for a member of this name what the name of a
member ends with, at any depth, and nothing else. -/
theorem tagged_iff {v : Value} {range p : List UInt8} (hkey : Word key) (h : Holds v range) :
    (∃ t, range = p ++ t ∧ Tagged lead key t) ↔ NamedAt lead key range p := by
  obtain ⟨a, w, d, rfl, ha, hvalue, hd⟩ := h
  constructor
  · rintro ⟨t, hsplit, htagged⟩
    have hshut : Shut (d ++ []) :=
      Shut.blank ⟨fun x hx => (by cases hx), fun hno => (by cases hno)⟩ hd
    have hcovers : Covers lead key [] (a ++ (w ++ d)) [] :=
      (covers_blank ha).append
        (.append (covers_derives hkey hvalue (.start ha) hshut) (covers_blank hd))
    have hlt : p.length < (a ++ (w ++ d)).length := by
      obtain ⟨b, c, x, more, rfl, -⟩ := htagged
      rw [hsplit, List.length_append, tagged, List.length_cons]
      omega
    have hnamed := hcovers p t (by rw [List.append_nil, hsplit]) hlt htagged
    rwa [List.append_nil] at hnamed
  · rintro ⟨hnested, hhead, hlead⟩
    generalize a ++ (w ++ d) = range at hnested ⊢
    generalize hk : (_ : List UInt8) ++ quote key = k at hnested
    cases hnested with
    | @mk p k b c u rest cps v hp hname hb hc hinner =>
    subst hk
    obtain ⟨y, u, rfl, hy, -⟩ := hinner.head
    obtain rfl := Option.some.inj hhead
    refine ⟨tagged key b c (y :: (u ++ rest)), ?_, b, c, y, _, rfl, hb, hc, hy, hlead⟩
    simp only [tagged, quote, List.append_assoc, List.cons_append, List.nil_append]

/-- Over the members: nothing before the member has a name that ends with the quoted key and a value
of the kind. -/
theorem lookup_iff {v : Value} {range value behind : List UInt8} (hkey : Word key)
    (h : Holds v range) :
    Lookup lead range key value behind ↔ ∃ before, MemberAt range before key value behind ∧
      (∃ x, value.head? = some x ∧ lead x) ∧
      ∀ p, p.length < before.length → ¬NamedAt lead key range p := by
  constructor
  · rintro ⟨before, hat, hhead, hclear⟩
    refine ⟨before, hat, hhead, fun p hlt hnamed => ?_⟩
    obtain ⟨t, hsplit, htagged⟩ := (tagged_iff hkey h).mpr hnamed
    exact hclear p t hsplit hlt htagged
  · rintro ⟨before, hat, hhead, hclear⟩
    exact ⟨before, hat, hhead, fun p t hsplit hlt htagged =>
      hclear p hlt ((tagged_iff hkey h).mp ⟨t, hsplit, htagged⟩)⟩

end

end Z80Sbc.Weather.Scanning
