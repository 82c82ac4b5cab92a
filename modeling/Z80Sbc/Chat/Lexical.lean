import Mathlib.Data.List.TakeWhile
import Z80Sbc.Chat.Json
import Z80Sbc.Data.JsonGrammar

/-! # The strings and numbers of the validator

`string` takes what the grammar calls a string and decodes it to its code points, and the
numbers go as far as the grammar lets them. -/

namespace Z80Sbc.Chat
open Z80Sbc.Data.JsonGrammar

/-! ## Characters -/

theorem mask_table : ∀ n < 256, (UInt8.ofNat n &&& 0x3F).toNat = n % 64 ∧
    (UInt8.ofNat n &&& 0x1F).toNat = n % 32 ∧ (UInt8.ofNat n &&& 0x0F).toNat = n % 16 ∧
    (UInt8.ofNat n &&& 7).toNat = n % 8 ∧
    (UInt8.ofNat n &&& 0xC0 = 0x80 ↔ 128 ≤ n ∧ n < 192) := by
  decide +kernel

theorem masks (b : UInt8) : (b &&& 0x3F).toNat = b.toNat % 64 ∧
    (b &&& 0x1F).toNat = b.toNat % 32 ∧ (b &&& 0x0F).toNat = b.toNat % 16 ∧
    (b &&& 7).toNat = b.toNat % 8 ∧ (b &&& 0xC0 = 0x80 ↔ 128 ≤ b.toNat ∧ b.toNat < 192) := by
  have h := mask_table b.toNat b.toNat_lt
  rwa [UInt8.ofNat_toNat] at h

theorem byte_eq {n : Nat} {b : UInt8} (h : n = b.toNat) : UInt8.ofNat n = b := by
  rw [h, UInt8.ofNat_toNat]

theorem toNat_byte {n : Nat} (h : n < 256) : (UInt8.ofNat n).toNat = n := by
  rw [UInt8.toNat_ofNat']
  exact Nat.mod_eq_of_lt h

theorem tail_toNat (n : Nat) : (tail n).toNat = 128 + n % 64 := toNat_byte (by omega)

theorem continuation_step {extra cp : Nat} {p : List UInt8} {r : Nat × List UInt8}
    (h : continuation (extra + 1) cp p = some r) :
    ∃ b rest, p = b :: rest ∧ (128 ≤ b.toNat ∧ b.toNat < 192) ∧
      continuation extra (cp * 64 + b.toNat % 64) rest = some r := by
  cases p with
  | nil => cases h
  | cons b rest =>
    rw [continuation] at h
    split at h
    · cases h
    next htail =>
      rw [ne_eq, not_not] at htail
      rw [(masks b).1] at h
      exact ⟨b, rest, rfl, (masks b).2.2.2.2.mp htail, h⟩

theorem continuation_tail (extra cp n : Nat) (p : List UInt8) :
    continuation (extra + 1) cp (tail n :: p) = continuation extra (cp * 64 + n % 64) p := by
  have htoNat := tail_toNat n
  rw [continuation, if_neg, (masks (tail n)).1, htoNat]
  · exact congrArg (fun k => continuation extra (cp * 64 + k) p) (by omega)
  · rw [ne_eq, not_not]
    exact (masks (tail n)).2.2.2.2.mpr ⟨by omega, by omega⟩

theorem scalar_some {minimum cp : Nat} {r : Option (Nat × List UInt8)} {p : List UInt8}
    (h : scalar minimum r = some (cp, p)) : r = some (cp, p) ∧ minimum ≤ cp ∧ Scalar cp := by
  unfold scalar at h
  split at h
  · cases h
  · split at h
    · cases h
    next hok =>
      cases h
      refine ⟨rfl, by omega, ?_⟩
      unfold Scalar
      omega

theorem scalar_of {minimum cp : Nat} {p : List UInt8} (hmin : minimum ≤ cp) (h : Scalar cp) :
    scalar minimum (some (cp, p)) = some (cp, p) := by
  unfold Scalar at h
  rw [scalar, if_neg (by omega)]

theorem multibyte_sound {c : UInt8} {p rest : List UInt8} {cp : Nat}
    (h : multibyte c p = some (cp, rest)) :
    c :: p = utf8 cp ++ rest ∧ 128 ≤ cp ∧ Scalar cp := by
  obtain ⟨-, h5, h4, h3, -⟩ := masks c
  unfold multibyte at h
  split at h
  next hc =>
    have hlow : 194 ≤ c.toNat := UInt8.le_iff_toNat_le.mp hc.1
    have hhigh : c.toNat ≤ 223 := UInt8.le_iff_toNat_le.mp hc.2
    obtain ⟨hr, hmin, hscalar⟩ := scalar_some h
    obtain ⟨x, p, rfl, hx, hr⟩ := continuation_step hr
    rw [h5] at hr
    obtain ⟨rfl, rfl⟩ := Prod.mk.inj (Option.some.inj hr)
    refine ⟨?_, hmin, hscalar⟩
    rw [utf8, if_neg (by omega), if_pos (by omega), tail, @byte_eq _ c (by omega),
      @byte_eq _ x (by omega)]
    rfl
  split at h
  next hc =>
    have hlow : 224 ≤ c.toNat := UInt8.le_iff_toNat_le.mp hc.1
    have hhigh : c.toNat ≤ 239 := UInt8.le_iff_toNat_le.mp hc.2
    obtain ⟨hr, hmin, hscalar⟩ := scalar_some h
    obtain ⟨x, p, rfl, hx, hr⟩ := continuation_step hr
    obtain ⟨y, p, rfl, hy, hr⟩ := continuation_step hr
    rw [h4] at hr
    obtain ⟨rfl, rfl⟩ := Prod.mk.inj (Option.some.inj hr)
    refine ⟨?_, by omega, hscalar⟩
    rw [utf8, if_neg (by omega), if_neg (by omega), if_pos (by omega), tail, tail,
      @byte_eq _ c (by omega), @byte_eq _ x (by omega), @byte_eq _ y (by omega)]
    rfl
  split at h
  next hc =>
    have hlow : 240 ≤ c.toNat := UInt8.le_iff_toNat_le.mp hc.1
    have hhigh : c.toNat ≤ 244 := UInt8.le_iff_toNat_le.mp hc.2
    obtain ⟨hr, hmin, hscalar⟩ := scalar_some h
    obtain ⟨x, p, rfl, hx, hr⟩ := continuation_step hr
    obtain ⟨y, p, rfl, hy, hr⟩ := continuation_step hr
    obtain ⟨z, p, rfl, hz, hr⟩ := continuation_step hr
    rw [h3] at hr
    obtain ⟨rfl, rfl⟩ := Prod.mk.inj (Option.some.inj hr)
    refine ⟨?_, by omega, hscalar⟩
    rw [utf8, if_neg (by omega), if_neg (by omega), if_neg (by omega), tail, tail, tail,
      @byte_eq _ c (by omega), @byte_eq _ x (by omega), @byte_eq _ y (by omega),
      @byte_eq _ z (by omega)]
    rfl
  · cases h

theorem multibyte_complete {cp : Nat} (h128 : 128 ≤ cp) (hscalar : Scalar cp) (p : List UInt8) :
    ∃ c w, utf8 cp = c :: w ∧ 128 ≤ c ∧ multibyte c (w ++ p) = some (cp, p) := by
  have hmax : cp ≤ 0x10FFFF := by
    unfold Scalar at hscalar
    omega
  have hfirst {n : Nat} (hn : 128 ≤ n) (hlt : n < 256) (a b : UInt8) :
      ((a ≤ UInt8.ofNat n ∧ UInt8.ofNat n ≤ b) ↔ a.toNat ≤ n ∧ n ≤ b.toNat) ∧
        128 ≤ UInt8.ofNat n := by
    rw [UInt8.le_iff_toNat_le, UInt8.le_iff_toNat_le, UInt8.le_iff_toNat_le, toNat_byte hlt]
    exact ⟨Iff.rfl, hn⟩
  unfold utf8
  rw [if_neg (by omega)]
  split
  next hlt =>
    have hn : 192 + cp / 64 < 256 := by omega
    refine ⟨_, _, rfl, (hfirst (by omega) hn 0 0).2, ?_⟩
    rw [multibyte, if_pos ((hfirst (by omega) hn 0xC2 0xDF).1.mpr ⟨?_, ?_⟩), (masks _).2.1,
      toNat_byte hn]
    · show scalar 0x80 (continuation 1 _ (tail cp :: p)) = _
      rw [continuation_tail, continuation]
      have hcp : (192 + cp / 64) % 32 * 64 + cp % 64 = cp := by omega
      rw [hcp]
      exact scalar_of h128 hscalar
    · show 194 ≤ _
      omega
    · show _ ≤ 223
      omega
  split
  next hge hlt =>
    have hn : 224 + cp / 4096 < 256 := by omega
    refine ⟨_, _, rfl, (hfirst (by omega) hn 0 0).2, ?_⟩
    rw [multibyte, if_neg, if_pos ((hfirst (by omega) hn 0xE0 0xEF).1.mpr ⟨?_, ?_⟩),
      (masks _).2.2.1, toNat_byte hn]
    · show scalar 0x800 (continuation 2 _ (tail (cp / 64) :: tail cp :: p)) = _
      rw [continuation_tail, continuation_tail, continuation]
      have hcp : ((224 + cp / 4096) % 16 * 64 + cp / 64 % 64) * 64 + cp % 64 = cp := by omega
      rw [hcp]
      exact scalar_of (by omega) hscalar
    · show 224 ≤ _
      omega
    · show _ ≤ 239
      omega
    · rw [(hfirst (by omega) hn 0xC2 0xDF).1]
      show ¬(194 ≤ _ ∧ _ ≤ 223)
      omega
  next hge hge' =>
    have hn : 240 + cp / 262144 < 256 := by omega
    refine ⟨_, _, rfl, (hfirst (by omega) hn 0 0).2, ?_⟩
    rw [multibyte, if_neg, if_neg, if_pos ((hfirst (by omega) hn 0xF0 0xF4).1.mpr ⟨?_, ?_⟩),
      (masks _).2.2.2.1, toNat_byte hn]
    · show scalar 0x10000 (continuation 3 _ (tail (cp / 4096) :: tail (cp / 64) :: tail cp :: p)) = _
      rw [continuation_tail, continuation_tail, continuation_tail, continuation]
      have hcp : (((240 + cp / 262144) % 8 * 64 + cp / 4096 % 64) * 64 + cp / 64 % 64) * 64 +
          cp % 64 = cp := by omega
      rw [hcp]
      exact scalar_of (by omega) hscalar
    · show 240 ≤ _
      omega
    · show _ ≤ 244
      omega
    · rw [(hfirst (by omega) hn 0xE0 0xEF).1]
      show ¬(224 ≤ _ ∧ _ ≤ 239)
      omega
    · rw [(hfirst (by omega) hn 0xC2 0xDF).1]
      show ¬(194 ≤ _ ∧ _ ≤ 223)
      omega

/-! ## Escapes -/

theorem hex_eq (c : UInt8) : hex c = hexDigit c := rfl

theorem unicodeEscape_iff {p rest : List UInt8} {cp : Nat} :
    unicodeEscape p = some (cp, rest) ↔ ∃ w, FourHex cp w ∧ p = w ++ rest := by
  constructor
  · intro h
    unfold unicodeEscape at h
    split at h
    next a b c d q =>
      simp only [Option.bind_eq_bind, Option.bind_eq_some_iff, Option.some.injEq,
        Prod.mk.injEq] at h
      obtain ⟨w, ha, x, hb, y, hc, z, hd, rfl, rfl⟩ := h
      exact ⟨[a, b, c, d], .mk ha hb hc hd, rfl⟩
    · cases h
  · rintro ⟨w, hw, rfl⟩
    cases hw with
    | mk ha hb hc hd =>
      simp only [unicodeEscape, List.cons_append, List.nil_append, hex_eq, ha, hb, hc, hd]
      rfl

theorem fourHex_bound {cp : Nat} {w : List UInt8} (h : FourHex cp w) : cp ≤ 0xFFFF := by
  have hdigit {c : UInt8} {n : Nat} (hc : hexDigit c = some n) : n < 16 := by
    unfold hexDigit at hc
    split at hc
    next hrange =>
      cases hc
      have hle : c.toNat ≤ 57 := UInt8.le_iff_toNat_le.mp hrange.2
      omega
    split at hc
    next hrange =>
      cases hc
      have hle : c.toNat ≤ 102 := UInt8.le_iff_toNat_le.mp hrange.2
      omega
    split at hc
    next hrange =>
      cases hc
      have hle : c.toNat ≤ 70 := UInt8.le_iff_toNat_le.mp hrange.2
      omega
    · cases hc
  cases h with
  | mk ha hb hc hd =>
    have hw := hdigit ha
    have hx := hdigit hb
    have hy := hdigit hc
    have hz := hdigit hd
    omega

theorem expect_some {c : UInt8} {p rest : List UInt8} (h : expect c p = some rest) :
    p = c :: rest := by
  cases p with
  | nil => cases h
  | cons b p =>
    rw [expect] at h
    split at h
    next hb =>
      cases h
      rw [hb]
    · cases h

theorem expect_cons (c : UInt8) (p : List UInt8) : expect c (c :: p) = some p := if_pos rfl

theorem surrogates_sound {p rest : List UInt8} {cp : Nat} (h : surrogates p = some (cp, rest)) :
    ∃ w, 92 :: 117 :: p = w ++ rest ∧ Character cp w := by
  unfold surrogates at h
  obtain ⟨⟨high, q⟩, hhigh, hbehind⟩ := Option.bind_eq_some_iff.mp h
  clear h
  obtain ⟨a, ha, rfl⟩ := unicodeEscape_iff.mp hhigh
  dsimp only at hbehind
  split at hbehind
  next hrange =>
    obtain ⟨q1, h1, hnext⟩ := Option.bind_eq_some_iff.mp hbehind
    obtain ⟨q2, h2, hnext⟩ := Option.bind_eq_some_iff.mp hnext
    obtain ⟨⟨low, q3⟩, hlow, hlast⟩ := Option.bind_eq_some_iff.mp hnext
    clear hbehind
    obtain ⟨b, hb, rfl⟩ := unicodeEscape_iff.mp hlow
    obtain rfl := expect_some h2
    obtain rfl := expect_some h1
    dsimp only at hlast
    split at hlast
    · cases hlast
    next hlowRange =>
      obtain ⟨rfl, rfl⟩ := Prod.mk.inj (Option.some.inj hlast)
      refine ⟨92 :: 117 :: a ++ 92 :: 117 :: b, ?_, ?_⟩
      · simp only [List.cons_append, List.append_assoc]
      · rw [show 0x10000 + (high - 0xD800) * 1024 + low - 0xDC00 =
          0x10000 + (high - 0xD800) * 1024 + (low - 0xDC00) by omega]
        exact .pair ha hb hrange (by omega)
  next hhighRange =>
  split at hbehind
  · cases hbehind
  next hlowRange =>
    cases hbehind
    have hbound := fourHex_bound ha
    refine ⟨92 :: 117 :: a, by simp only [List.cons_append], .unicode ha ?_⟩
    unfold Scalar
    omega

theorem simpleEscape_iff {c : UInt8} {cp : Nat} :
    simpleEscape c = some cp ↔ (c, cp) ∈ escapes := by
  unfold simpleEscape escapes
  simp only [List.mem_cons, Prod.mk.injEq, List.not_mem_nil, or_false]
  constructor
  · intro h
    split_ifs at h with h1 h2 h3 h4 h5 h6 h7 h8 <;> cases h <;> simp_all
  · rintro (⟨rfl, rfl⟩ | ⟨rfl, rfl⟩ | ⟨rfl, rfl⟩ | ⟨rfl, rfl⟩ | ⟨rfl, rfl⟩ | ⟨rfl, rfl⟩ |
      ⟨rfl, rfl⟩ | ⟨rfl, rfl⟩) <;> rfl

theorem escape_sound {p rest : List UInt8} {cp : Nat} (h : escape p = some (cp, rest)) :
    ∃ w, 92 :: p = w ++ rest ∧ Character cp w := by
  cases p with
  | nil => cases h
  | cons c p =>
    rw [escape] at h
    split at h
    next hc =>
      subst hc
      exact surrogates_sound h
    · obtain ⟨n, hn, heq⟩ := Option.map_eq_some_iff.mp h
      cases heq
      exact ⟨[92, c], rfl, .escaped (simpleEscape_iff.mp hn)⟩

theorem character_sound {c : UInt8} {p rest : List UInt8} {cp : Nat} (hquote : c ≠ 34)
    (h : character c p = some (cp, rest)) : ∃ w, c :: p = w ++ rest ∧ Character cp w := by
  unfold character at h
  split at h
  · cases h
  next hcontrol =>
  split at h
  next hbackslash =>
    subst hbackslash
    exact escape_sound h
  next hbackslash =>
  split at h
  next hhigh =>
    obtain ⟨htext, h128, hscalar⟩ := multibyte_sound h
    exact ⟨_, htext, .unescaped (by omega) (by omega) (by omega) hscalar⟩
  next hlow =>
    cases h
    have hle : 32 ≤ c.toNat := UInt8.le_iff_toNat_le.mp (UInt8.not_lt.mp hcontrol)
    have hlt : c.toNat < 128 := UInt8.lt_iff_toNat_lt.mp (UInt8.not_le.mp hlow)
    have hutf8 : utf8 c.toNat = [c] := by rw [utf8, if_pos hlt, UInt8.ofNat_toNat]
    refine ⟨utf8 c.toNat, by rw [hutf8]; rfl, .unescaped hle ?_ ?_ (Or.inl (by omega))⟩
    · exact fun hq => hquote (UInt8.toNat_inj.mp hq)
    · exact fun hb => hbackslash (UInt8.toNat_inj.mp hb)

theorem character_complete {cp : Nat} {w : List UInt8} (h : Character cp w) (p : List UInt8) :
    ∃ c w', w = c :: w' ∧ c ≠ 34 ∧ character c (w' ++ p) = some (cp, p) := by
  cases h with
  | unescaped hcontrol hquote hbackslash hscalar =>
    by_cases hlt : cp < 128
    · have hnat : (UInt8.ofNat cp).toNat = cp := toNat_byte (by omega)
      refine ⟨UInt8.ofNat cp, [], by rw [utf8, if_pos hlt], fun hq => hquote ?_, ?_⟩
      · rw [← hnat, hq]
        rfl
      · rw [character, if_neg, if_neg, if_neg, hnat]
        · rfl
        · rw [UInt8.le_iff_toNat_le, hnat]
          exact Nat.not_le_of_lt hlt
        · intro hb
          refine hbackslash ?_
          rw [← hnat, hb]
          rfl
        · rw [UInt8.lt_iff_toNat_lt, hnat]
          exact Nat.not_lt_of_le hcontrol
    · obtain ⟨c, w', hw, hc, hmultibyte⟩ := multibyte_complete (Nat.le_of_not_lt hlt) hscalar p
      have hle : 128 ≤ c.toNat := UInt8.le_iff_toNat_le.mp hc
      refine ⟨c, w', hw, ?_, ?_⟩
      · rintro rfl
        exact absurd hle (by decide)
      · rw [character, if_neg, if_neg, if_pos hc, hmultibyte]
        · rintro rfl
          exact absurd hle (by decide)
        · rw [UInt8.lt_iff_toNat_lt]
          show ¬c.toNat < 32
          omega
  | @escaped c cp hmem =>
    refine ⟨92, [c], rfl, by decide, ?_⟩
    show escape (c :: p) = _
    have hc : ¬c = 117 := by
      rintro rfl
      exact absurd (simpleEscape_iff.mpr hmem) (by simp [simpleEscape])
    rw [escape, if_neg hc, simpleEscape_iff.mpr hmem]
    rfl
  | @unicode cp digits hex hscalar =>
    refine ⟨92, 117 :: digits, rfl, by decide, ?_⟩
    show surrogates (digits ++ p) = _
    rw [surrogates, unicodeEscape_iff.mpr ⟨digits, hex, rfl⟩]
    unfold Scalar at hscalar
    show (if _ then _ else _) = _
    rw [if_neg (by omega), if_neg (by omega)]
  | @pair high low a b hexHigh hexLow isHigh isLow =>
    refine ⟨92, 117 :: a ++ 92 :: 117 :: b, rfl, by decide, ?_⟩
    show surrogates (a ++ 92 :: 117 :: b ++ p) = _
    rw [List.append_assoc, surrogates, unicodeEscape_iff.mpr ⟨a, hexHigh, rfl⟩]
    show (if _ then _ else _) = _
    rw [if_pos isHigh]
    show (unicodeEscape (b ++ p)).bind _ = _
    rw [unicodeEscape_iff.mpr ⟨b, hexLow, rfl⟩]
    show (if _ then _ else _) = _
    rw [if_neg (by omega), show 0x10000 + (high - 0xD800) * 1024 + low - 0xDC00 =
      0x10000 + (high - 0xD800) * 1024 + (low - 0xDC00) by omega]

/-! ## Strings -/

theorem characters_sound {n : Nat} {p rest : List UInt8} {cps : List Nat}
    (h : characters n p = some (cps, rest)) :
    ∃ w, p = w ++ 34 :: rest ∧ Characters cps w := by
  induction n generalizing p cps with
  | zero => cases h
  | succ n ih =>
    cases p with
    | nil => cases h
    | cons c p =>
      rw [characters] at h
      split at h
      next hquote =>
        cases h
        exact ⟨[], by rw [hquote]; rfl, .nil⟩
      next hquote =>
      obtain ⟨⟨cp, q⟩, hchar, hbehind⟩ := Option.bind_eq_some_iff.mp h
      obtain ⟨⟨more, q'⟩, hmore, hout⟩ := Option.bind_eq_some_iff.mp hbehind
      cases hout
      obtain ⟨first, htext, hfirst⟩ := character_sound hquote hchar
      obtain ⟨w, rfl, hw⟩ := ih hmore
      exact ⟨first ++ w, by rw [htext, List.append_assoc], .cons hfirst hw⟩

theorem characters_complete {cps : List Nat} {w : List UInt8} (h : Characters cps w) {n : Nat}
    (hn : w.length < n) (rest : List UInt8) :
    characters n (w ++ 34 :: rest) = some (cps, rest) := by
  induction h generalizing n with
  | nil =>
    obtain ⟨n, rfl⟩ := Nat.exists_eq_succ_of_ne_zero (Nat.ne_of_gt hn)
    rfl
  | @cons cp cps first w hfirst _ ih =>
    obtain ⟨n, rfl⟩ := Nat.exists_eq_succ_of_ne_zero (Nat.ne_of_gt (Nat.zero_lt_of_lt hn))
    obtain ⟨c, w', rfl, hquote, hchar⟩ := character_complete hfirst (w ++ 34 :: rest)
    have hshort : w.length < n := by
      rw [List.length_append, List.length_cons] at hn
      omega
    rw [List.append_assoc, List.cons_append, characters, if_neg hquote, hchar]
    show (characters n (w ++ 34 :: rest)).bind _ = _
    rw [ih hshort]
    rfl

theorem string_iff {p rest : List UInt8} {cps : List Nat} :
    string p = some (cps, rest) ↔ ∃ w, StringText cps w ∧ p = w ++ rest := by
  constructor
  · intro h
    obtain ⟨q, hq, hcharacters⟩ := Option.bind_eq_some_iff.mp h
    obtain ⟨w, rfl, hw⟩ := characters_sound hcharacters
    obtain rfl := expect_some hq
    exact ⟨_, .quoted hw, by simp⟩
  · rintro ⟨_, ⟨hw⟩, rfl⟩
    unfold string
    rw [List.append_assoc, List.cons_append, expect_cons]
    show characters _ _ = _
    refine characters_complete hw ?_ rest
    simp only [List.length_append, List.length_cons, List.length_nil]
    omega

/-! ## Numbers -/

/-- Nothing that would go on with a number. -/
def Stops (rest : List UInt8) : Prop :=
  ∀ c ∈ rest.head?, digit c = false ∧ c ≠ 46 ∧ c ≠ 101 ∧ c ≠ 69

theorem someDigits_sound {p rest : List UInt8} (h : someDigits p = some rest) :
    ∃ w, Digits w ∧ p = w ++ rest := by
  unfold someDigits at h
  split at h
  next hfirst =>
    cases h
    refine ⟨p.takeWhile isDigit, ⟨?_, fun c hc => List.mem_takeWhile_imp hc⟩,
      (List.takeWhile_append_dropWhile ..).symm⟩
    cases p with
    | nil => cases hfirst
    | cons c p =>
      have hc : isDigit c = true := hfirst
      rw [List.takeWhile_cons_of_pos hc]
      exact List.cons_ne_nil _ _
  · cases h

theorem someDigits_complete {w rest : List UInt8} (h : Digits w)
    (hrest : ∀ c ∈ rest.head?, digit c = false) : someDigits (w ++ rest) = some rest := by
  have hdrop : rest.dropWhile isDigit = rest := by
    cases rest with
    | nil => rfl
    | cons c rest =>
      have hc : isDigit c = false := hrest c rfl
      rw [List.dropWhile_cons_of_neg (by rw [hc]; exact Bool.false_ne_true)]
  have hfirst : (w ++ rest).head?.any isDigit = true := by
    obtain ⟨c, w', rfl⟩ := List.exists_cons_of_ne_nil h.nonempty
    exact h.digits c (List.mem_cons_self ..)
  have hdigits : ∀ c ∈ w, isDigit c = true := h.digits
  rw [someDigits, if_pos hfirst, List.dropWhile_append_of_pos hdigits, hdrop]

theorem integer_sound {p rest : List UInt8} (h : integer p = some rest) :
    ∃ w, Integer w ∧ p = w ++ rest := by
  cases p with
  | nil => cases h
  | cons c p =>
    rw [integer] at h
    split at h
    next hzero =>
      cases h
      exact ⟨[48], .zero, by rw [hzero]; rfl⟩
    next hzero =>
      obtain ⟨w, hw, hp⟩ := someDigits_sound h
      obtain ⟨d, w, rfl⟩ := List.exists_cons_of_ne_nil hw.nonempty
      obtain ⟨rfl, -⟩ := List.cons.inj hp
      exact ⟨c :: w, .digits hzero hw, hp⟩

theorem integer_complete {w rest : List UInt8} (h : Integer w)
    (hrest : ∀ c ∈ rest.head?, digit c = false) : integer (w ++ rest) = some rest := by
  cases h with
  | zero => rfl
  | digits hzero hdigits =>
    rw [List.cons_append, integer, if_neg hzero, ← List.cons_append]
    exact someDigits_complete hdigits hrest

theorem fraction_sound {p rest : List UInt8} (h : fraction p = some rest) :
    ∃ w, Fraction w ∧ p = w ++ rest := by
  cases p with
  | nil =>
    cases h
    exact ⟨[], .none, rfl⟩
  | cons c p =>
    rw [fraction] at h
    split at h
    next hpoint =>
      obtain ⟨w, hw, rfl⟩ := someDigits_sound h
      exact ⟨46 :: w, .digits hw, by rw [hpoint]; rfl⟩
    · cases h
      exact ⟨[], .none, rfl⟩

theorem fraction_complete {w rest : List UInt8} (h : Fraction w)
    (hrest : ∀ c ∈ rest.head?, digit c = false ∧ c ≠ 46) : fraction (w ++ rest) = some rest := by
  cases h with
  | none =>
    cases rest with
    | nil => rfl
    | cons c rest => exact if_neg (hrest c rfl).2
  | digits hdigits =>
    rw [List.cons_append, fraction, if_pos rfl]
    exact someDigits_complete hdigits fun c hc => (hrest c hc).1

theorem exponent_sound {p rest : List UInt8} (h : exponent p = some rest) :
    ∃ w, Exponent w ∧ p = w ++ rest := by
  cases p with
  | nil =>
    cases h
    exact ⟨[], .none, rfl⟩
  | cons c p =>
    unfold exponent at h
    dsimp only at h
    split at h
    next hletter =>
      cases p with
      | nil => cases h
      | cons sign p =>
        dsimp only at h
        split at h
        next hsign =>
          obtain ⟨w, hw, rfl⟩ := someDigits_sound h
          exact ⟨c :: sign :: w, .signed hletter hsign hw, rfl⟩
        · obtain ⟨w, hw, hp⟩ := someDigits_sound h
          exact ⟨c :: w, .digits hletter hw, by rw [hp]; rfl⟩
    · cases h
      exact ⟨[], .none, rfl⟩

theorem exponent_complete {w rest : List UInt8} (h : Exponent w) (hrest : Stops rest) :
    exponent (w ++ rest) = some rest := by
  have hdigit (c : UInt8) (hc : c ∈ rest.head?) : digit c = false := (hrest c hc).1
  cases h with
  | none =>
    cases rest with
    | nil => rfl
    | cons c rest =>
      have hc := (hrest c rfl).2.2
      exact if_neg (not_or.mpr hc)
  | @digits c w hletter hdigits =>
    obtain ⟨d, w, rfl⟩ := List.exists_cons_of_ne_nil hdigits.nonempty
    have hd := hdigits.digits d (List.mem_cons_self ..)
    rw [List.cons_append, List.cons_append, exponent, if_pos hletter, if_neg, ← List.cons_append]
    · exact someDigits_complete hdigits hdigit
    · rintro (rfl | rfl)
      · exact absurd hd (by decide)
      · exact absurd hd (by decide)
  | signed hletter hsign hdigits =>
    rw [List.cons_append, List.cons_append, exponent, if_pos hletter, if_pos hsign]
    exact someDigits_complete hdigits hdigit

theorem number_sound {p rest : List UInt8} (h : number p = some rest) :
    ∃ w, Number w ∧ p = w ++ rest := by
  obtain ⟨q1, hinteger, hbehind⟩ := Option.bind_eq_some_iff.mp h
  obtain ⟨q2, hfraction, hexponent⟩ := Option.bind_eq_some_iff.mp hbehind
  obtain ⟨i, hi, hp⟩ := integer_sound hinteger
  obtain ⟨f, hf, rfl⟩ := fraction_sound hfraction
  obtain ⟨e, he, rfl⟩ := exponent_sound hexponent
  split at hp
  next hminus =>
    refine ⟨45 :: (i ++ (f ++ e)), .negative hi hf he, ?_⟩
    cases p with
    | nil => cases hminus
    | cons c p =>
      cases hminus
      rw [List.drop_one, List.tail_cons] at hp
      rw [hp]
      simp only [List.cons_append, List.append_assoc]
  · exact ⟨i ++ (f ++ e), .positive hi hf he, by rw [hp]; simp only [List.append_assoc]⟩

theorem integer_head {w : List UInt8} (h : Integer w) :
    ∃ c w', w = c :: w' ∧ digit c = true := by
  cases h with
  | zero => exact ⟨48, [], rfl, by decide⟩
  | digits _ hdigits => exact ⟨_, _, rfl, hdigits.digits _ (List.mem_cons_self ..)⟩

/-- A number begins with a digit or with a minus. -/
theorem number_head {w : List UInt8} (h : Number w) :
    ∃ c w', w = c :: w' ∧ (digit c = true ∨ c = 45) := by
  cases h with
  | positive hi _ _ =>
    obtain ⟨c, w', rfl, hc⟩ := integer_head hi
    exact ⟨c, _, rfl, Or.inl hc⟩
  | negative _ _ _ => exact ⟨45, _, rfl, Or.inr rfl⟩

theorem number_complete {w rest : List UInt8} (h : Number w) (hrest : Stops rest) :
    number (w ++ rest) = some rest := by
  have htail {i f e : List UInt8} (hi : Integer i) (hf : Fraction f) (he : Exponent e) :
      ((integer (i ++ (f ++ (e ++ rest)))).bind fun p => (fraction p).bind exponent) =
        some rest := by
    have hexponent : ∀ c ∈ (e ++ rest).head?, digit c = false ∧ c ≠ 46 := by
      intro c hc
      cases he with
      | none => exact ⟨(hrest c hc).1, (hrest c hc).2.1⟩
      | digits hletter _ =>
        cases hc
        rcases hletter with rfl | rfl
        · decide
        · decide
      | signed hletter _ _ =>
        cases hc
        rcases hletter with rfl | rfl
        · decide
        · decide
    have hfraction : ∀ c ∈ (f ++ (e ++ rest)).head?, digit c = false := by
      intro c hc
      cases hf with
      | none => exact (hexponent c hc).1
      | digits _ =>
        cases hc
        decide
    rw [integer_complete hi hfraction, Option.bind_some, fraction_complete hf hexponent,
      Option.bind_some, exponent_complete he hrest]
  unfold number
  cases h with
  | positive hi hf he =>
    obtain ⟨c, w', hw, hc⟩ := integer_head hi
    rw [if_neg, List.append_assoc, List.append_assoc]
    · exact htail hi hf he
    · rw [hw]
      intro h45
      have hc45 : c = 45 := Option.some.inj h45
      rw [hc45] at hc
      exact absurd hc (by decide)
  | negative hi hf he =>
    rw [List.cons_append, List.head?_cons, if_pos rfl, List.drop_one, List.tail_cons,
      List.append_assoc, List.append_assoc]
    exact htail hi hf he

end Z80Sbc.Chat
