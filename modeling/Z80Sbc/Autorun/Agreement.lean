import Mathlib.Data.List.TakeDrop
import Z80Sbc.Autorun.Record

/-! # Writers and readers of the autorun record agree

What either program writes satisfies the checks of both readers, and the BIOS installs the command
that was written last. -/

namespace Z80Sbc.Autorun.Agreement
open Z80Sbc.Autorun
open Z80Sbc.Env (toupper)

/-! ## Sums -/

theorem foldl_add (bytes : List UInt8) (a : UInt8) :
    bytes.foldl (· + ·) a = a + bytes.foldl (· + ·) 0 := by
  induction bytes generalizing a with
  | nil => exact (UInt8.add_zero a).symm
  | cons c rest ih =>
    rw [List.foldl_cons, List.foldl_cons, ih, ih (0 + c), UInt8.zero_add, UInt8.add_assoc]

theorem sum_append (front rest : List UInt8) : sum (front ++ rest) = sum front + sum rest := by
  unfold sum
  rw [List.foldl_append, foldl_add]

theorem sum_singleton (c : UInt8) : sum [c] = c := UInt8.zero_add c

/-! ## Stores -/

theorem length_put {r bytes : List UInt8} {offset : Nat} (h : offset + bytes.length ≤ r.length) :
    (put r offset bytes).length = r.length := by
  unfold put
  rw [List.length_append, List.length_append, List.length_take, List.length_drop]
  omega

/-- A store, byte by byte. -/
theorem getElem?_put {r bytes : List UInt8} {offset : Nat} (h : offset + bytes.length ≤ r.length)
    (i : Nat) : (put r offset bytes)[i]? =
      if i < offset then r[i]?
      else if i < offset + bytes.length then bytes[i - offset]? else r[i]? := by
  have hlength : (r.take offset).length = offset := by
    rw [List.length_take]
    omega
  unfold put
  by_cases hfront : i < offset
  · rw [if_pos hfront, List.getElem?_append_left (by omega), List.getElem?_take_of_lt hfront]
  rw [if_neg hfront, List.getElem?_append_right (by omega), hlength]
  by_cases hinside : i < offset + bytes.length
  · rw [if_pos hinside, List.getElem?_append_left (by omega)]
  · rw [if_neg hinside, List.getElem?_append_right (by omega), List.getElem?_drop]
    congr 1
    omega

theorem getD_put_before {r bytes : List UInt8} {offset i : Nat}
    (h : offset + bytes.length ≤ r.length) (hi : i < offset) :
    (put r offset bytes).getD i 0 = r.getD i 0 := by
  rw [List.getD_eq_getElem?_getD, List.getD_eq_getElem?_getD, getElem?_put h, if_pos hi]

theorem getD_put_behind {r bytes : List UInt8} {offset i : Nat}
    (h : offset + bytes.length ≤ r.length) (hi : offset + bytes.length ≤ i) :
    (put r offset bytes).getD i 0 = r.getD i 0 := by
  rw [List.getD_eq_getElem?_getD, List.getD_eq_getElem?_getD, getElem?_put h, if_neg (by omega),
    if_neg (by omega)]

theorem getD_put_self {r : List UInt8} {offset : Nat} (c : UInt8) (h : offset + 1 ≤ r.length) :
    (put r offset [c]).getD offset 0 = c := by
  rw [List.getD_eq_getElem?_getD, getElem?_put h, if_neg (by omega),
    if_pos (by rw [List.length_singleton]; omega), Nat.sub_self]
  rfl

theorem take_put {r bytes : List UInt8} {offset n : Nat} (h : offset + bytes.length ≤ r.length)
    (hn : n ≤ offset) : (put r offset bytes).take n = r.take n := by
  refine List.ext_getElem? fun i => ?_
  rw [List.getElem?_take, List.getElem?_take, getElem?_put h]
  by_cases hi : i < n
  · rw [if_pos hi, if_pos hi, if_pos (by omega)]
  · rw [if_neg hi, if_neg hi]

/-- The bytes from 6 on. -/
def textOf (r : List UInt8) (n : Nat) : List UInt8 := (r.drop 6).take n

theorem textOf_put {r bytes : List UInt8} {offset n : Nat} (h : offset + bytes.length ≤ r.length)
    (hn : offset + bytes.length ≤ 6 ∨ 6 + n ≤ offset) :
    textOf (put r offset bytes) n = textOf r n := by
  unfold textOf
  refine List.ext_getElem? fun i => ?_
  rw [List.getElem?_take, List.getElem?_take, List.getElem?_drop, List.getElem?_drop, getElem?_put h]
  by_cases hi : i < n
  · rw [if_pos hi, if_pos hi]
    rcases hn with hn | hn
    · rw [if_neg (by omega), if_neg (by omega)]
    · rw [if_pos (by omega)]
  · rw [if_neg hi, if_neg hi]

theorem textOf_put_self {r text : List UInt8} (h : 6 + text.length ≤ r.length) :
    textOf (put r 6 text) text.length = text := by
  have hlength : (r.take 6).length = 6 := by
    rw [List.length_take]
    omega
  have hdrop : (put r 6 text).drop 6 = text ++ r.drop (6 + text.length) := by
    have hleft := @List.drop_left UInt8 (r.take 6) (text ++ r.drop (6 + text.length))
    rwa [hlength] at hleft
  unfold textOf
  rw [hdrop, List.take_left]

/-! ## Records that hold a setting -/

/-- A printable command that fits. -/
structure Command (text : List UInt8) : Prop where
  fits : text.length ≤ maxCommand
  printable : ∀ c ∈ text, 0x20 ≤ c ∧ c < 0x7F

/-- A configuration without its sum. -/
structure Draft (r : List UInt8) (mode : UInt8) (text : List UInt8) : Prop where
  length : r.length = recordBytes
  magicBytes : r.take 4 = magic
  modeByte : r.getD 4 0 = mode
  countByte : r.getD 5 0 = text.length.toUInt8
  textBytes : textOf r text.length = text
  command : Command text

structure Holds (r : List UInt8) (mode : UInt8) (text : List UInt8) : Prop
    extends Draft r mode text where
  zero : sum r = 0
  range : mode.toNat < 4
  needs : mode ≠ 0 → text ≠ []

theorem Command.count {text : List UInt8} (h : Command text) :
    text.length.toUInt8.toNat = text.length := by
  have hfits := h.fits
  unfold maxCommand at hfits
  exact UInt8.toNat_ofNat_of_lt' (show text.length < 256 by omega)

section
variable {r text : List UInt8} {mode : UInt8}

theorem Draft.setMode (h : Draft r mode text) (mode' : UInt8) : Draft (put r 4 [mode']) mode' text := by
  have hr := h.length
  unfold recordBytes at hr
  have hput : 4 + [mode'].length ≤ r.length := by
    rw [List.length_singleton]
    omega
  exact ⟨(length_put hput).trans h.length, (take_put hput (Nat.le_refl 4)).trans h.magicBytes,
    getD_put_self _ hput, (getD_put_behind hput (Nat.le_refl 5)).trans h.countByte,
    (textOf_put hput (Or.inl (by decide : 4 + 1 ≤ 6))).trans h.textBytes, h.command⟩

theorem Draft.setText (h : Draft r mode text) {text' : List UInt8} (ht : Command text') :
    Draft (put (put r 5 [text'.length.toUInt8]) 6 text') mode text' := by
  have hr := h.length
  have hfits := ht.fits
  unfold recordBytes at hr
  unfold maxCommand at hfits
  have hcount : 5 + [text'.length.toUInt8].length ≤ r.length := by
    rw [List.length_singleton]
    omega
  have hlength := length_put hcount
  have htext : 6 + text'.length ≤ (put r 5 [text'.length.toUInt8]).length := by omega
  refine ⟨(length_put htext).trans (hlength.trans h.length), ?_, ?_, ?_, textOf_put_self htext, ht⟩
  · rw [take_put htext (by decide), take_put hcount (by decide)]
    exact h.magicBytes
  · rw [getD_put_before htext (by decide), getD_put_before hcount (by decide)]
    exact h.modeByte
  · rw [getD_put_before htext (by decide)]
    exact getD_put_self _ hcount

/-- The sum makes a record of a draft. -/
theorem Draft.sealed (h : Draft r mode text) (hrange : mode.toNat < 4)
    (hneeds : mode ≠ 0 → text ≠ []) : Holds (sumConfig r) mode text := by
  have hr := h.length
  have hfits := h.command.fits
  unfold recordBytes at hr
  unfold maxCommand at hfits
  have hput : 127 + [-sum (r.take 127)].length ≤ r.length := by
    rw [List.length_singleton]
    omega
  refine ⟨⟨(length_put hput).trans h.length, (take_put hput (by decide)).trans h.magicBytes,
    (getD_put_before hput (by decide)).trans h.modeByte,
    (getD_put_before hput (by decide)).trans h.countByte,
    (textOf_put hput (Or.inr (by omega))).trans h.textBytes, h.command⟩, ?_, hrange, hneeds⟩
  unfold sumConfig put
  rw [sum_append, sum_append, sum_singleton,
    List.drop_of_length_le (by rw [List.length_singleton]; omega)]
  show sum (r.take 127) + (-sum (r.take 127) + 0) = 0
  rw [UInt8.add_zero, UInt8.add_right_neg]

end

/-! ## Upper case -/

theorem toupper_printable {c : UInt8} (h : 0x20 ≤ c ∧ c < 0x7F) :
    0x20 ≤ toupper c ∧ toupper c < 0x7F := by
  unfold toupper
  split
  next hlower =>
    rw [UInt8.le_iff_toNat_le, UInt8.lt_iff_toNat_lt, UInt8.toNat_sub_of_le]
    · have hlow := UInt8.le_iff_toNat_le.mp hlower.1
      have hhigh := UInt8.lt_iff_toNat_lt.mp h.2
      change 0x61 ≤ c.toNat at hlow
      change c.toNat < 0x7F at hhigh
      show 0x20 ≤ c.toNat - 0x20 ∧ c.toNat - 0x20 < 0x7F
      omega
    · rw [UInt8.le_iff_toNat_le]
      exact UInt8.le_iff_toNat_le.mp h.1
  · exact h

theorem storeCharacter_eq (c : UInt8) : storeCharacter c = toupper c := by
  have hletter : ∀ n : Fin 26, (UInt8.ofNat (0x61 + n.val)) &&& 0x5F =
      UInt8.ofNat (0x61 + n.val) - 0x20 := by decide
  unfold storeCharacter toupper
  by_cases hlow : c.toNat < 0x61
  · rw [if_pos (UInt8.lt_iff_toNat_lt.mpr hlow), if_neg]
    exact fun h => Nat.not_le.mpr hlow (UInt8.le_iff_toNat_le.mp h.1)
  rw [if_neg fun h => hlow (UInt8.lt_iff_toNat_lt.mp h)]
  by_cases hbehind : 'z'.toUInt8 + 1 ≤ c
  · have hhigh : 0x7B ≤ c.toNat := UInt8.le_iff_toNat_le.mp hbehind
    rw [if_pos hbehind, if_neg]
    intro h
    have hle := UInt8.le_iff_toNat_le.mp h.2
    change c.toNat ≤ 0x7A at hle
    omega
  · have hhigh : ¬0x7B ≤ c.toNat := fun h => hbehind (UInt8.le_iff_toNat_le.mpr h)
    rw [if_neg hbehind, if_pos]
    · have hc : c = UInt8.ofNat (0x61 + (c.toNat - 0x61)) := by
        rw [Nat.add_sub_cancel' (by omega), UInt8.ofNat_toNat]
      have hone := hletter ⟨c.toNat - 0x61, by omega⟩
      rw [hc]
      exact hone
    · rw [UInt8.le_iff_toNat_le, UInt8.le_iff_toNat_le]
      show 0x61 ≤ c.toNat ∧ c.toNat ≤ 0x7A
      omega

/-- An upper-cased text. -/
theorem Command.upper {bytes : List UInt8} (hfits : bytes.length ≤ maxCommand)
    (hprintable : ∀ c ∈ bytes, 0x20 ≤ c ∧ c < 0x7F) : Command (bytes.map toupper) := by
  refine ⟨by rwa [List.length_map], fun c hc => ?_⟩
  obtain ⟨a, ha, rfl⟩ := List.mem_map.mp hc
  exact toupper_printable (hprintable a ha)

/-! ## The writers -/

theorem sum_last {r : List UInt8} (h : r.length = recordBytes) :
    sum r = sum (r.take 127) + r.getD 127 0 := by
  unfold recordBytes at h
  have hdrop : r.drop 127 = [r.getD 127 0] := by
    rw [List.drop_eq_getElem_cons (by omega), List.drop_of_length_le (by omega),
      List.getD_eq_getElem _ _ (by omega)]
  conv_lhs => rw [← List.take_append_drop 127 r]
  rw [sum_append, hdrop, sum_singleton]

theorem length_empty : (put zeros 0 magic).length = 128 := by
  have hzeros : zeros.length = 128 := List.length_replicate
  have hmagic : magic.length = 4 := rfl
  exact (length_put (by omega)).trans hzeros

theorem empty_draft : Draft (put zeros 0 magic) 0 [] :=
  ⟨length_empty, rfl, rfl, rfl, rfl, ⟨by decide, fun c hc => by cases hc⟩⟩

theorem put_pair (r : List UInt8) (offset : Nat) (a b : UInt8) (h : offset + 2 ≤ r.length) :
    put r offset [a, b] = put (put r offset [a]) (offset + 1) [b] := by
  have hone : offset + [a].length ≤ r.length := by
    rw [List.length_singleton]
    omega
  have htwo : offset + [a, b].length ≤ r.length := h
  have hlength := length_put hone
  have hnext : offset + 1 + [b].length ≤ (put r offset [a]).length := by
    rw [List.length_singleton]
    omega
  refine List.ext_getElem? fun i => ?_
  rw [getElem?_put htwo, getElem?_put hnext, getElem?_put hone]
  rw [List.length_singleton, List.length_singleton, List.length_cons, List.length_singleton]
  rcases Nat.lt_trichotomy i offset with hi | hi | hi
  · rw [if_pos hi, if_pos (by omega), if_pos hi]
  · subst hi
    rw [if_neg (by omega), if_pos (by omega), if_pos (by omega), if_neg (by omega),
      if_pos (by omega), Nat.sub_self]
    rfl
  · by_cases hsecond : i = offset + 1
    · subst hsecond
      rw [if_neg (by omega), if_pos (by omega), if_neg (by omega), if_pos (by omega),
        Nat.sub_self, Nat.add_sub_cancel_left]
      rfl
    · rw [if_neg (by omega), if_neg (by omega), if_neg (by omega), if_neg (by omega),
        if_neg (by omega), if_neg (by omega)]

/-- **The record of the build script.** -/
theorem autorunRecord_holds {mode : Int} {command : List Char} {encoded r : List UInt8}
    (h : autorunRecord mode command = some r) (he : encodeAscii command = some encoded) :
    Holds r mode.toNat.toUInt8 (encoded.map toupper) := by
  unfold autorunRecord at h
  rw [he] at h
  dsimp only at h
  by_cases hrange : ¬(0 ≤ mode ∧ mode < 4) ∨ maxCommand < encoded.length
  · rw [if_pos hrange] at h
    cases h
  rw [if_neg hrange] at h
  obtain ⟨hmode, hfits⟩ := not_or.mp hrange
  rw [not_not] at hmode
  rw [Nat.not_lt] at hfits
  by_cases hbytes : (encoded.any fun value => value < 0x20 || 0x7E < value) = true
  · rw [if_pos hbytes] at h
    cases h
  rw [if_neg hbytes] at h
  by_cases hneeds : mode ≠ 0 ∧ encoded = []
  · rw [if_pos hneeds] at h
    cases h
  rw [if_neg hneeds] at h
  have hprintable : ∀ c ∈ encoded, 0x20 ≤ c ∧ c < 0x7F := by
    intro c hc
    have hone : ¬(decide (c < 0x20) || decide (0x7E < c)) = true := fun hbad =>
      hbytes (List.any_eq_true.mpr ⟨c, hc, hbad⟩)
    rw [Bool.or_eq_true, decide_eq_true_eq, decide_eq_true_eq, not_or, UInt8.not_lt,
      UInt8.not_lt] at hone
    refine ⟨hone.1, UInt8.lt_iff_toNat_lt.mpr ?_⟩
    have hle := UInt8.le_iff_toNat_le.mp hone.2
    change c.toNat ≤ 0x7E at hle
    show c.toNat < 0x7F
    omega
  have hcommand := Command.upper hfits hprintable
  have hlength : (encoded.map toupper).length = encoded.length := List.length_map _
  have hdraft := (empty_draft.setMode mode.toNat.toUInt8).setText hcommand
  rw [hlength, ← put_pair _ _ _ _ (by rw [length_empty]; decide)] at hdraft
  -- the last byte is still zero when the sum is taken
  have hlast : (put (put (put zeros 0 magic) 4 [mode.toNat.toUInt8, encoded.length.toUInt8]) 6
      (encoded.map toupper)).getD 127 0 = 0 := by
    have hfits' := hcommand.fits
    unfold maxCommand at hfits'
    have hpair : 4 + [mode.toNat.toUInt8, encoded.length.toUInt8].length = 6 := rfl
    have hroom : 4 + [mode.toNat.toUInt8, encoded.length.toUInt8].length ≤
        (put zeros 0 magic).length := by
      rw [length_empty, hpair]
      decide
    have hinner := length_put hroom
    rw [length_empty] at hinner
    rw [getD_put_behind (by omega) (by omega), getD_put_behind hroom (by omega)]
    rfl
  have hsum := sum_last hdraft.length
  rw [hlast, UInt8.add_zero] at hsum
  obtain rfl := Option.some.inj h
  rw [hsum]
  have hsmall : mode.toNat.toUInt8.toNat = mode.toNat :=
    UInt8.toNat_ofNat_of_lt' (show mode.toNat < 256 by omega)
  refine hdraft.sealed (by omega) fun hne hnil => hneeds ⟨fun hzero => hne ?_, ?_⟩
  · rw [hzero]
    rfl
  · exact List.map_eq_nil_iff.mp hnil

theorem copyCommand_spec {bytes text : List UInt8} (h : copyCommand bytes = some text) :
    text = bytes.map toupper ∧ ∀ c ∈ bytes, 0x20 ≤ c ∧ c < 0x7F := by
  induction bytes generalizing text with
  | nil =>
    obtain rfl := Option.some.inj h
    exact ⟨rfl, fun c hc => by cases hc⟩
  | cons c rest ih =>
    unfold copyCommand at h
    by_cases hbad : c < 0x20 ∨ 0x7F ≤ c
    · rw [if_pos hbad] at h
      cases h
    rw [if_neg hbad] at h
    obtain ⟨text', htext, rfl⟩ := Option.map_eq_some_iff.mp h
    obtain ⟨rfl, hrest⟩ := ih htext
    rw [not_or, UInt8.not_lt, UInt8.not_le] at hbad
    refine ⟨by rw [List.map_cons, storeCharacter_eq], fun x hx => ?_⟩
    rcases List.mem_cons.mp hx with rfl | hx
    · exact hbad
    · exact hrest x hx

theorem newMode_range {option : Line} {mode mode' : UInt8} (h : newMode option mode = some mode')
    (hmode : mode.toNat < 4) : mode'.toNat < 4 := by
  unfold newMode at h
  split at h
  · rw [← Option.some.inj h]
    exact hmode
  next key _ =>
    split at h
    · cases h
    · rw [← Option.some.inj h, UInt8.toNat_and]
      exact Nat.lt_succ_of_le Nat.and_le_right
  · cases h

/-- The command that stands after a session. -/
def lastCommand (mode : UInt8) (command : Line) (before : List UInt8) : List UInt8 :=
  if mode = 0 ∨ command.bytes = [] then before else command.bytes.map toupper

/-- **A session** saves the setting that the operator asked for. -/
theorem session_holds {c r text : List UInt8} {option command : Line} {mode mode' : UInt8}
    (hd : Draft (loadedConfig c) mode text) (hrange : mode.toNat < 4)
    (hmode : newMode option mode = some mode') (h : autorunCom option command c = some r) :
    Holds r mode' (lastCommand mode' command text) := by
  have hrange' := newMode_range hmode hrange
  have hset := hd.setMode mode'
  unfold autorunCom at h
  dsimp only at h
  rw [hd.modeByte, hmode] at h
  dsimp only at h
  unfold lastCommand
  by_cases hzero : mode' = 0
  · rw [if_pos hzero] at h
    rw [if_pos (Or.inl hzero), ← Option.some.inj h]
    exact hset.sealed hrange' fun hne => absurd hzero hne
  rw [if_neg hzero] at h
  unfold newCommand at h
  -- the length that is checked is that of the command as it stands now
  have hcheck {config text : List UInt8} (hdraft : Draft config mode' text)
      (hsave : (if config.getD 5 0 = 0 then none else some (sumConfig config)) = some r) :
      Holds r mode' text := by
    by_cases hempty : config.getD 5 0 = 0
    · rw [if_pos hempty] at hsave
      cases hsave
    · rw [if_neg hempty] at hsave
      rw [← Option.some.inj hsave]
      refine hdraft.sealed hrange' fun _ hnil => hempty ?_
      rw [hdraft.countByte, hnil]
      rfl
  by_cases hkeep : command.bytes = []
  · rw [if_pos hkeep] at h
    rw [if_pos (Or.inr hkeep)]
    exact hcheck hset h
  rw [if_neg hkeep] at h
  rw [if_neg (not_or.mpr ⟨hzero, hkeep⟩)]
  cases hcopy : copyCommand command.bytes with
  | none =>
    rw [hcopy] at h
    cases h
  | some upper =>
    obtain ⟨rfl, hprintable⟩ := copyCommand_spec hcopy
    rw [hcopy] at h
    have htext := hset.setText (Command.upper command.fits hprintable)
    rw [List.length_map] at htext
    exact hcheck htext h

/-! ## The readers -/

section
variable {r text : List UInt8} {mode : UInt8}

theorem Holds.validate (h : Holds r mode text) : validateConfig r = true := by
  have hfits := h.command.fits
  have hcount := h.command.count
  have hlength : (r.getD 5 0).toNat = text.length := by rw [h.countByte, hcount]
  unfold validateConfig
  dsimp only
  rw [if_neg fun hne => hne h.zero, if_neg fun hne => hne h.magicBytes, h.modeByte,
    if_neg (Nat.not_le.mpr h.range), hlength, if_neg (by omega)]
  by_cases hempty : r.getD 5 0 = 0
  · rw [if_pos hempty, decide_eq_true_eq]
    by_contra hmode
    refine h.needs hmode (List.length_eq_zero_iff.mp ?_)
    rw [← hlength, hempty]
    rfl
  · rw [if_neg hempty, List.all_eq_true]
    have htext : (r.drop 6).take text.length = text := h.textBytes
    rw [htext]
    intro c hc
    rw [Bool.and_eq_true, decide_eq_true_eq, decide_eq_true_eq]
    exact h.command.printable c hc

theorem Holds.magic_getD (h : Holds r mode text) {i : Nat} (hi : i < 4) :
    r.getD i 0 = magic.getD i 0 := by
  rw [← h.magicBytes, List.getD_eq_getElem?_getD, List.getD_eq_getElem?_getD,
    List.getElem?_take_of_lt hi]

theorem Holds.accepted (h : Holds r mode text) : biosAccepts r = true := by
  have hfits := h.command.fits
  have hcount := h.command.count
  have hword {offset : Nat} (hoffset : offset < 3) : word r offset = word magic offset := by
    unfold word
    rw [h.magic_getD (by omega), h.magic_getD (by omega)]
  unfold biosAccepts
  rw [h.zero, hword (by decide), hword (by decide), h.modeByte, h.countByte, hcount]
  simp only [decide_true, Bool.true_and, Bool.and_eq_true, decide_eq_true_eq]
  exact ⟨h.range, Nat.lt_succ_of_le hfits⟩

theorem cleared (memory : Nat → UInt8) : Function.update memory 7 0 7 = 0 :=
  Function.update_self 7 0 memory

/-- What a boot leaves in the buffer of the CCP. -/
def Installed (text : List UInt8) (memory : Nat → UInt8) : Prop :=
  1 ≤ text.length ∧ text.length ≤ maxCommand ∧ memory 7 = text.length.toUInt8 ∧
    (∀ i < text.length, memory (8 + i) = text.getD i 0) ∧ memory (8 + text.length) = 0

theorem Holds.boot (h : Holds r mode text) (boot : UInt8) (memory : Nat → UInt8) :
    (mode &&& boot ≠ 0 → Installed text (loadAutorun boot (some r) false memory).1) ∧
      (mode &&& boot = 0 → (loadAutorun boot (some r) false memory).1 7 = 0) := by
  have hcount := h.command.count
  have hblank : r.getD 0 0 ≠ 0xE5 := by
    rw [h.magic_getD (by decide)]
    decide
  unfold loadAutorun
  dsimp only
  rw [if_neg hblank, h.accepted, Bool.not_true, if_neg Bool.false_ne_true, h.modeByte]
  refine ⟨fun hbit => ?_, fun hbit => ?_⟩
  swap
  · rw [if_pos hbit]
    exact cleared memory
  have hne : text ≠ [] := h.needs fun hmode => hbit (by rw [hmode, UInt8.zero_and])
  have hpos := List.length_pos_of_ne_nil hne
  have hlength : (r.getD 5 0).toNat = text.length := by rw [h.countByte, hcount]
  have hsome : r.getD 5 0 ≠ 0 := by
    intro hzero
    rw [hzero] at hlength
    change 0 = text.length at hlength
    omega
  rw [if_neg hbit, if_neg Bool.false_ne_true, if_neg hsome]
  refine ⟨hpos, h.command.fits, ?_, fun i hi => ?_, ?_⟩
  · unfold install
    dsimp only
    rw [if_pos rfl]
    exact h.countByte
  · unfold install
    dsimp only
    rw [hlength, if_neg (by omega), if_pos (by omega), Nat.add_sub_cancel_left]
    have htext := h.textBytes
    conv_rhs => rw [← htext]
    unfold textOf
    rw [List.getD_eq_getElem?_getD, List.getD_eq_getElem?_getD, List.getElem?_take_of_lt hi,
      List.getElem?_drop, Nat.add_comm]
  · unfold install
    dsimp only
    rw [hlength, if_neg (by omega), if_neg (by omega), if_pos rfl]

end

/-- A record that is not accepted leaves the length zero. -/
theorem refused_empty {record : Option (List UInt8)} (boot : UInt8) (key : Bool)
    (memory : Nat → UInt8)
    (h : ∀ r, record = some r → r.getD 0 0 = 0xE5 ∨ biosAccepts r = false) :
    (loadAutorun boot record key memory).1 7 = 0 := by
  unfold loadAutorun
  cases record with
  | none => exact cleared memory
  | some r =>
    dsimp only
    by_cases hblank : r.getD 0 0 = 0xE5
    · rw [if_pos hblank]
      exact cleared memory
    · rw [if_neg hblank, (h r rfl).resolve_left hblank, Bool.not_false, if_pos rfl]
      exact cleared memory

/-- Nothing outside the buffer is written. -/
theorem boot_frame (boot : UInt8) (record : Option (List UInt8)) (key : Bool)
    (memory : Nat → UInt8) {a : Nat} (ha : a < 7 ∨ 8 + maxCommand < a) :
    (loadAutorun boot record key memory).1 a = memory a := by
  have hcleared : Function.update memory 7 0 a = memory a :=
    Function.update_of_ne (by omega) _ _
  unfold loadAutorun
  cases record with
  | none => exact hcleared
  | some r =>
    dsimp only
    by_cases hblank : r.getD 0 0 = 0xE5
    · rw [if_pos hblank]
      exact hcleared
    rw [if_neg hblank]
    cases haccepted : biosAccepts r with
    | false => exact hcleared
    | true =>
      rw [Bool.not_true, if_neg Bool.false_ne_true]
      by_cases hbit : r.getD 4 0 &&& boot = 0
      · rw [if_pos hbit]
        exact hcleared
      rw [if_neg hbit]
      cases key with
      | true => exact hcleared
      | false =>
        rw [if_neg Bool.false_ne_true]
        by_cases hempty : r.getD 5 0 = 0
        · rw [if_pos hempty]
          exact hcleared
        rw [if_neg hempty]
        have hlength : (r.getD 5 0).toNat < maxCommand + 1 := by
          unfold biosAccepts at haccepted
          rw [Bool.and_eq_true, decide_eq_true_eq] at haccepted
          exact haccepted.2
        unfold install
        dsimp only
        rw [if_neg (by omega), if_neg (by omega), if_neg (by omega)]
        exact hcleared

/-! ## Histories of the record -/

/-- A record that one of the programs wrote, with the mode and the command last written. -/
inductive Written : List UInt8 → UInt8 → List UInt8 → Prop where
  | built {mode : Int} {command : List Char} {encoded r : List UInt8}
      (h : autorunRecord mode command = some r) (hencoded : encodeAscii command = some encoded) :
      Written r mode.toNat.toUInt8 (encoded.map toupper)
  | replaced {c r : List UInt8} {option command : Line} {mode : UInt8}
      (hlength : c.length = recordBytes) (hc : c.getD 0 0 = 0xE5 ∨ validateConfig c = false)
      (hmode : newMode option 0 = some mode) (h : autorunCom option command c = some r) :
      Written r mode (lastCommand mode command [])
  | edited {c r text : List UInt8} {option command : Line} {mode mode' : UInt8}
      (hc : Written c mode text) (hmode : newMode option mode = some mode')
      (h : autorunCom option command c = some r) :
      Written r mode' (lastCommand mode' command text)

theorem blank_invalid {c : List UInt8} (h : c.getD 0 0 = 0xE5) : validateConfig c = false := by
  have hmagic : c.take 4 ≠ magic := by
    intro htake
    have hfirst : c.getD 0 0 = magic.getD 0 0 := by
      rw [← htake, List.getD_eq_getElem?_getD, List.getD_eq_getElem?_getD,
        List.getElem?_take_of_lt (by decide)]
    rw [h] at hfirst
    exact absurd hfirst (by decide)
  unfold validateConfig
  dsimp only
  by_cases hsum : sum c ≠ 0
  · rw [if_pos hsum]
  · rw [if_neg hsum, if_pos hmagic]

/-- **Every record that is written holds its setting**, over all sessions. -/
theorem Written.holds {r text : List UInt8} {mode : UInt8} (h : Written r mode text) :
    Holds r mode text := by
  induction h with
  | built h hencoded => exact autorunRecord_holds h hencoded
  | @replaced c r option command mode _ hc hmode h =>
    have hinvalid : validateConfig c = false := hc.elim blank_invalid id
    have hload : loadedConfig c = put zeros 0 magic := by
      unfold loadedConfig
      rw [hinvalid]
      exact if_neg Bool.false_ne_true
    have hdraft : Draft (loadedConfig c) 0 [] := by
      rw [hload]
      exact empty_draft
    exact session_holds hdraft (by decide) hmode h
  | @edited c r text option command mode mode' _ hmode h ih =>
    have hload : loadedConfig c = c := by
      unfold loadedConfig
      exact if_pos ih.validate
    have hdraft : Draft (loadedConfig c) mode text := by
      rw [hload]
      exact ih.toDraft
    exact session_holds hdraft ih.range hmode h

/-- **Writers and readers agree.** -/
theorem autorun_agrees :
    (∀ {r text : List UInt8} {mode : UInt8}, Written r mode text →
      sum r = 0 ∧ validateConfig r = true ∧ biosAccepts r = true ∧
        ∀ (boot : UInt8) (memory : Nat → UInt8),
          (mode &&& boot ≠ 0 → Installed text (loadAutorun boot (some r) false memory).1) ∧
            (mode &&& boot = 0 → (loadAutorun boot (some r) false memory).1 7 = 0)) ∧
    (∀ (boot : UInt8) (record : Option (List UInt8)) (key : Bool) (memory : Nat → UInt8),
      (∀ r, record = some r → r.getD 0 0 = 0xE5 ∨ biosAccepts r = false) →
        (loadAutorun boot record key memory).1 7 = 0) ∧
    ∀ (boot : UInt8) (record : Option (List UInt8)) (key : Bool) (memory : Nat → UInt8) (a : Nat),
      a < 7 ∨ 8 + maxCommand < a → (loadAutorun boot record key memory).1 a = memory a := by
  refine ⟨fun h => ?_, fun boot record key memory => refused_empty boot key memory,
    fun boot record key memory a => boot_frame boot record key memory⟩
  have hholds := h.holds
  exact ⟨hholds.zero, hholds.validate, hholds.accepted, hholds.boot⟩

/-- The theorem at work: a record for cold boots. -/
theorem autorun_agrees_dir :
    ∃ r, autorunRecord 1 ['d', 'i', 'r'] = some r ∧
      Installed ((Env.ascii "dir").map toupper) (loadAutorun 1 (some r) false fun _ => 0xAA).1 := by
  refine ⟨_, rfl, ?_⟩
  have hwritten := @Written.built 1 ['d', 'i', 'r'] (Env.ascii "dir") _ rfl rfl
  exact ((autorun_agrees.1 hwritten).2.2.2 1 _).1 (by decide)

end Z80Sbc.Autorun.Agreement
