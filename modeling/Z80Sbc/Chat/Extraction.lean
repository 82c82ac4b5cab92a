import Z80Sbc.Chat.Lexical
import Z80Sbc.Chat.Stream

/-! # What an event emits

The validator takes exactly the JSON texts whose nesting it bears, and of such a text it takes
the strings at `choices[0].delta.content`, of which there may be one. Both directions follow the
grammar: a phrase that is derived is parsed, and what is parsed was derived. -/

namespace Z80Sbc.Chat
open Z80Sbc.Data.JsonGrammar

/-! ## The selected strings -/

/-- A key as code points. -/
def name (s : List Char) : List Nat := s.map Char.toNat

/-- The values behind a key of an object. -/
def behind (key : List Nat) : Value → List Value
  | .object ms => (ms.filter fun m => m.1 = key).map Prod.snd
  | _ => []

/-- The element of an array with index 0. -/
def first : Value → List Value
  | .array (v :: _) => [v]
  | _ => []

def strings : Value → List (List Nat)
  | .string cps => [cps]
  | _ => []

/-- The strings at `choices[0].delta.content`. -/
def contents (v : Value) : List (List Nat) :=
  (behind (name ['c', 'h', 'o', 'i', 'c', 'e', 's']) v).flatMap fun v =>
    (first v).flatMap fun v =>
      (behind (name ['d', 'e', 'l', 't', 'a']) v).flatMap fun v =>
        (behind (name ['c', 'o', 'n', 't', 'e', 'n', 't']) v).flatMap strings

/-- A key `error` of the object itself. -/
def hasError : Value → Bool
  | .object ms => ms.any fun m => m.1 = name ['e', 'r', 'r', 'o', 'r']
  | _ => false

/-- What a value adds to the selected strings, when it is found on a path. -/
def selected (path : Nat) (v : Value) : List (List Nat) :=
  if path = 5 then strings v
  else if path = 4 then (behind (name ['c', 'o', 'n', 't', 'e', 'n', 't']) v).flatMap strings
  else if path = 3 then
    (behind (name ['d', 'e', 'l', 't', 'a']) v).flatMap fun v =>
      (behind (name ['c', 'o', 'n', 't', 'e', 'n', 't']) v).flatMap strings
  else if path = 2 then
    (first v).flatMap fun v =>
      (behind (name ['d', 'e', 'l', 't', 'a']) v).flatMap fun v =>
        (behind (name ['c', 'o', 'n', 't', 'e', 'n', 't']) v).flatMap strings
  else if path = 1 then contents v
  else []

def errorAt (path : Nat) (v : Value) : Bool := path = 1 && hasError v

def selectedMembers (path : Nat) (ms : List (List Nat × Value)) : List (List Nat) :=
  ms.flatMap fun m => selected (nextPath path m.1) m.2

def selectedElements (path : Nat) : Nat → List Value → List (List Nat)
  | _, [] => []
  | index, v :: vs =>
    selected (if path = 2 ∧ index = 0 then 3 else 0) v ++ selectedElements path (index + 1) vs

/-- Only a letter is folded to a letter. -/
theorem ascii_letter {cp : Nat} {c : Char} (hc : 97 ≤ c.toNat ∧ c.toNat ≤ 122)
    (h : ascii cp = UInt8.ofNat c.toNat) : cp = c.toNat := by
  have hnat := congrArg UInt8.toNat h
  rw [toNat_byte (by omega)] at hnat
  unfold ascii at hnat
  split at hnat
  next hplain => rwa [toNat_byte (by omega)] at hnat
  split at hnat
  · change 32 = _ at hnat
    omega
  split at hnat
  · change 39 = _ at hnat
    omega
  split at hnat
  · change 34 = _ at hnat
    omega
  split at hnat
  · change 45 = _ at hnat
    omega
  · change 63 = _ at hnat
    omega

/-- A name of letters. -/
def Letters (s : List Char) : Prop := s.length < 32 ∧ ∀ c ∈ s, 97 ≤ c.toNat ∧ c.toNat ≤ 122

/-- The folded key in the buffer is the name only when the key is. -/
theorem keyIs_iff {s : List Char} (hs : Letters s) (key : List Nat) :
    keyIs key s = true ↔ key = name s := by
  unfold keyIs
  rw [Bool.and_eq_true, decide_eq_true_eq, beq_iff_eq]
  constructor
  · rintro ⟨-, hmap⟩
    have hletters := hs.2
    clear hs
    unfold text at hmap
    unfold name
    induction s generalizing key with
    | nil => exact List.map_eq_nil_iff.mp hmap
    | cons c s ih =>
      obtain ⟨cp, key, rfl⟩ : ∃ cp rest, key = cp :: rest := by
        cases key with
        | nil => cases hmap
        | cons cp rest => exact ⟨cp, rest, rfl⟩
      rw [List.map_cons, List.map_cons] at hmap
      obtain ⟨hhead, htail⟩ := List.cons.inj hmap
      rw [List.map_cons, ascii_letter (hletters c (List.mem_cons_self ..)) hhead,
        ih key htail fun d hd => hletters d (List.mem_cons_of_mem _ hd)]
  · rintro rfl
    refine ⟨by rw [name, List.length_map]; exact hs.1, ?_⟩
    unfold name text
    rw [List.map_map]
    refine List.map_congr_left fun c hc => ?_
    have hletter := hs.2 c hc
    show ascii c.toNat = _
    rw [ascii, if_pos (by omega)]

theorem keyIs_decide {s : List Char} (hs : Letters s) (key : List Nat) :
    keyIs key s = decide (key = name s) := by
  rw [Bool.eq_iff_iff, keyIs_iff hs, decide_eq_true_eq]

theorem letters_content : Letters ['c', 'o', 'n', 't', 'e', 'n', 't'] := by
  refine ⟨by decide, ?_⟩
  simp only [List.mem_cons, List.not_mem_nil, or_false]
  rintro c (rfl | rfl | rfl | rfl | rfl | rfl | rfl) <;> decide

theorem letters_delta : Letters ['d', 'e', 'l', 't', 'a'] := by
  refine ⟨by decide, ?_⟩
  simp only [List.mem_cons, List.not_mem_nil, or_false]
  rintro c (rfl | rfl | rfl | rfl | rfl) <;> decide

theorem letters_choices : Letters ['c', 'h', 'o', 'i', 'c', 'e', 's'] := by
  refine ⟨by decide, ?_⟩
  simp only [List.mem_cons, List.not_mem_nil, or_false]
  rintro c (rfl | rfl | rfl | rfl | rfl | rfl | rfl) <;> decide

theorem letters_error : Letters ['e', 'r', 'r', 'o', 'r'] := by
  refine ⟨by decide, ?_⟩
  simp only [List.mem_cons, List.not_mem_nil, or_false]
  rintro c (rfl | rfl | rfl | rfl | rfl) <;> decide

theorem selected_zero (v : Value) : selected 0 v = [] := rfl

theorem nextPath_ne_one (path : Nat) (key : List Nat) : nextPath path key ≠ 1 := by
  unfold nextPath
  split_ifs <;> decide

theorem flatMap_behind {β : Type} (f : Value → List β) (key : List Nat)
    (ms : List (List Nat × Value)) :
    (behind key (.object ms)).flatMap f = ms.flatMap fun m => if m.1 = key then f m.2 else [] := by
  show ((ms.filter fun m => m.1 = key).map Prod.snd).flatMap f = _
  induction ms with
  | nil => rfl
  | cons m ms ih =>
    rw [List.filter_cons, List.flatMap_cons, ← ih]
    by_cases hm : m.1 = key
    · rw [if_pos (decide_eq_true hm), if_pos hm]
      rfl
    · rw [if_neg (by rwa [decide_eq_true_eq]), if_neg hm]
      rfl

/-- An object adds what its members add. -/
theorem selected_object (path : Nat) (ms : List (List Nat × Value)) :
    selected path (.object ms) = selectedMembers path ms := by
  have hnone (hpath : ∀ key, nextPath path key = 0) : selectedMembers path ms = [] := by
    unfold selectedMembers
    rw [List.flatMap_eq_nil_iff]
    intro m _
    rw [hpath, selected_zero]
  unfold selected
  split
  next h5 =>
    subst h5
    exact (hnone fun key => by simp [nextPath]).symm
  split
  next h4 =>
    subst h4
    rw [flatMap_behind]
    unfold selectedMembers
    refine congrArg (fun f => ms.flatMap f) (funext fun m => ?_)
    by_cases hm : m.1 = name ['c', 'o', 'n', 't', 'e', 'n', 't']
    · rw [if_pos hm, nextPath, if_pos ⟨rfl, (keyIs_iff letters_content _).mpr hm⟩]
      rfl
    · rw [if_neg hm, nextPath, if_neg fun h => hm ((keyIs_iff letters_content _).mp h.2)]
      rfl
  split
  next h3 =>
    subst h3
    rw [flatMap_behind]
    unfold selectedMembers
    refine congrArg (fun f => ms.flatMap f) (funext fun m => ?_)
    by_cases hm : m.1 = name ['d', 'e', 'l', 't', 'a']
    · rw [if_pos hm, nextPath, if_neg (by simp),
        if_pos ⟨rfl, (keyIs_iff letters_delta _).mpr hm⟩]
      rfl
    · rw [if_neg hm, nextPath, if_neg (by simp),
        if_neg fun h => hm ((keyIs_iff letters_delta _).mp h.2)]
      rfl
  split
  next h2 =>
    subst h2
    exact (hnone fun key => by simp [nextPath]).symm
  split
  next h1 =>
    subst h1
    unfold contents
    rw [flatMap_behind]
    unfold selectedMembers
    refine congrArg (fun f => ms.flatMap f) (funext fun m => ?_)
    by_cases hm : m.1 = name ['c', 'h', 'o', 'i', 'c', 'e', 's']
    · rw [if_pos hm, nextPath, if_neg (by simp), if_neg (by simp),
        if_pos ⟨rfl, (keyIs_iff letters_choices _).mpr hm⟩]
      rfl
    · rw [if_neg hm, nextPath, if_neg (by simp), if_neg (by simp),
        if_neg fun h => hm ((keyIs_iff letters_choices _).mp h.2)]
      rfl
  next h5 h4 h3 h2 h1 => exact (hnone fun key => by simp [nextPath, h4, h3, h1]).symm

theorem selectedElements_later (path index : Nat) (vs : List Value) :
    selectedElements path (index + 1) vs = [] := by
  induction vs generalizing index with
  | nil => rfl
  | cons v vs ih =>
    rw [selectedElements, if_neg (by simp), ih, selected_zero]
    rfl

/-- An array adds what its elements add. -/
theorem selected_array (path : Nat) (vs : List Value) :
    selected path (.array vs) = selectedElements path 0 vs := by
  cases vs with
  | nil =>
    unfold selected
    split_ifs <;> rfl
  | cons v vs =>
    rw [selectedElements, selectedElements_later, List.append_nil]
    by_cases h2 : path = 2
    · subst h2
      rw [if_pos ⟨rfl, rfl⟩]
      rw [selected, if_neg (by decide), if_neg (by decide), if_neg (by decide), if_pos rfl, first,
        List.flatMap_singleton]
      rfl
    · rw [if_neg fun h => h2 h.1, selected_zero]
      unfold selected
      rw [if_neg h2]
      split_ifs <;> rfl

theorem errorAt_object (path : Nat) (ms : List (List Nat × Value)) :
    errorAt path (.object ms) = ms.any fun m => isError path m.1 := by
  unfold errorAt isError
  show (_ && ms.any _) = _
  rw [List.and_any_distrib_left]
  refine congrArg (fun f => ms.any f) (funext fun m => ?_)
  rw [keyIs_decide letters_error]

/-! ## Taking strings -/

/-- The text, and whether there is one. -/
def capture (s : List UInt8 × Bool) (cps : List Nat) : Option (List UInt8 × Bool) :=
  if s.2 = true ∨ z80ChatLineMax ≤ cps.length then none else some (cps.map ascii, true)

def absorb (l : List (List Nat)) (s : List UInt8 × Bool) : Option (List UInt8 × Bool) :=
  l.foldlM capture s

theorem absorb_append (l l' : List (List Nat)) (s : List UInt8 × Bool) :
    absorb (l ++ l') s = (absorb l s).bind (absorb l') := List.foldlM_append

/-- The strings `l` are taken, and perhaps an error is found. -/
structure Takes (l : List (List Nat)) (e : Bool) (j j' : Json) : Prop where
  taken : absorb l (j.text, j.contentSeen) = some (j'.text, j'.contentSeen)
  error : j'.providerError = (j.providerError || e)

theorem Takes.none {j : Json} (rest : List UInt8) : Takes [] false j { j with rest := rest } :=
  ⟨rfl, (Bool.or_false _).symm⟩

theorem Takes.append {l l' : List (List Nat)} {e e' : Bool} {j k t : Json} (h : Takes l e j k)
    (h' : Takes l' e' k t) : Takes (l ++ l') (e || e') j t := by
  refine ⟨?_, by rw [h'.error, h.error, Bool.or_assoc]⟩
  rw [absorb_append, h.taken]
  exact h'.taken

/-- The first strings can be taken first. -/
theorem Takes.split {l l' : List (List Nat)} {e e' : Bool} {j t : Json}
    (h : Takes (l ++ l') (e || e') j t) (rest : List UInt8) :
    ∃ k, k.rest = rest ∧ Takes l e j k ∧ Takes l' e' k t := by
  have htaken := h.taken
  rw [absorb_append, Option.bind_eq_some_iff] at htaken
  obtain ⟨⟨text, seen⟩, hfirst, hthen⟩ := htaken
  refine ⟨⟨rest, text, seen, j.providerError || e⟩, rfl, ⟨hfirst, rfl⟩, hthen, ?_⟩
  rw [h.error, Bool.or_assoc]

/-- It is only what is taken that matters. -/
theorem Takes.congr {l l' : List (List Nat)} {e e' : Bool} {j j' : Json} (h : Takes l e j j')
    (hl : l = l') (he : e = e') : Takes l' e' j j' := by
  rwa [← hl, ← he]

/-- What is left of the text makes no difference. -/
theorem Takes.from {l : List (List Nat)} {e : Bool} {j j' : Json} {rest : List UInt8}
    (h : Takes l e { j with rest := rest } j') : Takes l e j j' := ⟨h.taken, h.error⟩

theorem Takes.eq {j j' : Json} (h : Takes [] false j j') : j' = { j with rest := j'.rest } := by
  obtain ⟨rest, text, seen, error⟩ := j'
  obtain ⟨rfl, rfl⟩ := Prod.mk.inj (Option.some.inj h.taken)
  have herror := h.error
  rw [Bool.or_false] at herror
  cases herror
  rfl

/-! ## Whitespace -/

theorem whitespace_split (p : List UInt8) : ∃ a, Blank a ∧ p = a ++ whitespace p :=
  ⟨p.takeWhile isSpace, fun _ hc => List.mem_takeWhile_imp hc,
    (List.takeWhile_append_dropWhile ..).symm⟩

theorem whitespace_blank {a : List UInt8} (ha : Blank a) (p : List UInt8) :
    whitespace (a ++ p) = whitespace p := by
  have hspace : ∀ c ∈ a, isSpace c = true := ha
  exact List.dropWhile_append_of_pos hspace

theorem whitespace_cons {c : UInt8} (hc : space c = false) (p : List UInt8) :
    whitespace (c :: p) = c :: p := by
  have hspace : ¬isSpace c = true := by
    rw [show isSpace c = false from hc]
    exact Bool.false_ne_true
  exact List.dropWhile_cons_of_neg hspace

/-- Whitespace and punctuation end a number. -/
theorem stops_blank {b rest : List UInt8} (hb : Blank b) {c : UInt8}
    (hc : c = 44 ∨ c = 93 ∨ c = 125) : Stops (b ++ c :: rest) := by
  cases b with
  | nil =>
    intro d hd
    cases hd
    rcases hc with rfl | rfl | rfl <;> decide
  | cons d b =>
    intro d' hd
    cases hd
    have hspace := hb d (List.mem_cons_self ..)
    unfold space at hspace
    simp only [Bool.or_eq_true, beq_iff_eq] at hspace
    rcases hspace with ((rfl | rfl) | rfl) | rfl <;> decide

/-! ## What is parsed was derived -/

/-- What a value that is parsed was. -/
structure Parsed (n path : Nat) (j j' : Json) : Prop where
  derived : ∃ v a w, Blank a ∧ j.rest = a ++ (w ++ j'.rest) ∧ Derives (.value v) w ∧ v.Within n ∧
    Takes (selected path v) (errorAt path v) j j'

theorem members_sound {parse : Nat → Json → Option Json} {n : Nat}
    (hparse : ∀ {path j j'}, parse path j = some j' → Parsed n path j j') {path fuel : Nat}
    {j j' : Json} (h : members parse path fuel j = some j') :
    ∃ ms w, j.rest = w ++ 125 :: j'.rest ∧ Derives (.members ms) w ∧ (∀ m ∈ ms, m.2.Within n) ∧
      Takes (selectedMembers path ms) (ms.any fun m => isError path m.1) j j' := by
  induction fuel generalizing j with
  | zero => cases h
  | succ fuel ih =>
    obtain ⟨⟨key, p⟩, hkey, hbehind⟩ := Option.bind_eq_some_iff.mp h
    obtain ⟨q, hcolon, hvalue⟩ := Option.bind_eq_some_iff.mp hbehind
    obtain ⟨k, hk, hmore⟩ := Option.bind_eq_some_iff.mp hvalue
    clear h hbehind hvalue
    obtain ⟨name, hname, hj⟩ := string_iff.mp hkey
    obtain ⟨b, hb, hp⟩ := whitespace_split p
    rw [expect_some hcolon] at hp
    obtain ⟨v, c, w, hc, hq, hv, hwithin, htakes⟩ := (hparse hk).derived
    obtain ⟨d, hd, hrest⟩ := whitespace_split k.rest
    have herror : errorAt (nextPath path key) v = false := by
      unfold errorAt
      rw [decide_eq_false (nextPath_ne_one path key), Bool.false_and]
    have htakes : Takes (selected (nextPath path key) v) (isError path key) j k := by
      refine ⟨htakes.taken, ?_⟩
      rw [htakes.error, herror, Bool.or_false]
    change q = _ at hq
    generalize hw : whitespace k.rest = r at hmore hrest
    cases r with
    | nil => cases hmore
    | cons e r =>
      dsimp only at hmore
      split at hmore
      next hclose =>
        cases hmore
        subst hclose
        refine ⟨[(key, v)], [] ++ (name ++ (b ++ 58 :: (c ++ (w ++ d)))), ?_,
          .lastMember (fun _ hc => by cases hc) hname hb hc hv hd, ?_, ?_⟩
        · rw [hj, hp, hq, hrest]
          simp only [List.nil_append, List.append_assoc, List.cons_append]
        · intro m hm
          rw [List.mem_singleton.mp hm]
          exact hwithin
        · refine Takes.congr ⟨htakes.taken, htakes.error⟩ ?_ ?_
          · exact (List.append_nil _).symm
          · exact (Bool.or_false _).symm
      next hclose =>
      split at hmore
      · cases hmore
      next hcomma =>
        rw [ne_eq, not_not] at hcomma
        subst hcomma
        obtain ⟨ms, more, hmembers, hderives, hall, hrestTakes⟩ := ih hmore
        obtain ⟨a, ha, hr⟩ := whitespace_split r
        change whitespace r = _ at hmembers
        refine ⟨(key, v) :: ms, [] ++ (name ++ (b ++ 58 :: (c ++ (w ++ (d ++ 44 :: (a ++ more)))))),
          ?_, .member (fun _ hc => by cases hc) hname hb hc hv hd (hderives.blank_members ha), ?_,
          ?_⟩
        · rw [hj, hp, hq, hrest, hr, hmembers]
          simp only [List.nil_append, List.append_assoc, List.cons_append]
        · intro m hm
          rcases List.mem_cons.mp hm with rfl | hm
          · exact hwithin
          · exact hall m hm
        · exact htakes.append hrestTakes.from

theorem elements_sound {parse : Nat → Json → Option Json} {n : Nat}
    (hparse : ∀ {path j j'}, parse path j = some j' → Parsed n path j j') {path fuel index : Nat}
    {j j' : Json} (h : elements parse path fuel index j = some j') :
    ∃ vs w, j.rest = w ++ 93 :: j'.rest ∧ Derives (.elements vs) w ∧ (∀ v ∈ vs, v.Within n) ∧
      Takes (selectedElements path index vs) false j j' := by
  induction fuel generalizing j index with
  | zero => cases h
  | succ fuel ih =>
    obtain ⟨k, hk, hmore⟩ := Option.bind_eq_some_iff.mp h
    clear h
    obtain ⟨v, a, w, ha, hj, hv, hwithin, htakes⟩ := (hparse hk).derived
    obtain ⟨b, hb, hrest⟩ := whitespace_split k.rest
    have herror : errorAt (if path = 2 ∧ index = 0 then 3 else 0) v = false := by
      unfold errorAt
      rw [decide_eq_false (by split_ifs <;> decide), Bool.false_and]
    rw [herror] at htakes
    generalize hw : whitespace k.rest = r at hmore hrest
    cases r with
    | nil => cases hmore
    | cons e r =>
      dsimp only at hmore
      split at hmore
      next hclose =>
        cases hmore
        subst hclose
        refine ⟨[v], a ++ (w ++ b), ?_, .lastElement ha hv hb, ?_, ?_⟩
        · rw [hj, hrest]
          simp only [List.append_assoc]
        · intro u hu
          rw [List.mem_singleton.mp hu]
          exact hwithin
        · exact Takes.congr ⟨htakes.taken, htakes.error⟩ (List.append_nil _).symm rfl
      next hclose =>
      split at hmore
      · cases hmore
      next hcomma =>
        rw [ne_eq, not_not] at hcomma
        subst hcomma
        obtain ⟨vs, more, helements, hderives, hall, hrestTakes⟩ := ih hmore
        change r = _ at helements
        refine ⟨v :: vs, a ++ (w ++ (b ++ 44 :: more)), ?_, .element ha hv hb hderives, ?_, ?_⟩
        · rw [hj, hrest, helements]
          simp only [List.append_assoc, List.cons_append]
        · intro u hu
          rcases List.mem_cons.mp hu with rfl | hu
          · exact hwithin
          · exact hall u hu
        · exact htakes.append hrestTakes.from

theorem literal_sound {word p rest : List UInt8} (h : literal word p = some rest) :
    p = word ++ rest := by
  unfold literal at h
  split at h
  next hword =>
    cases h
    have hsplit := List.take_append_drop word.length p
    rw [hword] at hsplit
    exact hsplit.symm
  · cases h

theorem plainValue_sound {c : UInt8} {j j' : Json} (h : plainValue c j = some j') :
    (∃ w, Derives (.value .plain) w ∧ j.rest = w ++ j'.rest) ∧ j' = { j with rest := j'.rest } := by
  obtain ⟨p, hp, rfl⟩ := Option.map_eq_some_iff.mp h
  refine ⟨?_, rfl⟩
  split at hp
  · exact ⟨_, .literal (by decide), literal_sound hp⟩
  split at hp
  · exact ⟨_, .literal (by decide), literal_sound hp⟩
  split at hp
  · exact ⟨_, .literal (by decide), literal_sound hp⟩
  · obtain ⟨w, hw, hrest⟩ := number_sound hp
    exact ⟨w, .number hw, hrest⟩

theorem stringValue_sound {path : Nat} {j j' : Json} (h : stringValue path j = some j') :
    ∃ cps w, StringText cps w ∧ j.rest = w ++ j'.rest ∧
      Takes (selected path (.string cps)) false j j' := by
  unfold stringValue at h
  split at h
  · cases h
  next hseen =>
  split at h
  · cases h
  next cps p hstring =>
  obtain ⟨w, hw, hrest⟩ := string_iff.mp hstring
  split at h
  next hpath =>
    cases h
    refine ⟨cps, w, hw, hrest, Takes.congr (Takes.none p) ?_ rfl⟩
    unfold selected
    rw [if_neg hpath]
    split_ifs <;> rfl
  next hpath =>
  split at h
  · cases h
  next hlong =>
    cases h
    rw [ne_eq, not_not] at hpath
    rw [not_and, Bool.not_eq_true] at hseen
    refine ⟨cps, w, hw, hrest, ?_, (Bool.or_false _).symm⟩
    show absorb (selected path (.string cps)) (j.text, j.contentSeen) = _
    rw [hpath, selected, if_pos rfl, hseen hpath]
    show (capture (j.text, false) cps).bind some = _
    rw [capture, if_neg (by simpa using hlong)]
    rfl

/-- The brackets with nothing but whitespace in them. -/
theorem bracket_empty {start close : UInt8} {a b p : List UInt8} (hp : p = b ++ whitespace p)
    (hclose : (whitespace p).head? = some close) :
    a ++ start :: p = a ++ (start :: b ++ [close] ++ (whitespace p).drop 1) := by
  generalize whitespace p = r at hp hclose
  cases r with
  | nil => cases hclose
  | cons d r =>
    cases hclose
    rw [hp]
    simp

/-- What `value` takes is a value of the grammar, nested no deeper than the levels that are
left. -/
theorem value_sound {levels path : Nat} {j j' : Json} (h : value levels path j = some j') :
    ∃ n, levels = n + 1 ∧ Parsed n path j j' := by
  induction levels generalizing path j j' with
  | zero => cases h
  | succ n ih =>
    refine ⟨n, rfl, ?_⟩
    obtain ⟨a, ha, hj⟩ := whitespace_split j.rest
    unfold value at h
    dsimp only at h
    generalize whitespace j.rest = r at h hj
    cases r with
    | nil => cases h
    | cons c p =>
      dsimp only at h
      split at h
      next hc =>
        subst hc
        obtain ⟨b, hb, hp⟩ := whitespace_split p
        split at h
        next hempty =>
          cases h
          refine ⟨.object [], a, 123 :: b ++ [125], ha, ?_, .emptyObject hb, ?_, ?_⟩
          · rw [hj]
            exact bracket_empty hp hempty
          · cases n with
            | zero => rfl
            | succ n => exact fun m hm => by cases hm
          · refine Takes.congr (Takes.none _) (selected_object path []).symm ?_
            exact (errorAt_object path []).symm
        next hempty =>
          cases n with
          | zero =>
            obtain ⟨⟨key, q⟩, _, hbehind⟩ := Option.bind_eq_some_iff.mp h
            obtain ⟨q', _, hvalue⟩ := Option.bind_eq_some_iff.mp hbehind
            obtain ⟨k, hk, _⟩ := Option.bind_eq_some_iff.mp hvalue
            cases hk
          | succ n =>
            obtain ⟨ms, w, hrest, hderives, hall, htakes⟩ :=
              @members_sound _ n (fun hparse => by
                obtain ⟨m, hm, hparsed⟩ := ih hparse
                cases hm
                exact hparsed) _ _ _ _ h
            change whitespace p = _ at hrest
            refine ⟨.object ms, a, 123 :: (b ++ w) ++ [125], ha, ?_,
              .object (hderives.blank_members hb), hall, ?_⟩
            · rw [hj, hp, hrest]
              simp
            · exact Takes.congr htakes.from (selected_object path ms).symm
                (errorAt_object path ms).symm
      split at h
      next hc =>
        subst hc
        obtain ⟨b, hb, hp⟩ := whitespace_split p
        split at h
        next hempty =>
          cases h
          refine ⟨.array [], a, 91 :: b ++ [93], ha, ?_, .emptyArray hb, ?_, ?_⟩
          · rw [hj]
            exact bracket_empty hp hempty
          · cases n with
            | zero => rfl
            | succ n => exact fun v hv => by cases hv
          · refine Takes.congr (Takes.none _) (selected_array path []).symm ?_
            unfold errorAt hasError
            rw [Bool.and_false]
        next hempty =>
          cases n with
          | zero =>
            rw [elements] at h
            obtain ⟨k, hk, _⟩ := Option.bind_eq_some_iff.mp h
            cases hk
          | succ n =>
            obtain ⟨vs, w, hrest, hderives, hall, htakes⟩ :=
              @elements_sound _ n (fun hparse => by
                obtain ⟨m, hm, hparsed⟩ := ih hparse
                cases hm
                exact hparsed) _ _ _ _ _ h
            change whitespace p = _ at hrest
            refine ⟨.array vs, a, 91 :: (b ++ w) ++ [93], ha, ?_,
              .array (hderives.blank_elements hb), hall, ?_⟩
            · rw [hj, hp, hrest]
              simp
            · refine Takes.congr htakes.from (selected_array path vs).symm ?_
              unfold errorAt hasError
              rw [Bool.and_false]
      split at h
      next hc =>
        obtain ⟨cps, w, hw, hrest, htakes⟩ := stringValue_sound h
        refine ⟨.string cps, a, w, ha, ?_, .string hw, ?_, ?_⟩
        · rw [hj]
          exact congrArg (a ++ ·) hrest
        · cases n <;> trivial
        · refine Takes.congr htakes.from rfl ?_
          unfold errorAt hasError
          rw [Bool.and_false]
      · obtain ⟨⟨w, hw, hrest⟩, hsame⟩ := plainValue_sound h
        refine ⟨.plain, a, w, ha, ?_, hw, ?_, ?_⟩
        · rw [hj]
          exact congrArg (a ++ ·) hrest
        · cases n <;> trivial
        · rw [hsame]
          refine Takes.congr (Takes.none _) ?_ ?_
          · unfold selected
            split_ifs <;> rfl
          · unfold errorAt hasError
            rw [Bool.and_false]

/-! ## What is derived is parsed -/

/-- What parsing a phrase means, whatever is behind it. -/
def Parses : Phrase → List UInt8 → Prop
  | .value v, w => ∀ n path j j', v.Within n → whitespace j.rest = w ++ j'.rest → Stops j'.rest →
      Takes (selected path v) (errorAt path v) j j' → value (n + 1) path j = some j'
  | .elements vs, w => ∀ n path fuel index j j', (∀ v ∈ vs, v.Within n) →
      whitespace j.rest = whitespace (w ++ 93 :: j'.rest) → j.rest.length < fuel →
      Takes (selectedElements path index vs) false j j' →
      elements (value (n + 1)) path fuel index j = some j'
  | .members ms, w => ∀ n path fuel j j', (∀ m ∈ ms, m.2.Within n) →
      j.rest = whitespace (w ++ 125 :: j'.rest) → j.rest.length < fuel →
      Takes (selectedMembers path ms) (ms.any fun m => isError path m.1) j j' →
      members (value (n + 1)) path fuel j = some j'

theorem literal_complete (word rest : List UInt8) : literal word (word ++ rest) = some rest := by
  rw [literal, if_pos (List.take_left ..), List.drop_left]

/-- The first byte says what a value is. -/
theorem plain_head {w : List UInt8} (h : Derives (.value .plain) w) :
    ∃ c w', w = c :: w' ∧ c ≠ 123 ∧ c ≠ 91 ∧ c ≠ 34 ∧
      ∀ (rest : List UInt8) (j : Json), Stops rest → j.rest = w ++ rest →
        plainValue c j = some { j with rest := rest } := by
  cases h with
  | literal hmem =>
    unfold literals at hmem
    simp only [List.mem_cons, List.not_mem_nil, or_false] at hmem
    rcases hmem with rfl | rfl | rfl
    · refine ⟨_, _, rfl, by decide, by decide, by decide, fun rest j _ hj => ?_⟩
      rw [plainValue, if_pos rfl, hj, show text ['t', 'r', 'u', 'e'] = [116, 114, 117, 101] from rfl,
        literal_complete]
      rfl
    · refine ⟨_, _, rfl, by decide, by decide, by decide, fun rest j _ hj => ?_⟩
      rw [plainValue, if_neg (by decide), if_pos rfl, hj,
        show text ['f', 'a', 'l', 's', 'e'] = [102, 97, 108, 115, 101] from rfl, literal_complete]
      rfl
    · refine ⟨_, _, rfl, by decide, by decide, by decide, fun rest j _ hj => ?_⟩
      rw [plainValue, if_neg (by decide), if_neg (by decide), if_pos rfl, hj,
        show text ['n', 'u', 'l', 'l'] = [110, 117, 108, 108] from rfl, literal_complete]
      rfl
  | number hnumber =>
    obtain ⟨c, w', hw, hc⟩ := number_head hnumber
    have hne {d : UInt8} (hd : digit d = false) (h45 : d ≠ 45) : c ≠ d := by
      rintro rfl
      rcases hc with hc | hc
      · rw [hd] at hc
        cases hc
      · exact h45 hc
    refine ⟨c, w', hw, hne (by decide) (by decide), hne (by decide) (by decide),
      hne (by decide) (by decide), fun rest j hrest hj => ?_⟩
    rw [plainValue, if_neg (hne (by decide) (by decide)), if_neg (hne (by decide) (by decide)),
      if_neg (hne (by decide) (by decide)), hj, number_complete hnumber hrest]
    rfl

theorem stringValue_complete {cps : List Nat} {w : List UInt8} (h : StringText cps w) {path : Nat}
    {j j' : Json} (hj : j.rest = w ++ j'.rest)
    (htakes : Takes (selected path (.string cps)) false j j') :
    stringValue path j = some j' := by
  have hstring : string j.rest = some (cps, j'.rest) := string_iff.mpr ⟨w, h, hj⟩
  unfold stringValue
  rw [hstring]
  by_cases hpath : path = 5
  · subst hpath
    have htaken := htakes.taken
    change (capture (j.text, j.contentSeen) cps).bind some = _ at htaken
    rw [Option.bind_fun_some] at htaken
    unfold capture at htaken
    split at htaken
    · cases htaken
    next hok =>
      rw [not_or] at hok
      rw [if_neg fun hno => hok.1 hno.2]
      dsimp only
      rw [if_neg (by decide), if_neg hok.2]
      have herror := htakes.error
      rw [Bool.or_false] at herror
      obtain ⟨htext, hseen⟩ := Prod.mk.inj (Option.some.inj htaken)
      rw [htext, hseen, ← herror]
  · rw [if_neg fun hno => hpath hno.1]
    dsimp only
    rw [if_pos hpath]
    have hnone : selected path (.string cps) = [] := by
      unfold selected
      rw [if_neg hpath]
      split_ifs <;> rfl
    rw [hnone] at htakes
    rw [← htakes.eq]

theorem whitespace_twice (p : List UInt8) : whitespace (whitespace p) = whitespace p := by
  obtain ⟨a, ha, hp⟩ := whitespace_split p
  have hskip := whitespace_blank ha (whitespace p)
  rw [← hp] at hskip
  exact hskip.symm

theorem whitespace_length (p : List UInt8) : (whitespace p).length ≤ p.length := by
  obtain ⟨a, -, hp⟩ := whitespace_split p
  have hlength := congrArg List.length hp
  rw [List.length_append] at hlength
  omega

/-- In front of a value only whitespace is skipped. -/
theorem whitespace_value {a w : List UInt8} {v : Value} (ha : Blank a) (hv : Derives (.value v) w)
    (rest : List UInt8) : whitespace (a ++ (w ++ rest)) = w ++ rest := by
  obtain ⟨c, w', rfl, hc, -⟩ := hv.head
  rw [whitespace_blank ha, List.cons_append, whitespace_cons hc]

theorem whitespace_string {a k : List UInt8} {key : List Nat} (ha : Blank a)
    (hk : StringText key k) (rest : List UInt8) : whitespace (a ++ (k ++ rest)) = k ++ rest :=
  whitespace_value ha (.string hk) rest

theorem whitespace_mark {b : List UInt8} (hb : Blank b) {c : UInt8} (hc : space c = false)
    (rest : List UInt8) : whitespace (b ++ c :: rest) = c :: rest := by
  rw [whitespace_blank hb, whitespace_cons hc]

theorem value_cons {n path : Nat} {j : Json} {c : UInt8} {p : List UInt8}
    (h : whitespace j.rest = c :: p) :
    value (n + 1) path j =
      if c = 123 then
        if (whitespace p).head? = some 125 then some { j with rest := (whitespace p).drop 1 }
        else members (value n) path ((whitespace p).length + 1) { j with rest := whitespace p }
      else if c = 91 then
        if (whitespace p).head? = some 93 then some { j with rest := (whitespace p).drop 1 }
        else elements (value n) path ((whitespace p).length + 1) 0 { j with rest := whitespace p }
      else if c = 34 then stringValue path { j with rest := c :: p }
      else plainValue c { j with rest := c :: p } := by
  rw [value]
  dsimp only
  rw [h]

theorem plain_parsed {w : List UInt8} (h : Derives (.value .plain) w) :
    Parses (.value .plain) w := by
  intro n path j j' _ hj hstops htakes
  obtain ⟨c, w', rfl, hbrace, hbracket, hquote, hparse⟩ := plain_head h
  rw [List.cons_append] at hj
  rw [value_cons hj, if_neg hbrace, if_neg hbracket, if_neg hquote, hparse j'.rest _ hstops rfl]
  have hsame : j' = { j with rest := j'.rest } := by
    refine Takes.eq (htakes.congr ?_ ?_)
    · unfold selected
      split_ifs <;> rfl
    · unfold errorAt hasError
      rw [Bool.and_false]
  exact congrArg some hsame.symm

theorem elements_bracket {vs : List Value} {w : List UInt8} (h : Derives (.elements vs) w)
    (rest : List UInt8) : (whitespace (w ++ rest)).head? ≠ some 93 := by
  cases h with
  | lastElement hbefore hvalue hbehind =>
    rw [List.append_assoc, List.append_assoc, whitespace_value hbefore hvalue]
    obtain ⟨c, w', rfl, -, hc⟩ := hvalue.head
    exact fun hno => hc (Option.some.inj hno)
  | element hbefore hvalue hbehind _ =>
    rw [List.append_assoc, List.append_assoc, whitespace_value hbefore hvalue]
    obtain ⟨c, w', rfl, -, hc⟩ := hvalue.head
    exact fun hno => hc (Option.some.inj hno)

theorem members_brace {ms : List (List Nat × Value)} {w : List UInt8} (h : Derives (.members ms) w)
    (rest : List UInt8) : (whitespace (w ++ rest)).head? ≠ some 125 := by
  have hquote {key : List Nat} {k r : List UInt8} (hk : StringText key k) :
      (k ++ r).head? ≠ some 125 := by
    cases hk with
    | quoted _ => exact fun hno => absurd (Option.some.inj hno) (by decide)
  cases h with
  | lastMember hbefore hname _ _ _ _ =>
    rw [List.append_assoc, List.append_assoc, whitespace_string hbefore hname]
    exact hquote hname
  | member hbefore hname _ _ _ _ _ =>
    rw [List.append_assoc, List.append_assoc, whitespace_string hbefore hname]
    exact hquote hname

theorem errorAt_element (path index : Nat) (v : Value) :
    errorAt (if path = 2 ∧ index = 0 then 3 else 0) v = false := by
  unfold errorAt
  rw [decide_eq_false (by split_ifs <;> decide), Bool.false_and]

theorem errorAt_member (path : Nat) (key : List Nat) (v : Value) :
    errorAt (nextPath path key) v = false := by
  unfold errorAt
  rw [decide_eq_false (nextPath_ne_one path key), Bool.false_and]

theorem array_parsed {vs : List Value} {w : List UInt8} (h : Derives (.elements vs) w)
    (ih : Parses (.elements vs) w) : Parses (.value (.array vs)) (91 :: w ++ [93]) := by
  intro n path j j' hwithin hj _ htakes
  rw [List.append_assoc, List.cons_append] at hj
  rw [value_cons hj, if_neg (by decide), if_pos rfl, if_neg (elements_bracket h _)]
  cases n with
  | zero =>
    obtain rfl : vs = [] := hwithin
    cases h
  | succ n =>
    refine ih n path _ 0 _ j' hwithin (whitespace_twice _) (Nat.lt_succ_self _) ?_
    refine Takes.congr ⟨htakes.taken, htakes.error⟩ (selected_array path vs) ?_
    unfold errorAt hasError
    rw [Bool.and_false]

theorem object_parsed {ms : List (List Nat × Value)} {w : List UInt8} (h : Derives (.members ms) w)
    (ih : Parses (.members ms) w) : Parses (.value (.object ms)) (123 :: w ++ [125]) := by
  intro n path j j' hwithin hj _ htakes
  rw [List.append_assoc, List.cons_append] at hj
  rw [value_cons hj, if_pos rfl, if_neg (members_brace h _)]
  cases n with
  | zero =>
    obtain rfl : ms = [] := hwithin
    cases h
  | succ n =>
    refine ih n path _ _ j' hwithin rfl (Nat.lt_succ_self _) ?_
    exact Takes.congr ⟨htakes.taken, htakes.error⟩ (selected_object path ms) (errorAt_object path ms)

theorem element_parsed {v : Value} {vs : List Value} {a w b more : List UInt8} (ha : Blank a)
    (hv : Derives (.value v) w) (hb : Blank b) (ih : Parses (.value v) w)
    (ihrest : Parses (.elements vs) more) :
    Parses (.elements (v :: vs)) (a ++ (w ++ (b ++ 44 :: more))) := by
  intro n path fuel index j j' hwithin hj hfuel htakes
  obtain ⟨fuel, rfl⟩ := Nat.exists_eq_succ_of_ne_zero (Nat.ne_of_gt (Nat.zero_lt_of_lt hfuel))
  have htext : whitespace j.rest = w ++ (b ++ 44 :: (more ++ 93 :: j'.rest)) := by
    rw [hj, List.append_assoc, List.append_assoc, whitespace_value ha hv, List.append_assoc,
      List.cons_append]
  rw [selectedElements] at htakes
  obtain ⟨k, hk, hfirst, hrest⟩ :=
    (htakes.congr rfl (Bool.false_or false).symm).split (b ++ 44 :: (more ++ 93 :: j'.rest))
  have hvalue := ih n _ j k (hwithin v (List.mem_cons_self ..)) (by rw [hk, htext])
    (by rw [hk]; exact stops_blank hb (Or.inl rfl)) (hfirst.congr rfl (errorAt_element ..).symm)
  rw [elements, hvalue]
  rw [Option.bind_eq_bind, Option.bind_some]
  rw [hk, whitespace_mark hb (by decide)]
  dsimp only
  rw [if_neg (by decide), if_neg (by decide)]
  refine ihrest n path fuel (index + 1) _ j'
    (fun u hu => hwithin u (List.mem_cons_of_mem _ hu)) rfl ?_ ⟨hrest.taken, hrest.error⟩
  have hlength := whitespace_length j.rest
  rw [htext] at hlength
  simp only [List.length_append, List.length_cons] at hlength ⊢
  omega

theorem lastElement_parsed {v : Value} {a w b : List UInt8} (ha : Blank a)
    (hv : Derives (.value v) w) (hb : Blank b) (ih : Parses (.value v) w) :
    Parses (.elements [v]) (a ++ (w ++ b)) := by
  intro n path fuel index j j' hwithin hj hfuel htakes
  obtain ⟨fuel, rfl⟩ := Nat.exists_eq_succ_of_ne_zero (Nat.ne_of_gt (Nat.zero_lt_of_lt hfuel))
  have htext : whitespace j.rest = w ++ (b ++ 93 :: j'.rest) := by
    rw [hj, List.append_assoc, List.append_assoc, whitespace_value ha hv]
  rw [selectedElements] at htakes
  obtain ⟨k, hk, hfirst, hrest⟩ :=
    (htakes.congr rfl (Bool.false_or false).symm).split (b ++ 93 :: j'.rest)
  have hvalue := ih n _ j k (hwithin v (List.mem_cons_self ..)) (by rw [hk, htext])
    (by rw [hk]; exact stops_blank hb (Or.inr (Or.inl rfl)))
    (hfirst.congr rfl (errorAt_element ..).symm)
  rw [elements, hvalue]
  rw [Option.bind_eq_bind, Option.bind_some]
  rw [hk, whitespace_mark hb (by decide)]
  dsimp only
  rw [if_pos rfl, ← hrest.eq]

theorem member_parsed {key : List Nat} {v : Value} {ms : List (List Nat × Value)}
    {a k b c w d more : List UInt8} (ha : Blank a) (hname : StringText key k) (hb : Blank b)
    (hc : Blank c) (hv : Derives (.value v) w) (hd : Blank d) (ih : Parses (.value v) w)
    (ihrest : Parses (.members ms) more) :
    Parses (.members ((key, v) :: ms))
      (a ++ (k ++ (b ++ 58 :: (c ++ (w ++ (d ++ 44 :: more)))))) := by
  intro n path fuel j j' hwithin hj hfuel htakes
  obtain ⟨fuel, rfl⟩ := Nat.exists_eq_succ_of_ne_zero (Nat.ne_of_gt (Nat.zero_lt_of_lt hfuel))
  have htext : j.rest =
      k ++ (b ++ 58 :: (c ++ (w ++ (d ++ 44 :: (more ++ 125 :: j'.rest))))) := by
    rw [hj, List.append_assoc, List.append_assoc, whitespace_string ha hname]
    simp only [List.append_assoc, List.cons_append]
  obtain ⟨t, ht, hfirst, hrest⟩ := Takes.split (l := selected (nextPath path key) v)
    (e := isError path key) ⟨htakes.taken, htakes.error⟩ (d ++ 44 :: (more ++ 125 :: j'.rest))
  have hvalue := ih n (nextPath path key)
    { j with
      rest := c ++ (w ++ t.rest)
      providerError := j.providerError || isError path key } t
    (hwithin (key, v) (List.mem_cons_self ..)) (whitespace_value hc hv _)
    (by rw [ht]; exact stops_blank hd (Or.inl rfl))
    ⟨hfirst.taken, by rw [hfirst.error, errorAt_member, Bool.or_false]⟩
  rw [members, string_iff.mpr ⟨k, hname, htext⟩]
  show (expect 58 (whitespace (b ++ 58 :: _))).bind _ = _
  rw [whitespace_mark hb (by decide), expect_cons]
  show (value (n + 1) (nextPath path key) _).bind _ = _
  rw [← ht, hvalue]
  rw [Option.bind_some]
  rw [ht, whitespace_mark hd (by decide)]
  dsimp only
  rw [if_neg (by decide), if_neg (by decide)]
  refine ihrest n path fuel _ j' (fun m hm => hwithin m (List.mem_cons_of_mem _ hm)) rfl ?_
    ⟨hrest.taken, hrest.error⟩
  have hlength := whitespace_length (more ++ 125 :: j'.rest)
  rw [htext] at hfuel
  simp only [List.length_append, List.length_cons] at hlength hfuel ⊢
  omega

theorem lastMember_parsed {key : List Nat} {v : Value} {a k b c w d : List UInt8} (ha : Blank a)
    (hname : StringText key k) (hb : Blank b) (hc : Blank c) (hv : Derives (.value v) w)
    (hd : Blank d) (ih : Parses (.value v) w) :
    Parses (.members [(key, v)]) (a ++ (k ++ (b ++ 58 :: (c ++ (w ++ d))))) := by
  intro n path fuel j j' hwithin hj hfuel htakes
  obtain ⟨fuel, rfl⟩ := Nat.exists_eq_succ_of_ne_zero (Nat.ne_of_gt (Nat.zero_lt_of_lt hfuel))
  have htext : j.rest = k ++ (b ++ 58 :: (c ++ (w ++ (d ++ 125 :: j'.rest)))) := by
    rw [hj, List.append_assoc, List.append_assoc, whitespace_string ha hname]
    simp only [List.append_assoc, List.cons_append]
  obtain ⟨t, ht, hfirst, hrest⟩ := Takes.split (l := selected (nextPath path key) v)
    (e := isError path key) ⟨htakes.taken, htakes.error⟩ (d ++ 125 :: j'.rest)
  have hvalue := ih n (nextPath path key)
    { j with
      rest := c ++ (w ++ t.rest)
      providerError := j.providerError || isError path key } t
    (hwithin (key, v) (List.mem_cons_self ..)) (whitespace_value hc hv _)
    (by rw [ht]; exact stops_blank hd (Or.inr (Or.inr rfl)))
    ⟨hfirst.taken, by rw [hfirst.error, errorAt_member, Bool.or_false]⟩
  rw [members, string_iff.mpr ⟨k, hname, htext⟩]
  show (expect 58 (whitespace (b ++ 58 :: _))).bind _ = _
  rw [whitespace_mark hb (by decide), expect_cons]
  show (value (n + 1) (nextPath path key) _).bind _ = _
  rw [← ht, hvalue]
  rw [Option.bind_some]
  rw [ht, whitespace_mark hd (by decide)]
  dsimp only
  rw [if_pos rfl, ← hrest.eq]

theorem derives_parsed {phrase : Phrase} {w : List UInt8} (h : Derives phrase w) :
    Parses phrase w := by
  induction h with
  | literal hmem => exact plain_parsed (.literal hmem)
  | number hnumber => exact plain_parsed (.number hnumber)
  | @string cps w hstring =>
    intro n path j j' _ hj _ htakes
    obtain ⟨w⟩ := hstring
    rw [List.append_assoc, List.cons_append] at hj
    rw [value_cons hj, if_neg (by decide), if_neg (by decide), if_pos rfl]
    refine stringValue_complete (.quoted ‹_›) ?_ ⟨htakes.taken, ?_⟩
    · show 34 :: _ = _
      rw [List.append_assoc]
      rfl
    · rw [htakes.error]
      unfold errorAt hasError
      rw [Bool.and_false]
  | @emptyArray a hblank =>
    intro n path j j' _ hj _ htakes
    rw [List.append_assoc, List.cons_append] at hj
    have hmark : whitespace (a ++ ([93] ++ j'.rest)) = 93 :: j'.rest :=
      whitespace_mark hblank (by decide) _
    rw [value_cons hj, if_neg (by decide), if_pos rfl, hmark, if_pos List.head?_cons]
    refine congrArg some (Takes.eq (htakes.congr (selected_array path []) ?_)).symm
    unfold errorAt hasError
    rw [Bool.and_false]
  | array h ih => exact array_parsed h ih
  | @emptyObject a hblank =>
    intro n path j j' _ hj _ htakes
    rw [List.append_assoc, List.cons_append] at hj
    have hmark : whitespace (a ++ ([125] ++ j'.rest)) = 125 :: j'.rest :=
      whitespace_mark hblank (by decide) _
    rw [value_cons hj, if_pos rfl, hmark, if_pos List.head?_cons]
    exact congrArg some
      (Takes.eq (htakes.congr (selected_object path []) (errorAt_object path []))).symm
  | object h ih => exact object_parsed h ih
  | lastElement ha hv hb ih => exact lastElement_parsed ha hv hb ih
  | element ha hv hb _ ih ihrest => exact element_parsed ha hv hb ih ihrest
  | lastMember ha hname hb hc hv hd ih => exact lastMember_parsed ha hname hb hc hv hd ih
  | member ha hname hb hc hv hd _ ih ihrest => exact member_parsed ha hname hb hc hv hd ih ihrest

/-! ## Events -/

/-- The data is this object, with whitespace around it. -/
structure Document (v : Value) (data : List UInt8) : Prop where
  object : ∃ ms, v = .object ms
  derived : ∃ a w b, Blank a ∧ Blank b ∧ Derives (.value v) w ∧ data = a ++ (w ++ b)

/-- What an event may be. -/
structure Permitted (v : Value) : Prop where
  nesting : v.Within 16
  error : hasError v = false
  single : (contents v).length ≤ 1
  short : ∀ cps ∈ contents v, cps.length ≤ 4095

/-- The text of an event. -/
def emitted (v : Value) : List UInt8 := ((contents v).headD []).map ascii

theorem absorb_one {l : List (List Nat)} {s : List UInt8 × Bool} :
    absorb l ([], false) = some s ↔ l.length ≤ 1 ∧ (∀ cps ∈ l, cps.length ≤ 4095) ∧
      s = ((l.headD []).map ascii, !l.isEmpty) := by
  cases l with
  | nil =>
    refine ⟨fun h => ⟨Nat.zero_le _, fun _ hc => (by cases hc), (Option.some.inj h).symm⟩, ?_⟩
    rintro ⟨-, -, rfl⟩
    rfl
  | cons cps l =>
    show (capture ([], false) cps).bind (absorb l) = _ ↔ _
    by_cases hlong : z80ChatLineMax ≤ cps.length
    · rw [capture, if_pos (Or.inr hlong)]
      refine ⟨fun h => (by cases h), fun ⟨_, hshort, _⟩ => ?_⟩
      have hle := hshort cps (List.mem_cons_self ..)
      unfold z80ChatLineMax at hlong
      omega
    · rw [capture, if_neg (by simpa using hlong), Option.bind_some]
      unfold z80ChatLineMax at hlong
      cases l with
      | nil =>
        refine ⟨fun h => ⟨Nat.le_refl _, fun c hc => ?_, (Option.some.inj h).symm⟩, ?_⟩
        · rw [List.mem_singleton.mp hc]
          omega
        · rintro ⟨-, -, rfl⟩
          rfl
      | cons c l =>
        refine ⟨fun h => ?_, fun ⟨hlen, _, _⟩ => ?_⟩
        · change (capture (cps.map ascii, true) c).bind (absorb l) = _ at h
          rw [capture, if_pos (Or.inl rfl)] at h
          cases h
        · simp only [List.length_cons] at hlen
          omega

theorem blank_of_whitespace {p : List UInt8} (h : whitespace p = []) : Blank p := by
  obtain ⟨a, ha, hp⟩ := whitespace_split p
  rw [h, List.append_nil] at hp
  rwa [hp]

theorem whitespace_of_blank {p : List UInt8} (h : Blank p) : whitespace p = [] := by
  have hskip := whitespace_blank h []
  rwa [List.append_nil] at hskip

theorem stops_end {b : List UInt8} (hb : Blank b) : Stops b := by
  cases b with
  | nil =>
    intro d hd
    cases hd
  | cons d b =>
    intro d' hd
    exact @stops_blank (d :: b) [] hb 44 (Or.inl rfl) d' hd

/-- An event has a text exactly when its data is permitted, and then that of its content. -/
theorem eventData_text {data out : List UInt8} :
    eventData data = .text out ↔ ∃ v, Document v data ∧ Permitted v ∧ out = emitted v := by
  unfold eventData
  constructor
  · intro h
    split at h
    · cases h
    dsimp only at h
    split at h
    · cases h
    next hbrace =>
    rw [ne_eq, not_not] at hbrace
    split at h
    · cases h
    next j hj =>
    split at h
    · cases h
    next hend =>
    rw [ne_eq, not_not] at hend
    split at h
    · cases h
    next herror =>
    cases h
    obtain ⟨n, hn, ⟨v, a, w, ha, hp, hv, hwithin, htakes⟩⟩ := value_sound hj
    obtain rfl : n = 16 := (Nat.succ.inj hn).symm
    obtain ⟨b, hb, hdata⟩ := whitespace_split data
    change whitespace data = _ at hp
    obtain ⟨hlen, hshort, htext⟩ := absorb_one.mp htakes.taken
    have hobject : ∃ ms, v = .object ms := by
      rw [hv.brace]
      obtain ⟨c, w', rfl, -, -⟩ := hv.head
      cases a with
      | nil =>
        rw [hp] at hbrace
        exact hbrace
      | cons d a =>
        rw [hp] at hbrace
        have hspace := ha d (List.mem_cons_self ..)
        rw [Option.some.inj hbrace] at hspace
        exact absurd hspace (by decide)
    have hnone : hasError v = false := by
      have herr := htakes.error
      rw [Bool.false_or] at herr
      rw [Bool.not_eq_true, herr] at herror
      exact herror
    refine ⟨v, ⟨hobject, b ++ a, w, j.rest, hb.append ha, blank_of_whitespace hend, hv, ?_⟩,
      ⟨hwithin, hnone, hlen, hshort⟩, congrArg Prod.fst htext⟩
    rw [hdata, hp, List.append_assoc]
  · rintro ⟨v, ⟨hobject, a, w, b, ha, hb, hv, rfl⟩, hpermitted, rfl⟩
    have hspace : whitespace (a ++ (w ++ b)) = w ++ b := whitespace_value ha hv b
    have hbrace : (w ++ b).head? = some 123 := by
      obtain ⟨c, w', rfl, -, -⟩ := hv.head
      exact hv.brace.mp hobject
    have hparsed : value 17 1 ⟨w ++ b, [], false, false⟩ =
        some ⟨b, emitted v, !(contents v).isEmpty, false⟩ := by
      refine derives_parsed hv 16 1 _ _ hpermitted.nesting ?_ (stops_end hb) ⟨?_, ?_⟩
      · exact whitespace_value (a := []) (fun _ hc => by cases hc) hv b
      · exact absorb_one.mpr ⟨hpermitted.single, hpermitted.short, rfl⟩
      · exact hpermitted.error.symm
    rw [if_neg, hspace]
    · dsimp only
      rw [if_neg (by rw [hbrace]; exact not_not.mpr rfl), hparsed]
      dsimp only
      rw [whitespace_of_blank hb, if_neg (by simp), if_neg Bool.false_ne_true]
    · intro hdone
      rw [hdone] at hspace
      rw [← hspace] at hbrace
      exact absurd hbrace (by decide)

/-- What stands behind `data:` and perhaps a space. -/
def payload (line : List UInt8) : Option (List UInt8) :=
  if line.take 5 = text ['d', 'a', 't', 'a', ':'] then
    some (if (line.drop 5).head? = some 32 then (line.drop 5).drop 1 else line.drop 5)
  else none

/-- An event other than the last is accepted exactly when its data is one object that is
permitted, and then its text is that of the string at `choices[0].delta.content`. -/
theorem extraction_exact (s : Stream) (data : List UInt8) (hline : payload s.line = some data)
    (hdone : data ≠ text ['[', 'D', 'O', 'N', 'E', ']']) (herror : s.error = none) :
    ((event s).error = none ↔ ∃ v, Document v data ∧ Permitted v) ∧
      ∀ v, Document v data → Permitted v →
        event s = { s with content := emitted v, position := 0 } := by
  unfold payload at hline
  split at hline
  swap
  · cases hline
  next hdata =>
  have hdata : ¬s.line.take 5 ≠ text ['d', 'a', 't', 'a', ':'] := not_not.mpr hdata
  have htext (content : List UInt8) (hout : eventData data = .text content) :
      event s = { s with content := content, position := 0 } := by
    unfold event
    rw [if_neg hdata]
    dsimp only
    rw [Option.some.inj hline, hout]
  have hfails (message : String) (hout : eventData data = .error message) :
      event s = { s with content := [], position := 0, error := some message } := by
    unfold event
    rw [if_neg hdata]
    dsimp only
    rw [Option.some.inj hline, hout]
  refine ⟨?_, fun v hdocument hpermitted => ?_⟩
  · constructor
    · intro hnone
      cases hout : eventData data with
      | done =>
        unfold eventData at hout
        rw [if_neg hdone] at hout
        dsimp only at hout
        split_ifs at hout
        split at hout
        · cases hout
        · split_ifs at hout
      | text out =>
        obtain ⟨v, hdocument, hpermitted, -⟩ := eventData_text.mp hout
        exact ⟨v, hdocument, hpermitted⟩
      | error message =>
        rw [hfails message hout] at hnone
        cases hnone
    · rintro ⟨v, hdocument, hpermitted⟩
      rw [htext _ (eventData_text.mpr ⟨v, hdocument, hpermitted, rfl⟩)]
      exact herror
  · exact htext _ (eventData_text.mpr ⟨v, hdocument, hpermitted, rfl⟩)

/-- An event with a short text. -/
def greeting : List UInt8 :=
  text "\x7b\"choices\":[\x7b\"delta\":\x7b\"content\":\"hi\"\x7d\x7d]\x7d".toList

theorem extraction_exact_greeting :
    eventData greeting = .text (text ['h', 'i']) ∧ ∃ v, Document v greeting ∧ Permitted v := by
  have hevent : eventData greeting = .text (text ['h', 'i']) := by decide +kernel
  have hexact := extraction_exact { streamInit with
    line := text ['d', 'a', 't', 'a', ':', ' '] ++ greeting } greeting (by decide +kernel)
    (by decide +kernel) rfl
  exact ⟨hevent, hexact.1.mp (by decide +kernel)⟩

end Z80Sbc.Chat
