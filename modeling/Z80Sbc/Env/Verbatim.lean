import Z80Sbc.Env.CommandFrame

/-! # What an insert stores

`ENV -I NAME=VALUE` reads its name and the first word of its value as one token, and joins the
other words to it with one blank. The value comes back as it was typed exactly when the token
fits its buffer and the first blanks of the value are a single space. -/

namespace Z80Sbc.Env.Verbatim
open Z80Sbc.Storage Z80Sbc.Env Z80Sbc.Env.SnapshotSafety Z80Sbc.Env.TableDurability
open Z80Sbc.Env.CommandFrame

/-- The first word of a value that does not begin with a blank, and what stands behind it. -/
def firstWord (value : List UInt8) : List UInt8 := value.takeWhile fun c => !isBlank c
def gap (value : List UInt8) : List UInt8 := value.dropWhile fun c => !isBlank c

/-- A name as the limits have it. -/
structure Name (name : List UInt8) : Prop extends Word name where
  ne : name ≠ []
  fits : name.length < envKeySize
  equals : '='.toUInt8 ∉ name

/-- A value as the limits have it, without blanks around it. -/
structure Value (value : List UInt8) : Prop where
  fits : value.length < envValueSize
  nul : 0 ∉ value
  first : ∀ c ∈ value.head?, isBlank c = false
  last : ∀ c ∈ value.getLast?, isBlank c = false

/-- The same as tests. -/
theorem Name.of_all {name : List UInt8} (hne : name ≠ []) (hfits : name.length < envKeySize)
    (hall : (name.all fun c => c != 0 && !isBlank c && c != '='.toUInt8) = true) : Name name := by
  rw [List.all_eq_true] at hall
  have hbyte (c : UInt8) (hc : c ∈ name) : c ≠ 0 ∧ isBlank c = false ∧ c ≠ '='.toUInt8 := by
    have hone := hall c hc
    rw [Bool.and_eq_true, Bool.and_eq_true, bne_iff_ne, Bool.not_eq_true', bne_iff_ne] at hone
    exact ⟨hone.1.1, hone.1.2, hone.2⟩
  exact ⟨⟨fun h => (hbyte 0 h).1 rfl, fun c hc => (hbyte c hc).2.1⟩, hne, hfits,
    fun h => (hbyte _ h).2.2 rfl⟩

theorem Value.of_all {value : List UInt8} (hfits : value.length < envValueSize)
    (hnul : (value.all fun c => c != 0) = true)
    (hfirst : (value.head?.all fun c => !isBlank c) = true)
    (hlast : (value.getLast?.all fun c => !isBlank c) = true) : Value value := by
  rw [List.all_eq_true] at hnul
  refine ⟨hfits, fun h => bne_iff_ne.mp (hnul 0 h) rfl, fun c hc => ?_, fun c hc => ?_⟩
  · rw [Option.mem_def.mp hc] at hfirst
    simpa using hfirst
  · rw [Option.mem_def.mp hc] at hlast
    simpa using hlast

/-- The text of the command. -/
def insertLine (name value : List UInt8) : List UInt8 :=
  ascii "-I " ++ (name ++ '='.toUInt8 :: value)

/-- Name, `=` and first word fit the token, and behind the first word there is nothing, or a
space and no further blank. -/
def Kept (name value : List UInt8) : Prop :=
  name.length + 1 + (firstWord value).length < envValueSize ∧
    (gap value = [] ∨ ∃ c more, gap value = ' '.toUInt8 :: c :: more ∧ isBlank c = false)

/-! ## Tokens -/

theorem skipSpaces_eq {text : List UInt8} (h : ∀ c ∈ text.head?, isBlank c = false) :
    skipSpaces text = text := by
  cases text with
  | nil => rfl
  | cons c text => exact List.dropWhile_cons_of_neg (by simp [h c rfl])

theorem nextToken_append {size : Nat} {w t : List UInt8} (hw : ∀ c ∈ w, isBlank c = false)
    (hne : w ≠ []) (ht : ∀ c ∈ t.head?, isBlank c = true) :
    nextToken size (w ++ t) = (w.take (size - 1), skipSpaces t) := by
  have hskip : skipSpaces (w ++ t) = w ++ t := by
    refine skipSpaces_eq fun c hc => ?_
    rw [List.head?_append_of_ne_nil _ hne] at hc
    exact hw c (List.mem_of_mem_head? hc)
  have hall : ∀ c ∈ w, (!isBlank c) = true := fun c hc => by rw [hw c hc]; rfl
  have htake : t.takeWhile (fun c => !isBlank c) = [] := by
    cases t with
    | nil => rfl
    | cons c t => exact List.takeWhile_cons_of_neg (by simp [ht c rfl])
  have hdrop : t.dropWhile (fun c => !isBlank c) = t := by
    cases t with
    | nil => rfl
    | cons c t => exact List.dropWhile_cons_of_neg (by simp [ht c rfl])
  unfold nextToken
  dsimp only
  rw [hskip, List.takeWhile_append_of_pos hall, List.dropWhile_append_of_pos hall, htake, hdrop,
    List.append_nil]

theorem word_gap (value : List UInt8) : firstWord value ++ gap value = value :=
  List.takeWhile_append_dropWhile

theorem gap_head (value : List UInt8) : ∀ c ∈ (gap value).head?, isBlank c = true := by
  intro c hc
  have hne : gap value ≠ [] := by
    intro hnil
    rw [hnil] at hc
    cases hc
  have hhead := List.head_dropWhile_not (fun c => !isBlank c) hne
  rw [List.head?_eq_some_head hne] at hc
  obtain rfl := Option.some.inj hc
  simpa [gap] using hhead

theorem firstWord_blank (value : List UInt8) : ∀ c ∈ firstWord value, isBlank c = false := by
  intro c hc
  simpa using List.mem_takeWhile_imp hc

/-- What `-I` stores. -/
def stored (name value : List UInt8) : List UInt8 :=
  let front := (firstWord value).take (envValueSize - 2 - name.length)
  let rest := skipSpaces (gap value)
  trimText
    (if rest ≠ [] then
      let front := if front ≠ [] then
          front ++ (ascii " ").take (envValueSize - front.length - 1) else front
      front ++ rest.take (envValueSize - front.length - 1)
    else front)

/-- The token that holds the name. -/
def token (name value : List UInt8) : List UInt8 :=
  name ++ '='.toUInt8 :: (firstWord value).take (envValueSize - 2 - name.length)

theorem nextToken_insert {name value : List UInt8} (hn : Name name) :
    nextToken envValueSize (name ++ '='.toUInt8 :: value) =
      (token name value, skipSpaces (gap value)) := by
  have hsplit : name ++ '='.toUInt8 :: value =
      (name ++ '='.toUInt8 :: firstWord value) ++ gap value := by
    rw [List.append_assoc, List.cons_append, word_gap]
  have hblank : ∀ c ∈ name ++ '='.toUInt8 :: firstWord value, isBlank c = false := by
    intro c hc
    rcases List.mem_append.mp hc with hc | hc
    · exact hn.blank c hc
    · rcases List.mem_cons.mp hc with rfl | hc
      · decide
      · exact firstWord_blank value c hc
  rw [hsplit, nextToken_append hblank (by simp) (gap_head value), List.take_append,
    List.take_of_length_le (by have := hn.fits; simp only [envKeySize, envValueSize] at *; omega)]
  congr 2
  have hroom : envValueSize - 1 - name.length = (envValueSize - 2 - name.length) + 1 := by
    have := hn.fits
    simp only [envKeySize, envValueSize] at *
    omega
  rw [hroom, List.take_succ_cons]

theorem Name.key {name : List UInt8} (hn : Name name) :
    normalizeKey name = name.map toupper ∧ keyValid (normalizeKey name) = true := by
  have hupper := upper_of_short hn.toWord hn.fits
  refine ⟨hupper, keyValid_iff.mpr ⟨?_, ?_⟩⟩
  · rw [hupper]
    exact List.map_eq_nil_iff.not.mpr hn.ne
  · rw [hupper, List.length_map]
    exact hn.fits

theorem parse_insert {name value : List UInt8} (hn : Name name) (hv : Value value) :
    parseAssignment (token name value) (skipSpaces (gap value)) =
      (some (normalizeKey name, stored name value), (token name value).set name.length 0) := by
  have hfind : (token name value).findIdx? (· = '='.toUInt8) = some name.length := by
    have hnone : name.findIdx? (fun c => decide (c = '='.toUInt8)) = none := by
      rw [List.findIdx?_eq_none_iff]
      intro c hc
      rw [decide_eq_false_iff_not]
      rintro rfl
      exact hn.equals hc
    rw [token, List.findIdx?_append, hnone, List.findIdx?_cons]
    simp
  have htake : (token name value).take name.length = name := List.take_left
  have hdrop : (token name value).drop (name.length + 1) =
      (firstWord value).take (envValueSize - 2 - name.length) := by
    rw [token, ← List.drop_drop, List.drop_left]
    rfl
  have hcopy : copyText envValueSize ((firstWord value).take (envValueSize - 2 - name.length)) =
      (firstWord value).take (envValueSize - 2 - name.length) := by
    have hword : Word ((firstWord value).take (envValueSize - 2 - name.length)) :=
      Word.take ⟨fun h0 => hv.nul ((List.takeWhile_sublist _).subset h0),
        firstWord_blank value⟩ _
    unfold copyText
    rw [hword.cstr, List.take_of_length_le]
    rw [List.length_take]
    simp only [envValueSize]
    omega
  have hkey : normalizeKey name ≠ [] := (keyValid_iff.mp hn.key.2).1
  unfold parseAssignment
  simp only [hfind, htake, hdrop, hcopy]
  rw [if_pos hkey]
  rfl

/-! ## Joining -/

/-- A value without blanks around it is not trimmed. -/
theorem trimText_eq {text : List UInt8} (hfirst : ∀ c ∈ text.head?, isBlank c = false)
    (hlast : ∀ c ∈ text.getLast?, isBlank c = false) : trimText text = text := by
  unfold trimText
  rw [skipSpaces_eq hfirst]
  refine List.rdropWhile_eq_self_iff.mpr fun hne => ?_
  rw [hlast _ (List.getLast?_eq_some_getLast hne)]
  exact Bool.false_ne_true

theorem trimText_length (text : List UInt8) : (trimText text).length ≤ text.length :=
  Nat.le_trans (List.rdropWhile_prefix ..).length_le (List.dropWhile_sublist _).length_le

/-- What is trimmed is a front part, when it does not begin with a blank. -/
theorem trimText_prefix {text : List UInt8} (hfirst : ∀ c ∈ text.head?, isBlank c = false) :
    trimText text <+: text := by
  unfold trimText
  rw [skipSpaces_eq hfirst]
  exact List.rdropWhile_prefix ..

theorem Value.word_ne {value : List UInt8} (hv : Value value) (hne : value ≠ []) :
    firstWord value ≠ [] := by
  cases value with
  | nil => exact absurd rfl hne
  | cons c value =>
    unfold firstWord
    rw [List.takeWhile_cons_of_pos (by rw [hv.first c rfl]; rfl)]
    exact List.cons_ne_nil _ _

/-- Behind the blanks there is a word, as the value does not end with a blank. -/
theorem Value.rest_nil {value : List UInt8} (hv : Value value)
    (hnil : skipSpaces (gap value) = []) : gap value = [] := by
  by_contra hne
  have hall := List.dropWhile_eq_nil_iff.mp hnil
  have hlast : value.getLast? = some ((gap value).getLast hne) := by
    have happend := List.getLast?_append_of_ne_nil (firstWord value) hne
    rw [word_gap] at happend
    exact happend.trans (List.getLast?_eq_some_getLast hne)
  have hblank := hall _ (List.getLast_mem hne)
  rw [hv.last _ hlast] at hblank
  cases hblank

/-- The words behind the first are joined to it with one blank. -/
theorem stored_joined {name value : List UInt8} (hn : Name name) (hv : Value value)
    (hgap : gap value ≠ []) :
    stored name value = trimText ((firstWord value).take (envValueSize - 2 - name.length) ++
      ' '.toUInt8 :: (skipSpaces (gap value)).take (envValueSize - 1 -
        (((firstWord value).take (envValueSize - 2 - name.length)).length + 1))) := by
  have hrest : skipSpaces (gap value) ≠ [] := fun hnil => hgap (hv.rest_nil hnil)
  have hvalue : value ≠ [] := by
    rintro rfl
    exact hgap rfl
  have hfits := hn.fits
  have hfront : (firstWord value).take (envValueSize - 2 - name.length) ≠ [] := by
    rw [Ne, List.take_eq_nil_iff, not_or]
    refine ⟨?_, hv.word_ne hvalue⟩
    simp only [envKeySize, envValueSize] at *
    omega
  have hlen := List.length_take_le (envValueSize - 2 - name.length) (firstWord value)
  unfold stored
  dsimp only
  generalize (firstWord value).take (envValueSize - 2 - name.length) = front at hfront hlen ⊢
  have hblank : (ascii " ").take (envValueSize - front.length - 1) = [' '.toUInt8] := by
    refine List.take_of_length_le ?_
    show 1 ≤ _
    simp only [envValueSize] at *
    omega
  rw [if_pos hrest, if_pos hfront, hblank, List.append_assoc, List.singleton_append,
    List.length_append, List.length_singleton]
  congr 4
  omega

theorem stored_iff {name value : List UInt8} (hn : Name name) (hv : Value value) :
    stored name value = value ↔ Kept name value := by
  have hfits := hn.fits
  have hvfits := hv.fits
  have hroom : name.length + 1 + (firstWord value).length < envValueSize ↔
      (firstWord value).length ≤ envValueSize - 2 - name.length := by
    simp only [envKeySize, envValueSize] at *
    omega
  unfold Kept
  rw [hroom]
  by_cases hgap : gap value = []
  · -- one word
    have hword : firstWord value = value := by
      have hsplit := word_gap value
      rwa [hgap, List.append_nil] at hsplit
    have hstored : stored name value =
        trimText (value.take (envValueSize - 2 - name.length)) := by
      unfold stored
      rw [hgap, hword]
      rfl
    rw [hstored, hword]
    constructor
    · intro heq
      refine ⟨?_, Or.inl hgap⟩
      have hlen := trimText_length (value.take (envValueSize - 2 - name.length))
      rw [heq, List.length_take] at hlen
      omega
    · rintro ⟨hle, -⟩
      rw [List.take_of_length_le hle, trimText_eq hv.first hv.last]
  · have hvalue : value ≠ [] := by
      rintro rfl
      exact hgap rfl
    have hwne := hv.word_ne hvalue
    have hsplit := word_gap value
    rw [stored_joined hn hv hgap]
    generalize hk : envValueSize - 2 - name.length = k
    have hkpos : 0 < k := by
      simp only [envKeySize, envValueSize] at *
      omega
    have hhead : ∀ rest, ∀ c ∈ ((firstWord value).take k ++ rest).head?, isBlank c = false := by
      intro rest c hc
      have hne : (firstWord value).take k ≠ [] := by
        rw [Ne, List.take_eq_nil_iff, not_or]
        exact ⟨Nat.ne_of_gt hkpos, hwne⟩
      rw [List.head?_append_of_ne_nil _ hne] at hc
      exact firstWord_blank value c (List.mem_of_mem_take (List.mem_of_mem_head? hc))
    constructor
    · intro heq
      have hprefix := trimText_prefix (hhead (' '.toUInt8 ::
        (skipSpaces (gap value)).take (envValueSize - 1 - (((firstWord value).take k).length + 1))))
      rw [heq] at hprefix
      generalize hmore : (skipSpaces (gap value)).take _ = more at hprefix
      obtain ⟨t, ht⟩ := hprefix
      nth_rewrite 1 [← hsplit] at ht
      rw [List.append_assoc] at ht
      have hle : (firstWord value).length ≤ k := by
        by_contra hlt
        have hlt : k < (firstWord value).length := Nat.lt_of_not_le hlt
        have hlen : ((firstWord value).take k).length = k := by
          rw [List.length_take]
          omega
        -- the token was cut at byte k, and a blank was put there
        have hbyte := congrArg (fun l => l[k]?) ht
        rw [List.getElem?_append_left hlt, List.getElem?_append_right (by omega), hlen,
          Nat.sub_self, List.getElem?_cons_zero] at hbyte
        have hblank := firstWord_blank value _ (List.mem_of_getElem? hbyte)
        exact absurd hblank (by decide)
      rw [List.take_of_length_le hle] at ht
      have hrest := List.append_cancel_left ht
      refine ⟨hle, Or.inr ?_⟩
      cases hcases : gap value with
      | nil => exact absurd hcases hgap
      | cons g others =>
        rw [hcases, List.cons_append] at hrest
        obtain ⟨rfl, htail⟩ := List.cons.inj hrest
        have hskip : skipSpaces (gap value) = skipSpaces others := by
          rw [hcases]
          rfl
        cases others with
        | nil => exact absurd (hv.rest_nil hskip) hgap
        | cons c others =>
          refine ⟨c, others, rfl, ?_⟩
          have hne : skipSpaces (c :: others) ≠ [] := by
            rw [← hskip]
            exact fun hnil => hgap (hv.rest_nil hnil)
          have hfirst := List.head_dropWhile_not isBlank hne
          have hhead : (skipSpaces (c :: others)).head? = some c := by
            have hmem : more.head? = some c := by
              rw [← htail]
              rfl
            rw [← hmore, hskip, List.head?_take] at hmem
            split at hmem
            · cases hmem
            · exact hmem
          rw [List.head?_eq_some_head hne] at hhead
          have hc := Option.some.inj hhead
          unfold skipSpaces at hc
          rwa [hc] at hfirst
    · rintro ⟨hle, hgap' | ⟨c, more, hc, hblank⟩⟩
      · exact absurd hgap' hgap
      · have hskip : skipSpaces (gap value) = c :: more := by
          rw [hc]
          show skipSpaces (c :: more) = c :: more
          exact skipSpaces_eq fun x hx => by
            obtain rfl := Option.some.inj hx
            exact hblank
        have hlen := congrArg List.length hsplit
        rw [List.length_append, hc, List.length_cons] at hlen
        rw [List.take_of_length_le hle, hskip, List.take_of_length_le, ← hc, hsplit,
          trimText_eq hv.first hv.last]
        simp only [envValueSize] at *
        omega

/-! ## The command and the read -/

/-- Commands EXECUTE and GET with a request. -/
def envCommandGet : Nat := 2

def command (io : Io) (d : Driver) (f : Flash) (request : List UInt8) (n : Nat) :
    (Driver × Response) × Flash :=
  (executeCommand io { d with request } n).run f

theorem insert_executes {io : Io} {d : Driver} {name value : List UInt8} (hn : Name name)
    (hv : Value value) (hnew : findIndex d.entries (normalizeKey name) = none) :
    executeCli io { d with request := insertLine name value } =
      setAndReport io { d with request := insertLine name value } (normalizeKey name)
        (stored name value) := by
  have hcstr : cstr (insertLine name value) = insertLine name value := by
    refine List.takeWhile_eq_self_iff.mpr fun c hc => ?_
    rw [decide_eq_true_eq]
    rintro rfl
    rcases List.mem_append.mp hc with hc | hc
    · exact absurd hc (by decide)
    rcases List.mem_append.mp hc with hc | hc
    · exact hn.nul hc
    rcases List.mem_cons.mp hc with hc | hc
    · exact absurd hc (by decide)
    · exact hv.nul hc
  have hfirst : nextToken envValueSize (insertLine name value) =
      (ascii "-I", name ++ '='.toUInt8 :: value) := by
    have hsplit : insertLine name value =
        ascii "-I" ++ ' '.toUInt8 :: (name ++ '='.toUInt8 :: value) := rfl
    have hskip : skipSpaces (name ++ '='.toUInt8 :: value) = name ++ '='.toUInt8 :: value := by
      refine skipSpaces_eq fun c hc => ?_
      rw [List.head?_append_of_ne_nil _ hn.ne] at hc
      exact hn.blank c (List.mem_of_mem_head? hc)
    have hword : Name (ascii "-I") := .of_all (by decide) (by decide) (by decide)
    have hblank : ∀ c ∈ (' '.toUInt8 :: (name ++ '='.toUInt8 :: value)).head?, isBlank c = true := by
      intro c hc
      obtain rfl := Option.some.inj hc
      decide
    rw [hsplit, nextToken_append hword.blank hword.ne hblank]
    exact congrArg (Prod.mk (ascii "-I")) hskip
  have hget : getValue d.entries (normalizeKey name) envValueSize = none := by
    simp [getValue, hn.key.2, hnew]
  unfold executeCli
  simp only [hcstr, hfirst, nextToken_insert hn, parse_insert hn hv, hget]
  rfl

theorem stored_valid {name value : List UInt8} (hn : Name name) (hv : Value value) :
    copyText envValueSize (stored name value) = stored name value := by
  have hvfits := hv.fits
  have hword : 0 ∉ firstWord value := fun h0 => hv.nul ((List.takeWhile_sublist _).subset h0)
  have hgap : 0 ∉ skipSpaces (gap value) := fun h0 =>
    hv.nul ((List.dropWhile_sublist _).subset ((List.dropWhile_sublist _).subset h0))
  have htrim {text : List UInt8} (h0 : 0 ∉ text) : 0 ∉ trimText text := fun h =>
    h0 ((List.dropWhile_sublist _).subset ((List.rdropWhile_prefix ..).subset h))
  obtain ⟨hnul, hlen⟩ : 0 ∉ stored name value ∧ (stored name value).length < envValueSize := by
    by_cases hone : gap value = []
    · have hstored : stored name value =
          trimText ((firstWord value).take (envValueSize - 2 - name.length)) := by
        unfold stored
        rw [hone]
        rfl
      rw [hstored]
      refine ⟨htrim fun h0 => hword (List.mem_of_mem_take h0), ?_⟩
      have hle := trimText_length ((firstWord value).take (envValueSize - 2 - name.length))
      rw [List.length_take] at hle
      simp only [envValueSize] at *
      omega
    · rw [stored_joined hn hv hone]
      refine ⟨htrim fun h0 => ?_, Nat.lt_of_le_of_lt (trimText_length _) ?_⟩
      · rcases List.mem_append.mp h0 with h0 | h0
        · exact hword (List.mem_of_mem_take h0)
        rcases List.mem_cons.mp h0 with h0 | h0
        · exact absurd h0 (by decide)
        · exact hgap (List.mem_of_mem_take h0)
      · rw [List.length_append, List.length_cons, List.length_take, List.length_take]
        simp only [envValueSize] at *
        omega
  unfold copyText
  have hcstr : cstr (stored name value) = stored name value :=
    List.takeWhile_eq_self_iff.mpr fun c hc => by
      rw [decide_eq_true_eq]
      rintro rfl
      exact hnul hc
  rw [hcstr, List.take_of_length_le (Nat.le_sub_one_of_lt hlen)]

/-- A commit that succeeds keeps the table it was given. -/
theorem commit_ok {bus : Nat → BusOutcome} {f : Flash} {entries : List Entry}
    (h : ((commit bus entries).run f).1.1 = envStatusOk) :
    ((commit bus entries).run f).1.2 = entries := by
  unfold commit at h ⊢
  rw [Prog.run_bind] at h ⊢
  generalize (saveFile bus entries).run f = r at h ⊢
  obtain ⟨status, f'⟩ := r
  dsimp only at h ⊢
  by_cases hfailed : status ≠ envStatusOk
  · rw [if_pos hfailed] at h
    change (if (loadFile f').1 ≠ envStatusOk then envStatusRead else status) = envStatusOk at h
    split at h
    · exact absurd h (by decide)
    · exact absurd h hfailed
  · rw [if_neg hfailed]
    rfl

theorem insert_table {io : Io} {d : Driver} {f : Flash} {name value : List UInt8} (hn : Name name)
    (hv : Value value) (hnew : findIndex d.entries (normalizeKey name) = none)
    (hsaved : ((executeCli io { d with request := insertLine name value }).run f).1.1.status =
      envStatusOk) :
    ((executeCli io { d with request := insertLine name value }).run f).1.1.entries =
      d.entries ++ [⟨normalizeKey name, stored name value⟩] := by
  rw [insert_executes hn hv hnew, setAndReport, Prog.run_bind] at hsaved ⊢
  change ((setValue io.bus d.entries (normalizeKey name) (stored name value)).run f).1.1 =
    envStatusOk at hsaved
  change ((setValue io.bus d.entries (normalizeKey name) (stored name value)).run f).1.2 = _
  by_cases hroom : envMaxEntries ≤ d.entries.length
  · have hfull : setValue io.bus d.entries (normalizeKey name) (stored name value) =
        .done (envStatusFull, d.entries) := by
      simp [setValue, hn.key.2, hnew, hroom]
    rw [hfull] at hsaved
    have hne : envStatusFull ≠ envStatusOk := by decide
    exact absurd hsaved hne
  · have hset : setValue io.bus d.entries (normalizeKey name) (stored name value) =
        commit io.bus (d.entries ++ [⟨normalizeKey name, stored name value⟩]) := by
      simp [setValue, hn.key.2, hnew, hroom, stored_valid hn hv]
    rw [hset] at hsaved ⊢
    exact commit_ok hsaved

/-- GET answers with the value of the entry. -/
theorem get_last {io : Io} {d : Driver} {f : Flash} {entries : List Entry}
    {name value : List UInt8} (hn : Name name) (hd : d.entries = entries ++ [⟨normalizeKey name, value⟩])
    (hnew : findIndex entries (normalizeKey name) = none)
    (hvalue : copyText envValueSize value = value) (hcapacity : envValueSize ≤ io.capacity) :
    (command io d f name envCommandGet).1.2.text = value := by
  have hfind : findIndex d.entries (normalizeKey name) = some entries.length := by
    unfold findIndex at hnew ⊢
    rw [hd, List.findIdx?_append, hnew]
    simp
  have hget : getValue d.entries (normalizeKey name) envValueSize = some value := by
    unfold getValue
    rw [hn.key.2, hfind, hd]
    simp [hvalue]
  have hlen : value.length ≤ envValueSize - 1 := by
    rw [← hvalue]
    exact List.length_take_le _ _
  unfold command executeCommand commandSwitch envCommandGet
  dsimp only
  rw [hget]
  show (writeText io.capacity {} value).text = value
  unfold writeText appendText
  rw [if_neg (by simp only [envValueSize] at hcapacity; omega), if_neg]
  · show [] ++ value.take (io.capacity - 1 - 0) = value
    rw [List.nil_append, List.take_of_length_le (by omega)]
  · simp only [envValueSize, List.length_nil] at *
    omega

/-- **What an insert stores is read back** as it was typed exactly when the first word fits the
token behind the name and the first blanks are a single space. -/
theorem insert_verbatim {io io' : Io} {d : Driver} {f : Flash} {name value : List UInt8}
    (hn : Name name) (hv : Value value)
    (hnew : findIndex d.entries (normalizeKey name) = none)
    (hsaved : ((executeCli io { d with request := insertLine name value }).run f).1.1.status =
      envStatusOk)
    (hcapacity : envValueSize ≤ io'.capacity) :
    let after := command io d f (insertLine name value) envCommandExecute
    (command io' after.1.1 after.2 name envCommandGet).1.2.text = value ↔ Kept name value := by
  intro after
  have htable : after.1.1.entries = d.entries ++ [⟨normalizeKey name, stored name value⟩] := by
    rw [← insert_table hn hv hnew hsaved]
    exact executeCommand_entries io _ f
  rw [get_last hn htable hnew (stored_valid hn hv) hcapacity]
  exact stored_iff hn hv

/-- On a fresh flash an insert is saved. -/
theorem insert_fresh {name value snapshot : List UInt8} (hn : Name name) (hv : Value value)
    (hfits : encode [] [⟨normalizeKey name, stored name value⟩] = some snapshot) :
    ((executeCli freshIo { Driver.closed with request := insertLine name value }).run
      freshFlash).1.1.status = envStatusOk := by
  have hset : setValue freshIo.bus [] (normalizeKey name) (stored name value) =
      commit freshIo.bus [⟨normalizeKey name, stored name value⟩] := by
    simp [setValue, hn.key.2, findIndex, envMaxEntries, stored_valid hn hv]
  have hnew : findIndex Driver.closed.entries (normalizeKey name) = none := rfl
  rw [insert_executes hn hv hnew, setAndReport, Prog.run_bind]
  change ((setValue freshIo.bus [] (normalizeKey name) (stored name value)).run
    freshFlash).1.1 = envStatusOk
  rw [hset, commit_fresh (fun _ => rfl) freshFlash_fresh hfits]

theorem name_a : Name (ascii "A") := .of_all (by decide) (by decide) (by decide)

theorem insert_verbatim_space :
    let after := command freshIo Driver.closed freshFlash (insertLine (ascii "A") (ascii "X Y"))
      envCommandExecute
    (command freshIo after.1.1 after.2 (ascii "A") envCommandGet).1.2.text = ascii "X Y" := by
  have hvalue : Value (ascii "X Y") :=
    .of_all (by decide) (by decide) (by decide) (by decide)
  refine (insert_verbatim name_a hvalue rfl (insert_fresh name_a hvalue rfl) (by decide)).mpr ?_
  exact ⟨by decide, Or.inr ⟨_, _, rfl, by decide⟩⟩

/-- Two spaces come back as one. -/
theorem insert_verbatim_spaces :
    let line := insertLine (ascii "A") (ascii "X  Y")
    let after := command freshIo Driver.closed freshFlash line envCommandExecute
    Name (ascii "A") ∧ Value (ascii "X  Y") ∧
      ((executeCli freshIo { Driver.closed with request := line }).run freshFlash).1.1.status =
        envStatusOk ∧
      (command freshIo after.1.1 after.2 (ascii "A") envCommandGet).1.2.text = ascii "X Y" ∧
      ascii "X Y" ≠ ascii "X  Y" := by
  have hvalue : Value (ascii "X  Y") :=
    .of_all (by decide) (by decide) (by decide) (by decide)
  have hsaved := insert_fresh name_a hvalue rfl
  have htable := insert_table name_a hvalue rfl hsaved
  exact ⟨name_a, hvalue, hsaved,
    get_last name_a ((executeCommand_entries _ _ _).trans htable) rfl rfl (by decide), by decide⟩

end Z80Sbc.Env.Verbatim
