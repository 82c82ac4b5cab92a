import Z80Sbc.Env.Verbatim

/-! # ENV arithmetic

The commands `NAME+N`, `NAME-N`, `NAME=A+B` and `NAME=A-B` in all their spacings. The words of a
command are copied to buffers of 256 bytes; a command whose name and operands fit them loses nothing,
and its result is exact or refused. -/

namespace Z80Sbc.Env.Arithmetic
open Z80Sbc.Storage Z80Sbc.Env Z80Sbc.Env.SnapshotSafety Z80Sbc.Env.TableDurability
open Z80Sbc.Env.CommandFrame Z80Sbc.Env.Verbatim

/-! ## Numbers -/

def digitsValue (digits : List UInt8) : Int :=
  digits.foldl (fun n c => n * 10 + (c.toNat - 48)) 0

/-- The number that a decimal text stands for. -/
def decimalValue (text : List UInt8) : Int :=
  let digits := if (text.head?.map isSign).getD false then text.drop 1 else text
  if text.head? = some '-'.toUInt8 then -digitsValue digits else digitsValue digits

def InRange (v : Int) : Prop := int64Min ≤ v ∧ v ≤ int64Max

instance (v : Int) : Decidable (InRange v) := inferInstanceAs (Decidable (_ ∧ _))

theorem isdigit_iff {c : UInt8} : isdigit c = true ↔ 48 ≤ c.toNat ∧ c.toNat ≤ 57 := by
  unfold isdigit
  rw [Bool.and_eq_true, decide_eq_true_eq, decide_eq_true_eq]
  exact Iff.rfl

theorem isSign_iff {c : UInt8} : isSign c = true ↔ c.toNat = 43 ∨ c.toNat = 45 := by
  unfold isSign
  rw [Bool.or_eq_true, decide_eq_true_eq, decide_eq_true_eq, ← UInt8.toNat_inj, ← UInt8.toNat_inj]
  exact Iff.rfl

theorem isSign_digit {c : UInt8} (h : isdigit c = true) : isSign c = false := by
  rw [isdigit_iff] at h
  rw [Bool.eq_false_iff, Ne, isSign_iff]
  omega

theorem digitsValue_append (digits : List UInt8) (c : UInt8) :
    digitsValue (digits ++ [c]) = digitsValue digits * 10 + (c.toNat - 48) := by
  unfold digitsValue
  rw [List.foldl_append]
  rfl

/-- What is printed is a number with the value that was printed. -/
theorem printNat_spec (n : Nat) :
    (∀ c ∈ printNat n, isdigit c = true) ∧ printNat n ≠ [] ∧ digitsValue (printNat n) = n := by
  have hdigit : ∀ d : Fin 10, isdigit (Nat.digitChar d).toUInt8 = true ∧
      (Nat.digitChar d).toUInt8.toNat = 48 + d := by decide
  induction n using Nat.strongRecOn with
  | ind n ih =>
    unfold printNat at ih ⊢
    by_cases hlt : n < 10
    · obtain ⟨hd, hv⟩ := hdigit ⟨n, hlt⟩
      rw [Nat.toDigits_of_lt_base hlt, List.map_singleton]
      refine ⟨fun c hc => ?_, List.cons_ne_nil _ _, ?_⟩
      · obtain rfl := List.mem_singleton.mp hc
        exact hd
      · show (0 : Int) * 10 + ((Nat.digitChar n).toUInt8.toNat - 48) = n
        dsimp only at hv
        omega
    · obtain ⟨hall, -, hvalue⟩ := ih (n / 10) (by omega)
      obtain ⟨hd, hv⟩ := hdigit ⟨n % 10, Nat.mod_lt n (by decide)⟩
      rw [Nat.toDigits_of_base_le (by decide) (by omega), List.map_append, List.map_singleton]
      refine ⟨fun c hc => ?_, by simp, ?_⟩
      · rcases List.mem_append.mp hc with hc | hc
        · exact hall c hc
        · obtain rfl := List.mem_singleton.mp hc
          exact hd
      · rw [digitsValue_append, hvalue]
        dsimp only at hv
        omega

/-- A text of digits. -/
structure Digits (text : List UInt8) : Prop where
  ne : text ≠ []
  all : ∀ c ∈ text, isdigit c = true

theorem Digits.head {text : List UInt8} (h : Digits text) :
    (text.head?.map isSign).getD false = false ∧ text.head? ≠ some '-'.toUInt8 := by
  cases text with
  | nil => exact absurd rfl h.ne
  | cons c rest =>
    have hc := isSign_digit (h.all c List.mem_cons_self)
    refine ⟨hc, fun heq => ?_⟩
    obtain rfl : c = '-'.toUInt8 := Option.some.inj heq
    exact absurd hc (by decide)

theorem Digits.take {text : List UInt8} {n : Nat} (h : Digits text) (hn : 0 < n) :
    Digits (text.take n) := by
  refine ⟨fun hnil => ?_, fun c hc => h.all c (List.mem_of_mem_take hc)⟩
  rcases List.take_eq_nil_iff.mp hnil with h0 | hempty
  · omega
  · exact h.ne hempty

theorem Digits.number {text : List UInt8} (h : Digits text) :
    isNumber text = true ∧ decimalValue text = digitsValue text := by
  obtain ⟨hsign, hminus⟩ := h.head
  unfold isNumber decimalValue
  dsimp only
  rw [hsign, if_neg Bool.false_ne_true, if_neg hminus]
  exact ⟨by rw [Bool.and_eq_true, decide_eq_true_eq, List.all_eq_true]; exact ⟨h.ne, h.all⟩, rfl⟩

/-- The text of a number stands for it. -/
theorem decimalValue_printInt (v : Int) : decimalValue (printInt v) = v := by
  unfold printInt
  obtain ⟨hall, hne, hvalue⟩ := printNat_spec v.natAbs
  split
  · show -digitsValue (printNat v.natAbs) = v
    omega
  · rw [(Digits.number ⟨hne, hall⟩).2]
    omega

/-! ## Operands -/

/-- What an operand stands for: a number, `NOW`, or a variable that holds a number. -/
def operandValue (entries : List Entry) (millis : Nat) (text : List UInt8) : Option Int :=
  if isNumber text then some (decimalValue text)
  else if isNow text then some (millis / 1000 : Nat)
  else (getValue entries (normalizeKey text) envValueSize).bind fun value =>
    if isNumber value then some (decimalValue value) else none

/-- The mathematical result, when it and the operands are in range. -/
def exactResult (left right : Option Int) (subtract : Bool) : Option Int :=
  left.bind fun l => right.bind fun r =>
    let v := if subtract then l - r else l + r
    if InRange l ∧ InRange r ∧ InRange v then some v else none

def sign (subtract : Bool) : UInt8 := if subtract then '-'.toUInt8 else '+'.toUInt8

def Blanks (text : List UInt8) : Prop := ∀ c ∈ text, isBlank c = true

theorem blank_nul {c : UInt8} (h : isBlank c = true) : c ≠ 0 ∧ isSign c = false := by
  unfold isBlank at h
  rw [Bool.or_eq_true, decide_eq_true_eq, decide_eq_true_eq] at h
  rcases h with rfl | rfl <;> decide

theorem Blanks.head {text more : List UInt8} (h : Blanks text) (hne : text ≠ []) :
    ∀ c ∈ (text ++ more).head?, isBlank c = true := by
  intro c hc
  rw [List.head?_append_of_ne_nil _ hne] at hc
  exact h c (List.mem_of_mem_head? hc)

theorem Blanks.nul {text : List UInt8} (h : Blanks text) : 0 ∉ text :=
  fun hmem => (blank_nul (h 0 hmem)).1 rfl

/-- An operand: a word, with a sign nowhere but in front. -/
structure Operand (text : List UInt8) : Prop extends Word text where
  ne : text ≠ []
  sign : ∀ c ∈ text.drop 1, isSign c = false

theorem skipSpaces_blanks {blanks text : List UInt8} (h : Blanks blanks) :
    skipSpaces (blanks ++ text) = skipSpaces text :=
  List.dropWhile_append_of_pos h

theorem cstr_append {front behind : List UInt8} (hf : 0 ∉ front) (hb : 0 ∉ behind) :
    cstr (front ++ behind) = front ++ behind := by
  refine List.takeWhile_eq_self_iff.mpr fun c hc => ?_
  rw [decide_eq_true_eq]
  rintro rfl
  rcases List.mem_append.mp hc with h | h
  · exact hf h
  · exact hb h

/-- The value of an assignment, with what blanks are left in it. -/
def expression (left right : List UInt8) (subtract : Bool) (before behind : List UInt8) :
    List UInt8 := left ++ before ++ sign subtract :: (behind ++ right)

/-- A name without a sign. -/
structure Plain (name : List UInt8) : Prop extends Name name where
  sign : ∀ c ∈ name, isSign c = false

theorem nextToken_blanks {size : Nat} {blanks text : List UInt8} (h : Blanks blanks) :
    nextToken size (blanks ++ text) = nextToken size text := by
  unfold nextToken
  rw [skipSpaces_blanks h]

/-- A word that fits, before blanks or the end. -/
theorem nextToken_word_behind {size : Nat} {word behind : List UInt8} (hw : Word word)
    (hne : word ≠ []) (hfits : word.length < size) (hb : ∀ c ∈ behind.head?, isBlank c = true) :
    nextToken size (word ++ behind) = (word, skipSpaces behind) := by
  rw [nextToken_append hw.blank hne hb, List.take_of_length_le (by omega)]

/-- The words at the start of a request that is neither for help nor an option. -/
structure Starts (request arg1 rest : List UInt8) : Prop where
  token : nextToken envValueSize (cstr request) = (arg1, rest)
  ne : arg1 ≠ []
  help : isHelp arg1 = false
  option : arg1.headD 0 ≠ '-'.toUInt8

section
variable {io : Io} {d : Driver} {arg1 rest key value : List UInt8}

end

/-! ## Deltas -/

/-- What a variable is counted as before a delta. -/
def currentValue (entries : List Entry) (key : List UInt8) : Option Int :=
  (getValue entries key envValueSize).elim (some 0) fun text =>
    if isNumber text then some (decimalValue text) else none

theorem copyText_eq {text : List UInt8} (hnul : 0 ∉ text) (h : text.length < envValueSize) :
    copyText envValueSize text = text := by
  have hcstr : cstr text = text := by
    have happend := cstr_append hnul (@List.not_mem_nil UInt8 0)
    rwa [List.append_nil] at happend
  unfold copyText
  rw [hcstr, List.take_of_length_le (by omega)]

/-- What stands behind the `=`, in the word and after it. -/
def joined (front rest : List UInt8) : List UInt8 :=
  if rest = [] then front else if front = [] then rest else front ++ ' '.toUInt8 :: rest

theorem digit_word {number : List UInt8} (h : Digits number) : Word number := by
  have hbyte {c : UInt8} (hc : isdigit c = true) : c ≠ 0 ∧ isBlank c = false := by
    rw [isdigit_iff] at hc
    refine ⟨fun h => ?_, ?_⟩
    · rw [h] at hc
      exact absurd hc (by decide)
    · unfold isBlank
      rw [Bool.or_eq_false_iff, decide_eq_false_iff_not, decide_eq_false_iff_not]
      constructor
      · rintro rfl
        exact absurd hc (by decide)
      · rintro rfl
        exact absurd hc (by decide)
  exact ⟨fun h0 => (hbyte (h.all 0 h0)).1 rfl, fun c hc => (hbyte (h.all c hc)).2⟩

section
variable {name number rest : List UInt8} {subtract : Bool}

end

/-! ## Commands -/

/-- `NAME+N`, `NAME-N`, `NAME=A+B` and `NAME=A-B`, with the blanks between the parts. -/
inductive Command
  | delta (name number : List UInt8) (subtract : Bool) (front before between after : List UInt8)
  | assign (name left right : List UInt8) (subtract : Bool)
      (front before between inner behind after : List UInt8)

def Command.text : Command → List UInt8
  | .delta name number subtract front before between after =>
    front ++ (name ++ (before ++ sign subtract :: (between ++ (number ++ after))))
  | .assign name left right subtract front before between inner behind after =>
    front ++ (name ++ (before ++ '='.toUInt8 ::
      (between ++ (expression left right subtract inner behind ++ after))))

def Command.name : Command → List UInt8
  | .delta name .. => name
  | .assign name .. => name

/-- A name that stands alone is not taken for a request for help. -/
def Command.Valid : Command → Prop
  | .delta name number _ front before between after =>
    Plain name ∧ Digits number ∧ Blanks front ∧ Blanks before ∧ Blanks between ∧ Blanks after ∧
      (before ≠ [] → isHelp name = false)
  | .assign name left right _ front before between inner behind after =>
    Name name ∧ name.headD 0 ≠ '-'.toUInt8 ∧ Operand left ∧ Word right ∧ right ≠ [] ∧
      Blanks front ∧ Blanks before ∧ Blanks between ∧ Blanks inner ∧ Blanks behind ∧
      Blanks after ∧ (before ≠ [] → isHelp name = false)

/-- The bytes that the buffers have for the number of a delta: in the word of the name they are
shared with the name and the sign, behind it with the sign. -/
def numberRoom (name before between : List UInt8) : Nat :=
  if before = [] ∧ between = [] then envValueSize - 2 - name.length else envValueSize - 2

/-- A delta with the digits that are not cut off. -/
def Command.cut : Command → Command
  | .delta name number subtract front before between after =>
    .delta name (number.take (numberRoom name before between)) subtract front before between after
  | c => c

/-- The result of a command; the sign of a delta belongs to its number. -/
def Command.result (entries : List Entry) (millis : Nat → Nat) : Command → Option Int
  | .delta name number subtract _ _ _ _ =>
    exactResult (currentValue entries (normalizeKey name))
      (some (if subtract then -digitsValue number else digitsValue number)) false
  | .assign _ left right subtract _ _ _ _ _ _ =>
    exactResult (operandValue entries (millis 0) left) (operandValue entries (millis 1) right) subtract

/-- A command stores the text of its result, or it is refused and changes nothing. -/
def Decided (io : Io) (d : Driver) (c : Command) : Prop :=
  (∃ v, c.result d.entries io.millis = some v ∧
      executeCli io d = setAndReport io d (normalizeKey c.name) (printInt v)) ∨
    c.result d.entries io.millis = none ∧
      ∃ r, executeCli io d = .done (d.answer envStatusRead d.entries r)

theorem exactResult_range {left right : Option Int} {subtract : Bool} {v : Int}
    (h : exactResult left right subtract = some v) : InRange v := by
  unfold exactResult at h
  obtain ⟨l, -, h⟩ := Option.bind_eq_some_iff.mp h
  obtain ⟨r, -, h⟩ := Option.bind_eq_some_iff.mp h
  dsimp only at h
  by_cases hrange : InRange l ∧ InRange r ∧ InRange (if subtract = true then l - r else l + r)
  · rw [if_pos hrange] at h
    rw [← Option.some.inj h]
    exact hrange.2.2
  · rw [if_neg hrange] at h
    cases h

theorem copyText_printInt {v : Int} (h : InRange v) :
    copyText envValueSize (printInt v) = printInt v := by
  obtain ⟨hall, hne, -⟩ := printNat_spec v.natAbs
  have hword := digit_word ⟨hne, hall⟩
  have hlength : (printNat v.natAbs).length ≤ 19 := by
    have hmin : int64Min = -9223372036854775808 := rfl
    have hmax : int64Max = 9223372036854775807 := rfl
    unfold printNat
    rw [List.length_map, Nat.length_toDigits_le_iff (by decide) (by decide)]
    unfold InRange at h
    omega
  unfold printInt
  split
  · refine copyText_eq ?_ ?_
    · rw [List.mem_cons, not_or]
      exact ⟨by decide, hword.nul⟩
    · rw [List.length_cons]
      unfold envValueSize
      omega
  · exact copyText_eq hword.nul (by unfold envValueSize; omega)

theorem Plain.first {name : List UInt8} (hn : Plain name) : name.headD 0 ≠ '-'.toUInt8 := by
  obtain ⟨a, tail, rfl⟩ := List.exists_cons_of_ne_nil hn.ne
  intro heq
  have hsign := hn.sign a List.mem_cons_self
  rw [show a = '-'.toUInt8 from heq] at hsign
  exact absurd hsign (by decide)

/-- The first word of a request. -/
theorem starts {request front : List UInt8} (arg1 rest : List UInt8)
    (hcstr : cstr request = front ++ (arg1 ++ rest)) (hf : Blanks front) (hw : Word arg1)
    (hne : arg1 ≠ []) (hfits : arg1.length < envValueSize)
    (hb : ∀ c ∈ rest.head?, isBlank c = true) (hhelp : isHelp arg1 = false)
    (hoption : arg1.headD 0 ≠ '-'.toUInt8) : Starts request arg1 (skipSpaces rest) := by
  refine ⟨?_, hne, hhelp, hoption⟩
  rw [hcstr, nextToken_blanks hf, nextToken_word_behind hw hne hfits hb]

section
variable {io : Io} {d : Driver} {arg1 rest : List UInt8}

end

theorem head_blank {blanks : List UInt8} (h : Blanks blanks) :
    ∀ c ∈ blanks.head?, isBlank c = true := fun c hc => h c (List.mem_of_mem_head? hc)

section
variable {io : Io} {d : Driver}

end

/-! ## What is in the table -/

/-- A value that was set is there. -/
theorem getValue_set {entries : List Entry} {key value : List UInt8} (hkey : keyValid key = true)
    (hvalue : copyText envValueSize value = value)
    (hroom : (findIndex entries key).isSome = true ∨ entries.length < envMaxEntries) :
    getValue ((Change.set key value).apply entries) key envValueSize = some value := by
  unfold getValue Change.apply
  dsimp only
  rw [hkey, Bool.not_true, if_neg Bool.false_ne_true, if_neg Bool.false_ne_true]
  cases hi : findIndex entries key with
  | some i =>
    obtain ⟨hlt, hfound, hbefore⟩ := List.findIdx?_eq_some_iff_getElem.mp hi
    have hagain : findIndex (entries.modify i fun e => { e with value := copyText envValueSize value })
        key = some i := by
      refine List.findIdx?_eq_some_iff_getElem.mpr
        ⟨by rw [List.length_modify]; exact hlt, ?_, fun j hj => ?_⟩
      · rw [List.getElem_modify, if_pos rfl]
        exact hfound
      · rw [List.getElem_modify, if_neg (by omega)]
        exact hbefore j hj
    dsimp only
    rw [hagain, Option.map_some, List.getD_eq_getElem?_getD, List.getElem?_map,
      List.getElem?_modify_eq, List.getElem?_eq_getElem hlt]
    show some (copyText envValueSize (copyText envValueSize value)) = some value
    rw [hvalue, hvalue]
  | none =>
    have hlt : ¬envMaxEntries ≤ entries.length := by
      rcases hroom with hroom | hroom
      · rw [hi] at hroom
        cases hroom
      · omega
    have hlast : findIndex (entries ++ [⟨key, copyText envValueSize value⟩]) key =
        some entries.length := by
      unfold findIndex at hi ⊢
      rw [List.findIdx?_append, hi]
      simp
    dsimp only
    rw [if_neg hlt, hlast, Option.map_some, List.getD_eq_getElem?_getD, List.map_append,
      List.getElem?_append_right (by rw [List.length_map]), List.length_map, Nat.sub_self]
    show some (copyText envValueSize (copyText envValueSize value)) = some value
    rw [hvalue, hvalue]

/-- The exact result is in the table and all else is as before, or the table is as before and the
status an error; without a result in range it is the second. -/
def Exact (io : Io) (d : Driver) (f : Flash) (c : Command) : Prop :=
  let after := ((executeCommand io d envCommandExecute).run f).1.1
  (∃ v, c.result d.entries io.millis = some v ∧ decimalValue (printInt v) = v ∧
      (getValue after.entries (normalizeKey c.name) envValueSize = some (printInt v) ∧
          Frame (normalizeKey c.name) d.entries after.entries ∨
        after.entries = d.entries ∧ after.status ≠ envStatusOk)) ∨
    c.result d.entries io.millis = none ∧ after.entries = d.entries ∧ after.status ≠ envStatusOk

theorem Command.named {c : Command} (h : c.Valid) : Name c.name := by
  cases c with
  | delta => exact h.1.toName
  | assign => exact h.1

theorem Command.result_range {c : Command} {entries : List Entry} {millis : Nat → Nat} {v : Int}
    (h : c.result entries millis = some v) : InRange v := by
  cases c with
  | delta => exact exactResult_range h
  | assign => exact exactResult_range h

theorem executeCommand_status {io : Io} {d : Driver} {f : Flash}
    (h : ((executeCli io d).run f).1.1.status ≠ envStatusOk) :
    ((executeCommand io d envCommandExecute).run f).1.1.status ≠ envStatusOk := by
  rw [executeCommand_eq, Prog.run_bind]
  show (if ((executeCli io d).run f).1.2.overflow then envStatusFull
    else ((executeCli io d).run f).1.1.status) ≠ envStatusOk
  split
  · decide
  · exact h

section
variable {io : Io} {d : Driver} {f : Flash}

/-- A text that is to be stored is in the table afterwards, or nothing is changed and the status is
an error. -/
theorem setAndReport_exact (h : d.entries = (loadFile f).2) {key value : List UInt8}
    (hkey : keyValid key = true) (hvalue : copyText envValueSize value = value) (hnul : 0 ∉ key)
    (hrun : executeCli io d = setAndReport io d key value) :
    let after := ((executeCommand io d envCommandExecute).run f).1.1
    getValue after.entries key envValueSize = some value ∧ Frame key d.entries after.entries ∨
      after.entries = d.entries ∧ after.status ≠ envStatusOk := by
  dsimp only
  rw [executeCommand_entries]
  have hperformed := @setAndReport_run f d io h key value hnul
  have hstatus := @executeCommand_status io d f
  rw [hrun] at hstatus ⊢
  by_cases hroom : (findIndex d.entries key).isSome = true ∨ d.entries.length < envMaxEntries
  · by_cases hset : ((setAndReport io d key value).run f).1.1.entries =
        (Change.set key value).apply d.entries
    · left
      rw [hset]
      exact ⟨getValue_set hkey hvalue hroom, Change.apply_frame (.set _ _) d.entries⟩
    · right
      exact ⟨hperformed.table.resolve_right hset, hstatus fun hok => hset (hperformed.done hok)⟩
  · right
    rw [not_or, Nat.not_lt, Option.isSome_iff_ne_none, not_not] at hroom
    have hfull : setValue io.bus d.entries key value = .done (envStatusFull, d.entries) := by
      simp [setValue, hkey, hroom.1, hroom.2]
    refine ⟨?_, hstatus ?_⟩
    · rw [setAndReport, hfull]
      rfl
    · rw [setAndReport, hfull]
      show envStatusFull ≠ envStatusOk
      decide

/-- A command that is refused changes nothing and reports an error. -/
theorem refused {r : Response} (hrun : executeCli io d = .done (d.answer envStatusRead d.entries r)) :
    let after := ((executeCommand io d envCommandExecute).run f).1.1
    after.entries = d.entries ∧ after.status ≠ envStatusOk := by
  dsimp only
  rw [executeCommand_entries]
  refine ⟨?_, executeCommand_status ?_⟩
  · rw [hrun]
    rfl
  · rw [hrun]
    show envStatusRead ≠ envStatusOk
    decide

theorem Decided.exact {c : Command} (h : d.entries = (loadFile f).2) (hn : Name c.name)
    (hdecided : Decided io d c) : Exact io d f c := by
  obtain ⟨v, hexact, hrun⟩ | ⟨hexact, r, hrun⟩ := hdecided
  · exact Or.inl ⟨v, hexact, decimalValue_printInt v, setAndReport_exact h hn.key.2
      (copyText_printInt (Command.result_range hexact)) (normalizeKey_nul c.name) hrun⟩
  · exact Or.inr ⟨hexact, refused hrun⟩

/-- What a command that succeeded has stored. -/
theorem Decided.stored {c : Command} (h : d.entries = (loadFile f).2) (hn : Name c.name)
    (hdecided : Decided io d c)
    (hok : ((executeCommand io d envCommandExecute).run f).1.1.status = envStatusOk) :
    ∃ v, c.result d.entries io.millis = some v ∧
      getValue ((executeCommand io d envCommandExecute).run f).1.1.entries (normalizeKey c.name)
        envValueSize = some (printInt v) := by
  obtain ⟨v, hexact, hrun⟩ | ⟨-, r, hrun⟩ := hdecided
  · obtain ⟨hvalue, -⟩ | ⟨-, herror⟩ := setAndReport_exact h hn.key.2
      (copyText_printInt (Command.result_range hexact)) (normalizeKey_nul c.name) hrun
    · exact ⟨v, hexact, hvalue⟩
    · exact absurd hok herror
  · exact absurd hok (refused (f := f) hrun).2

/-- What a command that succeeded and was exact has stored. -/
theorem Exact.stored {c : Command} (hexact : Exact io d f c)
    (hok : ((executeCommand io d envCommandExecute).run f).1.1.status = envStatusOk) :
    ∃ v, c.result d.entries io.millis = some v ∧
      getValue ((executeCommand io d envCommandExecute).run f).1.1.entries (normalizeKey c.name)
        envValueSize = some (printInt v) := by
  obtain ⟨v, hresult, -, ⟨hvalue, -⟩ | ⟨-, herror⟩⟩ | ⟨-, -, herror⟩ := hexact
  · exact ⟨v, hresult, hvalue⟩
  · exact absurd hok herror
  · exact absurd hok herror

end

theorem Plain.of_all {name : List UInt8} (hname : Name name)
    (hall : (name.all fun c => !isSign c) = true) : Plain name := by
  rw [List.all_eq_true] at hall
  exact ⟨hname, fun c hc => by simpa using hall c hc⟩

theorem Digits.of_all {text : List UInt8} (hne : text ≠ [])
    (hall : text.all isdigit = true) : Digits text :=
  ⟨hne, List.all_eq_true.mp hall⟩

end Z80Sbc.Env.Arithmetic
