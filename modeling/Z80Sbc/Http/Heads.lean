import Mathlib.Algebra.Group.Nat.Defs
import Z80Sbc.Http.Fragments

/-! # The heads of a response

Reading goes line by line: a line either is read as a whole or ends the decoder in an error.
From the lines: what a list of headers leaves in the decoder, and what a head does, interim
or final. -/

namespace Z80Sbc.Http.Heads
open Z80Sbc.Http Z80Sbc.Data

/-! ## Numbers -/

def digitNat (c : UInt8) : Nat := ((digitOf c).getD 0).toNat

/-- The value of the digits `p` behind a number `n`. -/
def valueFrom (base n : Nat) (p : List UInt8) : Nat :=
  p.foldl (fun n c => n * base + digitNat c) n

/-- `p` is a number in this base, whatever its size is. -/
structure Numeral (base : UInt32) (p : List UInt8) : Prop where
  nonempty : p ≠ []
  digits : ∀ c ∈ p, ∃ d, digitOf c = some d ∧ d < base

theorem le_valueFrom {base n : Nat} (hb : 0 < base) (p : List UInt8) : n ≤ valueFrom base n p := by
  induction p generalizing n with
  | nil => exact Nat.le_refl n
  | cons c p ih =>
    have h := ih (n := n * base + digitNat c)
    have hn : n ≤ n * base := Nat.le_mul_of_pos_right n hb
    exact Nat.le_trans (by omega) h

/-- A step of the loop that does not go out of range is exact. -/
theorem step_exact {base result digit : UInt32} (hbase : base = 10 ∨ base = 16) (hd : digit < base) :
    (¬(0xFFFFFFFF - digit) / base < result ↔ result.toNat * base.toNat + digit.toNat < 2 ^ 32) ∧
      (result.toNat * base.toNat + digit.toNat < 2 ^ 32 →
        (result * base + digit).toNat = result.toNat * base.toNat + digit.toNat) := by
  have hr := result.toNat_lt
  have hlt : digit.toNat < base.toNat := UInt32.lt_iff_toNat_lt.mp hd
  have hb : base.toNat = 10 ∨ base.toNat = 16 := by
    rcases hbase with rfl | rfl
    · exact Or.inl rfl
    · exact Or.inr rfl
  have hsub : (0xFFFFFFFF - digit).toNat = 4294967295 - digit.toNat := by
    rw [UInt32.toNat_sub_of_le _ _ (by rw [UInt32.le_iff_toNat_le]; show digit.toNat ≤ 4294967295; omega)]
    rfl
  constructor
  · rw [UInt32.lt_iff_toNat_lt, UInt32.toNat_div, hsub]
    rcases hb with hb | hb <;> rw [hb] <;> omega
  · intro h
    rw [UInt32.toNat_add, UInt32.toNat_mul]
    rw [Nat.mod_eq_of_lt (a := result.toNat * base.toNat) (by omega)]
    exact Nat.mod_eq_of_lt h

/-- The value so far is always that of the digits read: no step goes out of range. -/
theorem numberFrom_exact {base : UInt32} (hbase : base = 10 ∨ base = 16) (result : UInt32)
    (p : List UInt8) :
    ∃ k ≤ p.length,
      (numberFrom base result p).2.toNat = valueFrom base.toNat result.toNat (p.take k) := by
  induction p generalizing result with
  | nil => exact ⟨0, Nat.le_refl 0, rfl⟩
  | cons c p ih =>
    unfold numberFrom
    split
    · exact ⟨0, Nat.zero_le _, rfl⟩
    cases hc : digitOf c with
    | none => exact ⟨0, Nat.zero_le _, rfl⟩
    | some digit =>
      dsimp only
      split
      · exact ⟨0, Nat.zero_le _, rfl⟩
      next hstep =>
      obtain ⟨hbound, hfits⟩ := not_or.mp hstep
      obtain ⟨hrange, hexact⟩ := @step_exact base result digit hbase (UInt32.not_le.mp hbound)
      obtain ⟨k, hk, hvalue⟩ := ih (result * base + digit)
      refine ⟨k + 1, Nat.succ_le_succ hk, ?_⟩
      rw [hvalue, hexact (hrange.mp hfits)]
      simp [valueFrom, digitNat, hc]

/-- Digits, and behind them nothing or, in a chunk size, an extension. -/
theorem numberFrom_digits {base : UInt32} (hbase : base = 10 ∨ base = 16) {ext : List UInt8}
    (hext : ext = [] ∨ base = 16 ∧ ext.head? = some 59) (result : UInt32) {p : List UInt8}
    (hp : ∀ c ∈ p, ∃ d, digitOf c = some d ∧ d < base) :
    ((numberFrom base result (p ++ ext)).1 = true ↔
      valueFrom base.toNat result.toNat p < 2 ^ 32) ∧
    ((numberFrom base result (p ++ ext)).1 = true →
      (numberFrom base result (p ++ ext)).2.toNat = valueFrom base.toNat result.toNat p) := by
  have hpos : 0 < base.toNat := by
    rcases hbase with rfl | rfl
    · exact Nat.succ_pos _
    · exact Nat.succ_pos _
  induction p generalizing result with
  | nil =>
    have hstop : numberFrom base result ([] ++ ext) = (true, result) := by
      rcases hext with rfl | ⟨h16, hsemi⟩
      · rfl
      · cases ext with
        | nil => rfl
        | cons c ext =>
          have hc : c = 59 := Option.some.inj hsemi
          simp [numberFrom, h16, hc]
    rw [hstop]
    exact ⟨⟨fun _ => result.toNat_lt, fun _ => rfl⟩, fun _ => rfl⟩
  | cons c p ih =>
    obtain ⟨digit, hc, hlt⟩ := hp c (List.mem_cons_self ..)
    have hsemi : ¬(base = 16 ∧ c = 59) := by
      rintro ⟨-, rfl⟩
      cases hc
    obtain ⟨hrange, hexact⟩ := @step_exact base result digit hbase hlt
    have hnat : digitNat c = digit.toNat := by simp [digitNat, hc]
    have hcons : valueFrom base.toNat result.toNat (c :: p) =
        valueFrom base.toNat (result.toNat * base.toNat + digit.toNat) p := by
      simp [valueFrom, hnat]
    rw [List.cons_append, numberFrom, if_neg hsemi, hc, hcons]
    dsimp only
    by_cases hfits : (0xFFFFFFFF - digit) / base < result
    · have hover : ¬result.toNat * base.toNat + digit.toNat < 2 ^ 32 :=
        fun h => (hrange.mpr h) hfits
      have hge := le_valueFrom (n := result.toNat * base.toNat + digit.toNat) hpos p
      rw [if_pos (Or.inr hfits)]
      exact ⟨⟨fun h => (Bool.noConfusion h), fun h => absurd h (by omega)⟩,
        fun h => (Bool.noConfusion h)⟩
    · have hstep := hrange.mp hfits
      rw [if_neg (not_or.mpr ⟨UInt32.not_le.mpr hlt, hfits⟩), ← hexact hstep]
      exact ih (result * base + digit) fun c hc => hp c (List.mem_cons_of_mem _ hc)

/-- A numeral is read when it fits 32 bits, and then exactly. -/
theorem number_numeral {base : UInt32} (hbase : base = 10 ∨ base = 16) {p ext : List UInt8}
    (hext : ext = [] ∨ base = 16 ∧ ext.head? = some 59) (hp : Numeral base p) :
    ((number base (p ++ ext)).1 = true ↔ valueFrom base.toNat 0 p < 2 ^ 32) ∧
    ((number base (p ++ ext)).1 = true →
      (number base (p ++ ext)).2.toNat = valueFrom base.toNat 0 p) := by
  obtain ⟨hok, hvalue⟩ := numberFrom_digits hbase hext 0 hp.digits
  have hsome : (!decide (p ++ ext = [] ∨ base = 16 ∧ (p ++ ext).head? = some 59)) = true := by
    obtain ⟨c, p', rfl⟩ := List.exists_cons_of_ne_nil hp.nonempty
    obtain ⟨d, hd, -⟩ := hp.digits c (List.mem_cons_self ..)
    have hc : c ≠ 59 := by
      rintro rfl
      cases hd
    simp [hc]
  unfold number
  simp only [hsome, Bool.and_true]
  exact ⟨hok, hvalue⟩

/-! ## Reading all of some data -/

/-- All of the data is used, and this is what it leaves and emits. -/
structure Reads (s : Stream) (data : List UInt8) (t : Stream) (out : List UInt8) : Prop where
  all : decodeUsed data s = data.length
  decoded : decode data s = (t, out)

/-- Whatever follows, the decoder ends in an error. -/
def Ends (s : Stream) (data : List UInt8) : Prop :=
  ∀ rest, (decode (data ++ rest) s).1.error.isSome = true

theorem Reads.nil (s : Stream) : Reads s [] s [] := ⟨rfl, rfl⟩

theorem Reads.append {s t u : Stream} {a b out more : List UInt8} (h : Reads s a t out)
    (h' : Reads t b u more) : Reads s (a ++ b) u (out ++ more) := by
  constructor
  · rw [decodeUsed_append _ _ _ h.all, h.decoded, h'.all, List.length_append]
  · rw [decode_append, h.decoded, h'.decoded]

theorem Reads.ends {s t : Stream} {a b out : List UInt8} (h : Reads s a t out) (h' : Ends t b) :
    Ends s (a ++ b) := by
  intro rest
  rw [List.append_assoc, decode_append, h.decoded]
  exact h' rest

theorem Ends.append {s : Stream} {a : List UInt8} (h : Ends s a) (b : List UInt8) :
    Ends s (a ++ b) := by
  intro rest
  rw [List.append_assoc]
  exact h (b ++ rest)

theorem ends_error {s : Stream} (h : s.error.isSome = true) (data : List UInt8) : Ends s data := by
  intro rest
  rw [decode_halted (by simp [halted, h])]
  exact h

theorem Reads.ends_error {s t : Stream} {a out : List UInt8} (h : Reads s a t out)
    (he : t.error.isSome = true) : Ends s a := by
  have h' := h.ends (Heads.ends_error he [])
  rwa [List.append_nil] at h'

/-- One byte. -/
theorem reads_byte {s : Stream} (h : halted s = false) (c : UInt8) :
    Reads s [c] (consume c s) (if inBody s then [c] else []) := by
  constructor
  · simp [decodeUsed, h]
  · simp [decode, h]

/-- What a reading has not used yet, the decoder still wants. -/
theorem Reads.before {s t : Stream} {a b out : List UInt8} (h : Reads s (a ++ b) t out)
    (hb : b ≠ []) :
    decodeUsed a s = a.length ∧ halted (decode a s).1 = false ∧
      Reads (decode a s).1 b t (decode b (decode a s).1).2 := by
  have hall := h.all
  have hle := decodeUsed_le a s
  have ha : decodeUsed a s = a.length := by
    by_contra hne
    have hshort : decodeUsed (a ++ b) s = decodeUsed a s := by
      clear hall h hle
      induction a generalizing s with
      | nil => exact absurd rfl hne
      | cons c a ih =>
        by_cases hh : halted s = true
        · simp [decodeUsed, hh]
        · simp only [decodeUsed, hh, List.cons_append, if_false, Bool.false_eq_true,
            List.length_cons, Nat.add_right_cancel_iff] at hne ⊢
          exact ih hne
    rw [hshort, List.length_append] at hall
    have hpos := List.length_pos_iff.mpr hb
    omega
  have hused := decodeUsed_append a b s ha
  have hb' : decodeUsed b (decode a s).1 = b.length := by
    rw [hused, List.length_append] at hall
    omega
  refine ⟨ha, ?_, hb', ?_⟩
  · obtain ⟨c, b', rfl⟩ := List.exists_cons_of_ne_nil hb
    by_contra hh
    rw [Bool.not_eq_false] at hh
    simp [decodeUsed, hh] at hb'
  · have hd := h.decoded
    rw [decode_append] at hd
    have hfst : (decode b (decode a s).1).1 = t := congrArg Prod.fst hd
    exact Prod.ext hfst rfl

/-! ## Lines -/

/-- A byte of a line other than its end. -/
def textByte (c : UInt8) : Bool := c == 9 || (32 ≤ c && c != 127)

def crlf : List UInt8 := [13, 10]

/-- The states that read lines. -/
def readsLines (state : StreamState) : Bool :=
  [.status, .headers, .chunkSize, .trailers].contains state

theorem consume_meta {s : Stream} (h : readsLines s.state = true) (c : UInt8) :
    inBody s = false ∧ consume c s = metaByte c s := by
  have hcases : s.state = .status ∨ s.state = .headers ∨ s.state = .chunkSize ∨
      s.state = .trailers := by
    unfold readsLines at h
    simpa using h
  unfold consume inBody
  rcases hcases with hs | hs | hs | hs <;> simp [hs]

/-- The line with `n` more bytes of metadata in it. -/
def typed (s : Stream) (text : List UInt8) : Stream :=
  { s with line := s.line ++ text, headerBytes := s.headerBytes + text.length }

theorem metaByte_text {s : Stream} {c : UInt8} (hc : textByte c = true ∨ c = 13) :
    (metaByte c s).error.isSome = true ∨ metaByte c s = typed s [c] := by
  have hne : c ≠ 10 := by
    rintro rfl
    rcases hc with hc | hc
    · exact absurd hc (by decide)
    · exact absurd hc (by decide)
  unfold metaByte
  dsimp only
  split
  · exact Or.inl rfl
  split
  · exact Or.inl rfl
  · exact Or.inr rfl

theorem metaByte_fits {s : Stream} {c : UInt8} (hc : textByte c = true ∨ c = 13)
    (hline : s.line.length < lineSize - 1) (hbytes : s.headerBytes < 8192) :
    metaByte c s = typed s [c] := by
  have hchar : ¬(c = 0 ∨ c = 127 ∨ (c < 32 ∧ c ≠ 13 ∧ c ≠ 9) ∨ s.line.length = lineSize - 1) := by
    rintro (rfl | rfl | ⟨hlt, h13, h9⟩ | hfull)
    · rcases hc with hc | hc <;> exact absurd hc (by decide)
    · rcases hc with hc | hc <;> exact absurd hc (by decide)
    · rcases hc with hc | hc
      · unfold textByte at hc
        simp only [Bool.or_eq_true, Bool.and_eq_true, beq_iff_eq, decide_eq_true_eq] at hc
        rcases hc with hc | hc
        · exact h9 hc
        · exact absurd hlt (UInt8.not_lt.mpr hc.1)
      · exact h13 hc
    · omega
  have hne : c ≠ 10 := by
    rintro rfl
    rcases hc with hc | hc <;> exact absurd hc (by decide)
  unfold metaByte
  dsimp only
  rw [if_neg (by omega), if_neg hne, if_neg hchar]
  rfl

theorem typed_nil (s : Stream) : typed s [] = s := by simp [typed]

theorem typed_typed (s : Stream) (a b : List UInt8) : typed (typed s a) b = typed s (a ++ b) := by
  simp [typed, Nat.add_assoc]

/-- Text goes to the line, or ends the decoder in an error. -/
theorem reads_text {s : Stream} (hs : readsLines s.state = true) (hh : halted s = false)
    {text : List UInt8} (ht : ∀ c ∈ text, textByte c = true ∨ c = 13) :
    (Reads s text (typed s text) [] ∨ Ends s text) ∧
      (s.line.length + text.length ≤ lineSize - 1 → s.headerBytes + text.length ≤ 8192 →
        Reads s text (typed s text) []) := by
  induction text generalizing s with
  | nil =>
    rw [typed_nil]
    exact ⟨Or.inl (Reads.nil s), fun _ _ => Reads.nil s⟩
  | cons c text ih =>
    have hc := ht c (List.mem_cons_self ..)
    obtain ⟨hbody, hconsume⟩ := consume_meta hs c
    have hbyte := reads_byte hh c
    rw [hbody, hconsume] at hbyte
    obtain ⟨hor, hfits⟩ := ih (s := typed s [c]) hs hh fun c hc => ht c (List.mem_cons_of_mem _ hc)
    rw [typed_typed] at hor hfits
    constructor
    · rcases metaByte_text (s := s) hc with herr | heq
      · exact Or.inr ((hbyte.ends_error herr).append text)
      · rw [heq] at hbyte
        rcases hor with hread | hend
        · exact Or.inl (hbyte.append hread)
        · exact Or.inr (hbyte.ends hend)
    · intro hline hbytes
      rw [List.length_cons] at hline hbytes
      rw [metaByte_fits hc (by omega) (by omega)] at hbyte
      refine hbyte.append (hfits ?_ ?_)
      · simp only [typed, List.length_append, List.length_singleton]
        omega
      · simp only [typed, List.length_singleton]
        omega

/-- What a line does that is read as a whole. -/
def lineDone (s : Stream) (text : List UInt8) : Stream :=
  let s := { line { s with line := text, headerBytes := s.headerBytes + text.length + 2 } with
    line := [] }
  if s.state = .chunkBody then { s with headerBytes := 0 } else s

/-- A line is read as a whole, or ends the decoder in an error. -/
theorem reads_line {s : Stream} (hs : readsLines s.state = true) (hh : halted s = false)
    (hl : s.line = []) {text : List UInt8} (ht : text.all textByte = true) :
    (Reads s (text ++ crlf) (lineDone s text) [] ∨ Ends s (text ++ crlf)) ∧
      (text.length + 2 ≤ lineSize → s.headerBytes + (text.length + 2) ≤ 8192 →
        Reads s (text ++ crlf) (lineDone s text) []) := by
  have htext : ∀ c ∈ text, textByte c = true := List.all_eq_true.mp ht
  have hno : ¬(13 : UInt8) ∈ text := fun h => absurd (htext 13 h) (by decide)
  obtain ⟨hor, hfits⟩ := @reads_text s hs hh (text ++ [13]) fun c hc => by
    rcases List.mem_append.mp hc with hc | hc
    · exact Or.inl (htext c hc)
    · exact Or.inr (List.mem_singleton.mp hc)
  -- the newline, behind the text and its carriage return
  have hlast := reads_byte (s := typed s (text ++ [13])) hh 10
  obtain ⟨hbody, hconsume⟩ := consume_meta (s := typed s (text ++ [13])) hs 10
  rw [hbody, hconsume] at hlast
  have hend : endLine { typed s (text ++ [13]) with
      headerBytes := s.headerBytes + text.length + 2 } = lineDone s text := by
    unfold endLine typed
    simp [hl, hno, lineDone]
  have hsplit : text ++ crlf = (text ++ [13]) ++ [10] := by simp [crlf]
  rw [hsplit]
  have hmeta : metaByte 10 (typed s (text ++ [13])) =
      if 8192 < s.headerBytes + text.length + 2 then
        { typed s (text ++ [13]) with
          headerBytes := s.headerBytes + text.length + 2
          error := some "HTTP metadata too large" }
      else lineDone s text := by
    rw [← hend]
    simp only [metaByte, typed, List.length_append, List.length_singleton, if_true,
      ← Nat.add_assoc]
  rw [hmeta] at hlast
  constructor
  · rcases hor with hread | hend
    swap
    · exact Or.inr (hend.append _)
    by_cases hbig : 8192 < s.headerBytes + text.length + 2
    · rw [if_pos hbig] at hlast
      exact Or.inr (hread.ends (hlast.ends_error rfl))
    · rw [if_neg hbig] at hlast
      exact Or.inl (hread.append hlast)
  · intro hline hbytes
    rw [if_neg (by omega)] at hlast
    refine (hfits ?_ ?_).append hlast
    · rw [hl, List.length_append, List.length_singleton]
      simp only [List.length_nil]
      omega
    · rw [List.length_append, List.length_singleton]
      omega

/-! ## Heads -/

structure Header where
  name : List UInt8
  value : List UInt8

def Header.text (h : Header) : List UInt8 := h.name ++ 58 :: h.value

structure Header.Ok (h : Header) : Prop where
  name : h.name ≠ []
  token : h.name.all tokenByte = true
  value : h.value.all textByte = true

/-- The values of the headers of this name, without the blanks around them. -/
def values (name : String) (hs : List Header) : List (List UInt8) :=
  (hs.filter fun h => equalsIgnoreCase h.name (ascii name.toList)).map fun h => trim h.value

structure Head where
  minor : Bool
  status : Nat
  reason : Option (List UInt8)
  headers : List Header

def statusDigits (status : Nat) : List UInt8 :=
  [UInt8.ofNat (48 + status / 100), UInt8.ofNat (48 + status / 10 % 10),
    UInt8.ofNat (48 + status % 10)]

def Head.statusLine (h : Head) : List UInt8 :=
  (ascii ['H', 'T', 'T', 'P', '/', '1', '.'] ++ [if h.minor then 49 else 48, 32] ++
    statusDigits h.status) ++ (h.reason.map (32 :: ·)).getD []

def lines (hs : List Header) : List UInt8 := hs.flatMap fun h => h.text ++ crlf

def Head.bytes (h : Head) : List UInt8 := h.statusLine ++ crlf ++ lines h.headers ++ crlf

/-- The lines of a head are what HTTP says they are. -/
structure Head.Ok (h : Head) : Prop where
  low : 100 ≤ h.status
  high : h.status < 600
  reason : ((h.reason.map (32 :: ·)).getD []).all textByte = true
  headers : ∀ f ∈ h.headers, f.Ok

/-- The lines fit the decoder's buffer. -/
def Head.Short (h : Head) : Prop :=
  h.statusLine.length + 2 ≤ lineSize ∧ ∀ f ∈ h.headers, f.text.length + 2 ≤ lineSize

theorem tokenByte_table : ∀ n < 256, tokenByte (UInt8.ofNat n) = true →
    textByte (UInt8.ofNat n) = true ∧ UInt8.ofNat n ≠ 58 ∧ blank (UInt8.ofNat n) = false := by
  decide +kernel

theorem tokenByte_text {c : UInt8} (h : tokenByte c = true) :
    textByte c = true ∧ c ≠ 58 ∧ blank c = false := by
  have hc := tokenByte_table c.toNat c.toNat_lt
  rw [UInt8.ofNat_toNat] at hc
  exact hc h

theorem Header.Ok.text {h : Header} (hok : h.Ok) : h.text.all textByte = true := by
  rw [Header.text, List.all_append, List.all_cons, hok.value]
  have hname : h.name.all textByte = true :=
    List.all_eq_true.mpr fun c hc => (tokenByte_text (List.all_eq_true.mp hok.token c hc)).1
  rw [hname]
  rfl

theorem digits_text : ∀ n < 600, (statusDigits n).all textByte = true := by decide +kernel

theorem Head.Ok.text {h : Head} (hok : h.Ok) : h.statusLine.all textByte = true := by
  rw [Head.statusLine, List.all_append, List.all_append, digits_text h.status hok.high, hok.reason]
  cases h.minor <;> rfl

/-- What a status line leaves. -/
theorem line_status {s : Stream} {h : Head} (hok : h.Ok) (hs : s.state = .status)
    (hl : s.line = h.statusLine) : line s = { s with status := h.status, state := .headers } := by
  have hlow := hok.low
  have hhigh := hok.high
  obtain ⟨d1, hd1⟩ : ∃ d, UInt8.ofNat (48 + h.status / 100) = d := ⟨_, rfl⟩
  obtain ⟨d2, hd2⟩ : ∃ d, UInt8.ofNat (48 + h.status / 10 % 10) = d := ⟨_, rfl⟩
  obtain ⟨d3, hd3⟩ : ∃ d, UInt8.ofNat (48 + h.status % 10) = d := ⟨_, rfl⟩
  have hn1 : d1.toNat = 48 + h.status / 100 := by
    rw [← hd1, UInt8.toNat_ofNat']
    omega
  have hn2 : d2.toNat = 48 + h.status / 10 % 10 := by
    rw [← hd2, UInt8.toNat_ofNat']
    omega
  have hn3 : d3.toNat = 48 + h.status % 10 := by
    rw [← hd3, UInt8.toNat_ofNat']
    omega
  have hsub {d : UInt8} (h48 : 48 ≤ d.toNat) : (d - 48).toNat = d.toNat - 48 :=
    UInt8.toNat_sub_of_le d 48 (UInt8.le_iff_toNat_le.mpr h48)
  have hvalue : (d1 - 48).toNat * 100 + (d2 - 48).toNat * 10 + (d3 - 48).toNat = h.status := by
    rw [hsub (by omega), hsub (by omega), hsub (by omega), hn1, hn2, hn3]
    omega
  have hr1 : ¬d1 < 49 ∧ ¬53 < d1 := by
    rw [UInt8.lt_iff_toNat_lt, UInt8.lt_iff_toNat_lt, hn1]
    show ¬48 + h.status / 100 < 49 ∧ ¬53 < 48 + h.status / 100
    omega
  have hdigit {d : UInt8} (h48 : 48 ≤ d.toNat) (h57 : d.toNat ≤ 57) : isDigit d = true := by
    unfold isDigit
    rw [Bool.and_eq_true, decide_eq_true_eq, decide_eq_true_eq, UInt8.le_iff_toNat_le,
      UInt8.le_iff_toNat_le]
    exact ⟨h48, h57⟩
  have hr2 : isDigit d2 = true := hdigit (by omega) (by omega)
  have hr3 : isDigit d3 = true := hdigit (by omega) (by omega)
  have hreason : ∃ r, s.line = (ascii ['H', 'T', 'T', 'P', '/', '1', '.'] ++
      [if h.minor then 49 else 48, 32] ++ [d1, d2, d3]) ++ r ∧ (r = [] ∨ r.head? = some 32) := by
    refine ⟨(h.reason.map (32 :: ·)).getD [], ?_, ?_⟩
    · rw [hl, Head.statusLine, statusDigits, hd1, hd2, hd3]
    · cases h.reason with
      | none => exact Or.inl rfl
      | some r => exact Or.inr rfl
  obtain ⟨r, hline, hr⟩ := hreason
  have hgood : ¬(s.line.length < 12 ∨
      (s.line.take 9 ≠ ascii ['H', 'T', 'T', 'P', '/', '1', '.', '0', ' '] ∧
        s.line.take 9 ≠ ascii ['H', 'T', 'T', 'P', '/', '1', '.', '1', ' ']) ∨
      s.line.getD 9 0 < 49 ∨ 53 < s.line.getD 9 0 ∨ !isDigit (s.line.getD 10 0) ∨
      !isDigit (s.line.getD 11 0) ∨ (12 < s.line.length ∧ s.line.getD 12 0 ≠ 32)) := by
    rw [hline]
    rcases hr with rfl | hr
    · cases h.minor <;> simp [ascii, hr1, hr2, hr3]
    · obtain ⟨c, r, rfl⟩ := List.exists_cons_of_ne_nil (l := r) (by
        rintro rfl
        cases hr)
      have hc : c = 32 := Option.some.inj hr
      cases h.minor <;> simp [ascii, hr1, hr2, hr3, hc]
  have hdigits : s.line.getD 9 0 = d1 ∧ s.line.getD 10 0 = d2 ∧ s.line.getD 11 0 = d3 := by
    rw [hline]
    simp [ascii]
  obtain ⟨h1, h2, h3⟩ := hdigits
  unfold line
  rw [hs]
  dsimp only
  unfold statusLine
  dsimp only
  rw [if_neg hgood, h1, h2, h3, hvalue]

/-- The name and the value of a header's line. -/
theorem header_split {h : Header} (hok : h.Ok) :
    h.text.takeWhile (· != 58) = h.name ∧ (h.text.dropWhile (· != 58)).drop 1 = h.value := by
  have hname : ∀ c ∈ h.name, (c != 58) = true := fun c hc => by
    rw [bne_iff_ne]
    exact (tokenByte_text (List.all_eq_true.mp hok.token c hc)).2.1
  rw [Header.text, List.takeWhile_append_of_pos hname, List.dropWhile_append_of_pos hname]
  simp

theorem header_text {h : Header} (hok : h.Ok) (s : Stream) :
    header h.text s = if s.state = .trailers then s else headerField h.name (trim h.value) s := by
  obtain ⟨hname, hvalue⟩ := header_split hok
  have hcolon : h.text.contains 58 = true := by simp [Header.text]
  obtain ⟨c, name, hcons⟩ := List.exists_cons_of_ne_nil hok.name
  have hblank : h.text.head?.any blank = false := by
    have hc := hok.token
    rw [hcons, List.all_cons, Bool.and_eq_true] at hc
    rw [Header.text, hcons]
    exact (tokenByte_text hc.1).2.2
  unfold header
  simp only [hname, hvalue, hcolon, hok.name, hblank, hok.token, Bool.not_true, Bool.false_eq_true,
    false_or, if_false]

theorem line_header {s : Stream} {h : Header} (hok : h.Ok) (hl : s.line = h.text)
    (hs : s.state = .headers ∨ s.state = .trailers) :
    line s = if s.state = .trailers then s else headerField h.name (trim h.value) s := by
  have hne : h.text ≠ [] := by simp [Header.text]
  unfold line
  rcases hs with hs | hs <;> rw [hs] <;> dsimp only <;> rw [hl, if_neg hne, header_text hok, hs]

/-- What a header may change. -/
theorem headerField_keeps (name value : List UInt8) (s : Stream) :
    let t := headerField name value s
    t.state = s.state ∧ t.status = s.status ∧ t.headerBytes = s.headerBytes ∧ t.done = s.done ∧
      t.line = s.line := by
  unfold headerField
  dsimp only
  split_ifs <;> exact ⟨rfl, rfl, rfl, rfl, rfl⟩

/-- The framing that the headers of a list ask for. -/
structure Collected (hs : List Header) (s : Stream) : Prop where
  haveLength : s.haveLength = decide (values "Content-Length" hs ≠ [])
  chunked : s.chunked = decide (values "Transfer-Encoding" hs ≠ [])
  lengths : (values "Content-Length" hs).length ≤ 1
  remaining : ∀ v ∈ values "Content-Length" hs, number 10 v = (true, s.remaining)
  absent : values "Content-Length" hs = [] → s.remaining = 0
  location : values "Location" hs = [] → s.location = []

/-- A list of headers that the decoder takes. It refuses every content coding but `identity`: such
a response may be framed well, and is left out. -/
structure Fine (hs : List Header) : Prop where
  lengths : (values "Content-Length" hs).length ≤ 1
  numeral : ∀ v ∈ values "Content-Length" hs, Numeral 10 v ∧ valueFrom 10 0 v < 2 ^ 32
  codings : (values "Transfer-Encoding" hs).length ≤ 1
  coding : ∀ v ∈ values "Transfer-Encoding" hs, equalsIgnoreCase v (ascii "chunked".toList) = true
  one : values "Content-Length" hs = [] ∨ values "Transfer-Encoding" hs = []
  encoding : ∀ v ∈ values "Content-Encoding" hs, equalsIgnoreCase v (ascii "identity".toList) = true
  locations : (values "Location" hs).length ≤ 1
  location : ∀ v ∈ values "Location" hs, v.length < z80HttpUrlMax

theorem values_append (name : String) (hs rest : List Header) :
    values name (hs ++ rest) = values name hs ++ values name rest := by
  simp [values]

theorem values_single (name : String) (h : Header) :
    values name [h] = if equalsIgnoreCase h.name (ascii name.toList) then [trim h.value] else [] := by
  unfold values
  by_cases hn : equalsIgnoreCase h.name (ascii name.toList) = true <;> simp [hn]

theorem values_other {name other : String} {h : Header}
    (hn : equalsIgnoreCase h.name (ascii name.toList) = true)
    (hne : (ascii name.toList).map toLower ≠ (ascii other.toList).map toLower) :
    values other [h] = [] := by
  rw [values_single, if_neg]
  intro ho
  unfold equalsIgnoreCase at hn ho
  rw [beq_iff_eq] at hn ho
  exact hne (hn.symm.trans ho)

/-- The four names that matter are different. -/
theorem names_differ :
    let f := fun name : String => (ascii name.toList).map toLower
    ["Content-Length", "Transfer-Encoding", "Content-Encoding", "Location"].Pairwise
      fun a b => f a ≠ f b := by
  decide +kernel

theorem collected_length {hs : List Header} {h : Header} {s : Stream} (hc : Collected hs s)
    (hn : equalsIgnoreCase h.name (ascii "Content-Length".toList) = true) :
    let t := headerField h.name (trim h.value) s
    (t.error = none → Collected (hs ++ [h]) t) ∧
      (s.error = none → Fine (hs ++ [h]) → t.error = none) := by
  have hdiff := names_differ
  simp only [List.pairwise_cons, List.mem_cons, List.not_mem_nil, or_false, forall_eq_or_imp,
    forall_eq] at hdiff
  obtain ⟨⟨hte, hce, hlo⟩, -⟩ := hdiff
  have hvalues : values "Content-Length" (hs ++ [h]) = values "Content-Length" hs ++ [trim h.value] := by
    rw [values_append, values_single, if_pos hn]
  have hcodings : values "Transfer-Encoding" (hs ++ [h]) = values "Transfer-Encoding" hs := by
    rw [values_append, values_other hn hte, List.append_nil]
  have hlocations : values "Location" (hs ++ [h]) = values "Location" hs := by
    rw [values_append, values_other hn hlo, List.append_nil]
  unfold headerField
  rw [if_pos hn]
  by_cases hlen : s.haveLength = true
  · rw [if_pos hlen]
    refine ⟨fun h => (by cases h), fun _ hfine => ?_⟩
    have hsome := hc.haveLength
    rw [hlen, eq_comm, decide_eq_true_eq] at hsome
    have hone := hfine.lengths
    rw [hvalues, List.length_append, List.length_singleton] at hone
    exact absurd (List.length_eq_zero_iff.mp (by omega)) hsome
  rw [if_neg hlen]
  have hnil : values "Content-Length" hs = [] := by
    have hsome := hc.haveLength
    rw [Bool.not_eq_true] at hlen
    rw [hlen, eq_comm, decide_eq_false_iff_not, not_not] at hsome
    exact hsome
  dsimp only
  constructor
  · intro he
    have hok : (number 10 (trim h.value)).1 = true := by
      by_contra hno
      rw [if_neg hno] at he
      cases he
    exact {
      haveLength := by
        rw [hvalues]
        simp
      chunked := by rw [hcodings, hc.chunked]
      lengths := by simp [hvalues, hnil]
      remaining := by
        rw [hvalues, hnil]
        intro v hv
        rw [List.nil_append, List.mem_singleton] at hv
        rw [hv]
        exact Prod.ext hok rfl
      absent := fun h => by simp [hvalues] at h
      location := by
        rw [hlocations]
        exact hc.location }
  · intro he hfine
    obtain ⟨hnum, hlt⟩ := hfine.numeral (trim h.value) (by simp [hvalues])
    have hok := (@number_numeral 10 (Or.inl rfl) _ [] (Or.inl rfl) hnum).1.mpr hlt
    rw [List.append_nil] at hok
    rw [if_pos hok, he]

theorem collected_coding {hs : List Header} {h : Header} {s : Stream} (hc : Collected hs s)
    (hn : equalsIgnoreCase h.name (ascii "Transfer-Encoding".toList) = true) :
    let t := headerField h.name (trim h.value) s
    (t.error = none → Collected (hs ++ [h]) t) ∧
      (s.error = none → Fine (hs ++ [h]) → t.error = none) := by
  have hdiff := names_differ
  simp only [List.pairwise_cons, List.mem_cons, List.not_mem_nil, or_false, forall_eq_or_imp,
    forall_eq] at hdiff
  obtain ⟨⟨hte, -, -⟩, ⟨-, hlo⟩, -⟩ := hdiff
  have hlengths : values "Content-Length" (hs ++ [h]) = values "Content-Length" hs := by
    rw [values_append, values_other hn hte.symm, List.append_nil]
  have hvalues : values "Transfer-Encoding" (hs ++ [h]) =
      values "Transfer-Encoding" hs ++ [trim h.value] := by
    rw [values_append, values_single, if_pos hn]
  have hlocations : values "Location" (hs ++ [h]) = values "Location" hs := by
    rw [values_append, values_other hn hlo, List.append_nil]
  have hnl : ¬equalsIgnoreCase h.name (ascii "Content-Length".toList) = true := by
    intro ho
    unfold equalsIgnoreCase at hn ho
    rw [beq_iff_eq] at hn ho
    exact hte (ho.symm.trans hn)
  unfold headerField
  rw [if_neg hnl, if_pos hn]
  dsimp only
  constructor
  · intro _
    exact {
      haveLength := by rw [hlengths, hc.haveLength]
      chunked := by simp [hvalues]
      lengths := by
        rw [hlengths]
        exact hc.lengths
      remaining := by
        rw [hlengths]
        exact hc.remaining
      absent := by
        rw [hlengths]
        exact hc.absent
      location := by
        rw [hlocations]
        exact hc.location }
  · intro he hfine
    have hone := hfine.codings
    rw [hvalues, List.length_append, List.length_singleton] at hone
    have hnil : values "Transfer-Encoding" hs = [] := List.length_eq_zero_iff.mp (by omega)
    have hch : s.chunked = false := by rw [hc.chunked, hnil]; rfl
    have hval := hfine.coding (trim h.value) (by simp [hvalues])
    rw [hch, hval, if_neg (by simp), he]

theorem collected_other {hs : List Header} {h : Header} {s : Stream} (hc : Collected hs s)
    (hnl : ¬equalsIgnoreCase h.name (ascii "Content-Length".toList) = true)
    (hnt : ¬equalsIgnoreCase h.name (ascii "Transfer-Encoding".toList) = true) :
    let t := headerField h.name (trim h.value) s
    (t.error = none → Collected (hs ++ [h]) t) ∧
      (s.error = none → Fine (hs ++ [h]) → t.error = none) := by
  have hlengths : values "Content-Length" (hs ++ [h]) = values "Content-Length" hs := by
    rw [values_append, values_single, if_neg hnl, List.append_nil]
  have hcodings : values "Transfer-Encoding" (hs ++ [h]) = values "Transfer-Encoding" hs := by
    rw [values_append, values_single, if_neg hnt, List.append_nil]
  -- neither the framing nor, without a Location, the target of a redirect changes
  have hkeep {t : Stream} (h1 : t.haveLength = s.haveLength) (h2 : t.chunked = s.chunked)
      (h3 : t.remaining = s.remaining)
      (h4 : values "Location" (hs ++ [h]) = [] → t.location = s.location) :
      Collected (hs ++ [h]) t := {
    haveLength := by rw [hlengths, h1, hc.haveLength]
    chunked := by rw [hcodings, h2, hc.chunked]
    lengths := by
      rw [hlengths]
      exact hc.lengths
    remaining := by
      rw [hlengths, h3]
      exact hc.remaining
    absent := by
      rw [hlengths, h3]
      exact hc.absent
    location := by
      intro hnil
      rw [h4 hnil]
      rw [values_append, List.append_eq_nil_iff] at hnil
      exact hc.location hnil.1 }
  unfold headerField
  rw [if_neg hnl, if_neg hnt]
  by_cases hce : equalsIgnoreCase h.name (ascii "Content-Encoding".toList) = true
  · rw [if_pos hce]
    by_cases hid : equalsIgnoreCase (trim h.value) (ascii "identity".toList) = true
    · rw [if_pos hid]
      exact ⟨fun _ => hkeep rfl rfl rfl fun _ => rfl, fun he _ => he⟩
    · rw [if_neg hid]
      refine ⟨fun he => (by cases he), fun _ hfine => absurd (hfine.encoding (trim h.value) ?_) hid⟩
      rw [values_append, values_single, if_pos hce]
      simp
  rw [if_neg hce]
  by_cases hlo : equalsIgnoreCase h.name (ascii "Location".toList) = true
  · rw [if_pos hlo]
    have hvalues : values "Location" (hs ++ [h]) = values "Location" hs ++ [trim h.value] := by
      rw [values_append, values_single, if_pos hlo]
    by_cases hbad : s.location ≠ [] ∨ z80HttpUrlMax ≤ (trim h.value).length
    · rw [if_pos hbad]
      refine ⟨fun he => (by cases he), fun _ hfine => ?_⟩
      rcases hbad with hne | hlong
      · have hone := hfine.locations
        rw [hvalues, List.length_append, List.length_singleton] at hone
        exact absurd (hc.location (List.length_eq_zero_iff.mp (by omega))) hne
      · have hshort := hfine.location (trim h.value) (by simp [hvalues])
        omega
    · rw [if_neg hbad]
      refine ⟨fun _ => hkeep rfl rfl rfl fun hnil => ?_, fun he _ => he⟩
      rw [hvalues] at hnil
      simp at hnil
  · rw [if_neg hlo]
    exact ⟨fun _ => hkeep rfl rfl rfl fun _ => rfl, fun he _ => he⟩

theorem Collected.step {hs : List Header} {h : Header} {s : Stream} (hc : Collected hs s) :
    let t := headerField h.name (trim h.value) s
    (t.error = none → Collected (hs ++ [h]) t) ∧
      (s.error = none → Fine (hs ++ [h]) → t.error = none) := by
  by_cases hnl : equalsIgnoreCase h.name (ascii "Content-Length".toList) = true
  · exact collected_length hc hnl
  by_cases hnt : equalsIgnoreCase h.name (ascii "Transfer-Encoding".toList) = true
  · exact collected_coding hc hnt
  · exact collected_other hc hnl hnt

theorem Fine.before {hs rest : List Header} (h : Fine (hs ++ rest)) : Fine hs := by
  have hv := fun name => values_append name hs rest
  constructor
  · have := h.lengths
    rw [hv, List.length_append] at this
    omega
  · exact fun v hm => h.numeral v (by rw [hv]; exact List.mem_append_left _ hm)
  · have := h.codings
    rw [hv, List.length_append] at this
    omega
  · exact fun v hm => h.coding v (by rw [hv]; exact List.mem_append_left _ hm)
  · rcases h.one with hn | hn <;> rw [hv, List.append_eq_nil_iff] at hn
    · exact Or.inl hn.1
    · exact Or.inr hn.1
  · exact fun v hm => h.encoding v (by rw [hv]; exact List.mem_append_left _ hm)
  · have := h.locations
    rw [hv, List.length_append] at this
    omega
  · exact fun v hm => h.location v (by rw [hv]; exact List.mem_append_left _ hm)

/-! ## Reading heads -/

/-- The decoder is in a head, and has read these headers of it. -/
structure InHead (status n : Nat) (hs : List Header) (s : Stream) : Prop where
  state : s.state = .headers
  status : s.status = status
  headerBytes : s.headerBytes = n
  line : s.line = []
  done : s.done = false
  error : s.error = none
  collected : Collected hs s

/-- The decoder waits for a head. -/
structure AtHead (n : Nat) (s : Stream) : Prop where
  state : s.state = .status
  headerBytes : s.headerBytes = n
  line : s.line = []
  done : s.done = false
  error : s.error = none
  haveLength : s.haveLength = false
  chunked : s.chunked = false
  remaining : s.remaining = 0
  location : s.location = []

theorem not_halted {s : Stream} (he : s.error = none) (hd : s.done = false) : halted s = false := by
  simp [halted, he, hd]

/-- The decoder ends in an error, or reads all of the data and is not in one. -/
def Reaches (s : Stream) (data : List UInt8) (P : Stream → Prop) : Prop :=
  Ends s data ∨ ∃ t out, Reads s data t out ∧ P t

theorem Reaches.append {s : Stream} {a b : List UInt8} {P Q : Stream → Prop} (h : Reaches s a P)
    (h' : ∀ t, P t → Reaches t b Q) : Reaches s (a ++ b) Q := by
  rcases h with hend | ⟨t, out, hread, hp⟩
  · exact Or.inl (hend.append b)
  rcases h' t hp with hend | ⟨u, more, hread', hq⟩
  · exact Or.inl (hread.ends hend)
  · exact Or.inr ⟨u, out ++ more, hread.append hread', hq⟩

theorem AtHead.statusLine {n : Nat} {s : Stream} (h : AtHead n s) {head : Head} (hok : head.Ok) :
    InHead head.status (n + (head.statusLine.length + 2)) [] (lineDone s head.statusLine) := by
  have hline := line_status (s := { s with
      line := head.statusLine, headerBytes := s.headerBytes + head.statusLine.length + 2 })
    hok h.state rfl
  unfold lineDone
  rw [hline]
  rw [if_neg (by simp)]
  exact {
    state := rfl
    status := rfl
    headerBytes := by
      show s.headerBytes + head.statusLine.length + 2 = _
      rw [h.headerBytes]
      omega
    line := rfl
    done := h.done
    error := h.error
    collected := {
      haveLength := h.haveLength
      chunked := h.chunked
      lengths := Nat.zero_le _
      remaining := fun v hv => absurd hv (List.not_mem_nil)
      absent := fun _ => h.remaining
      location := fun _ => h.location } }

/-- A header is taken, or is an error. -/
theorem InHead.header {status n : Nat} {hs : List Header} {s : Stream} (h : InHead status n hs s)
    {f : Header} (hok : f.Ok) :
    ((lineDone s f.text).error = none →
      InHead status (n + (f.text.length + 2)) (hs ++ [f]) (lineDone s f.text)) ∧
    (Fine (hs ++ [f]) → (lineDone s f.text).error = none) := by
  have hline := line_header (s := { s with
      line := f.text, headerBytes := s.headerBytes + f.text.length + 2 }) hok rfl
    (Or.inl h.state)
  rw [if_neg (by show s.state ≠ _; rw [h.state]; decide)] at hline
  have hcoll : Collected hs { s with
      line := f.text, headerBytes := s.headerBytes + f.text.length + 2 } :=
    { h.collected with }
  obtain ⟨hstate, hstatus, hbytes, hdone, -⟩ := headerField_keeps f.name (trim f.value)
    { s with line := f.text, headerBytes := s.headerBytes + f.text.length + 2 }
  obtain ⟨hcollects, hfine⟩ := hcoll.step (h := f)
  unfold lineDone
  rw [hline]
  generalize headerField f.name (trim f.value) _ = t at *
  dsimp only at *
  have hnot : ¬t.state = .chunkBody := by
    rw [hstate, h.state]
    decide
  rw [if_neg hnot]
  refine ⟨fun he => ?_, hfine h.error⟩
  have hnew := hcollects he
  exact {
    state := hstate.trans h.state
    status := hstatus.trans h.status
    headerBytes := by
      show t.headerBytes = _
      rw [hbytes, h.headerBytes]
      omega
    line := rfl
    done := hdone.trans h.done
    error := he
    collected := { hnew with } }

theorem lines_cons (f : Header) (fs : List Header) : lines (f :: fs) = (f.text ++ crlf) ++ lines fs :=
  rfl

theorem length_crlf (text : List UInt8) : (text ++ crlf).length = text.length + 2 := by
  simp [crlf]

theorem InHead.reach {status n : Nat} {hs fs : List Header} {s : Stream} (h : InHead status n hs s)
    (hok : ∀ f ∈ fs, f.Ok) :
    Reaches s (lines fs) (InHead status (n + (lines fs).length) (hs ++ fs)) := by
  induction fs generalizing n hs s with
  | nil =>
    rw [List.append_nil]
    exact Or.inr ⟨s, [], Reads.nil s, h⟩
  | cons f fs ih =>
    have hf := hok f (List.mem_cons_self ..)
    rw [lines_cons, List.length_append, length_crlf, ← Nat.add_assoc]
    have hone : Reaches s (f.text ++ crlf)
        (InHead status (n + (f.text.length + 2)) (hs ++ [f])) := by
      rcases (reads_line (by rw [h.state]; decide) (not_halted h.error h.done) h.line hf.text).1
        with hread | hend
      · by_cases he : (lineDone s f.text).error = none
        · exact Or.inr ⟨_, [], hread, (h.header hf).1 he⟩
        · exact Or.inl (hread.ends_error (Option.isSome_iff_ne_none.mpr he))
      · exact Or.inl hend
    refine hone.append fun t ht => ?_
    have hrest := ih ht fun f hf => hok f (List.mem_cons_of_mem _ hf)
    rwa [List.append_assoc] at hrest

theorem InHead.read {status n : Nat} {hs fs : List Header} {s : Stream} (h : InHead status n hs s)
    (hok : ∀ f ∈ fs, f.Ok) (hfine : Fine (hs ++ fs))
    (hshort : ∀ f ∈ fs, f.text.length + 2 ≤ lineSize) (hbytes : n + (lines fs).length ≤ 8192) :
    ∃ t, Reads s (lines fs) t [] ∧ InHead status (n + (lines fs).length) (hs ++ fs) t := by
  induction fs generalizing n hs s with
  | nil =>
    rw [List.append_nil]
    exact ⟨s, Reads.nil s, h⟩
  | cons f fs ih =>
    have hf := hok f (List.mem_cons_self ..)
    have hall : Fine ((hs ++ [f]) ++ fs) := by rwa [List.append_assoc]
    rw [lines_cons, List.length_append, length_crlf] at hbytes
    have hread := (reads_line (by rw [h.state]; decide) (not_halted h.error h.done) h.line
      hf.text).2 (hshort f (List.mem_cons_self ..)) (by rw [h.headerBytes]; omega)
    have hnext := (h.header hf).1 ((h.header hf).2 hall.before)
    obtain ⟨t, hreads, ht⟩ := ih hnext (fun f hf => hok f (List.mem_cons_of_mem _ hf)) hall
      (fun f hf => hshort f (List.mem_cons_of_mem _ hf)) (by omega)
    refine ⟨t, hread.append hreads, ?_⟩
    rw [lines_cons, List.length_append, length_crlf, ← Nat.add_assoc]
    rwa [List.append_assoc] at ht

/-- An interim status, after which another head comes. -/
def Interim (status : Nat) : Prop := 100 ≤ status ∧ status < 200 ∧ status ≠ 101

/-- The head of a 200 response has been read. -/
structure AtBody (n : Nat) (hs : List Header) (s : Stream) : Prop where
  state : s.state =
    if values "Transfer-Encoding" hs ≠ [] then .chunkSize
    else if values "Content-Length" hs ≠ [] then .bodyLength else .bodyClose
  headerBytes : s.headerBytes = n
  line : s.line = []
  error : s.error = none
  done : s.done = (decide (values "Content-Length" hs ≠ []) && decide (s.remaining = 0))
  one : values "Content-Length" hs = [] ∨ values "Transfer-Encoding" hs = []
  remaining : ∀ v ∈ values "Content-Length" hs, number 10 v = (true, s.remaining)

theorem lineDone_empty {status n : Nat} {hs : List Header} {s : Stream} (h : InHead status n hs s) :
    ∃ u : Stream, InHead status (n + 2) hs u ∧ lineDone s [] = { endHeaders u with line := [] } := by
  have hu : InHead status (n + 2) hs { s with line := [], headerBytes := s.headerBytes + 0 + 2 } :=
    { h with
      headerBytes := by
        show s.headerBytes + 0 + 2 = n + 2
        rw [h.headerBytes]
      line := rfl
      collected := { h.collected with } }
  refine ⟨_, hu, ?_⟩
  have hline : line { s with line := [], headerBytes := s.headerBytes + 0 + 2 } =
      endHeaders { s with line := [], headerBytes := s.headerBytes + 0 + 2 } := by
    unfold line
    dsimp only
    rw [h.state]
    dsimp only
    rw [if_pos rfl, if_neg (by decide)]
  have hnot : ¬(endHeaders { s with line := [], headerBytes := s.headerBytes + 0 + 2 }).state =
      .chunkBody := by
    unfold endHeaders
    dsimp only
    rw [h.state]
    split_ifs <;> simp
  unfold lineDone
  rw [List.length_nil, hline]
  exact if_neg hnot

theorem InHead.interim {status n : Nat} {hs : List Header} {s : Stream} (h : InHead status n hs s)
    (hi : Interim status) :
    ((lineDone s []).error = none → AtHead (n + 2) (lineDone s [])) ∧
      (Fine hs → (lineDone s []).error = none) := by
  obtain ⟨u, hu, heq⟩ := lineDone_empty h
  rw [heq]
  unfold endHeaders
  by_cases hboth : (u.haveLength && u.chunked) = true
  · rw [if_pos hboth]
    refine ⟨fun he => (by cases he), fun hfine => ?_⟩
    rw [Bool.and_eq_true, hu.collected.haveLength, hu.collected.chunked, decide_eq_true_eq,
      decide_eq_true_eq] at hboth
    rcases hfine.one with hn | hn
    · exact absurd hn hboth.1
    · exact absurd hn hboth.2
  rw [if_neg hboth, if_pos (by rw [hu.status]; exact hi)]
  refine ⟨fun _ => ?_, fun _ => hu.error⟩
  exact {
    state := rfl
    headerBytes := hu.headerBytes
    line := rfl
    done := hu.done
    error := hu.error
    haveLength := rfl
    chunked := rfl
    remaining := rfl
    location := rfl }

theorem InHead.final {n : Nat} {hs : List Header} {s : Stream} (h : InHead 200 n hs s) :
    ((lineDone s []).error = none → AtBody (n + 2) hs (lineDone s [])) ∧
      (Fine hs → (lineDone s []).error = none) := by
  obtain ⟨u, hu, heq⟩ := lineDone_empty h
  rw [heq]
  unfold endHeaders
  have hlen := hu.collected.haveLength
  have hch := hu.collected.chunked
  by_cases hboth : (u.haveLength && u.chunked) = true
  · rw [if_pos hboth]
    refine ⟨fun he => (by cases he), fun hfine => ?_⟩
    rw [Bool.and_eq_true, hlen, hch, decide_eq_true_eq, decide_eq_true_eq] at hboth
    rcases hfine.one with hn | hn
    · exact absurd hn hboth.1
    · exact absurd hn hboth.2
  rw [if_neg hboth, hu.status, if_neg (by decide), if_neg (by decide), if_neg (by decide)]
  refine ⟨fun _ => ?_, fun _ => hu.error⟩
  rw [Bool.and_eq_true, not_and_or, hlen, hch, decide_eq_true_eq, decide_eq_true_eq, not_not,
    not_not] at hboth
  exact {
    state := by
      show (if u.chunked = true then _ else if u.haveLength = true then _ else _) = _
      rw [hlen, hch]
      simp only [decide_eq_true_eq]
    headerBytes := hu.headerBytes
    line := rfl
    error := hu.error
    done := by
      show (decide ((200 : Nat) = 204) || (u.haveLength && decide (u.remaining = 0))) = _
      rw [hlen]
      rfl
    one := hboth
    remaining := hu.collected.remaining }

theorem Head.length_bytes (h : Head) :
    h.bytes.length = h.statusLine.length + 2 + (lines h.headers).length + 2 := by
  rw [Head.bytes, length_crlf, List.length_append, length_crlf]

/-- The empty line behind the headers. -/
theorem InHead.reach_end {status n : Nat} {hs : List Header} {s : Stream} {P : Stream → Prop}
    (h : InHead status n hs s) (hp : (lineDone s []).error = none → P (lineDone s [])) :
    Reaches s crlf P := by
  rcases (reads_line (by rw [h.state]; decide) (not_halted h.error h.done) h.line
    (show ([] : List UInt8).all textByte = true from rfl)).1 with hread | hend
  · by_cases he : (lineDone s []).error = none
    · exact Or.inr ⟨_, [], hread, hp he⟩
    · exact Or.inl (hread.ends_error (Option.isSome_iff_ne_none.mpr he))
  · exact Or.inl hend

theorem AtHead.reach {n : Nat} {s : Stream} {P : Stream → Prop} (h : AtHead n s) {head : Head}
    (hok : head.Ok)
    (hp : ∀ t, InHead head.status (n + head.bytes.length - 2) head.headers t →
      (lineDone t []).error = none → P (lineDone t [])) :
    Reaches s head.bytes P := by
  have hstatus : Reaches s (head.statusLine ++ crlf)
      (InHead head.status (n + (head.statusLine.length + 2)) []) := by
    rcases (reads_line (by rw [h.state]; decide) (not_halted h.error h.done) h.line hok.text).1
      with hread | hend
    · exact Or.inr ⟨_, [], hread, h.statusLine hok⟩
    · exact Or.inl hend
  have hlength := head.length_bytes
  refine (hstatus.append fun t ht => ht.reach hok.headers).append fun t ht => ?_
  rw [List.nil_append] at ht
  refine ht.reach_end (hp t ?_)
  rw [hlength]
  have heq : n + (head.statusLine.length + 2) + (lines head.headers).length =
      n + (head.statusLine.length + 2 + (lines head.headers).length + 2) - 2 := by omega
  rw [← heq]
  exact ht

/-- A head that fits is read as a whole. -/
theorem AtHead.read {n : Nat} {s : Stream} {P : Stream → Prop} (h : AtHead n s) {head : Head}
    (hok : head.Ok) (hshort : head.Short) (hfine : Fine head.headers)
    (hbytes : n + head.bytes.length ≤ 8192)
    (hp : ∀ t, InHead head.status (n + head.bytes.length - 2) head.headers t → P (lineDone t [])) :
    ∃ t, Reads s head.bytes t [] ∧ P t := by
  have hlength := head.length_bytes
  have hstatus := (reads_line (by rw [h.state]; decide) (not_halted h.error h.done) h.line
    hok.text).2 hshort.1 (by rw [h.headerBytes]; omega)
  obtain ⟨t, hreads, ht⟩ := (h.statusLine hok).read hok.headers hfine hshort.2 (by omega)
  have hend := (reads_line (by rw [ht.state]; decide) (not_halted ht.error ht.done) ht.line
    (show ([] : List UInt8).all textByte = true from rfl)).2 (by decide) (by rw [ht.headerBytes, List.length_nil]; omega)
  refine ⟨lineDone t [], (hstatus.append hreads).append hend, hp t ?_⟩
  rw [hlength]
  have heq : n + (head.statusLine.length + 2) + (lines head.headers).length =
      n + (head.statusLine.length + 2 + (lines head.headers).length + 2) - 2 := by omega
  rw [← heq]
  exact ht

theorem AtHead.reach_interim {n : Nat} {s : Stream} (h : AtHead n s) {head : Head} (hok : head.Ok)
    (hi : Interim head.status) : Reaches s head.bytes (AtHead (n + head.bytes.length)) := by
  have hlength := head.length_bytes
  refine h.reach hok fun t ht he => ?_
  have hnext := (ht.interim hi).1 he
  rwa [show n + head.bytes.length - 2 + 2 = n + head.bytes.length by omega] at hnext

theorem AtHead.read_interim {n : Nat} {s : Stream} (h : AtHead n s) {head : Head} (hok : head.Ok)
    (hshort : head.Short) (hfine : Fine head.headers) (hi : Interim head.status)
    (hbytes : n + head.bytes.length ≤ 8192) :
    ∃ t, Reads s head.bytes t [] ∧ AtHead (n + head.bytes.length) t := by
  have hlength := head.length_bytes
  refine h.read hok hshort hfine hbytes fun t ht => ?_
  have hnext := (ht.interim hi).1 ((ht.interim hi).2 hfine)
  rwa [show n + head.bytes.length - 2 + 2 = n + head.bytes.length by omega] at hnext

/-- The interim heads before the final one. -/
def interimBytes (heads : List Head) : List UInt8 := heads.flatMap Head.bytes

theorem AtHead.reach_interims {n : Nat} {s : Stream} (h : AtHead n s) {heads : List Head}
    (hok : ∀ head ∈ heads, head.Ok ∧ Interim head.status) :
    Reaches s (interimBytes heads) (AtHead (n + (interimBytes heads).length)) := by
  induction heads generalizing n s with
  | nil => exact Or.inr ⟨s, [], Reads.nil s, h⟩
  | cons head heads ih =>
    obtain ⟨hhead, hi⟩ := hok head (List.mem_cons_self ..)
    have hcons : interimBytes (head :: heads) = head.bytes ++ interimBytes heads := rfl
    rw [hcons, List.length_append, ← Nat.add_assoc]
    exact (h.reach_interim hhead hi).append fun t ht =>
      ih ht fun head hm => hok head (List.mem_cons_of_mem _ hm)

theorem AtHead.read_interims {n : Nat} {s : Stream} (h : AtHead n s) {heads : List Head}
    (hok : ∀ head ∈ heads, head.Ok ∧ Interim head.status ∧ head.Short ∧ Fine head.headers)
    (hbytes : n + (interimBytes heads).length ≤ 8192) :
    ∃ t, Reads s (interimBytes heads) t [] ∧ AtHead (n + (interimBytes heads).length) t := by
  induction heads generalizing n s with
  | nil => exact ⟨s, Reads.nil s, h⟩
  | cons head heads ih =>
    obtain ⟨hhead, hi, hshort, hfine⟩ := hok head (List.mem_cons_self ..)
    have hcons : interimBytes (head :: heads) = head.bytes ++ interimBytes heads := rfl
    rw [hcons, List.length_append, ← Nat.add_assoc] at hbytes ⊢
    obtain ⟨t, hread, ht⟩ := h.read_interim hhead hshort hfine hi (by omega)
    obtain ⟨u, hreads, hu⟩ := ih ht (fun head hm => hok head (List.mem_cons_of_mem _ hm)) hbytes
    exact ⟨u, hread.append hreads, hu⟩

end Z80Sbc.Http.Heads
