import Z80Sbc.Http.Framing
import Z80Sbc.Http.Weather

/-! # The two decoders agree

The decoder of whole responses cuts its lines out of the buffer, the incremental one reads
them byte by byte. A line that the first one cuts out is read as that line by the second, or
ends it in an error; so it goes for the headers, the sizes and the chunks. The compaction only
writes what lies behind it, and looks at nothing but the buffer. -/

namespace Z80Sbc.Http.Weather
open Z80Sbc.Http Heads

/-! ## Lines in the buffer -/

theorem strstr_some {needle text : List UInt8} {n : Nat} (h : strstr needle text = some n) :
    needle <+: text.drop n ∧ ∀ k < n, ¬needle <+: text.drop k := by
  induction text generalizing n with
  | nil => cases h
  | cons c text ih =>
    rw [strstr] at h
    split at h
    next hfound =>
      cases h
      exact ⟨List.isPrefixOf_iff_prefix.mp hfound, fun k hk => absurd hk (Nat.not_lt_zero k)⟩
    next hmiss =>
    split at h
    · cases h
    · obtain ⟨m, hm, rfl⟩ := Option.map_eq_some_iff.mp h
      obtain ⟨hfound, hfirst⟩ := ih hm
      refine ⟨hfound, fun k hk => ?_⟩
      cases k with
      | zero => exact fun hprefix => hmiss (List.isPrefixOf_iff_prefix.mpr hprefix)
      | succ k => exact hfirst k (Nat.lt_of_succ_lt_succ hk)

/-- The NUL behind the text is in no needle. -/
theorem prefix_nul {needle text : List UInt8} (h0 : (0 : UInt8) ∉ needle) :
    needle <+: text ++ [0] ↔ needle <+: text := by
  constructor
  · rintro ⟨rest, hrest⟩
    rcases List.eq_nil_or_concat rest with rfl | ⟨front, last, rfl⟩
    · rw [List.append_nil] at hrest
      rw [hrest] at h0
      exact absurd (List.mem_append_right _ (List.mem_singleton_self _)) h0
    · rw [List.concat_eq_append, ← List.append_assoc] at hrest
      exact ⟨front, (List.append_inj' hrest rfl).1⟩
  · intro h
    exact h.trans (List.prefix_append _ _)

theorem strstr_text {needle text : List UInt8} {n : Nat} (hne : needle ≠ [])
    (h0 : (0 : UInt8) ∉ needle) (h : strstr needle (text ++ [0]) = some n) :
    needle <+: text.drop n ∧ n + needle.length ≤ text.length ∧
      ∀ k < n, ¬needle <+: text.drop k := by
  obtain ⟨hfound, hfirst⟩ := strstr_some h
  have hpos := List.length_pos_iff.mpr hne
  have hn := hfound.length_le
  rw [List.length_drop, List.length_append, List.length_singleton] at hn
  rw [List.drop_append_of_le_length (by omega), prefix_nul h0] at hfound
  have hfits := hfound.length_le
  rw [List.length_drop] at hfits
  refine ⟨hfound, by omega, fun k hk hprefix => hfirst k hk ?_⟩
  rw [List.drop_append_of_le_length (by omega)]
  exact (prefix_nul h0).mpr hprefix

/-- A line: what is in front of the first line end. -/
structure Cut (text : List UInt8) (n : Nat) : Prop where
  cut : text = text.take n ++ crlf ++ text.drop (n + 2)
  fits : n + 2 ≤ text.length
  first : ∀ a b, text.take n ≠ a ++ 13 :: 10 :: b

theorem strstr_cut {text : List UInt8} {n : Nat} (h : strstr lineEnd (text ++ [0]) = some n) :
    Cut text n := by
  obtain ⟨⟨rest, hrest⟩, hfits, hfirst⟩ := strstr_text (List.cons_ne_nil _ _) (by decide) h
  have hdrop : text.drop (n + 2) = rest := by
    rw [← List.drop_drop, ← hrest]
    rfl
  refine ⟨?_, hfits, fun a b hab => ?_⟩
  · rw [hdrop, List.append_assoc]
    rw [show crlf ++ rest = text.drop n from hrest, List.take_append_drop]
  · have hlt : a.length < n := by
      have hlen := congrArg List.length hab
      rw [List.length_take, List.length_append, List.length_cons, List.length_cons] at hlen
      omega
    refine hfirst a.length hlt ?_
    have htext := List.take_append_drop n text
    rw [hab] at htext
    rw [← htext, List.append_assoc, List.drop_left]
    exact ⟨b ++ text.drop n, rfl⟩

/-! ## Lines in the decoder -/

theorem metaByte_first {s : Stream} {c : UInt8} {text : List UInt8}
    (hno : ∀ a b, s.line ++ c :: text ≠ a ++ 13 :: 10 :: b) :
    (metaByte c s).error.isSome = true ∨ metaByte c s = typed s [c] := by
  unfold metaByte
  dsimp only
  split
  · exact Or.inl rfl
  split
  next hc =>
    subst hc
    unfold endLine
    split
    · exact Or.inl rfl
    next hlast =>
      rw [ne_eq, not_not] at hlast
      obtain ⟨front, hfront⟩ := List.getLast?_eq_some_iff.mp hlast
      refine absurd ?_ (hno front text)
      show s.line ++ 10 :: text = _
      rw [show s.line = front ++ [13] from hfront, List.append_assoc]
      rfl
  split
  · exact Or.inl rfl
  · exact Or.inr rfl

/-- Text without a line end goes to the line, or ends the decoder in an error. -/
theorem reads_first {s : Stream} (hs : readsLines s.state = true) (hh : halted s = false)
    {text : List UInt8} (hno : ∀ a b, s.line ++ text ≠ a ++ 13 :: 10 :: b) :
    Reads s text (typed s text) [] ∨ Ends s text := by
  induction text generalizing s with
  | nil =>
    rw [typed_nil]
    exact Or.inl (Reads.nil s)
  | cons c text ih =>
    obtain ⟨hbody, hconsume⟩ := consume_meta hs c
    have hbyte := reads_byte hh c
    rw [hbody, hconsume] at hbyte
    rcases metaByte_first hno with herr | heq
    · exact Or.inr ((hbyte.ends_error herr).append text)
    · rw [heq] at hbyte
      have hrest := @ih (typed s [c]) hs hh (by
        intro a b
        show s.line ++ [c] ++ text ≠ _
        rw [List.append_assoc]
        exact hno a b)
      rw [typed_typed] at hrest
      rcases hrest with hread | hend
      · exact Or.inl (hbyte.append hread)
      · exact Or.inr (hbyte.ends hend)

/-- A line that is cut out of the text is read as that line, or ends the decoder in an
error. -/
theorem reads_cut {s : Stream} (hs : readsLines s.state = true) (hh : halted s = false)
    (hl : s.line = []) {text : List UInt8} (hno : ∀ a b, text ≠ a ++ 13 :: 10 :: b) :
    Reads s (text ++ crlf) (lineDone s text) [] ∨ Ends s (text ++ crlf) := by
  have hsplit : text ++ crlf = (text ++ [13]) ++ [10] := by simp [crlf]
  rw [hsplit]
  rcases @reads_first s hs hh (text ++ [13]) (by
    intro a b hab
    rw [hl, List.nil_append] at hab
    rcases List.eq_nil_or_concat b with rfl | ⟨front, last, rfl⟩
    · have hlast := congrArg List.getLast? hab
      simp at hlast
    · refine hno a front ?_
      rw [List.concat_eq_append, ← List.cons_append, ← List.cons_append, ← List.append_assoc] at hab
      exact (List.append_inj' hab rfl).1) with hread | hend
  swap
  · exact Or.inr (hend.append _)
  have hlast := reads_byte (s := typed s (text ++ [13])) hh 10
  obtain ⟨hbody, hconsume⟩ := consume_meta (s := typed s (text ++ [13])) hs 10
  rw [hbody, hconsume] at hlast
  by_cases herr : (metaByte 10 (typed s (text ++ [13]))).error.isSome = true
  · exact Or.inr (hread.ends (hlast.ends_error herr))
  · refine Or.inl ?_
    have hdone : metaByte 10 (typed s (text ++ [13])) = lineDone s text := by
      unfold metaByte at herr ⊢
      dsimp only at herr ⊢
      split
      next hbig =>
        rw [if_pos hbig] at herr
        exact absurd rfl herr
      next hsmall =>
        rw [if_neg hsmall, if_pos rfl] at herr
        rw [if_pos rfl]
        unfold endLine typed at herr ⊢
        simp only [hl, List.nil_append, List.getLast?_append, List.getLast?_singleton,
          List.dropLast_concat, Option.some_or, ne_eq, not_true_eq_false, if_false] at herr ⊢
        split
        next hcr =>
          rw [if_pos hcr] at herr
          exact absurd rfl herr
        · unfold lineDone
          simp only [List.length_append, List.length_singleton, Nat.add_assoc]
    rw [hdone] at hlast
    exact hread.append hlast

/-! ## What is left to decode -/

/-- If the decoder takes the rest of a response, it emits this. -/
def Yields (s : Stream) (rest body : List UInt8) : Prop :=
  (streamClose (Http.decode rest s).1).error = none →
    (streamClose (Http.decode rest s).1).done = true → (Http.decode rest s).2 = body

theorem Ends.yields {s : Stream} {a : List UInt8} (h : Ends s a) (rest body : List UInt8) :
    Yields s (a ++ rest) body := by
  intro herr
  rw [Framing.close_error (h rest)] at herr
  have hsome := h rest
  rw [herr] at hsome
  cases hsome

theorem Reads.yields {s t : Stream} {a out rest body : List UInt8} (h : Reads s a t out)
    (hrest : Yields t rest body) : Yields s (a ++ rest) (out ++ body) := by
  intro herr hdone
  rw [decode_append, h.decoded] at herr hdone ⊢
  rw [hrest herr hdone]

theorem yields_error {s : Stream} (h : s.error.isSome = true) (rest body : List UInt8) :
    Yields s rest body := Ends.yields (ends_error h []) rest body

/-- A line, and then what comes behind it. -/
theorem Cut.yields {s : Stream} {text body : List UInt8} {n : Nat} (h : Cut text n)
    (hs : readsLines s.state = true) (hh : halted s = false) (hl : s.line = [])
    (hrest : Yields (lineDone s (text.take n)) (text.drop (n + 2)) body) : Yields s text body := by
  rw [h.cut]
  rcases reads_cut hs hh hl h.first with hread | hend
  · exact Reads.yields hread hrest
  · exact Ends.yields hend _ _

/-! ## Numbers -/

theorem digitOf_decimal {c : UInt8} (h : ¬(c < 48 ∨ 57 < c)) :
    digitOf c = some (c - 48).toUInt32 ∧ (c - 48).toUInt32.toNat = c.toNat - 48 ∧
      (c - 48).toUInt32 < 10 := by
  rw [not_or, UInt8.not_lt, UInt8.not_lt] at h
  have hsub : (c - 48).toUInt32.toNat = c.toNat - 48 := by
    rw [UInt8.toNat_toUInt32, UInt8.toNat_sub_of_le _ _ h.1]
    rfl
  refine ⟨by rw [digitOf, if_pos h], hsub, ?_⟩
  rw [UInt32.lt_iff_toNat_lt, hsub]
  have h57 := UInt8.le_iff_toNat_le.mp h.2
  show c.toNat - 48 < 10
  change c.toNat ≤ 57 at h57
  omega

theorem decimalFrom_number {value n : Nat} {text : List UInt8} {result : UInt32}
    (h : decimalFrom value text = some n) (hresult : result.toNat = value) :
    (numberFrom 10 result text).1 = true ∧ (numberFrom 10 result text).2.toNat = n := by
  induction text generalizing value result with
  | nil =>
    cases h
    exact ⟨rfl, hresult⟩
  | cons c text ih =>
    rw [decimalFrom] at h
    split at h
    · cases h
    next hstep =>
    rw [← or_assoc, not_or, Nat.not_lt] at hstep
    obtain ⟨hdigit, hnat, hlt⟩ := digitOf_decimal hstep.1
    obtain ⟨hrange, hexact⟩ := @step_exact 10 result (c - 48).toUInt32 (Or.inl rfl) hlt
    have hten : UInt32.toNat 10 = 10 := rfl
    have hsmall : result.toNat * UInt32.toNat 10 + (c - 48).toUInt32.toNat < 2 ^ 32 := by
      have hle := hstep.2
      have hten' : (c - 48).toUInt32.toNat < 10 := UInt32.lt_iff_toNat_lt.mp hlt
      rw [← hnat] at hle
      unfold z80WeatherBodyMax at hle
      rw [hten, hresult]
      omega
    have hsixteen : ¬(10 : UInt32) = 16 := by decide
    rw [numberFrom, if_neg (not_and_of_not_left _ hsixteen), hdigit]
    dsimp only
    rw [if_neg (not_or.mpr ⟨UInt32.not_le.mpr hlt, hrange.mpr hsmall⟩)]
    refine ih h ?_
    rw [hexact hsmall, hten, hresult, hnat]

/-- A length that the first decoder takes is the one that the second reads. -/
theorem decimal_number {text : List UInt8} {n : Nat} (h : decimal text = some n) :
    (number 10 text).1 = true ∧ (number 10 text).2.toNat = n := by
  unfold decimal at h
  split at h
  · cases h
  next hne =>
    obtain ⟨hok, hvalue⟩ := decimalFrom_number h (rfl : (0 : UInt32).toNat = 0)
    refine ⟨?_, hvalue⟩
    unfold number
    simp [hok, hne]

theorem sixteen_table : ∀ n < 256, (digitOf (UInt8.ofNat n)).all (· < 16) = true := by
  decide +kernel

theorem sizeFrom_number {chunk n : Nat} {text : List UInt8} {result : UInt32}
    (h : sizeFrom chunk text = some n) (hresult : result.toNat = chunk) :
    (numberFrom 16 result text).1 = true ∧ (numberFrom 16 result text).2.toNat = n := by
  induction text generalizing chunk result with
  | nil =>
    cases h
    exact ⟨rfl, hresult⟩
  | cons c text ih =>
    rw [sizeFrom] at h
    rw [numberFrom]
    split at h
    next hsemi =>
      cases h
      rw [if_pos ⟨rfl, hsemi⟩]
      exact ⟨rfl, hresult⟩
    next hsemi =>
    rw [if_neg (not_and_of_not_right _ hsemi)]
    cases hdigit : digitOf c with
    | none =>
      rw [hdigit] at h
      cases h
    | some digit =>
      rw [hdigit] at h
      dsimp only at h ⊢
      split at h
      · cases h
      next hstep =>
      have hlt : digit < 16 := by
        have hall := sixteen_table c.toNat c.toNat_lt
        rw [UInt8.ofNat_toNat, hdigit] at hall
        exact of_decide_eq_true hall
      obtain ⟨hrange, hexact⟩ := @step_exact 16 result digit (Or.inr rfl) hlt
      have hsixteen : UInt32.toNat 16 = 16 := rfl
      have hdigit16 : digit.toNat < 16 := UInt32.lt_iff_toNat_lt.mp hlt
      have hsmall : result.toNat * UInt32.toNat 16 + digit.toNat < 2 ^ 32 := by
        unfold z80WeatherBodyMax at hstep
        rw [hsixteen, hresult]
        omega
      rw [if_neg (not_or.mpr ⟨UInt32.not_le.mpr hlt, hrange.mpr hsmall⟩)]
      refine ih h ?_
      rw [hexact hsmall, hsixteen, hresult]

theorem chunkSize_number {text : List UInt8} {n : Nat} (h : chunkSize text = some n) :
    (number 16 text).1 = true ∧ (number 16 text).2.toNat = n := by
  unfold chunkSize at h
  split at h
  · cases h
  next chunk hchunk =>
  split at h
  · cases h
  next hne =>
    cases h
    obtain ⟨hok, hvalue⟩ := sizeFrom_number hchunk (rfl : (0 : UInt32).toNat = 0)
    refine ⟨?_, hvalue⟩
    unfold number
    rw [not_or] at hne
    simp [hok, hne.1, hne.2]

/-! ## The head -/

theorem statusLine_of {p : List UInt8} {status : Nat} (h : statusOf p = some status) (s : Stream) :
    statusLine p s = { s with status := status, state := .headers } := by
  unfold statusOf at h
  unfold statusLine
  dsimp only
  split at h
  · cases h
  next hok =>
    rw [if_neg hok]
    cases h
    rfl

theorem lineDone_line (s : Stream) (text : List UInt8) : (lineDone s text).line = [] := by
  unfold lineDone
  dsimp only
  split
  · rfl
  · rfl

/-- The incremental decoder has found the same framing. -/
structure Matches (f : Framing) (s : Stream) : Prop where
  state : s.state = .headers
  status : s.status = 200
  done : s.done = false
  error : s.error = none
  chunked : s.chunked = f.chunked
  haveLength : s.haveLength = f.haveLength
  remaining : f.haveLength = true → s.remaining.toNat = f.contentLength

theorem field_matches {f g : Framing} {s : Stream} (h : Matches f s) {name value : List UInt8}
    (hf : field name value f = some g) :
    (headerField name value s).error.isSome = true ∨ Matches g (headerField name value s) := by
  unfold field at hf
  unfold headerField
  split at hf
  next hname =>
    rw [if_pos hname]
    split at hf
    · cases hf
    next hfirst =>
    obtain ⟨n, hn, rfl⟩ := Option.map_eq_some_iff.mp hf
    obtain ⟨hok, hvalue⟩ := decimal_number hn
    rw [h.haveLength, if_neg hfirst]
    generalize number 10 value = token at hok hvalue ⊢
    obtain ⟨ok, remaining⟩ := token
    obtain rfl : ok = true := hok
    exact Or.inr ⟨h.state, h.status, h.done, h.error, h.chunked, rfl, fun _ => hvalue⟩
  next hname =>
  rw [if_neg hname]
  split at hf
  next hcoding =>
    rw [if_pos hcoding]
    split at hf
    · cases hf
    next hfirst =>
    cases hf
    rw [h.chunked, if_neg hfirst]
    exact Or.inr ⟨h.state, h.status, h.done, h.error, rfl, h.haveLength, h.remaining⟩
  next hcoding =>
  rw [if_neg hcoding]
  split at hf
  next hcontent =>
    rw [if_pos hcontent]
    split at hf
    next hidentity =>
      cases hf
      rw [if_pos hidentity]
      exact Or.inr h
    · cases hf
  next hcontent =>
  cases hf
  rw [if_neg hcontent]
  split
  · split
    · exact Or.inl rfl
    · exact Or.inr ⟨h.state, h.status, h.done, h.error, h.chunked, h.haveLength, h.remaining⟩
  · exact Or.inr h

/-- A header that the first decoder takes means the same to the second, or ends it. -/
theorem headerLine_matches {f g : Framing} {s : Stream} (h : Matches f s) {p : List UInt8}
    (hf : headerLine p f = some g) :
    (lineDone s p).error.isSome = true ∨ Matches g (lineDone s p) := by
  unfold headerLine at hf
  split at hf
  swap
  · cases hf
  next hcolon =>
  have hne : p ≠ [] := by
    rintro rfl
    cases hcolon
  have hread : Matches f { s with line := p, headerBytes := s.headerBytes + p.length + 2 } :=
    ⟨h.state, h.status, h.done, h.error, h.chunked, h.haveLength, h.remaining⟩
  generalize hs : { s with line := p, headerBytes := s.headerBytes + p.length + 2 } = t at hread
  have hline : Http.line t = header p t := by
    have ht : t.line = p := by rw [← hs]
    unfold Http.line
    rw [hread.state]
    dsimp only
    rw [ht, if_neg hne]
  have hout : (header p t).error.isSome = true ∨ Matches g (header p t) := by
    unfold header
    dsimp only
    split
    · exact Or.inl rfl
    split
    · exact Or.inl rfl
    rw [hread.state, if_neg (by decide)]
    exact field_matches hread hf
  unfold lineDone
  dsimp only
  rw [hs, hline]
  rcases hout with herr | hm
  · split
    · exact Or.inl herr
    · exact Or.inl herr
  · rw [hm.state, if_neg (by decide)]
    exact Or.inr ⟨rfl, hm.status, hm.done, hm.error, hm.chunked, hm.haveLength, hm.remaining⟩

/-- The end of the headers in the text. -/
structure HeadEnd (text : List UInt8) (headerEnd : Nat) : Prop where
  found : headersEnd <+: text.drop headerEnd
  first : ∀ k < headerEnd, ¬headersEnd <+: text.drop k

/-- A line in front of it ends there, or there is another line. -/
theorem HeadEnd.next {text : List UInt8} {headerEnd line n : Nat} (h : HeadEnd text headerEnd)
    (hcut : Cut (text.drop line) n) (hle : line + n ≤ headerEnd) :
    line + n + 2 < headerEnd ∨ line + n + 2 = headerEnd + 2 := by
  obtain ⟨rest, hrest⟩ := h.found
  have hdrop : text.drop (line + n) = 13 :: 10 :: text.drop (line + n + 2) := by
    have hn : ((text.drop line).take n).length = n := by
      rw [List.length_take]
      have := hcut.fits
      omega
    have hcongr := congrArg (List.drop n) hcut.cut
    rw [List.append_assoc, List.drop_append_of_le_length (Nat.le_of_eq hn.symm),
      List.drop_of_length_le (Nat.le_of_eq hn), List.drop_drop, List.drop_drop] at hcongr
    exact hcongr
  rcases Nat.lt_or_eq_of_le hle with hlt | heq
  swap
  · exact Or.inr (by rw [heq])
  refine Or.inl (Nat.lt_of_not_le fun hge => ?_)
  rcases (by omega : headerEnd = line + n + 1 ∨ headerEnd = line + n + 2) with heq | heq
  · have hone : text.drop headerEnd = 10 :: text.drop (line + n + 2) := by
      rw [heq, ← List.drop_drop, hdrop]
      rfl
    rw [hone] at hrest
    exact absurd (List.cons.inj hrest).1 (by decide)
  · refine h.first (line + n) hlt ⟨13 :: 10 :: rest, ?_⟩
    rw [hdrop, ← heq, ← hrest]
    rfl

/-- The headers from a line on, and then the empty line. -/
theorem headerLines_yields {text body : List UInt8} {headerEnd fuel line : Nat} {f g : Framing}
    {s : Stream} (h : HeadEnd text headerEnd) (hm : Matches f s) (hl : s.line = [])
    (hline : line < headerEnd ∨ line = headerEnd + 2) (hle : headerEnd + 4 ≤ text.length)
    (hf : headerLines (text ++ [0]) headerEnd fuel line f = some g)
    (hrest : ∀ t, Matches g t → t.line = [] → Yields t (text.drop (headerEnd + 2)) body) :
    Yields s (text.drop line) body := by
  induction fuel generalizing line f s with
  | zero => cases hf
  | succ fuel ih =>
    rw [headerLines] at hf
    split at hf
    next hlt =>
      rw [List.drop_append_of_le_length (by omega)] at hf
      split at hf
      · cases hf
      next n hn =>
      have hcut := strstr_cut hn
      split at hf
      · cases hf
      next hend =>
      split at hf
      · cases hf
      next g' hg =>
      have hfits := hcut.fits
      rw [List.take_append_of_le_length (by omega)] at hg
      refine hcut.yields (by rw [hm.state]; rfl) (not_halted hm.error hm.done) hl ?_
      rw [List.drop_drop]
      rcases headerLine_matches hm hg with herr | hm'
      · exact yields_error herr _ _
      · exact ih hm' (lineDone_line _ _) (h.next hcut (Nat.le_of_not_lt hend)) hf
    next hge =>
      cases hf
      obtain rfl : line = headerEnd + 2 := hline.resolve_left hge
      exact hrest s hm hl

/-! ## The body -/

/-- Behind the trailers nothing is emitted. -/
theorem trailers_silent {s : Stream} (hs : s.state = .trailers) (rest : List UInt8) :
    (Http.decode rest s).2 = [] := by
  induction rest generalizing s with
  | nil => rfl
  | cons c rest ih =>
    rw [Http.decode]
    split
    · rfl
    obtain ⟨hbody, hconsume⟩ := consume_meta (s := s) (by rw [hs]; rfl) c
    have hstate : (consume c s).state = .trailers := by
      rw [hconsume]
      unfold metaByte
      dsimp only
      split
      · exact hs
      split
      · unfold endLine
        split
        · exact hs
        dsimp only
        split
        · exact hs
        have hline : (Http.line { s with
            headerBytes := s.headerBytes + 1, line := s.line.dropLast }).state = .trailers := by
          unfold Http.line
          dsimp only
          rw [hs]
          dsimp only
          split
          · exact rfl
          · exact Framing.header_state _ _
        split
        · exact hline
        · exact hline
      split
      · exact hs
      · exact hs
    dsimp only
    rw [hbody]
    exact ih hstate

/-- Chunks in the text, up to the one that ends them. -/
inductive Chunked : List UInt8 → List UInt8 → Prop where
  | last {text : List UInt8} {n : Nat} (cut : Cut text n)
      (size : chunkSize (text.take n) = some 0) : Chunked text []
  | chunk {text chunk rest body : List UInt8} {n : Nat} (cut : Cut text n)
      (size : chunkSize (text.take n) = some chunk.length) (nonempty : chunk ≠ [])
      (behind : text.drop (n + 2) = chunk ++ crlf ++ rest) (more : Chunked rest body) :
      Chunked text (chunk ++ body)

theorem lineDone_size {k n : Nat} {s : Stream} (h : Framing.AtSize k s) {p : List UInt8}
    (hsize : chunkSize p = some n) :
    ∃ r : UInt32, r.toNat = n ∧ lineDone s p =
      if r ≠ 0 then { s with line := [], headerBytes := 0, remaining := r, state := .chunkBody }
      else { s with
        line := [], headerBytes := s.headerBytes + p.length + 2, remaining := r
        state := .trailers } := by
  obtain ⟨hok, hvalue⟩ := chunkSize_number hsize
  refine ⟨(number 16 p).2, hvalue, ?_⟩
  have hline : Http.line { s with line := p, headerBytes := s.headerBytes + p.length + 2 } =
      { s with
        line := p, headerBytes := s.headerBytes + p.length + 2, remaining := (number 16 p).2
        state := if (number 16 p).2 ≠ 0 then .chunkBody else .trailers } := by
    unfold Http.line
    dsimp only
    rw [h.state]
    dsimp only
    rw [hok]
    rfl
  unfold lineDone
  rw [hline]
  by_cases hr : (number 16 p).2 = 0
  · simp only [hr, ne_eq, not_true_eq_false, if_false]
    rw [if_neg (by decide)]
  · simp only [ne_eq, hr, not_false_eq_true, if_true]

theorem Chunked.yields {text body : List UInt8} (h : Chunked text body) {k : Nat} {s : Stream}
    (hs : Framing.AtSize k s) : Yields s text body := by
  have hlines : readsLines s.state = true := by
    rw [hs.state]
    rfl
  induction h generalizing k s with
  | last cut size =>
    refine cut.yields hlines (not_halted hs.error hs.done) hs.line ?_
    obtain ⟨r, hr, hdone⟩ := lineDone_size hs size
    obtain rfl : r = 0 := UInt32.toNat_inj.mp hr
    rw [hdone, if_neg (by decide)]
    exact fun _ _ => trailers_silent rfl _
  | chunk cut size nonempty behind _ ih =>
    refine cut.yields hlines (not_halted hs.error hs.done) hs.line ?_
    obtain ⟨r, hr, hdone⟩ := lineDone_size hs size
    have hne : r ≠ 0 := by
      rintro rfl
      exact nonempty (List.length_eq_zero_iff.mp hr.symm)
    rw [hdone, if_pos hne, behind]
    have hdata := Framing.reads_counted (s := { s with
      line := [], headerBytes := 0, remaining := r, state := .chunkBody }) (Or.inr rfl)
      (not_halted hs.error hs.done) nonempty hr
    have hend := Framing.reads_delimiter (s := { s with
      line := [], headerBytes := 0, remaining := 0, state := .chunkCr
      done := s.done || decide (StreamState.chunkBody = StreamState.bodyLength) }) rfl
      (not_halted hs.error (by simp [hs.done]))
    have hread := hdata.append hend
    rw [List.append_nil] at hread
    refine Reads.yields hread (@ih 0 _ ⟨rfl, rfl, rfl, ?_, hs.error⟩ rfl)
    show (s.done || _) = false
    rw [hs.done]
    decide

/-- The empty line behind the headers. -/
theorem lineDone_head {f : Framing} {s : Stream} (h : Matches f s)
    (hone : ¬(f.haveLength = true ∧ f.chunked = true)) :
    lineDone s [] = { s with
      line := []
      headerBytes := s.headerBytes + 2
      state := if f.chunked then .chunkSize else if f.haveLength then .bodyLength else .bodyClose
      done := f.haveLength && s.remaining = 0 } := by
  have hline : Http.line { s with line := [], headerBytes := s.headerBytes + 0 + 2 } =
      endHeaders { s with line := [], headerBytes := s.headerBytes + 2 } := by
    unfold Http.line
    dsimp only
    rw [h.state]
    rfl
  have hend : endHeaders { s with line := [], headerBytes := s.headerBytes + 2 } = { s with
      line := []
      headerBytes := s.headerBytes + 2
      state := if f.chunked then .chunkSize else if f.haveLength then .bodyLength else .bodyClose
      done := f.haveLength && s.remaining = 0 } := by
    unfold endHeaders
    dsimp only
    rw [h.haveLength, h.chunked, h.status]
    rw [if_neg (by rwa [Bool.and_eq_true]), if_neg (by decide), if_neg (by decide),
      if_neg (by decide)]
    rfl
  unfold lineDone
  rw [List.length_nil, hline, hend]
  dsimp only
  rw [if_neg]
  cases f.chunked with
  | true =>
    rw [if_pos rfl]
    decide
  | false =>
    cases f.haveLength with
    | true => decide
    | false => decide

/-- What the body is, by the framing. -/
def BodyIs (f : Framing) (rest body : List UInt8) : Prop :=
  if f.chunked then f.haveLength = false ∧ Chunked rest body
  else body = rest ∧ (f.haveLength = true → rest.length = f.contentLength)

theorem body_yields {f : Framing} {s : Stream} (h : Matches f s) (hl : s.line = [])
    {rest body : List UInt8} (hbody : BodyIs f rest body) : Yields s (crlf ++ rest) body := by
  have hone : ¬(f.haveLength = true ∧ f.chunked = true) := by
    rintro ⟨hlength, hchunked⟩
    rw [BodyIs, if_pos hchunked, hlength] at hbody
    exact absurd hbody.1 Bool.noConfusion
  rcases @reads_cut s (by rw [h.state]; rfl) (not_halted h.error h.done) hl [] (by
    intro a b hab
    exact absurd hab (by simp)) with hread | hend
  swap
  · exact Ends.yields hend rest body
  refine @Reads.yields _ _ _ [] rest body hread ?_
  rw [lineDone_head h hone]
  unfold BodyIs at hbody
  split at hbody
  next hchunked =>
    obtain ⟨hlength, hchunks⟩ := hbody
    refine @Chunked.yields _ _ hchunks (s.headerBytes + 2) _ ⟨?_, rfl, rfl, ?_, h.error⟩
    · exact if_pos hchunked
    · show (f.haveLength && _) = false
      rw [hlength]
      rfl
  next hchunked =>
    obtain ⟨rfl, hcontent⟩ := hbody
    have hread {t u : Stream} (h : Reads t body u body) : Yields t body body := by
      have hyields := @Reads.yields _ _ _ _ [] [] h fun _ _ => rfl
      rwa [List.append_nil] at hyields
    cases hlength : f.haveLength with
    | false =>
      refine hread (Framing.reads_close ?_ ?_ body)
      · show (if f.chunked = true then _ else _) = _
        rw [if_neg hchunked]
        rfl
      · exact not_halted h.error rfl
    | true =>
      have hremaining : s.remaining.toNat = body.length :=
        (h.remaining hlength).trans (hcontent hlength).symm
      cases body with
      | nil => exact fun _ _ => rfl
      | cons c body =>
        have hne : s.remaining ≠ 0 := by
          intro h0
          rw [h0] at hremaining
          cases hremaining
        apply hread
        refine Framing.reads_counted (Or.inl ?_) ?_ (List.cons_ne_nil _ _) ?_
        · show (if f.chunked = true then _ else _) = _
          rw [if_neg hchunked]
          rfl
        · refine not_halted h.error ?_
          show (true && decide (s.remaining = 0)) = false
          rw [decide_eq_false hne]
          rfl
        · exact hremaining

/-! ## Compaction -/

/-- Every access is in the buffer, and what is read was not written before. -/
structure Safe (text : List UInt8) (w : Wire) : Prop where
  inside : ∀ a ∈ w.accesses, a.last ≤ text.length + 1
  unread : w.accesses.Pairwise fun later earlier =>
    earlier.write = true → later.write = false → earlier.last ≤ later.first

/-- The compaction between two chunks: it has read up to `read` and written up to `write`. -/
structure Compacting (text : List UInt8) (data read write : Nat) (w : Wire) : Prop
    extends Safe text w where
  length : w.bytes.length = text.length + 1
  ahead : w.bytes.drop read = text.drop read ++ [0]
  data : data ≤ write
  behind : write ≤ read
  fits : read ≤ text.length
  written : ∀ a ∈ w.accesses, a.write = true → a.last ≤ write

/-- What is not written yet may be read. -/
theorem Compacting.note {text : List UInt8} {data read write : Nat} {w : Wire}
    (h : Compacting text data read write w) {first last : Nat} (hfirst : write ≤ first)
    (hlast : last ≤ text.length + 1) : Compacting text data read write (w.note first last) where
  inside a ha := by
    rcases List.mem_cons.mp ha with rfl | ha
    · exact hlast
    · exact h.inside a ha
  unread := List.pairwise_cons.mpr
    ⟨fun a ha hwrite _ => Nat.le_trans (h.written a ha hwrite) hfirst, h.unread⟩
  length := h.length
  ahead := h.ahead
  data := h.data
  behind := h.behind
  fits := h.fits
  written a ha hwrite := by
    rcases List.mem_cons.mp ha with rfl | ha
    · cases hwrite
    · exact h.written a ha hwrite

/-- What lies ahead is the text. -/
theorem Compacting.ahead_of {text : List UInt8} {data read write : Nat} {w : Wire}
    (h : Compacting text data read write w) {first : Nat} (hfirst : read ≤ first)
    (hfits : first ≤ text.length) : w.bytes.drop first = text.drop first ++ [0] := by
  have hcongr := congrArg (List.drop (first - read)) h.ahead
  rwa [List.drop_append_of_le_length (by rw [List.length_drop]; omega), List.drop_drop,
    List.drop_drop, Nat.add_sub_cancel' hfirst] at hcongr

theorem Compacting.search {text : List UInt8} {data read write : Nat} {w : Wire}
    (h : Compacting text data read write w) {first : Nat} (hfirst : read ≤ first)
    (hfits : first ≤ text.length) : Compacting text data read write (w.search first) := by
  refine h.note (Nat.le_trans h.behind hfirst) ?_
  rw [h.ahead_of hfirst hfits]
  cases hn : strstr lineEnd (text.drop first ++ [0]) with
  | none => exact Nat.le_of_eq h.length
  | some n =>
    have hcut := (strstr_cut hn).fits
    rw [List.length_drop] at hcut
    show first + n + 2 ≤ _
    omega

/-- A chunk is moved to the end of the body. -/
theorem Compacting.move {text : List UInt8} {data read write : Nat} {w : Wire}
    (h : Compacting text data read write w) {size count : Nat} (hsize : read ≤ size)
    (hfits : size + count + 2 ≤ text.length) :
    Compacting text data (size + count + 2) (write + count) (w.move write size count) ∧
      ((w.move write size count).bytes.drop data).take (write + count - data) =
        (w.bytes.drop data).take (write - data) ++ (text.drop size).take count := by
  have hlength := h.length
  have hbehind := h.behind
  have hdata := h.data
  have hfront : (w.bytes.take write).length = write := by
    rw [List.length_take]
    omega
  have hmoved : ((w.bytes.drop size).take count).length = count := by
    rw [List.length_take, List.length_drop]
    omega
  have htext : (w.bytes.drop size).take count = (text.drop size).take count := by
    rw [h.ahead_of hsize (by omega), List.take_append_of_le_length (by rw [List.length_drop]; omega)]
  have hdone : (w.bytes.take write ++ (w.bytes.drop size).take count).length = write + count := by
    rw [List.length_append, hfront, hmoved]
  refine ⟨⟨⟨fun a ha => ?_, ?_⟩, ?_, ?_, ?_, ?_, hfits, fun a ha hwrite => ?_⟩, ?_⟩
  · rcases List.mem_cons.mp ha with rfl | ha
    · show write + count ≤ _
      omega
    rcases List.mem_cons.mp ha with rfl | ha
    · show size + count ≤ _
      omega
    · exact h.inside a ha
  · refine List.pairwise_cons.mpr ⟨fun a _ _ hread => Bool.noConfusion hread,
      List.pairwise_cons.mpr ⟨fun a ha hwrite _ => ?_, h.unread⟩⟩
    exact Nat.le_trans (h.written a ha hwrite) (Nat.le_trans hbehind hsize)
  · show (w.bytes.take write ++ (w.bytes.drop size).take count ++
      w.bytes.drop (write + count)).length = _
    rw [List.length_append, hdone, List.length_drop]
    omega
  · show (w.bytes.take write ++ (w.bytes.drop size).take count ++
      w.bytes.drop (write + count)).drop (size + count + 2) = _
    rw [List.drop_append, List.drop_of_length_le (by omega), List.nil_append, hdone,
      List.drop_drop, ← h.ahead_of (by omega) hfits]
    exact congrArg (fun i => w.bytes.drop i) (by omega)
  · omega
  · omega
  · rcases List.mem_cons.mp ha with rfl | ha
    · exact Nat.le_refl _
    rcases List.mem_cons.mp ha with rfl | ha
    · cases hwrite
    · exact Nat.le_trans (h.written a ha hwrite) (Nat.le_add_right _ _)
  · show ((w.bytes.take write ++ (w.bytes.drop size).take count ++
      w.bytes.drop (write + count)).drop data).take (write + count - data) = _
    rw [List.drop_append_of_le_length (by omega), List.drop_append_of_le_length (by omega),
      List.take_append_of_le_length (by
        rw [List.length_append, List.length_drop, hfront, hmoved]
        omega),
      List.take_of_length_le (by
        rw [List.length_append, List.length_drop, hfront, hmoved]
        omega), htext, List.drop_take]

theorem trailers_compacting {text : List UInt8} {data read write last fuel first : Nat} {w : Wire}
    (h : Compacting text data read write w) (hfirst : read ≤ first) (hfits : first ≤ text.length) :
    Compacting text data read write (trailers last fuel first w).2 ∧
      (trailers last fuel first w).2.bytes = w.bytes := by
  induction fuel generalizing first w with
  | zero => exact ⟨h, rfl⟩
  | succ fuel ih =>
    have hsearch := h.search hfirst hfits
    rw [trailers]
    split
    · exact ⟨hsearch, rfl⟩
    next n hn =>
    rw [h.ahead_of hfirst hfits] at hn
    have hcut := (strstr_cut hn).fits
    rw [List.length_drop] at hcut
    have hnote := @Compacting.note _ _ _ _ _ hsearch first (first + n)
      (Nat.le_trans h.behind hfirst) (by omega)
    split
    · exact ⟨hsearch, rfl⟩
    split
    · exact ih hnote (by omega) (by omega)
    · exact ⟨hnote, rfl⟩

/-- The line end behind a chunk is in the text. -/
theorem Compacting.chunkEnds_text {text : List UInt8} {data read write : Nat} {w : Wire}
    (h : Compacting text data read write w) {index : Nat} (hfirst : read ≤ index)
    (hfits : index + 2 ≤ text.length) (hends : chunkEnds w.bytes index = true) :
    text.drop index = crlf ++ text.drop (index + 2) := by
  have hbyte (k : Nat) (hk : k < 2) : w.bytes.getD (index + k) 0 = (text.drop index).getD k 0 := by
    have hdrop := congrArg (fun l => l[k]?) (h.ahead_of hfirst (by omega))
    rw [List.getElem?_drop, List.getElem?_append_left (by rw [List.length_drop]; omega)] at hdrop
    rw [List.getD_eq_getElem?_getD, List.getD_eq_getElem?_getD, hdrop]
  unfold chunkEnds at hends
  rw [Bool.and_eq_true, beq_iff_eq, beq_iff_eq, hbyte 1 (by omega)] at hends
  have hzero := hbyte 0 (by omega)
  rw [Nat.add_zero] at hzero
  rw [hzero] at hends
  have hlength : (text.drop index).length = text.length - index := List.length_drop
  rw [← List.drop_drop]
  generalize text.drop index = rest at hends hlength ⊢
  match rest, hlength with
  | [], hlength => simp only [List.length_nil] at hlength; omega
  | [_], hlength => simp only [List.length_cons, List.length_nil] at hlength; omega
  | a :: b :: rest, _ =>
    obtain ⟨rfl, rfl⟩ : a = 13 ∧ b = 10 := hends
    rfl

/-- What is left of the compaction: it is safe, and it puts the chunks behind one another. -/
theorem compact_spec {text : List UInt8} {data fuel read write : Nat} {w : Wire}
    (h : Compacting text data read write w) :
    Safe text (compact data text.length fuel read write w).2 ∧
      ∀ n, (compact data text.length fuel read write w).1 = some n →
        ∃ body, Chunked (text.drop read) body ∧ data + n ≤ text.length ∧
          ((compact data text.length fuel read write w).2.bytes.drop data).take n =
            (w.bytes.drop data).take (write - data) ++ body := by
  induction fuel generalizing read write w with
  | zero => exact ⟨h.toSafe, fun n hn => by cases hn⟩
  | succ fuel ih =>
    have hsearch := h.search (Nat.le_refl read) h.fits
    rw [compact]
    split
    · exact ⟨hsearch.toSafe, fun n hn => by cases hn⟩
    next n hn =>
    rw [h.ahead] at hn
    have hcut := strstr_cut hn
    have hfits := hcut.fits
    rw [List.length_drop] at hfits
    have hread := h.fits
    have hnote := @Compacting.note _ _ _ _ _ hsearch read (read + n) h.behind (by omega)
    have hline : (w.bytes.drop read).take n = (text.drop read).take n := by
      rw [h.ahead, List.take_append_of_le_length (by rw [List.length_drop]; omega)]
    split
    · exact ⟨hsearch.toSafe, fun n hn => by cases hn⟩
    dsimp only
    rw [hline]
    split
    · exact ⟨hnote.toSafe, fun n hn => by cases hn⟩
    next hsize =>
      obtain ⟨htrailers, hbytes⟩ := @trailers_compacting text data read write text.length fuel
        (read + n + 2) _ hnote (by omega) (by omega)
      refine ⟨htrailers.toSafe, fun m hm => ⟨[], .last hcut hsize, ?_, ?_⟩⟩
      · split at hm
        · cases hm
          have hdata := h.data
          have hbehind := h.behind
          omega
        · cases hm
      · split at hm
        · cases hm
          rw [hbytes, List.append_nil]
          rfl
        · cases hm
    next chunk hzero hsize =>
    split
    · exact ⟨hnote.toSafe, fun n hn => by cases hn⟩
    next hroom =>
    rw [not_or, Nat.not_lt] at hroom
    have hends := @Compacting.note _ _ _ _ _ hnote (read + n + 2 + chunk)
      (read + n + 2 + chunk + 2) (by have := h.behind; omega) (by omega)
    split
    swap
    · exact ⟨hends.toSafe, fun n hn => by cases hn⟩
    next hdelimited =>
    obtain ⟨hmoved, hbody⟩ := @Compacting.move _ _ _ _ _ hends (read + n + 2) chunk (by omega) (by omega)
    obtain ⟨hsafe, hrest⟩ := ih hmoved
    refine ⟨hsafe, fun m hm => ?_⟩
    obtain ⟨body, hchunks, hin, hout⟩ := hrest m hm
    refine ⟨(text.drop (read + n + 2)).take chunk ++ body, ?_, hin, ?_⟩
    · have hlength : ((text.drop (read + n + 2)).take chunk).length = chunk := by
        rw [List.length_take, List.length_drop]
        omega
      refine .chunk hcut (hsize.trans (congrArg some hlength.symm)) ?_ ?_ hchunks
      · intro hnil
        rw [hnil] at hlength
        exact hzero hlength.symm
      · rw [List.drop_drop, ← Nat.add_assoc, List.append_assoc,
          ← h.chunkEnds_text (by omega) (by omega) hdelimited, ← List.drop_drop (i := chunk),
          List.take_append_drop]
    · rw [hout, hbody, List.append_assoc]
      rfl

/-! ## The whole response -/

theorem Safe.terminate {text : List UInt8} {w : Wire} (h : Safe text w) {index : Nat}
    (hindex : index ≤ text.length) : Safe text (w.terminate index) where
  inside a ha := by
    rcases List.mem_cons.mp ha with rfl | ha
    · exact Nat.succ_le_succ hindex
    · exact h.inside a ha
  unread := List.pairwise_cons.mpr ⟨fun _ _ _ hread => Bool.noConfusion hread, h.unread⟩

/-- The NUL behind the body is not in it. -/
theorem terminate_body (w : Wire) (data n : Nat) :
    ((w.terminate (data + n)).bytes.drop data).take n = (w.bytes.drop data).take n := by
  show ((w.bytes.set (data + n) 0).drop data).take n = _
  rw [List.drop_set, if_neg (by omega), Nat.add_sub_cancel_left, List.take_set_of_le (Nat.le_refl n)]

theorem compacting_start {text : List UInt8} {data : Nat} (h : data ≤ text.length) :
    Compacting text data data data ⟨text ++ [0], []⟩ where
  inside a ha := by cases ha
  unread := .nil
  length := by rw [List.length_append]; rfl
  ahead := List.drop_append_of_le_length h
  data := Nat.le_refl _
  behind := Nat.le_refl _
  fits := h
  written a ha := by cases ha

/-- The body is what the framing says, and decoding it is safe. -/
theorem decodeBody_spec {text : List UInt8} {fuel data : Nat} {f : Framing}
    (hdata : data ≤ text.length) :
    let r := decodeBody fuel data f text.length ⟨text ++ [0], []⟩
    Safe text r.2 ∧ ∀ n, r.1 = some n → BodyIs f (text.drop data) ((r.2.bytes.drop data).take n) := by
  have hstart := compacting_start hdata
  unfold decodeBody
  dsimp only
  split
  next hplain =>
    rw [Bool.not_eq_true'] at hplain
    split
    · exact ⟨hstart.toSafe, fun n hn => by cases hn⟩
    next hlength =>
      rw [not_or, not_and, not_not] at hlength
      refine ⟨hstart.terminate (by omega), fun n hn => ?_⟩
      cases hn
      rw [terminate_body, BodyIs, hplain, if_neg Bool.false_ne_true]
      show ((text ++ [0]).drop data).take _ = _ ∧ _
      rw [List.drop_append_of_le_length hdata, ← List.length_drop, List.take_left]
      exact ⟨rfl, fun hhave => by rw [List.length_drop]; exact hlength.2 hhave⟩
  next hplain =>
  rw [Bool.not_eq_true', Bool.not_eq_false] at hplain
  split
  · exact ⟨hstart.toSafe, fun n hn => by cases hn⟩
  next hhave =>
  obtain ⟨hsafe, hbody⟩ := @compact_spec _ _ fuel _ _ _ hstart
  generalize compact data text.length fuel data data ⟨text ++ [0], []⟩ = r at hsafe hbody
  obtain ⟨none | n, w⟩ := r
  · exact ⟨hsafe, fun n hn => by cases hn⟩
  · obtain ⟨body, hchunks, hfits, hout⟩ := hbody n rfl
    refine ⟨hsafe.terminate hfits, fun m hm => ?_⟩
    cases hm
    rw [terminate_body, BodyIs, if_pos hplain]
    refine ⟨Bool.eq_false_iff.mpr hhave, ?_⟩
    rw [Nat.sub_self, List.take_zero, List.nil_append] at hout
    rw [hout]
    exact hchunks

/-- The head that the first decoder takes leads the second to the body. -/
theorem decodeHead_spec {text : List UInt8} {fuel status data : Nat} {f : Framing}
    (h : decodeHead fuel (text ++ [0]) = some (status, f, data)) :
    data ≤ text.length ∧ (status = 200 → ∀ body, BodyIs f (text.drop data) body →
      Yields streamInit text body) := by
  unfold decodeHead at h
  split at h
  swap
  · cases h
  next headerEnd line hend hline =>
  split at h
  · cases h
  split at h
  · cases h
  next code hstatus =>
  split at h
  · cases h
  next g hg =>
  cases h
  obtain ⟨hfound, hfits, hfirst⟩ := strstr_text (List.cons_ne_nil _ _) (by decide) hend
  change headerEnd + 4 ≤ text.length at hfits
  have hhead : HeadEnd text headerEnd := ⟨hfound, hfirst⟩
  have hcut := strstr_cut hline
  refine ⟨hfits, fun h200 body hbody => ?_⟩
  subst h200
  have hlinefits := hcut.fits
  rw [List.take_append_of_le_length (by omega)] at hstatus
  refine hcut.yields rfl rfl rfl ?_
  obtain ⟨rest, hrest⟩ := hfound
  have hle : line ≤ headerEnd := by
    refine Nat.le_of_not_lt fun hlt => ?_
    refine (strstr_text (List.cons_ne_nil _ _) (by decide) hline).2.2 headerEnd hlt ?_
    exact ⟨13 :: 10 :: rest, hrest⟩
  have hmatches : Matches ⟨false, false, 0⟩ (lineDone streamInit (text.take line)) := by
    have hread : Http.line { streamInit with
        line := text.take line, headerBytes := 0 + (text.take line).length + 2 } = _ :=
      statusLine_of hstatus _
    unfold lineDone
    rw [show streamInit.headerBytes = 0 from rfl, hread]
    exact ⟨rfl, rfl, rfl, rfl, rfl, rfl, fun hno => Bool.noConfusion hno⟩
  have hnext := @HeadEnd.next _ _ 0 _ hhead hcut (by rwa [Nat.zero_add])
  rw [Nat.zero_add] at hnext
  refine headerLines_yields hhead hmatches (lineDone_line _ _) hnext hfits hg fun t ht hl => ?_
  have hempty : text.drop (headerEnd + 2) = crlf ++ text.drop (headerEnd + 4) := by
    rw [← List.drop_drop, ← List.drop_drop (j := headerEnd), ← hrest]
    rfl
  rw [hempty]
  exact body_yields ht hl hbody

/-! ## The loops end -/

theorem strstr_fits {bytes : List UInt8} {n : Nat} (h : strstr lineEnd bytes = some n) :
    n + 2 ≤ bytes.length := by
  have hle := (strstr_some h).1.length_le
  rw [List.length_drop] at hle
  change 2 ≤ bytes.length - n at hle
  omega

theorem headerLines_fuel {bytes : List UInt8} {headerEnd fuel line : Nat} (f : Framing)
    (hline : line ≤ bytes.length) (hfuel : bytes.length < fuel + line) :
    headerLines bytes headerEnd (fuel + 1) line f = headerLines bytes headerEnd fuel line f := by
  induction fuel generalizing line f with
  | zero => omega
  | succ fuel ih =>
    rw [headerLines, headerLines]
    split
    swap
    · rfl
    split
    · rfl
    next n hn =>
    have hfits := strstr_fits hn
    rw [List.length_drop] at hfits
    split
    · rfl
    split
    · rfl
    · exact ih _ (by omega) (by omega)

theorem trailers_fuel {last fuel read : Nat} (w : Wire) (hread : read ≤ w.bytes.length)
    (hfuel : w.bytes.length < fuel + read) :
    trailers last (fuel + 1) read w = trailers last fuel read w := by
  induction fuel generalizing read w with
  | zero => omega
  | succ fuel ih =>
    rw [trailers, trailers]
    split
    · rfl
    next n hn =>
    have hfits := strstr_fits hn
    rw [List.length_drop] at hfits
    split
    · rfl
    split
    · exact ih ((w.search read).note read (read + n)) (by show _ ≤ w.bytes.length; omega)
        (by show w.bytes.length < _; omega)
    · rfl

theorem compact_fuel {text : List UInt8} {data fuel read write : Nat} {w : Wire}
    (h : Compacting text data read write w) (hfuel : text.length + 1 < fuel + read) :
    compact data text.length (fuel + 1) read write w =
      compact data text.length fuel read write w := by
  induction fuel generalizing read write w with
  | zero =>
    have hfits := h.fits
    omega
  | succ fuel ih =>
    have hsearch := h.search (Nat.le_refl read) h.fits
    rw [compact, compact]
    split
    · rfl
    next n hn =>
    have hfits := strstr_fits hn
    have hread := h.fits
    rw [List.length_drop, h.length] at hfits
    have hnote := @Compacting.note _ _ _ _ _ hsearch read (read + n) h.behind (by omega)
    split
    · rfl
    dsimp only
    split
    · rfl
    · rw [trailers_fuel]
      · show _ ≤ w.bytes.length
        rw [h.length]
        omega
      · show w.bytes.length < _
        rw [h.length]
        omega
    next chunk _ _ =>
    split
    · rfl
    next hroom =>
    rw [not_or, Nat.not_lt] at hroom
    split
    swap
    · rfl
    have hends := @Compacting.note _ _ _ _ _ hnote (read + n + 2 + chunk)
      (read + n + 2 + chunk + 2) (by have := h.behind; omega) (by omega)
    have hmoved := @Compacting.move _ _ _ _ _ hends (read + n + 2) chunk (by omega) (by omega)
    exact ih hmoved.1 (by omega)

theorem decodeWith_step {text : List UInt8} {fuel : Nat} (h : text.length + 2 ≤ fuel) :
    decodeWith (fuel + 1) text = decodeWith fuel text := by
  have hhead : decodeHead (fuel + 1) (text ++ [0]) = decodeHead fuel (text ++ [0]) := by
    unfold decodeHead
    split
    swap
    · rfl
    next line _ hline =>
    have hfits := strstr_fits hline
    rw [headerLines_fuel _ hfits (by rw [List.length_append, List.length_singleton]; omega)]
  unfold decodeWith
  dsimp only
  rw [hhead]
  split
  · rfl
  split
  · rfl
  next status f data hdata =>
  have hstart := compacting_start (decodeHead_spec hdata).1
  unfold decodeBody
  rw [compact_fuel hstart (by omega)]

/-- With fuel for every byte of the buffer the loops come to their ends. -/
theorem decodeWith_fuel {text : List UInt8} {fuel : Nat} (h : text.length + 2 ≤ fuel) :
    decodeWith fuel text = decode text := by
  induction h with
  | refl => rfl
  | step hle ih => rw [decodeWith_step hle, ih]

/-- What the first decoder accepts of a response with status 200, the second decodes to the
same body if it takes the response; and the compaction of any response stays in the buffer
and overwrites nothing that it has not read. -/
theorem decoders_agree (text : List UInt8) :
    (∀ d used s out, (decode text).1 = some d → d.status = 200 →
      feed Data.acceptAll text streamInit [] = (used, s, out) → (streamClose s).done = true →
      (streamClose s).error = none → d.body = out) ∧
    Safe text (decode text).2 := by
  have hstart := (compacting_start (Nat.zero_le text.length)).toSafe
  unfold decode decodeWith
  dsimp only
  split
  · exact ⟨fun d used s out hd => (by cases hd), hstart⟩
  split
  · exact ⟨fun d used s out hd => (by cases hd), hstart⟩
  next status f data hhead =>
  obtain ⟨hdata, hyields⟩ := decodeHead_spec hhead
  obtain ⟨hsafe, hbody⟩ := @decodeBody_spec _ (text.length + 2) _ f hdata
  generalize decodeBody (text.length + 2) data f text.length ⟨text ++ [0], []⟩ = r at hsafe hbody ⊢
  obtain ⟨none | n, w⟩ := r
  · exact ⟨fun d used s out hd => (by cases hd), hsafe⟩
  refine ⟨fun d used s out hd h200 hfeed hdone herr => ?_, hsafe⟩
  cases hd
  rw [feed_acceptAll, List.nil_append] at hfeed
  cases hfeed
  exact (hyields h200 _ (hbody n rfl) herr hdone).symm

/-- Two chunks, the second with an extension. -/
def twoChunks : List UInt8 :=
  ascii "HTTP/1.1 200 OK\r\nTransfer-Encoding: chunked\r\n\r\n".toList ++
    ascii "3\r\nabc\r\n2;x\r\nde\r\n0\r\n\r\n".toList

theorem decoders_agree_twoChunks :
    ∃ d, (decode twoChunks).1 = some d ∧
      d.body = (feed Data.acceptAll twoChunks streamInit []).2.2 ∧
      d.body = ascii ['a', 'b', 'c', 'd', 'e'] := by
  have hdecoded : ((decode twoChunks).1.map fun d => (d.status, d.body)) =
      some (200, ascii ['a', 'b', 'c', 'd', 'e']) := by decide +kernel
  cases hd : (decode twoChunks).1 with
  | none =>
    rw [hd] at hdecoded
    cases hdecoded
  | some d =>
    rw [hd, Option.map_some] at hdecoded
    obtain ⟨hstatus, hbody⟩ := Prod.mk.inj (Option.some.inj hdecoded)
    exact ⟨d, rfl, (decoders_agree twoChunks).1 d _ _ _ hd hstatus rfl (by decide +kernel)
      (by decide +kernel), hbody⟩

end Z80Sbc.Http.Weather
