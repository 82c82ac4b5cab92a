import Z80Sbc.Http.Heads

/-! # Well-formed responses are decoded exactly

A response is any number of interim heads, one final head, and a body that is delimited by
its length, by its chunks or by the end of the connection. It is decoded to its body and no
part of it is taken for the whole; a response with two lengths or with a size that does not
fit ends in an error. -/

namespace Z80Sbc.Http.Framing
open Z80Sbc.Http Z80Sbc.Data Heads

/-! ## Bodies -/

/-- A byte that ends neither the body nor a chunk. -/
theorem bodyByte_more {s : Stream} (hs : inBody s = true) (hmore : s.remaining - 1 ≠ 0)
    (c : UInt8) : consume c s =
      if s.state = .bodyClose then s else { s with remaining := s.remaining - 1 } := by
  unfold consume bodyByte
  rw [if_pos hs]
  dsimp only
  rw [if_pos hmore]

/-- The bytes of a body that is delimited by its end. -/
theorem reads_close {s : Stream} (hs : s.state = .bodyClose) (hh : halted s = false)
    (body : List UInt8) : Reads s body s body := by
  induction body with
  | nil => exact Reads.nil s
  | cons c body ih =>
    have hbyte := reads_byte hh c
    have hbody : inBody s = true := by simp [inBody, hs]
    have hconsume : consume c s = s := by
      unfold consume bodyByte
      rw [if_pos hbody, if_pos hs]
    rw [hbody, hconsume] at hbyte
    exact hbyte.append ih

/-- The rest of a body with a length, or of a chunk. -/
theorem reads_counted {s : Stream} (hs : s.state = .bodyLength ∨ s.state = .chunkBody)
    (hh : halted s = false) {body : List UInt8} (hne : body ≠ [])
    (hlen : s.remaining.toNat = body.length) :
    Reads s body { s with
      remaining := 0
      done := s.done || decide (s.state = .bodyLength)
      state := if s.state = .bodyLength then .bodyLength else .chunkCr } body := by
  induction body generalizing s with
  | nil => exact absurd rfl hne
  | cons c body ih =>
    have hbyte := reads_byte hh c
    have hbody : inBody s = true := by
      rcases hs with hs | hs <;> simp [inBody, hs]
    have hclose : ¬s.state = .bodyClose := by
      rcases hs with hs | hs <;> rw [hs] <;> decide
    have hone : (1 : UInt32) ≤ s.remaining := by
      rw [UInt32.le_iff_toNat_le, hlen, List.length_cons]
      exact Nat.succ_le_succ (Nat.zero_le _)
    have hsub : (s.remaining - 1).toNat = body.length := by
      rw [UInt32.toNat_sub_of_le _ _ hone, hlen, List.length_cons]
      rfl
    rw [hbody, if_pos rfl] at hbyte
    cases body with
    | nil =>
      have hzero : s.remaining - 1 = 0 := UInt32.toNat_inj.mp hsub
      have hconsume : consume c s = { s with
          remaining := 0
          done := s.done || decide (s.state = .bodyLength)
          state := if s.state = .bodyLength then .bodyLength else .chunkCr } := by
        unfold consume bodyByte
        rw [if_pos hbody, if_neg hclose]
        dsimp only
        rw [hzero, if_neg (by decide)]
        rcases hs with hs | hs <;> simp [hs]
      rwa [hconsume] at hbyte
    | cons d body =>
      have hmore : s.remaining - 1 ≠ 0 := by
        intro h0
        rw [h0] at hsub
        simp at hsub
      rw [bodyByte_more hbody hmore, if_neg hclose] at hbyte
      have hrest := ih (s := { s with remaining := s.remaining - 1 }) hs hh (List.cons_ne_nil _ _) hsub
      exact hbyte.append hrest

/-- A chunk size in hexadecimal, with its extensions. -/
structure SizeLine where
  size : List UInt8
  ext : Option (List UInt8)

def SizeLine.text (l : SizeLine) : List UInt8 := l.size ++ (l.ext.map (59 :: ·)).getD []

def SizeLine.value (l : SizeLine) : Nat := valueFrom 16 0 l.size

structure SizeLine.Ok (l : SizeLine) : Prop where
  size : Numeral 16 l.size
  ext : ((l.ext.map (59 :: ·)).getD []).all textByte = true

theorem digit_table : ∀ n < 256, (digitOf (UInt8.ofNat n)).isSome = true →
    textByte (UInt8.ofNat n) = true := by
  decide +kernel

theorem SizeLine.Ok.text {l : SizeLine} (h : l.Ok) : l.text.all textByte = true := by
  rw [SizeLine.text, List.all_append, h.ext, Bool.and_true]
  refine List.all_eq_true.mpr fun c hc => ?_
  obtain ⟨d, hd, -⟩ := h.size.digits c hc
  have hc := digit_table c.toNat c.toNat_lt
  rw [UInt8.ofNat_toNat] at hc
  exact hc (by rw [hd]; rfl)

theorem SizeLine.Ok.number {l : SizeLine} (h : l.Ok) :
    ((number 16 l.text).1 = true ↔ l.value < 2 ^ 32) ∧
      ((number 16 l.text).1 = true → (number 16 l.text).2.toNat = l.value) := by
  refine number_numeral (Or.inr rfl) ?_ h.size
  cases l.ext with
  | none => exact Or.inl rfl
  | some e => exact Or.inr ⟨rfl, rfl⟩

/-- The decoder waits for a chunk size. -/
structure AtSize (n : Nat) (s : Stream) : Prop where
  state : s.state = .chunkSize
  headerBytes : s.headerBytes = n
  line : s.line = []
  done : s.done = false
  error : s.error = none

theorem AtSize.line_size {n : Nat} {s : Stream} (h : AtSize n s) {l : SizeLine} (hok : l.Ok) :
    (2 ^ 32 ≤ l.value → (lineDone s l.text).error.isSome = true) ∧
    (l.value < 2 ^ 32 → ∃ r : UInt32, r.toNat = l.value ∧ lineDone s l.text =
      if r ≠ 0 then { s with line := [], headerBytes := 0, remaining := r, state := .chunkBody }
      else { s with
        line := [], headerBytes := n + (l.text.length + 2), remaining := r, state := .trailers }) := by
  obtain ⟨hfits, hvalue⟩ := hok.number
  have hline : ∀ r, number 16 l.text = (true, r) →
      Http.line { s with line := l.text, headerBytes := s.headerBytes + l.text.length + 2 } =
        { s with
          line := l.text, headerBytes := s.headerBytes + l.text.length + 2, remaining := r
          state := if r ≠ 0 then .chunkBody else .trailers } := by
    intro r hr
    unfold Http.line
    dsimp only
    rw [h.state]
    dsimp only
    rw [hr]
    rfl
  constructor
  · intro hbig
    have hno : (number 16 l.text).1 = false := by
      rw [← Bool.not_eq_true, hfits]
      omega
    have herr : (Http.line { s with
        line := l.text, headerBytes := s.headerBytes + l.text.length + 2 }).error.isSome = true := by
      unfold Http.line
      dsimp only
      rw [h.state]
      dsimp only
      rw [hno]
      rfl
    unfold lineDone
    dsimp only
    split
    · exact herr
    · exact herr
  · intro hlt
    have hyes := hfits.mpr hlt
    refine ⟨(number 16 l.text).2, hvalue hyes, ?_⟩
    unfold lineDone
    rw [hline _ (Prod.ext hyes rfl)]
    by_cases hr : (number 16 l.text).2 = 0
    · simp only [hr, ne_eq, not_true_eq_false, if_false]
      rw [if_neg (by decide), h.headerBytes, Nat.add_assoc]
    · simp only [ne_eq, hr, not_false_eq_true, if_true]

structure Chunk extends SizeLine where
  data : List UInt8

def Chunk.bytes (c : Chunk) : List UInt8 := c.text ++ crlf ++ c.data ++ crlf

structure Chunk.Ok (c : Chunk) : Prop extends c.toSizeLine.Ok where
  data : c.data ≠ []
  counts : c.value = c.data.length
  fits : c.data.length < 2 ^ 32

/-- The delimiter behind a chunk. -/
theorem reads_delimiter {s : Stream} (hs : s.state = .chunkCr) (hh : halted s = false) :
    Reads s crlf { s with state := .chunkSize } [] := by
  have hcr := reads_byte hh 13
  have hbody : inBody s = false := by simp [inBody, hs]
  have hconsume : consume 13 s = { s with state := .chunkLf } := by
    unfold consume delimiterByte
    simp [hbody, hs]
  rw [hbody, hconsume] at hcr
  have hlf := reads_byte (s := { s with state := .chunkLf }) hh 10
  have hbody' : inBody { s with state := .chunkLf } = false := by simp [inBody]
  have hconsume' : consume 10 { s with state := .chunkLf } = { s with state := .chunkSize } := by
    unfold consume delimiterByte
    simp [inBody]
  rw [hbody', hconsume'] at hlf
  exact hcr.append hlf

/-- Behind its size, a chunk is emitted. -/
theorem AtSize.read_data {n : Nat} {s : Stream} (h : AtSize n s) {c : Chunk} (hok : c.Ok) :
    ∃ t, Reads (lineDone s c.text) (c.data ++ crlf) t c.data ∧ AtSize 0 t := by
  obtain ⟨-, hsize⟩ := h.line_size hok.toOk
  have hcounts := hok.counts
  obtain ⟨r, hr, hdone⟩ := hsize (by rw [hcounts]; exact hok.fits)
  have hne : r ≠ 0 := by
    rintro rfl
    rw [hcounts] at hr
    exact hok.data (List.length_eq_zero_iff.mp hr.symm)
  rw [hdone, if_pos hne]
  have hdata := reads_counted (s := { s with
    line := [], headerBytes := 0, remaining := r, state := .chunkBody }) (Or.inr rfl)
    (not_halted h.error h.done) hok.data (hr.trans hcounts)
  have hend := reads_delimiter (s := { s with
    line := [], headerBytes := 0, remaining := 0, state := .chunkCr
    done := s.done || decide (StreamState.chunkBody = StreamState.bodyLength) }) rfl
    (not_halted h.error (by simp [h.done]))
  have hread := hdata.append hend
  rw [List.append_nil] at hread
  refine ⟨_, hread, ?_⟩
  exact {
    state := rfl
    headerBytes := rfl
    line := rfl
    done := by
      show (s.done || _) = false
      rw [h.done]
      decide
    error := h.error }

/-- The metadata of the chunks fits: each chunk starts the count again. -/
def ChunksFit : Nat → List Chunk → Nat → Prop
  | n, [], last => n + last ≤ 8192
  | n, c :: chunks, last =>
    c.text.length + 2 ≤ lineSize ∧ n + (c.text.length + 2) ≤ 8192 ∧ ChunksFit 0 chunks last

def chunkBytes (chunks : List Chunk) : List UInt8 := chunks.flatMap Chunk.bytes
def chunkData (chunks : List Chunk) : List UInt8 := chunks.flatMap Chunk.data

theorem Chunk.bytes_eq (c : Chunk) : c.bytes = (c.text ++ crlf) ++ (c.data ++ crlf) := by
  simp [Chunk.bytes]

theorem AtSize.reach_chunks {n : Nat} {s : Stream} (h : AtSize n s) {chunks : List Chunk}
    (hok : ∀ c ∈ chunks, c.Ok) : Reaches s (chunkBytes chunks) fun t => ∃ k, AtSize k t := by
  induction chunks generalizing n s with
  | nil => exact Or.inr ⟨s, [], Reads.nil s, n, h⟩
  | cons c chunks ih =>
    have hc := hok c (List.mem_cons_self ..)
    have hcons : chunkBytes (c :: chunks) = c.bytes ++ chunkBytes chunks := rfl
    rw [hcons]
    obtain ⟨t, hdata, ht⟩ := h.read_data hc
    have hone : Reaches s c.bytes (AtSize 0) := by
      rw [c.bytes_eq]
      rcases (reads_line (by rw [h.state]; decide) (not_halted h.error h.done) h.line
        hc.toOk.text).1 with hread | hend
      · exact Or.inr ⟨t, _, hread.append hdata, ht⟩
      · exact Or.inl (hend.append _)
    exact hone.append fun t ht => ih ht fun c hm => hok c (List.mem_cons_of_mem _ hm)

theorem AtSize.read_chunks {n last : Nat} {s : Stream} (h : AtSize n s) {chunks : List Chunk}
    (hok : ∀ c ∈ chunks, c.Ok) (hfit : ChunksFit n chunks last) :
    ∃ t k, Reads s (chunkBytes chunks) t (chunkData chunks) ∧ AtSize k t ∧ k + last ≤ 8192 := by
  induction chunks generalizing n s with
  | nil => exact ⟨s, n, Reads.nil s, h, hfit⟩
  | cons c chunks ih =>
    have hc := hok c (List.mem_cons_self ..)
    obtain ⟨hline, hbytes, hrest⟩ := hfit
    obtain ⟨t, hdata, ht⟩ := h.read_data hc
    have hread := (reads_line (by rw [h.state]; decide) (not_halted h.error h.done) h.line
      hc.toOk.text).2 hline (by rw [h.headerBytes]; exact hbytes)
    obtain ⟨u, k, hreads, hu, hk⟩ := ih ht (fun c hm => hok c (List.mem_cons_of_mem _ hm)) hrest
    refine ⟨u, k, ?_, hu, hk⟩
    have hall := (hread.append hdata).append hreads
    rw [← c.bytes_eq] at hall
    exact hall

structure InTrailers (n : Nat) (s : Stream) : Prop where
  state : s.state = .trailers
  headerBytes : s.headerBytes = n
  line : s.line = []
  done : s.done = false
  error : s.error = none

theorem InTrailers.read {n : Nat} {s : Stream} (h : InTrailers n s) {fs : List Header}
    (hok : ∀ f ∈ fs, f.Ok) (hshort : ∀ f ∈ fs, f.text.length + 2 ≤ lineSize)
    (hbytes : n + (lines fs).length ≤ 8192) :
    ∃ t, Reads s (lines fs) t [] ∧ InTrailers (n + (lines fs).length) t := by
  induction fs generalizing n s with
  | nil => exact ⟨s, Reads.nil s, h⟩
  | cons f fs ih =>
    rw [lines_cons, List.length_append, length_crlf] at hbytes
    have hf := hok f (List.mem_cons_self ..)
    have hread := (reads_line (by rw [h.state]; decide) (not_halted h.error h.done) h.line
      hf.text).2 (hshort f (List.mem_cons_self ..)) (by rw [h.headerBytes]; omega)
    have hnext : InTrailers (n + (f.text.length + 2)) (lineDone s f.text) := by
      unfold lineDone
      rw [line_header (s := { s with
        line := f.text, headerBytes := s.headerBytes + f.text.length + 2 }) hf rfl
        (Or.inr h.state), if_pos h.state]
      rw [if_neg (by show ¬s.state = _; rw [h.state]; decide)]
      exact {
        state := h.state
        headerBytes := by
          show s.headerBytes + f.text.length + 2 = _
          rw [h.headerBytes]
          omega
        line := rfl
        done := h.done
        error := h.error }
    obtain ⟨t, hreads, ht⟩ := ih hnext (fun f hm => hok f (List.mem_cons_of_mem _ hm))
      (fun f hm => hshort f (List.mem_cons_of_mem _ hm)) (by omega)
    refine ⟨t, hread.append hreads, ?_⟩
    rw [lines_cons, List.length_append, length_crlf, ← Nat.add_assoc]
    exact ht

/-- The last chunk and the trailers. -/
theorem AtSize.read_last {n : Nat} {s : Stream} (h : AtSize n s) {l : SizeLine} (hok : l.Ok)
    (hzero : l.value = 0) {fs : List Header} (hfs : ∀ f ∈ fs, f.Ok)
    (hline : l.text.length + 2 ≤ lineSize) (hshort : ∀ f ∈ fs, f.text.length + 2 ≤ lineSize)
    (hbytes : n + (l.text ++ crlf ++ lines fs ++ crlf).length ≤ 8192) :
    ∃ t, Reads s (l.text ++ crlf ++ lines fs ++ crlf) t [] ∧ t.done = true ∧ t.error = none := by
  rw [length_crlf, List.length_append, length_crlf] at hbytes
  have hsize := (reads_line (by rw [h.state]; decide) (not_halted h.error h.done) h.line
    hok.text).2 hline (by rw [h.headerBytes]; omega)
  obtain ⟨r, hr, hdone⟩ := (h.line_size hok).2 (by omega)
  have hr0 : r = 0 := UInt32.toNat_inj.mp (hr.trans hzero)
  rw [if_neg (by rw [hr0]; decide)] at hdone
  have htrailers : InTrailers (n + (l.text.length + 2)) (lineDone s l.text) := by
    rw [hdone]
    exact ⟨rfl, rfl, rfl, h.done, h.error⟩
  obtain ⟨t, hreads, ht⟩ := htrailers.read hfs hshort (by omega)
  have hend := (reads_line (by rw [ht.state]; decide) (not_halted ht.error ht.done) ht.line
    (show ([] : List UInt8).all textByte = true from rfl)).2 (by decide) (by rw [ht.headerBytes, List.length_nil]; omega)
  refine ⟨_, (hsize.append hreads).append hend, ?_⟩
  have hempty : Http.line { t with line := [], headerBytes := t.headerBytes + 0 + 2 } =
      { t with line := [], headerBytes := t.headerBytes + 0 + 2, done := true } := by
    unfold Http.line
    dsimp only
    rw [ht.state]
    dsimp only
    rw [if_pos rfl, if_pos rfl]
  unfold lineDone
  rw [List.length_nil, hempty]
  rw [if_neg (by show ¬t.state = _; rw [ht.state]; decide)]
  exact ⟨rfl, ht.error⟩

/-! ## Responses -/

inductive Body where
  | length (data : List UInt8)
  | close (data : List UInt8)
  | chunked (chunks : List Chunk) (last : SizeLine) (trailers : List Header)

/-- The body as the server means it. -/
def Body.content : Body → List UInt8
  | .length data => data
  | .close data => data
  | .chunked chunks _ _ => chunkData chunks

def Body.bytes : Body → List UInt8
  | .length data => data
  | .close data => data
  | .chunked chunks last trailers =>
    chunkBytes chunks ++ (last.text ++ crlf ++ lines trailers ++ crlf)

/-- The headers announce the body that follows; `n` bytes of metadata are before it. -/
def Body.Announced (n : Nat) (hs : List Header) : Body → Prop
  | .length data => n ≤ 8192 ∧ ∃ v, values "Content-Length" hs = [v] ∧ valueFrom 10 0 v = data.length
  | .close _ =>
    n ≤ 8192 ∧ values "Content-Length" hs = [] ∧ values "Transfer-Encoding" hs = []
  | .chunked chunks last trailers =>
    n ≤ 8192 ∧ values "Transfer-Encoding" hs ≠ [] ∧ (∀ c ∈ chunks, c.Ok) ∧ last.Ok ∧ last.value = 0 ∧
      (∀ f ∈ trailers, f.Ok) ∧ last.text.length + 2 ≤ lineSize ∧
      (∀ f ∈ trailers, f.text.length + 2 ≤ lineSize) ∧
      ChunksFit n chunks (last.text ++ crlf ++ lines trailers ++ crlf).length

/-- The end of the body is not the end of the connection. -/
def Body.delimited : Body → Bool
  | .close _ => false
  | _ => true

structure Response where
  interim : List Head
  head : Head
  body : Body

def Response.heads (r : Response) : List UInt8 := interimBytes r.interim ++ r.head.bytes
def Response.bytes (r : Response) : List UInt8 := r.heads ++ r.body.bytes

structure Response.WellFormed (r : Response) : Prop where
  interim : ∀ head ∈ r.interim, head.Ok ∧ Interim head.status ∧ head.Short ∧ Fine head.headers
  head : r.head.Ok
  short : r.head.Short
  fine : Fine r.head.headers
  status : r.head.status = 200
  body : r.body.Announced r.heads.length r.head.headers

theorem atHead_init : AtHead 0 streamInit := ⟨rfl, rfl, rfl, rfl, rfl, rfl, rfl, rfl, rfl⟩

/-- The heads of a well-formed response. -/
theorem Response.WellFormed.reads_heads {r : Response} (h : r.WellFormed) :
    ∃ t, Reads streamInit r.heads t [] ∧ AtBody r.heads.length r.head.headers t := by
  have hn : r.heads.length ≤ 8192 := by
    have hb := h.body
    cases hbody : r.body <;> rw [hbody] at hb <;> exact hb.1
  rw [Response.heads, List.length_append] at hn ⊢
  obtain ⟨s, hreads, hs⟩ := atHead_init.read_interims h.interim (by omega)
  rw [Nat.zero_add] at hs
  obtain ⟨t, hread, ht⟩ := hs.read (P := AtBody ((interimBytes r.interim).length +
    r.head.bytes.length) r.head.headers) h.head h.short h.fine hn fun t ht => by
      rw [h.status] at ht
      have hlength := r.head.length_bytes
      have hbody := ht.final.1 (ht.final.2 h.fine)
      rwa [show (interimBytes r.interim).length + r.head.bytes.length - 2 + 2 =
        (interimBytes r.interim).length + r.head.bytes.length by omega] at hbody
  exact ⟨t, hreads.append hread, ht⟩

theorem read_body {n : Nat} {hs : List Header} {s : Stream} (h : AtBody n hs s) (hfine : Fine hs)
    {body : Body} (hbody : body.Announced n hs) :
    ∃ t, Reads s body.bytes t body.content ∧ t.error = none ∧
      (body.delimited = true → t.done = true) ∧
      (body.delimited = false → t.done = false ∧ t.state = .bodyClose) := by
  cases body with
  | length data =>
    obtain ⟨-, v, hv, hvalue⟩ := hbody
    have hmem : v ∈ values "Content-Length" hs := by rw [hv]; exact List.mem_singleton_self v
    have hte : values "Transfer-Encoding" hs = [] := by
      rcases h.one with hn | hn
      · rw [hn] at hv
        cases hv
      · exact hn
    have hstate : s.state = .bodyLength := by
      rw [h.state, hte, hv]
      simp
    have hnumber := (@number_numeral 10 (Or.inl rfl) _ [] (Or.inl rfl)
      (hfine.numeral v hmem).1).2
    rw [List.append_nil, h.remaining v hmem] at hnumber
    have hremaining : s.remaining.toNat = data.length := (hnumber rfl).trans hvalue
    by_cases hnil : data = []
    · subst hnil
      have hzero : s.remaining = 0 := UInt32.toNat_inj.mp hremaining
      refine ⟨s, Reads.nil s, h.error, fun _ => ?_, fun hd => (by cases hd)⟩
      rw [h.done, hv, hzero]
      rfl
    · have hmore : s.done = false := by
        have hne : s.remaining ≠ 0 := by
          intro h0
          rw [h0] at hremaining
          exact hnil (List.length_eq_zero_iff.mp hremaining.symm)
        rw [h.done, hv]
        simp [hne]
      have hread := reads_counted (Or.inl hstate) (not_halted h.error hmore) hnil hremaining
      refine ⟨_, hread, h.error, fun _ => ?_, fun hd => (by cases hd)⟩
      show (s.done || decide (s.state = .bodyLength)) = true
      rw [hstate]
      simp
  | close data =>
    obtain ⟨-, hcl, hte⟩ := hbody
    have hstate : s.state = .bodyClose := by
      rw [h.state, hte, hcl]
      simp
    have hdone : s.done = false := by
      rw [h.done, hcl]
      rfl
    exact ⟨s, reads_close hstate (not_halted h.error hdone) data, h.error,
      fun hd => (by cases hd), fun _ => ⟨hdone, hstate⟩⟩
  | chunked chunks last trailers =>
    obtain ⟨-, hte, hchunks, hlast, hzero, htrailers, hline, hshort, hfit⟩ := hbody
    have hcl : values "Content-Length" hs = [] := h.one.resolve_right hte
    have hsize : AtSize n s := {
      state := by rw [h.state, if_pos hte]
      headerBytes := h.headerBytes
      line := h.line
      done := by
        rw [h.done, hcl]
        rfl
      error := h.error }
    obtain ⟨t, k, hreads, ht, hk⟩ := hsize.read_chunks hchunks hfit
    obtain ⟨u, hread, hdone, herr⟩ := ht.read_last hlast hzero htrailers hline hshort hk
    have hall := hreads.append hread
    rw [List.append_nil] at hall
    exact ⟨u, hall, herr, fun _ => hdone, fun hd => (by cases hd)⟩

/-- The whole of a well-formed response. -/
theorem Response.WellFormed.reads {r : Response} (h : r.WellFormed) :
    ∃ t, Reads streamInit r.bytes t r.body.content ∧ t.error = none ∧
      (r.body.delimited = true → t.done = true) ∧
      (r.body.delimited = false → t.done = false ∧ t.state = .bodyClose) := by
  obtain ⟨s, hheads, hs⟩ := h.reads_heads
  obtain ⟨t, hbody, ht⟩ := read_body hs h.fine h.body
  exact ⟨t, hheads.append hbody, ht⟩

/-! ## Truncation -/

/-- A body that ends with the connection goes on to its end. -/
theorem reads_from_close {s t : Stream} {data out : List UInt8} (h : Reads s data t out)
    (hs : s.state = .bodyClose) (hh : halted s = false) : t = s := by
  have hclose := reads_close hs hh data
  exact (congrArg Prod.fst h.decoded).symm.trans (congrArg Prod.fst hclose.decoded)

/-- A part of a response with a delimited body is not taken for the whole. -/
theorem truncated {r : Response} (h : r.WellFormed) (hd : r.body.delimited = true)
    {part rest : List UInt8} (hsplit : r.bytes = part ++ rest) (hrest : rest ≠ []) :
    let t := streamClose (decode part streamInit).1
    t.error.isSome = true ∧ t.done = false := by
  obtain ⟨t, hreads, herr, hdone, -⟩ := h.reads
  rw [hsplit] at hreads
  obtain ⟨-, hmore, hlast⟩ := hreads.before hrest
  generalize (decode part streamInit).1 = s at *
  have hopen : s.state ≠ .bodyClose := by
    intro hs
    have heq := reads_from_close hlast hs hmore
    rw [← heq] at hmore
    simp [halted, hdone hd] at hmore
  unfold halted at hmore
  rw [Bool.or_eq_false_iff] at hmore
  have hnone : s.error.isNone = true := by
    rw [Option.isNone_iff_eq_none, ← Option.not_isSome_iff_eq_none, hmore.1]
    simp
  unfold streamClose
  dsimp only
  rw [hmore.2, hnone, if_pos (by decide), if_neg hopen]
  exact ⟨rfl, rfl⟩

/-! ## Broken framing -/

theorem Reaches.ends {s : Stream} {data : List UInt8} (h : Reaches s data fun _ => False) :
    Ends s data := by
  rcases h with hend | ⟨t, out, -, hf⟩
  · exact hend
  · exact hf.elim

/-- Headers that give two lengths, a length twice, or a length of more than 32 bits. -/
def BadLength (hs : List Header) : Prop :=
  (values "Content-Length" hs ≠ [] ∧ values "Transfer-Encoding" hs ≠ []) ∨
    2 ≤ (values "Content-Length" hs).length ∨
      ∃ v ∈ values "Content-Length" hs, Numeral 10 v ∧ 2 ^ 32 ≤ valueFrom 10 0 v

theorem collected_bad {hs : List Header} {s : Stream} (hc : Collected hs s) (hbad : BadLength hs) :
    s.haveLength = true ∧ s.chunked = true := by
  rcases hbad with ⟨hcl, hte⟩ | hmany | ⟨v, hv, hnum, hbig⟩
  · rw [hc.haveLength, hc.chunked]
    simp [hcl, hte]
  · have hone := hc.lengths
    omega
  · have hfits := (@number_numeral 10 (Or.inl rfl) _ [] (Or.inl rfl) hnum).1
    rw [List.append_nil, hc.remaining v hv] at hfits
    exact absurd (hfits.mp rfl) (Nat.not_lt.mpr hbig)

theorem bad_length {interim : List Head} (hi : ∀ head ∈ interim, head.Ok ∧ Interim head.status)
    {head : Head} (hok : head.Ok) (hbad : BadLength head.headers) :
    Ends streamInit (interimBytes interim ++ head.bytes) := by
  refine Reaches.ends ((atHead_init.reach_interims hi).append fun s hs => ?_)
  refine hs.reach hok fun t ht he => ?_
  obtain ⟨u, hu, heq⟩ := lineDone_empty ht
  obtain ⟨hlen, hch⟩ := collected_bad hu.collected hbad
  rw [heq] at he
  unfold endHeaders at he
  rw [hlen, hch, if_pos rfl] at he
  cases he

/-- A chunk size of more than 32 bits. -/
theorem bad_size {interim : List Head} (hi : ∀ head ∈ interim, head.Ok ∧ Interim head.status)
    {head : Head} (hok : head.Ok) (hstatus : head.status = 200)
    (hchunked : values "Transfer-Encoding" head.headers ≠ []) {chunks : List Chunk}
    (hchunks : ∀ c ∈ chunks, c.Ok) {l : SizeLine} (hl : l.Ok) (hbig : 2 ^ 32 ≤ l.value) :
    Ends streamInit (interimBytes interim ++ head.bytes ++ chunkBytes chunks ++ (l.text ++ crlf)) := by
  have hheads : Reaches streamInit (interimBytes interim ++ head.bytes)
      fun t => ∃ n, AtSize n t := by
    refine (atHead_init.reach_interims hi).append fun s hs => ?_
    refine hs.reach hok fun t ht he => ?_
    rw [hstatus] at ht
    have hbody := ht.final.1 he
    refine ⟨_, { state := ?_, headerBytes := rfl, line := hbody.line, done := ?_, error := he }⟩
    · rw [hbody.state, if_pos hchunked]
    · rw [hbody.done, hbody.one.resolve_right hchunked]
      rfl
  refine Reaches.ends ((hheads.append fun s ⟨n, hs⟩ => hs.reach_chunks hchunks).append ?_)
  rintro s ⟨n, hs⟩
  have herr := (hs.line_size hl).1 hbig
  rcases (reads_line (by rw [hs.state]; decide) (not_halted hs.error hs.done) hs.line hl.text).1
    with hread | hend
  · exact Or.inl (hread.ends_error herr)
  · exact Or.inl hend

/-! ## The remaining counter -/

/-- Where a byte is still to be counted, the counter is not zero. -/
def Counted (s : Stream) : Prop :=
  s.state = .bodyLength ∨ s.state = .chunkBody → s.done = false → s.error = none → s.remaining ≠ 0

theorem header_state (p : List UInt8) (s : Stream) : (header p s).state = s.state := by
  unfold header
  dsimp only
  split_ifs
  · rfl
  · rfl
  · rfl
  · exact (headerField_keeps _ _ s).1

theorem counted_endHeaders {s : Stream} (hs : s.state = .headers) : Counted (endHeaders s) := by
  intro hstate hdone herr hzero
  unfold endHeaders at hstate hdone herr hzero
  split at hstate
  · rw [hs] at hstate
    simp at hstate
  split at hstate
  · simp at hstate
  split at hstate
  · split at hstate <;> simp [hs] at hstate
  split at hstate
  · simp [hs] at hstate
  next h1 h2 h3 h4 =>
  rw [if_neg h1, if_neg h2, if_neg h3, if_neg h4] at hdone hzero
  dsimp only at hstate hdone hzero
  by_cases hch : s.chunked = true
  · simp [hch] at hstate
  by_cases hlen : s.haveLength = true
  · simp [hlen, hzero] at hdone
  · simp [hch, hlen] at hstate

theorem counted_line {s : Stream} (hs : readsLines s.state = true) : Counted (line s) := by
  have hcases : s.state = .status ∨ s.state = .headers ∨ s.state = .chunkSize ∨
      s.state = .trailers := by
    unfold readsLines at hs
    simpa using hs
  unfold line
  rcases hcases with hst | hst | hst | hst <;> rw [hst] <;> dsimp only
  · intro hstate
    unfold statusLine at hstate
    dsimp only at hstate
    split at hstate <;> simp [hst] at hstate
  · split
    · rw [if_neg (by decide)]
      exact counted_endHeaders hst
    · intro hstate
      rw [header_state, hst] at hstate
      simp at hstate
  · split
    · intro hstate
      simp at hstate
    · intro hstate _ _ hzero
      dsimp only at hstate hzero
      rw [hzero] at hstate
      simp at hstate
  · split
    · rw [if_pos rfl]
      intro _ hdone
      cases hdone
    · intro hstate
      rw [header_state, hst] at hstate
      simp at hstate

theorem counted_consume {s : Stream} (h : Counted s) (c : UInt8) : Counted (consume c s) := by
  unfold consume
  split
  next hbody =>
    unfold bodyByte
    split
    · exact h
    dsimp only
    split
    next hne =>
      exact fun _ _ _ => hne
    split
    · intro _ hdone
      cases hdone
    · intro hstate
      simp at hstate
  next hbody =>
    split
    · intro hstate _ herr
      unfold delimiterByte at hstate herr
      by_cases hc : c ≠ (if s.state = .chunkCr then 13 else 10)
      · rw [if_pos hc] at herr
        cases herr
      · rw [if_neg hc] at hstate
        dsimp only at hstate
        split at hstate <;> simp at hstate
    next hdelim =>
      have hs : readsLines s.state = true := by
        unfold readsLines
        unfold inBody at hbody
        revert hbody hdelim
        cases s.state <;> simp
      unfold metaByte
      dsimp only
      split
      · intro _ _ herr
        cases herr
      split
      swap
      · split
        · intro _ _ herr
          cases herr
        · exact h
      unfold endLine
      dsimp only
      split
      · intro _ _ herr
        cases herr
      split
      · intro _ _ herr
        cases herr
      have hline := counted_line (s := { s with
        headerBytes := s.headerBytes + 1, line := s.line.dropLast }) hs
      split
      · exact hline
      · exact hline

theorem counted_decode {s : Stream} (h : Counted s) (data : List UInt8) :
    Counted (decode data s).1 := by
  induction data generalizing s with
  | nil => exact h
  | cons c data ih =>
    rw [decode]
    split
    · exact h
    · exact ih (counted_consume h c)

theorem counted_init : Counted streamInit := by
  intro hstate
  rcases hstate with hs | hs <;> cases hs

/-- No byte of a body makes the counter wrap. -/
theorem remaining_exact (data : List UInt8) (c : UInt8) :
    let s := (decode data streamInit).1
    s.state = .bodyLength ∨ s.state = .chunkBody → halted s = false →
      (consume c s).remaining.toNat + 1 = s.remaining.toNat := by
  intro s hstate hmore
  unfold halted at hmore
  rw [Bool.or_eq_false_iff] at hmore
  have hnone : s.error = none := by
    rw [← Option.not_isSome_iff_eq_none, hmore.1]
    simp
  have hne := counted_decode counted_init data hstate hmore.2 hnone
  have hone : (1 : UInt32) ≤ s.remaining := by
    rw [UInt32.le_iff_toNat_le]
    have h0 : s.remaining.toNat ≠ 0 := fun h => hne (UInt32.toNat_inj.mp h)
    show 1 ≤ s.remaining.toNat
    omega
  have hbody : inBody s = true := by
    unfold inBody
    rcases hstate with hs | hs <;> simp [hs]
  have hopen : ¬s.state = .bodyClose := by
    rcases hstate with hs | hs <;> rw [hs] <;> decide
  have hremaining : (consume c s).remaining = s.remaining - 1 := by
    unfold consume bodyByte
    rw [if_pos hbody, if_neg hopen]
    dsimp only
    split_ifs <;> rfl
  have hone' : 1 ≤ s.remaining.toNat := UInt32.le_iff_toNat_le.mp hone
  rw [hremaining, UInt32.toNat_sub_of_le _ _ hone]
  show s.remaining.toNat - 1 + 1 = s.remaining.toNat
  omega

/-! ## The framing of a response is decoded exactly -/

theorem feed_whole {data : List UInt8} {t : Stream} {out : List UInt8}
    (h : Reads streamInit data t out) :
    feed acceptAll data streamInit [] = (data.length, t, out) := by
  rw [feed_acceptAll, h.all, h.decoded, List.nil_append]

theorem feed_stream (data : List UInt8) :
    (feed acceptAll data streamInit []).2.1 = (decode data streamInit).1 := by
  rw [feed_acceptAll]

theorem close_error {s : Stream} (h : s.error.isSome = true) : streamClose s = s := by
  unfold streamClose
  rw [if_neg]
  rw [Option.isSome_iff_ne_none] at h
  simp [h]

/-- What a feed of a well-formed response gives, and what it gives of a part of it. -/
theorem response_exact {r : Response} (h : r.WellFormed) :
    (∃ t, feed acceptAll r.bytes streamInit [] = (r.bytes.length, t, r.body.content) ∧
      t.error = none ∧ t.done = r.body.delimited ∧ (streamClose t).error = none ∧
      (streamClose t).done = true) ∧
    (r.body.delimited = true → ∀ part rest, r.bytes = part ++ rest → rest ≠ [] →
      let t := streamClose (feed acceptAll part streamInit []).2.1
      t.error.isSome = true ∧ t.done = false) := by
  constructor
  · obtain ⟨t, hreads, herr, hdone, hclose⟩ := h.reads
    refine ⟨t, feed_whole hreads, herr, ?_⟩
    cases hd : r.body.delimited with
    | true =>
      have ht := hdone hd
      refine ⟨ht, ?_⟩
      unfold streamClose
      rw [ht, if_neg (by simp)]
      exact ⟨herr, ht⟩
    | false =>
      obtain ⟨ht, hstate⟩ := hclose hd
      refine ⟨ht, ?_⟩
      unfold streamClose
      rw [ht, herr, if_pos (by decide), if_pos hstate]
      exact ⟨rfl, rfl⟩
  · intro hd part rest hsplit hrest
    rw [feed_stream]
    exact truncated h hd hsplit hrest

/-- Well-formed responses are decoded to their bodies, and no proper part of a delimited one
is taken for the whole; a response with a bad length or a chunk size that does not fit ends
in an error; the counter neither underflows nor overflows. -/
theorem framing_exact :
    (∀ r : Response, r.WellFormed →
      (∃ t, feed acceptAll r.bytes streamInit [] = (r.bytes.length, t, r.body.content) ∧
        t.error = none ∧ t.done = r.body.delimited ∧ (streamClose t).error = none ∧
        (streamClose t).done = true) ∧
      (r.body.delimited = true → ∀ part rest, r.bytes = part ++ rest → rest ≠ [] →
        let t := streamClose (feed acceptAll part streamInit []).2.1
        t.error.isSome = true ∧ t.done = false)) ∧
    (∀ (interim : List Head) (head : Head) (rest : List UInt8),
      (∀ h ∈ interim, h.Ok ∧ Interim h.status) → head.Ok → BadLength head.headers →
      (streamClose (feed acceptAll (interimBytes interim ++ head.bytes ++ rest)
        streamInit []).2.1).error.isSome = true) ∧
    (∀ (interim : List Head) (head : Head) (chunks : List Chunk) (l : SizeLine)
      (rest : List UInt8), (∀ h ∈ interim, h.Ok ∧ Interim h.status) → head.Ok → head.status = 200 →
      values "Transfer-Encoding" head.headers ≠ [] → (∀ c ∈ chunks, c.Ok) → l.Ok →
      2 ^ 32 ≤ l.value →
      (streamClose (feed acceptAll (interimBytes interim ++ head.bytes ++ chunkBytes chunks ++
        (l.text ++ crlf) ++ rest) streamInit []).2.1).error.isSome = true) ∧
    (∀ (data : List UInt8) (c : UInt8), let s := (feed acceptAll data streamInit []).2.1
      s.state = .bodyLength ∨ s.state = .chunkBody → halted s = false →
        (consume c s).remaining.toNat + 1 = s.remaining.toNat) ∧
    ∀ (base : UInt32) (p : List UInt8), base = 10 ∨ base = 16 →
      ∃ k ≤ p.length, (number base p).2.toNat = valueFrom base.toNat 0 (p.take k) := by
  refine ⟨fun r h => response_exact h, ?_, ?_, ?_, ?_⟩
  · intro interim head rest hi hok hbad
    have hend := bad_length hi hok hbad rest
    rw [feed_stream, close_error hend]
    exact hend
  · intro interim head chunks l rest hi hok hstatus hte hchunks hl hbig
    have hend := bad_size hi hok hstatus hte hchunks hl hbig rest
    rw [feed_stream, close_error hend]
    exact hend
  · intro data c
    rw [feed_stream]
    exact remaining_exact data c
  · intro base p hbase
    exact numberFrom_exact hbase 0 p

/-- An interim head, and a body of two bytes in a chunk with an extension, with a trailer. -/
def inChunk : Response where
  interim := [{ minor := true, status := 100, reason := none, headers := [] }]
  head :=
    { minor := true
      status := 200
      reason := some (ascii ['O', 'K'])
      headers := [⟨ascii "Transfer-Encoding".toList, ascii " chunked".toList⟩] }
  body := .chunked [{ size := ascii ['2'], ext := some (ascii "a=b".toList), data := [104, 105] }]
    { size := ascii ['0'], ext := none } [⟨ascii ['A'], ascii ['1']⟩]

theorem numeral_digit {base d : UInt32} {c : UInt8} (h : digitOf c = some d) (hd : d < base) :
    Numeral base [c] := by
  refine ⟨List.cons_ne_nil _ _, fun x hx => ?_⟩
  rw [List.mem_singleton.mp hx]
  exact ⟨d, h, hd⟩

theorem inChunk_wellFormed : inChunk.WellFormed where
  interim := by
    intro head hm
    rw [List.mem_singleton.mp hm]
    refine ⟨⟨by decide, by decide, by decide, fun f hf => absurd hf List.not_mem_nil⟩,
      ⟨by decide, by decide, by decide⟩,
      ⟨by decide, fun f hf => absurd hf List.not_mem_nil⟩, ?_⟩
    refine ⟨by decide, ?_, by decide, ?_, Or.inl rfl, ?_, by decide, ?_⟩ <;>
      exact fun v hv => absurd hv List.not_mem_nil
  head := by
    refine ⟨by decide, by decide, by decide, fun f hf => ?_⟩
    rw [List.mem_singleton.mp hf]
    exact ⟨by decide, by decide, by decide⟩
  short := by
    refine ⟨by decide, fun f hf => ?_⟩
    rw [List.mem_singleton.mp hf]
    decide
  fine := by
    have hlength : values "Content-Length" inChunk.head.headers = [] := by decide +kernel
    refine ⟨by decide +kernel, fun v hv => ?_, by decide +kernel, by decide +kernel,
      Or.inl hlength, by decide +kernel, by decide +kernel, by decide +kernel⟩
    rw [hlength] at hv
    exact absurd hv List.not_mem_nil
  status := rfl
  body := by
    refine ⟨by decide +kernel, by decide +kernel, fun c hc => ?_,
      ⟨numeral_digit (d := 0) (by decide) (by decide), by decide⟩, by decide, fun f hf => ?_,
      by decide, fun f hf => ?_, by decide, by decide +kernel, ?_⟩
    · rw [List.mem_singleton.mp hc]
      exact ⟨⟨numeral_digit (d := 2) (by decide) (by decide), by decide⟩, by decide, by decide,
        by decide⟩
    · rw [List.mem_singleton.mp hf]
      exact ⟨by decide, by decide, by decide⟩
    · rw [List.mem_singleton.mp hf]
      decide
    · unfold ChunksFit
      decide

theorem framing_exact_inChunk :
    ∃ t, feed acceptAll inChunk.bytes streamInit [] = (inChunk.bytes.length, t, [104, 105]) ∧
      t.error = none ∧ t.done = true ∧ (streamClose t).error = none ∧ (streamClose t).done = true :=
  (framing_exact.1 inChunk inChunk_wellFormed).1

end Z80Sbc.Http.Framing
