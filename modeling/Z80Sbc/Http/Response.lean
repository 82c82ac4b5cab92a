import Z80Sbc.Http.Mailbox

/-! # What core 1 has received

A connection is decoded from the first byte on. Only a final response has a body, so
that a redirect leaves nothing in the ring, and the requests of one session form a
chain from its name to the response it is answered with. -/

namespace Z80Sbc.Http
open Z80Sbc.Data

/-! ## The body follows the headers -/

/-- The headers have not been read. -/
def Early (s : Stream) : Prop := s.state = .status ∨ s.state = .headers

/-- Behind the headers the response is a final one. -/
def Framed (s : Stream) : Prop := Early s ∨ s.status = 200 ∨ s.status = 204

/-- One step of the decoder, as far as the order of headers and body goes. -/
inductive Onward (s t : Stream) : Prop where
  | stay (state : t.state = s.state) (status : t.status = s.status)
  | head (early : Early s) (framed : Framed t)
  | tail (early : ¬Early s) (early' : ¬Early t) (status : t.status = s.status)

theorem Onward.framed {s t : Stream} (h : Onward s t) (hs : Framed s) : Framed t := by
  cases h with
  | stay state status =>
    rw [Framed, Early, state, status]
    exact hs
  | head _ framed => exact framed
  | tail early _ status =>
    rw [Framed, status]
    exact Or.inr (hs.resolve_left early)

theorem Onward.late {s t : Stream} (h : Onward s t) (hs : ¬Early s) : ¬Early t := by
  cases h with
  | stay state _ =>
    rw [Early, state]
    exact hs
  | head early _ => exact absurd early hs
  | tail _ early' _ => exact early'

/-- What is done to the other fields makes no difference. -/
theorem Onward.congr {s t s' t' : Stream} (h : Onward s t) (hs : s.state = s'.state)
    (hs' : s.status = s'.status) (ht : t.state = t'.state) (ht' : t.status = t'.status) :
    Onward s' t' := by
  cases h with
  | stay state status => exact .stay (by rw [← ht, state, hs]) (by rw [← ht', status, hs'])
  | head early framed =>
    refine .head ?_ ?_
    · rwa [Early, ← hs]
    · rwa [Framed, Early, ← ht, ← ht']
  | tail early early' status =>
    refine .tail ?_ ?_ (by rw [← ht', status, hs'])
    · rwa [Early, ← hs]
    · rwa [Early, ← ht]

theorem statusLine_onward (p : List UInt8) {s : Stream} (h : s.state = .status) :
    Onward s (statusLine p s) := by
  unfold statusLine
  extract_lets version d1 d2 d3
  split
  · exact .stay rfl rfl
  · exact .head (Or.inl h) (Or.inl (Or.inr rfl))

theorem endHeaders_onward {s : Stream} (h : s.state = .headers) : Onward s (endHeaders s) := by
  unfold endHeaders
  split
  · exact .stay rfl rfl
  split
  · exact .head (Or.inr h) (Or.inl (Or.inl rfl))
  split
  · split
    · exact .stay rfl rfl
    · exact .stay rfl rfl
  split
  · exact .stay rfl rfl
  · next hst =>
    rw [not_and_or, not_not, not_not] at hst
    exact .head (Or.inr h) (Or.inr hst)

theorem header_onward (p : List UInt8) (s : Stream) : Onward s (header p s) := by
  unfold header headerField
  extract_lets name value
  split_ifs <;> exact .stay rfl rfl

theorem chunkSize_onward {s : Stream} (h : s.state = .chunkSize) (ok : Bool) (remaining : UInt32) :
    Onward s
      (if !ok then { s with remaining := remaining, error := some "Invalid chunk size" }
        else
          { s with
            remaining := remaining
            state := if remaining ≠ 0 then .chunkBody else .trailers }) := by
  have hs : ¬Early s := by simp [Early, h]
  split
  · exact .stay rfl rfl
  · refine .tail hs ?_ rfl
    by_cases hr : remaining = 0
    · simp [Early, hr]
    · simp [Early, hr]

/-- A line of the metadata. -/
theorem line_onward {s : Stream} (hmeta : inBody s = false)
    (hdelim : ¬(s.state = .chunkCr ∨ s.state = .chunkLf)) : Onward s (line s) := by
  unfold line
  extract_lets p
  split
  · next hs => exact statusLine_onward p hs
  · next hs => exact chunkSize_onward hs (number 16 p).1 (number 16 p).2
  · next hstatus hchunk =>
    split
    · split
      · exact .stay rfl rfl
      · -- the headers are the one state that is left
        refine endHeaders_onward ?_
        unfold inBody at hmeta
        cases hs : s.state <;> simp_all
    · exact header_onward p s

theorem bodyByte_onward {s : Stream} (h : inBody s = true) : Onward s (bodyByte s) := by
  have hs : ¬Early s := by
    rintro (hs | hs)
    · rw [inBody, hs] at h
      cases h
    · rw [inBody, hs] at h
      cases h
  unfold bodyByte
  split
  · exact .stay rfl rfl
  extract_lets t
  split
  · exact .stay rfl rfl
  split
  · exact .stay rfl rfl
  · exact .tail hs (by simp [Early]) rfl

theorem delimiterByte_onward (c : UInt8) {s : Stream}
    (h : s.state = .chunkCr ∨ s.state = .chunkLf) : Onward s (delimiterByte c s) := by
  have hs : ¬Early s := by
    rcases h with h | h
    · simp [Early, h]
    · simp [Early, h]
  unfold delimiterByte
  by_cases hc : c ≠ (if s.state = .chunkCr then 13 else 10)
  · rw [if_pos hc]
    exact .stay rfl rfl
  · rw [if_neg hc]
    refine .tail hs ?_ rfl
    by_cases hcr : s.state = .chunkCr
    · simp [Early, hcr]
    · simp [Early, hcr]

theorem metaByte_onward (c : UInt8) {s : Stream} (hmeta : inBody s = false)
    (hdelim : ¬(s.state = .chunkCr ∨ s.state = .chunkLf)) : Onward s (metaByte c s) := by
  unfold metaByte
  extract_lets t
  split
  · exact .stay rfl rfl
  split
  · unfold endLine
    split
    · exact .stay rfl rfl
    extract_lets u v
    split
    · exact .stay rfl rfl
    have hline : Onward u (line u) := line_onward hmeta hdelim
    split
    · exact hline.congr rfl rfl rfl rfl
    · exact hline.congr rfl rfl rfl rfl
  split
  · exact .stay rfl rfl
  · exact .stay rfl rfl

theorem consume_onward (c : UInt8) (s : Stream) : Onward s (consume c s) := by
  unfold consume
  split
  · next hbody => exact bodyByte_onward hbody
  next hbody =>
  split
  · next hdelim => exact delimiterByte_onward c hdelim
  · next hdelim => exact metaByte_onward c (by simpa using hbody) hdelim

theorem decode_late {data : List UInt8} {s : Stream} (h : ¬Early s) :
    ¬Early (decode data s).1 := by
  induction data generalizing s with
  | nil => exact h
  | cons c data ih =>
    unfold decode
    split
    · exact h
    · exact ih ((consume_onward c s).late h)

theorem decode_framed {data : List UInt8} {s : Stream} (h : Framed s) :
    Framed (decode data s).1 := by
  induction data generalizing s with
  | nil => exact h
  | cons c data ih =>
    unfold decode
    split
    · exact h
    · exact ih ((consume_onward c s).framed h)

/-- Before the end of the headers there is no body. -/
theorem decode_early {data : List UInt8} {s : Stream} (h : Early (decode data s).1) :
    (decode data s).2 = [] := by
  induction data generalizing s with
  | nil => rfl
  | cons c data ih =>
    unfold decode at h ⊢
    split
    · rfl
    next hhalt =>
    rw [if_neg hhalt] at h
    have hbody : inBody s = false := by
      by_contra hbody
      have hs : ¬Early s := by
        rintro (hs | hs)
        · simp [inBody, hs] at hbody
        · simp [inBody, hs] at hbody
      exact decode_late ((consume_onward c s).late hs) h
    show (if inBody s = true then _ else _) = []
    rw [hbody]
    exact ih h

/-- A response that is not a final one has no body. -/
theorem decode_redirect {data : List UInt8} (h : 300 ≤ (decode data streamInit).1.status) :
    (decode data streamInit).2 = [] := by
  refine decode_early ((decode_framed (Or.inl (Or.inl rfl))).resolve_right ?_)
  rintro (hs | hs)
  · omega
  · omega

/-- The chunk in the slot. -/
def Slot.bytes (s : Slot) : List UInt8 := (List.range s.length).map s.data

/-! ## The responses of a session -/

theorem streamClose_done {s : Stream} (h : s.done = true) : streamClose s = s := by
  simp [streamClose, h]

theorem streamClose_error {s : Stream} (h : s.error.isSome = true) : streamClose s = s := by
  cases he : s.error with
  | none => simp [he] at h
  | some message => simp [streamClose, he]

theorem streamClose_halted (s : Stream) : halted (streamClose s) = true := by
  unfold streamClose
  split
  · split
    · simp [halted]
    · simp [halted]
  · next h => simpa [halted, or_comm, Option.isSome_iff_ne_none, imp_iff_not_or] using h

theorem streamClose_close (s : Stream) : streamClose (streamClose s) = streamClose s := by
  have h := streamClose_halted s
  rw [halted, Bool.or_eq_true] at h
  exact h.elim streamClose_error streamClose_done

section
variable {Url Env : Type}

/-- What a connection has brought: the decoder behind it, and the body. -/
def Connection.response (c : Connection Url) : Stream × List UInt8 :=
  let (s, body) := decode c.wire streamInit
  (if c.closed then streamClose s else s, body)

/-- What the last request of a session has brought. -/
def Session.response (s : Session Url) : Stream × List UInt8 :=
  match s.connections with
  | [] => (streamInit, [])
  | c :: _ => c.response

/-- The requests of a session: the first goes to the target of its name, and every other
one to where the response before it redirects. -/
inductive Chain (web : Web Url Env) (name : List UInt8) : List (Connection Url) → Prop where
  | nil : Chain web name []
  | first {env : Env} {url : Url} (wire : List UInt8) (closed : Bool)
      (target : web.loadTarget env name = .ok url) : Chain web name [⟨url, wire, closed⟩]
  | redirect {c : Connection Url} {cs : List (Connection Url)} {url : Url} (wire : List UInt8)
      (closed : Bool) (before : Chain web name (c :: cs)) (done : c.response.1.done = true)
      (error : c.response.1.error = none) (status : 300 ≤ c.response.1.status)
      (target : web.redirect c.target c.response.1.location = some url) :
      Chain web name (⟨url, wire, closed⟩ :: c :: cs)

/-- The last connection may bring more. -/
theorem Chain.last {web : Web Url Env} {name : List UInt8} {c d : Connection Url}
    {cs : List (Connection Url)} (h : Chain web name (c :: cs)) (hd : d.target = c.target) :
    Chain web name (d :: cs) := by
  obtain ⟨target, wire, closed⟩ := d
  cases h with
  | first _ _ htarget =>
    subst hd
    exact .first _ _ htarget
  | redirect _ _ before done error status htarget =>
    subst hd
    exact .redirect _ _ before done error status htarget

/-- The session has its whole response: a final one, without an error. -/
def Session.Complete (s : Session Url) : Prop :=
  s.connections ≠ [] ∧ s.response.1.done = true ∧ s.response.1.error = none ∧
    s.response.1.status < 300

/-- All of the body went into the slot. -/
def Session.Finished (s : Session Url) : Prop := s.Complete ∧ s.taken = s.response.2

theorem Session.response_received (data : List UInt8) (s : Session Url)
    (hopen : halted s.response.1 = false) :
    (s.received data).response = ((decode data s.response.1).1,
      s.response.2 ++ (decode data s.response.1).2) ∨ s.connections = [] := by
  cases hc : s.connections with
  | nil => exact Or.inr rfl
  | cons c cs =>
    refine Or.inl ?_
    have hclosed : c.closed = false := by
      by_contra h
      have hclosed : c.closed = true := by simpa using h
      rw [response, hc] at hopen
      simp [Connection.response, hclosed, streamClose_halted] at hopen
    simp [response, received, hc, Connection.response, hclosed, decode_append]

theorem Session.response_closed (s : Session Url) :
    s.closed.response = (streamClose s.response.1, s.response.2) ∨ s.connections = [] := by
  cases hc : s.connections with
  | nil => exact Or.inr rfl
  | cons c cs =>
    refine Or.inl ?_
    cases hclosed : c.closed with
    | true => simp [response, closed, hc, Connection.response, hclosed, streamClose_close]
    | false => simp [response, closed, hc, Connection.response, hclosed]

end

end Z80Sbc.Http
