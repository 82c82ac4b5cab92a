import Z80Sbc.Io.Transport
import Z80Sbc.Concurrent.Run

/-! # Port 4 gives the reply to the request of its transaction

A transaction is what happens between two changes of the generation. The slot may
still hold the job of an earlier one, so the history of a job is kept apart from the
phase the transport is in: RESET and a failure drop the phase and keep the slot. -/

namespace Z80Sbc.Io.ExactReply
open Z80Sbc.Io Z80Sbc.Concurrent

/-! ## What a transaction may show -/

/-- The length, low byte first, and the bytes. -/
def frame (data : List UInt8) : List UInt8 :=
  UInt8.ofNat data.length :: UInt8.ofNat (data.length >>> 8) :: data

/-- The reply of a transaction: its own, or the worker's answer to its request. -/
inductive Replies (t : Transaction) : List UInt8 → Prop where
  | replied {data : List UInt8} (h : t.replied = some data) : Replies t data
  | answered {r : Request} {a : Answer} (hs : t.submitted = some r) (ha : t.answered = some (r, a))
      (ok : a.error = .ok) (has : a.hasResponse = true) : Replies t (bytes a.data a.length)

structure Exact (t : Transaction) : Prop where
  reads : t.reads = [] ∨ ∃ data, Replies t data ∧ t.reads <+: frame data
  payload : ∀ r, t.submitted = some r → r.payload = t.typed
  answer : ∀ r a, t.answered = some (r, a) → t.submitted = some r
  alone : t.submitted ≠ none → t.replied = none

theorem Exact.empty : Exact .empty := ⟨Or.inl rfl, nofun, nofun, fun _ => rfl⟩

/-- Nothing is answered before it is submitted. -/
theorem Exact.unanswered {t : Transaction} (h : Exact t) (hs : t.submitted = none) :
    t.answered = none := by
  rcases ha : t.answered with _ | ⟨r, a⟩
  · rfl
  · rw [h.answer r a ha] at hs
    cases hs

/-- Nothing is read before there is a reply. -/
theorem Exact.unread {t : Transaction} (h : Exact t) (hr : t.replied = none)
    (ha : t.answered = none) : t.reads = [] := by
  rcases h.reads with h0 | ⟨data, hd, -⟩
  · exact h0
  · cases hd with
    | replied h => rw [hr] at h; cases h
    | answered _ h => rw [ha] at h; cases h

/-! ## The invariant -/

/-- The history and the slot, whatever the transport does. -/
structure Books (s : System) : Prop where
  exact : ∀ n, Exact (s.history n)
  later : ∀ n, s.current < n → s.history n = .empty
  serving : s.serving = true → s.work = .pending
  submitted : s.work ≠ .idle → (s.history s.job.transaction).submitted = some s.job.request
  pending : s.work = .pending → (s.history s.job.transaction).answered = none
  answered : s.work = .done →
    (s.history s.job.transaction).answered = some (s.job.request, s.result.toAnswer)
  generation : s.work = .done ∨ s.serving = true → s.result.generation = s.job.generation

/-- A request is being taken, or submitted. -/
structure Collecting (s : System) : Prop where
  submitted : (s.history s.current).submitted = none
  replied : (s.history s.current).replied = none
  header : s.transport.lengthBytes < 2 →
    (s.history s.current).typed = [] ∧ s.transport.requestPosition = 0 ∧ s.core0 = .idle
  typed : 2 ≤ s.transport.lengthBytes →
    (s.history s.current).typed = bytes s.transport.request s.transport.requestPosition ∧
    s.transport.requestLength.toNat ≤ ioServiceMaxPayload
  room : 2 ≤ s.transport.lengthBytes → s.core0 = .idle →
    s.transport.requestPosition < s.transport.requestLength.toNat
  full : s.core0 ≠ .idle → s.transport.requestPosition = s.transport.requestLength.toNat
  free : s.core0 = .filling ∨ s.core0 = .publishing → s.work = .idle
  job : s.core0 = .publishing → s.job.transaction = s.current ∧
    s.job.generation = s.transport.generation ∧
    s.job.request.payload = bytes s.transport.request s.transport.requestLength.toNat

/-- The job of this transaction is in the slot. -/
structure Busy (s : System) : Prop where
  work : s.work ≠ .idle
  transaction : s.job.transaction = s.current
  generation : s.job.generation = s.transport.generation
  unread : (s.history s.current).reads = []

/-- A reply is being read. -/
structure Replying (s : System) (data : List UInt8) : Prop where
  replies : Replies (s.history s.current) data
  buffer : bytes s.response s.transport.responseLength = data
  reads : (s.history s.current).reads = (frame data).take s.transport.responsePosition
  position : s.transport.responsePosition < data.length + 2
  own : s.transport.response = .localResponse → (s.history s.current).submitted = none

def Phase (s : System) : Prop :=
  match s.transport.status with
  | .ready => s.history s.current = .empty
  | .complete => True
  | .responseReady => ∃ data, Replying s data
  | .collecting => Collecting s
  | .busy => Busy s
  | .error => s.history s.current = .empty

structure Inv (s : System) : Prop extends Books s where
  phase : Phase s
  idle : s.transport.status ≠ .collecting → s.core0 = .idle
  owned : s.transport.response = .result →
    (s.transport.status = .complete ∨ s.transport.status = .responseReady) ∧ s.work = .idle
  sticky : s.transport.resetRequired = true → s.transport.status = .error

section
variable {s : System}

theorem Inv.collecting (h : Inv s) (hs : s.transport.status = .collecting) : Collecting s := by
  have hp := h.phase
  rwa [Phase, hs] at hp

theorem Inv.busy (h : Inv s) (hs : s.transport.status = .busy) : Busy s := by
  have hp := h.phase
  rwa [Phase, hs] at hp

theorem Inv.ready (h : Inv s) (hs : s.transport.status = .ready) :
    s.history s.current = .empty := by
  have hp := h.phase
  rwa [Phase, hs] at hp

theorem Inv.replying (h : Inv s) (hs : s.transport.status = .responseReady) :
    ∃ data, Replying s data := by
  have hp := h.phase
  rwa [Phase, hs] at hp

theorem Inv.response (h : Inv s)
    (hs : s.transport.status ≠ .complete ∧ s.transport.status ≠ .responseReady) :
    s.transport.response = .localResponse := by
  cases hr : s.transport.response with
  | localResponse => rfl
  | result =>
    rcases (h.owned hr).1 with hc | hc
    · exact absurd hc hs.1
    · exact absurd hc hs.2

theorem start_inv : Inv .start :=
  ⟨⟨fun _ => Exact.empty, fun _ _ => rfl, nofun, fun h => absurd rfl h, nofun, nofun,
    fun h => by cases h with | inl h => cases h | inr h => cases h⟩, rfl, fun _ => rfl, nofun, nofun⟩

/-! ## A new transaction -/

theorem resetTransport_inv (h : Books s) (hidle : s.core0 = .idle) : Inv (resetTransport s) := by
  refine ⟨⟨h.exact, fun n hn => h.later n (Nat.lt_of_succ_lt hn), h.serving, h.submitted, h.pending,
    h.answered, h.generation⟩, ?_, fun _ => hidle, nofun, nofun⟩
  exact h.later _ (Nat.lt_succ_self _)

theorem fail_inv (h : Books s) (hidle : s.core0 = .idle) (e : ServiceError) (b : Bool) :
    Inv (fail e b s) := by
  refine ⟨⟨h.exact, fun n hn => h.later n (Nat.lt_of_succ_lt hn), h.serving, h.submitted, h.pending,
    h.answered, h.generation⟩, ?_, fun _ => hidle, nofun, fun _ => rfl⟩
  exact h.later _ (Nat.lt_succ_self _)

/-- The books, when the current record changes but for its submission and its answer. -/
theorem Books.note {f : Transaction → Transaction} (h : Books s)
    (hsub : (f (s.history s.current)).submitted = (s.history s.current).submitted)
    (hans : (f (s.history s.current)).answered = (s.history s.current).answered)
    (hf : Exact (f (s.history s.current))) : Books (s.note f) := by
  have hrecord (n : Nat) : (s.note f).history n =
      if n = s.current then f (s.history s.current) else s.history n :=
    Function.update_apply _ _ _ _
  have hsubmitted (n : Nat) : ((s.note f).history n).submitted = (s.history n).submitted := by
    rw [hrecord]
    split
    · next hn => rw [hsub, hn]
    · rfl
  have hanswered (n : Nat) : ((s.note f).history n).answered = (s.history n).answered := by
    rw [hrecord]
    split
    · next hn => rw [hans, hn]
    · rfl
  refine ⟨fun n => ?_, fun n hn => ?_, h.serving, fun hw => ?_, fun hw => ?_, fun hw => ?_,
    h.generation⟩
  · rw [hrecord]
    split
    · exact hf
    · exact h.exact n
  · have hne : n ≠ s.current := Nat.ne_of_gt hn
    rw [hrecord, if_neg hne]
    exact h.later n hn
  · rw [hsubmitted]
    exact h.submitted hw
  · rw [hanswered]
    exact h.pending hw
  · rw [hanswered]
    exact h.answered hw

/-! ## The poll -/

/-- The slot is empty, and nothing else has changed. -/
def drop (s : System) : System := { s with work := if s.work = .done then .idle else s.work }

theorem drop_books (h : Books s) : Books (drop s) := by
  by_cases hw : s.work = .done
  · have hdrop : drop s = { s with work := .idle } := by simp [drop, hw]
    rw [hdrop]
    refine ⟨h.exact, h.later, fun hs => ?_, nofun, nofun, nofun, fun hg => ?_⟩
    · exact absurd (h.serving hs) (by rw [hw]; nofun)
    · exact h.generation (Or.inl hw)
  · have hdrop : drop s = s := by simp [drop, hw]
    rwa [hdrop]

theorem pollService_drop (h : s.transport.status ≠ .busy) : pollService s = drop s := by
  by_cases hw : s.work = .done
  · simp [pollService, drop, hw, h]
  · simp [pollService, drop, hw]

theorem pollService_core0 (s : System) : (pollService s).core0 = s.core0 := by
  simp only [pollService, fail]
  split_ifs <;> rfl

theorem drop_inv (h : Inv s) (hb : s.transport.status ≠ .busy) : Inv (drop s) := by
  refine ⟨drop_books h.toBooks, ?_, h.idle, fun hr => ⟨(h.owned hr).1, ?_⟩, h.sticky⟩
  · have hstatus : (drop s).transport.status = s.transport.status := rfl
    have hp := h.phase
    unfold Phase at hp ⊢
    rw [hstatus]
    cases hst : s.transport.status with
    | busy => exact absurd hst hb
    | collecting =>
      obtain ⟨h1, h2, h3, h4, h5, h6, h7, h8⟩ := h.collecting hst
      exact ⟨h1, h2, h3, h4, h5, h6, fun hc => by simp [drop, h7 hc], h8⟩
    | responseReady =>
      obtain ⟨data, h1, h2, h3, h4, h5⟩ := h.replying hst
      exact ⟨data, h1, h2, h3, h4, h5⟩
    | ready => exact h.ready hst
    | error => rwa [hst] at hp
    | complete => trivial
  · simp [drop, (h.owned hr).2]

theorem pollService_inv (h : Inv s) : Inv (pollService s) := by
  by_cases hb : s.transport.status = .busy
  · by_cases hw : s.work = .done
    · have hidle : s.core0 = .idle := h.idle (by rw [hb]; nofun)
      obtain ⟨-, htxn, hgen, hunread⟩ := h.busy hb
      have hans := h.answered hw
      have hsub := h.submitted (by rw [hw]; nofun)
      have hdrop : drop s = { s with work := .idle } := by simp [drop, hw]
      have hbooks := drop_books h.toBooks
      rw [hdrop] at hbooks
      have hg : s.result.generation = s.transport.generation := by
        rw [h.generation (Or.inl hw), hgen]
      simp only [pollService, hw, hg, hb, ne_eq, not_true_eq_false, if_false, or_self]
      by_cases herr : s.result.error = .ok
      · rw [if_neg (not_not_intro herr)]
        by_cases hlen : ioServiceMaxPayload < s.result.length
        · rw [if_pos hlen]
          exact fail_inv hbooks hidle _ _
        · rw [if_neg hlen]
          refine ⟨⟨h.exact, h.later, hbooks.serving, nofun, nofun, nofun, hbooks.generation⟩, ?_,
            fun _ => hidle, ?_, ?_⟩
          · rw [htxn] at hans hsub
            cases hhas : s.result.hasResponse with
            | false => simp [Phase]
            | true =>
              exact ⟨bytes s.result.data s.result.length, .answered hsub hans herr hhas, rfl, hunread,
                Nat.succ_pos _, nofun⟩
          · intro _
            cases hhas : s.result.hasResponse with
            | false => simp
            | true => simp
          · intro hr
            have hst := h.sticky hr
            rw [hb] at hst
            cases hst
      · rw [if_pos herr]
        exact fail_inv hbooks hidle _ _
    · simpa [pollService, hw] using h
  · rw [pollService_drop hb]
    exact drop_inv h hb

/-! ## Port 2 -/

/-- Core 0 may answer the transaction itself. -/
structure Unanswered (s : System) : Prop extends Books s where
  idle : s.core0 = .idle
  unsubmitted : (s.history s.current).submitted = none
  unreplied : (s.history s.current).replied = none
  required : s.transport.resetRequired = false

theorem Inv.required (h : Inv s) (hs : s.transport.status ≠ .error) :
    s.transport.resetRequired = false := by
  cases hr : s.transport.resetRequired with
  | false => rfl
  | true => exact absurd (h.sticky hr) hs

theorem Books.transport (h : Books s) (t : Transport) : Books { s with transport := t } :=
  ⟨h.exact, h.later, h.serving, h.submitted, h.pending, h.answered, h.generation⟩

theorem Unanswered.unread (h : Unanswered s) : (s.history s.current).reads = [] :=
  (h.exact _).unread h.unreplied ((h.exact _).unanswered h.unsubmitted)

theorem replyLocal_inv (h : Unanswered s) (data : Nat → UInt8) (n : Nat) :
    Inv (replyLocal data n s) := by
  have hexact : Exact { s.history s.current with replied := some (bytes data n) } := by
    refine ⟨Or.inl h.unread, (h.exact _).payload, (h.exact _).answer, fun hs => ?_⟩
    exact absurd h.unsubmitted hs
  refine ⟨(h.toBooks.transport _).note rfl rfl hexact, ?_, fun _ => h.idle, nofun, fun hr => ?_⟩
  · refine ⟨bytes data n, .replied ?_, rfl, ?_, Nat.succ_pos _, fun _ => ?_⟩
    · simp [replyLocal, System.note]
    · simp [replyLocal, System.note, h.unread]
    · simp [replyLocal, System.note, h.unsubmitted]
  · have hreq := h.required
    rw [show s.transport.resetRequired = true from hr] at hreq
    cases hreq

theorem Inv.ite {c : Prop} [Decidable c] {t : System} (hs : Inv s) (ht : Inv t) :
    Inv (if c then s else t) := by
  by_cases hc : c
  · rwa [if_pos hc]
  · rwa [if_neg hc]

theorem completeLocal_inv (h : Unanswered s) : Inv (completeLocal s) := by
  refine ⟨h.toBooks.transport _, trivial, fun _ => h.idle, nofun, fun hr => ?_⟩
  have hreq := h.required
  rw [show s.transport.resetRequired = true from hr] at hreq
  cases hreq

theorem Unanswered.timers (h : Unanswered s) (t : Timers) : Unanswered { s with timers := t } :=
  ⟨⟨h.exact, h.later, h.serving, h.submitted, h.pending, h.answered, h.generation⟩, h.idle,
    h.unsubmitted, h.unreplied, h.required⟩

theorem timerService_inv (h : Unanswered s) (clock : Clock) : Inv (timerService clock s) := by
  have hfail (e : ServiceError) : Inv (fail e false s) := fail_inv h.toBooks h.idle e false
  have hrunning := replyLocal_inv h (Function.update s.transport.localResponse 0
    (timerRunning (s.transport.request 1) clock.micros s.timers)) 1
  unfold timerService
  refine .ite (hfail _) (.ite (hfail _) (.ite (hfail _) (.ite (.ite (hfail _) ?_) (.ite hrunning
    (.ite ?_ ?_)))))
  · exact completeLocal_inv (h.timers _)
  · exact completeLocal_inv (h.timers _)
  · exact replyLocal_inv h _ _

theorem commandOut_inv (h : Inv s) (hidle : s.core0 = .idle) (command : UInt8) :
    Inv (commandOut command s) := by
  unfold commandOut
  split
  · exact resetTransport_inv h.toBooks hidle
  split
  · split
    · exact resetTransport_inv h.toBooks hidle
    · exact fail_inv h.toBooks hidle _ _
  split
  · exact fail_inv h.toBooks hidle _ _
  rename_i hready
  have hready : s.transport.status = .ready := not_not.mp hready
  have hempty := h.ready hready
  have hun : Unanswered s :=
    ⟨h.toBooks, hidle, by rw [hempty]; rfl, by rw [hempty]; rfl, h.required (by rw [hready]; nofun)⟩
  split
  · exact replyLocal_inv hun _ _
  split
  · refine ⟨h.toBooks.transport _, ?_, fun _ => hidle, fun hr => ?_, fun hr => ?_⟩
    · refine ⟨hun.unsubmitted, hun.unreplied, fun _ => ⟨?_, rfl, hidle⟩, fun h2 => ?_, fun h2 => ?_,
        fun hne => absurd hidle hne, fun hf => ?_, fun hp => ?_⟩
      · show (s.history s.current).typed = []
        rw [hempty]
        rfl
      · exact absurd (show 2 ≤ 0 from h2) (by decide)
      · exact absurd (show 2 ≤ 0 from h2) (by decide)
      · have hf : s.core0 = .filling ∨ s.core0 = .publishing := hf
        simp [hidle] at hf
      · have hp : s.core0 = .publishing := hp
        simp [hidle] at hp
    · have hloc := h.response ⟨by rw [hready]; nofun, by rw [hready]; nofun⟩
      rw [show s.transport.response = .result from hr] at hloc
      cases hloc
    · have hreq := hun.required
      rw [show s.transport.resetRequired = true from hr] at hreq
      cases hreq
  · exact fail_inv h.toBooks hidle _ _

/-! ## Port 3 -/

theorem bytes_update (f : Nat → UInt8) (n : Nat) (b : UInt8) :
    bytes (Function.update f n b) (n + 1) = bytes f n ++ [b] := by
  rw [bytes, List.range_succ, List.map_append, bytes]
  congr 1
  · refine List.map_congr_left fun i hi => Function.update_of_ne ?_ _ _
    exact Nat.ne_of_lt (List.mem_range.mp hi)
  · simp

theorem bytes_congr {f g : Nat → UInt8} {n : Nat} (h : ∀ i < n, f i = g i) :
    bytes f n = bytes g n :=
  List.map_congr_left fun i hi => h i (List.mem_range.mp hi)

/-- In a phase without a reply the transport points to its own buffer. -/
theorem Inv.local (h : Inv s) (hs : s.transport.status = .collecting) :
    s.transport.response = .localResponse :=
  h.response ⟨by rw [hs]; nofun, by rw [hs]; nofun⟩

/-- From one collecting state to another, with its transport changed. -/
theorem Inv.collect {t : System} (h : Inv s) (hs : s.transport.status = .collecting)
    (hbooks : Books t) (ht : t.transport.status = .collecting) (hc : Collecting t)
    (hresponse : t.transport.response = s.transport.response)
    (hrequired : t.transport.resetRequired = s.transport.resetRequired) : Inv t := by
  refine ⟨hbooks, by rw [Phase, ht]; exact hc, fun hne => absurd ht hne, fun hr => ?_, fun hr => ?_⟩
  · rw [hresponse, h.local hs] at hr
    cases hr
  · rw [hrequired, h.required (by rw [hs]; nofun)] at hr
    cases hr

theorem takeLength_collecting (h : Inv s) (hidle : s.core0 = .idle)
    (hs : s.transport.status = .collecting) (hlen : s.transport.lengthBytes < 2) (data : UInt8)
    (hgood : ¬((takeLength data s).transport.lengthBytes = 2 ∧
      ((takeLength data s).transport.requestLength = 0 ∨
        ioServiceMaxPayload < (takeLength data s).transport.requestLength.toNat))) :
    Collecting (takeLength data s) := by
  have hcol := h.collecting hs
  obtain ⟨htyped, hpos, -⟩ := hcol.header hlen
  have hgood (h2 : 2 ≤ s.transport.lengthBytes + 1) :
      (takeLength data s).transport.requestLength ≠ 0 ∧
        (takeLength data s).transport.requestLength.toNat ≤ ioServiceMaxPayload := by
    have htwo : (takeLength data s).transport.lengthBytes = 2 := Nat.le_antisymm hlen h2
    rw [not_and] at hgood
    have hnot := hgood htwo
    rwa [not_or, Nat.not_lt] at hnot
  have hnotidle {c : Core0} (hc : c ≠ .idle) : (takeLength data s).core0 ≠ c := by
    rw [show (takeLength data s).core0 = .idle from hidle]
    exact hc.symm
  refine ⟨hcol.submitted, hcol.replied, fun _ => ⟨htyped, hpos, hidle⟩, fun h2 => ?_,
    fun h2 _ => ?_, fun hne => absurd hidle hne, fun hf => ?_, fun hp => absurd hp (hnotidle nofun)⟩
  · refine ⟨?_, (hgood h2).2⟩
    show (s.history s.current).typed = bytes s.transport.request s.transport.requestPosition
    rw [htyped, hpos]
    rfl
  · rw [show (takeLength data s).transport.requestPosition = 0 from hpos]
    exact Nat.pos_of_ne_zero fun h0 => (hgood h2).1 (UInt16.toNat_inj.mp h0)
  · exact hf.elim (fun hf => absurd hf (hnotidle nofun)) fun hf => absurd hf (hnotidle nofun)

theorem takeByte_current (s : System) (data : UInt8) :
    (takeByte data s).history (takeByte data s).current =
      { s.history s.current with typed := (s.history s.current).typed ++ [data] } :=
  Function.update_self ..

theorem takeByte_books (h : Inv s) (hs : s.transport.status = .collecting) (data : UInt8) :
    Books (takeByte data s) := by
  have hsub := (h.collecting hs).submitted
  refine (h.toBooks.transport _).note rfl rfl ?_
  obtain ⟨hreads, -, hanswer, halone⟩ := h.exact s.current
  refine ⟨?_, fun r hr => ?_, hanswer, halone⟩
  · rcases hreads with h0 | ⟨d, hd, hle⟩
    · exact Or.inl h0
    · refine Or.inr ⟨d, ?_, hle⟩
      cases hd with
      | replied h => exact .replied h
      | answered hs ha ok has => exact .answered hs ha ok has
  · rw [show (s.history s.current).submitted = some r from hr] at hsub
    cases hsub

theorem takeByte_typed (h : Collecting s) (hlen : 2 ≤ s.transport.lengthBytes) (data : UInt8) :
    ((takeByte data s).history (takeByte data s).current).typed =
      bytes (takeByte data s).transport.request (takeByte data s).transport.requestPosition := by
  rw [takeByte_current]
  show (s.history s.current).typed ++ [data] =
    bytes (Function.update s.transport.request s.transport.requestPosition data)
      (s.transport.requestPosition + 1)
  rw [bytes_update, (h.typed hlen).1]

theorem requestOut_inv (h : Inv s) (hidle : s.core0 = .idle) (data : UInt8) (clock : Clock) :
    Inv (requestOut data clock s) := by
  unfold requestOut
  by_cases hs : s.transport.status = .collecting
  case neg =>
    rw [if_pos hs]
    exact fail_inv h.toBooks hidle _ _
  rw [if_neg (not_not_intro hs)]
  by_cases hlen : s.transport.lengthBytes < 2
  · rw [if_pos hlen]
    have hbooks : Books (takeLength data s) := h.toBooks.transport _
    by_cases hbad : (takeLength data s).transport.lengthBytes = 2 ∧
        ((takeLength data s).transport.requestLength = 0 ∨
          ioServiceMaxPayload < (takeLength data s).transport.requestLength.toNat)
    · rw [if_pos hbad]
      exact fail_inv hbooks hidle _ _
    · rw [if_neg hbad]
      exact h.collect hs hbooks hs (takeLength_collecting h hidle hs hlen data hbad) rfl rfl
  · rw [if_neg hlen]
    have hlen : 2 ≤ s.transport.lengthBytes := Nat.le_of_not_lt hlen
    have hcol := h.collecting hs
    have hbooks := takeByte_books h hs data
    have htyped := takeByte_typed hcol hlen data
    have hmax := (hcol.typed hlen).2
    have hsub : ((takeByte data s).history (takeByte data s).current).submitted = none := by
      rw [takeByte_current]
      exact hcol.submitted
    have hrep : ((takeByte data s).history (takeByte data s).current).replied = none := by
      rw [takeByte_current]
      exact hcol.replied
    have hnotidle {c : Core0} (hc : c ≠ .idle) : (takeByte data s).core0 ≠ c := by
      rw [show (takeByte data s).core0 = .idle from hidle]
      exact hc.symm
    by_cases hmore : (takeByte data s).transport.requestPosition ≠
        (takeByte data s).transport.requestLength.toNat
    · rw [if_pos hmore]
      refine h.collect hs hbooks hs ⟨hsub, hrep, fun h1 => absurd hlen (Nat.not_le.mpr h1),
        fun _ => ⟨htyped, hmax⟩, fun _ _ => Nat.lt_of_le_of_ne (hcol.room hlen hidle) hmore,
        fun hne => absurd hidle hne, fun hf => ?_, fun hp => absurd hp (hnotidle nofun)⟩ rfl rfl
      exact hf.elim (fun hf => absurd hf (hnotidle nofun)) fun hf => absurd hf (hnotidle nofun)
    · rw [if_neg hmore]
      have hfull := not_not.mp hmore
      have hdrop := drop_books hbooks
      rw [pollService_drop (by rw [show (takeByte data s).transport.status = .collecting from hs]; nofun)]
      by_cases htimer : (drop (takeByte data s)).transport.command = ioServiceTimers ∨
          (drop (takeByte data s)).transport.command = ioServiceStopwatches
      · rw [if_pos htimer]
        refine timerService_inv ⟨hdrop, hidle, hsub, hrep, ?_⟩ clock
        exact h.required (by rw [hs]; nofun)
      · rw [if_neg htimer]
        refine h.collect hs ⟨hdrop.exact, hdrop.later, hdrop.serving, hdrop.submitted, hdrop.pending,
          hdrop.answered, hdrop.generation⟩ hs ⟨hsub, hrep, fun h1 => absurd hlen (Nat.not_le.mpr h1),
          fun _ => ⟨htyped, hmax⟩, fun _ => nofun, fun _ => hfull, fun hf => hf.elim nofun nofun,
          nofun⟩ rfl rfl

theorem portOut_inv (h : Inv s) (hidle : s.core0 = .idle) (port data : UInt8) (clock : Clock) :
    Inv (portOut port data clock s) := by
  have hpoll := pollService_inv h
  have hpidle : (pollService s).core0 = .idle := by rw [pollService_core0, hidle]
  refine .ite (commandOut_inv hpoll hpidle data) (.ite ?_ h)
  by_cases hs : s.transport.status = .collecting
  · rw [if_neg (not_not_intro hs)]
    exact requestOut_inv h hidle data clock
  · rw [if_pos hs]
    exact requestOut_inv hpoll hpidle data clock

/-! ## Port 4 -/

theorem responseByte_frame {data : List UInt8} (h : Replying s data) :
    (frame data)[s.transport.responsePosition]? = some (responseByte s) := by
  have hlen : data.length = s.transport.responseLength := by
    rw [← h.buffer, bytes, List.length_map, List.length_range]
  have hpos := h.position
  unfold responseByte
  rcases hp : s.transport.responsePosition with _ | _ | i
  · simp [frame, hlen]
  · simp [frame, hlen]
  · have hi : i < s.transport.responseLength := by omega
    have hdata : data[i]? = some (s.response i) := by
      rw [← h.buffer, bytes, List.getElem?_map, List.getElem?_range hi]
      rfl
    have hge : ¬i + 1 + 1 < 2 := by omega
    simpa [frame, hge] using hdata

theorem readResponse_inv (h : Inv s) (hidle : s.core0 = .idle) : Inv (readResponse s).2 := by
  unfold readResponse
  split
  · exact fail_inv h.toBooks hidle _ _
  next hread =>
  rw [not_or, not_and_or, not_not, not_not] at hread
  extract_lets data t u
  have hbooks : Books t := h.toBooks.transport _
  have hts : t.transport.status = s.transport.status := rfl
  rw [hts]
  by_cases hs : s.transport.status = .responseReady
  case neg =>
    have herr := hread.1.resolve_left hs
    rw [if_pos hs]
    refine ⟨hbooks, ?_, fun _ => hidle, h.owned, h.sticky⟩
    have hp := h.phase
    rw [Phase, herr] at hp
    rw [Phase, show t.transport.status = .error from herr]
    exact hp
  rw [if_neg (not_not_intro hs)]
  obtain ⟨d, hd⟩ := h.replying hs
  have hreads : (s.history s.current).reads ++ [data] =
      (frame d).take (s.transport.responsePosition + 1) := by
    rw [List.take_add_one, responseByte_frame hd, hd.reads]
    rfl
  have hrecord : u.history u.current =
      { s.history s.current with reads := (s.history s.current).reads ++ [data] } :=
    Function.update_self ..
  have hreplies : Replies { s.history s.current with reads := (s.history s.current).reads ++ [data] } d := by
    cases hd.replies with
    | replied h => exact .replied h
    | answered hs ha ok has => exact .answered hs ha ok has
  have hu : Books u := by
    refine hbooks.note rfl rfl ⟨Or.inr ⟨d, hreplies, ?_⟩, (h.exact _).payload, (h.exact _).answer,
      (h.exact _).alone⟩
    show (s.history s.current).reads ++ [data] <+: frame d
    rw [hreads]
    exact List.take_prefix _ _
  show Inv (if u.transport.responsePosition = u.transport.responseLength + 2 then resetTransport u
    else u)
  by_cases hlast : u.transport.responsePosition = u.transport.responseLength + 2
  · rw [if_pos hlast]
    exact resetTransport_inv hu hidle
  · rw [if_neg hlast]
    refine ⟨hu, ?_, fun _ => hidle, h.owned, h.sticky⟩
    rw [Phase, show u.transport.status = .responseReady from hs]
    have hlen : d.length = s.transport.responseLength := by
      rw [← hd.buffer, bytes, List.length_map, List.length_range]
    refine ⟨d, ?_, hd.buffer, ?_, ?_, fun hr => ?_⟩
    · rw [hrecord]
      exact hreplies
    · rw [hrecord]
      exact hreads
    · have hpos := hd.position
      have hne : s.transport.responsePosition + 1 ≠ s.transport.responseLength + 2 := hlast
      show s.transport.responsePosition + 1 < d.length + 2
      omega
    · rw [hrecord]
      exact hd.own hr

theorem portIn_inv (h : Inv s) (hidle : s.core0 = .idle) (port : UInt8) :
    Inv (portIn port s).2 := by
  have hpoll := pollService_inv h
  have hpidle : (pollService s).core0 = .idle := by rw [pollService_core0, hidle]
  unfold portIn
  split
  · exact hpoll
  split
  · refine readResponse_inv ?_ ?_
    · exact .ite hpoll h
    · split
      · exact hpidle
      · exact hidle
  · exact h

/-! ## The slot -/

/-- A submission is under way only while its request is being taken. -/
theorem Inv.submitting (h : Inv s) (hne : s.core0 ≠ .idle) :
    s.transport.status = .collecting ∧ Collecting s ∧ 2 ≤ s.transport.lengthBytes := by
  have hs : s.transport.status = .collecting := not_imp_comm.mp h.idle hne
  have hcol := h.collecting hs
  exact ⟨hs, hcol, Nat.le_of_not_lt fun hlt => hne (hcol.header hlt).2.2⟩

theorem submitCheck_inv (h : Inv s) (hc : s.core0 = .checking) : Inv (submitCheck s) := by
  have hne : s.core0 ≠ .idle := by rw [hc]; nofun
  obtain ⟨hs, hcol, hlen⟩ := h.submitting hne
  have hbooks (c : Core0) : Books { s with core0 := c } :=
    ⟨h.exact, h.later, h.serving, h.submitted, h.pending, h.answered, h.generation⟩
  unfold submitCheck
  by_cases hw : s.work = .idle
  · rw [if_neg (not_not_intro hw)]
    refine h.collect hs (hbooks _) hs ⟨hcol.submitted, hcol.replied,
      fun hlt => absurd hlen (Nat.not_le.mpr hlt), hcol.typed, fun _ => nofun,
      fun _ => hcol.full hne, fun _ => hw, nofun⟩ rfl rfl
  · rw [if_pos hw]
    exact fail_inv (hbooks _) rfl _ _

/-- While the slot is free nobody serves a job. -/
theorem Books.free (h : Books s) (hw : s.work = .idle) : s.serving = false := by
  cases hv : s.serving with
  | false => rfl
  | true =>
    have hp := h.serving hv
    rw [hw] at hp
    cases hp

theorem submitFill_inv (h : Inv s) (hc : s.core0 = .filling) : Inv (submitFill s) := by
  have hne : s.core0 ≠ .idle := by rw [hc]; nofun
  obtain ⟨hs, hcol, hlen⟩ := h.submitting hne
  have hw : s.work = .idle := hcol.free (Or.inl hc)
  have hwork {w : Work} (hn : w ≠ .idle) : (submitFill s).work ≠ w := by
    rw [show (submitFill s).work = .idle from hw]
    exact hn.symm
  refine h.collect hs ⟨h.exact, h.later, h.serving, fun hn => absurd hw hn,
    fun hn => absurd hn (hwork nofun), fun hn => absurd hn (hwork nofun), fun hn => ?_⟩ hs
    ⟨hcol.submitted, hcol.replied, fun hlt => absurd hlen (Nat.not_le.mpr hlt), hcol.typed,
      fun _ => nofun, fun _ => hcol.full hne, fun _ => hw, fun _ => ⟨rfl, rfl, ?_⟩⟩ rfl rfl
  · rcases hn with hn | hn
    · exact absurd hn (hwork nofun)
    · cases (h.free hw).symm.trans hn
  · exact bytes_congr fun i hi => if_pos hi

theorem submitPublish_inv (h : Inv s) (hc : s.core0 = .publishing) : Inv (submitPublish s) := by
  have hne : s.core0 ≠ .idle := by rw [hc]; nofun
  obtain ⟨hs, hcol, hlen⟩ := h.submitting hne
  have hw : s.work = .idle := hcol.free (Or.inr hc)
  obtain ⟨htxn, hgen, hpayload⟩ := hcol.job hc
  have hans := (h.exact s.current).unanswered hcol.submitted
  have hunread := (h.exact s.current).unread hcol.replied hans
  obtain ⟨T, hT⟩ : ∃ T, T = { s.history s.current with submitted := some s.job.request } := ⟨_, rfl⟩
  have hexact : Exact T := by
    rw [hT]
    refine ⟨Or.inl hunread, fun r hr => ?_, fun r a ha => ?_, fun _ => hcol.replied⟩
    · cases hr
      rw [hpayload, ← hcol.full hne, (hcol.typed hlen).1]
    · cases hans.symm.trans ha
  have hrecord (n : Nat) : (submitPublish s).history n = if n = s.current then T else s.history n := by
    rw [hT]
    exact Function.update_apply _ _ _ _
  have hjob : (submitPublish s).history s.job.transaction = T := by
    rw [hrecord, if_pos htxn]
  refine ⟨⟨fun n => ?_, fun n hn => ?_, fun hv => ?_, fun _ => ?_, fun _ => ?_, nofun,
    fun hv => ?_⟩, ?_, fun _ => rfl, fun hr => ?_, fun hr => ?_⟩
  · rw [hrecord]
    split
    · exact hexact
    · exact h.exact n
  · have hne : n ≠ s.current := Nat.ne_of_gt hn
    rw [hrecord, if_neg hne]
    exact h.later n hn
  · cases (h.free hw).symm.trans hv
  · refine (congrArg Transaction.submitted hjob).trans ?_
    rw [hT]
    rfl
  · refine (congrArg Transaction.answered hjob).trans ?_
    rw [hT]
    exact hans
  · exact h.generation (hv.imp_left fun hd => by cases hd)
  · refine ⟨nofun, htxn, hgen, ?_⟩
    refine (congrArg Transaction.reads (hrecord s.current)).trans ?_
    rw [if_pos rfl, hT]
    exact hunread
  · cases (h.local hs).symm.trans hr
  · cases (h.required (by rw [hs]; nofun)).symm.trans hr

theorem submit_inv (h : Inv s) : Inv (submit s) := by
  unfold submit
  cases hc : s.core0 with
  | idle => exact h
  | checking => exact submitCheck_inv h hc
  | filling => exact submitFill_inv h hc
  | publishing => exact submitPublish_inv h hc

/-- The transport does not look at the result of a job that is not done. -/
theorem Inv.worker {t : System} (h : Inv s) (hw : s.work = .pending)
    (htransport : t.transport = s.transport) (hcore0 : t.core0 = s.core0)
    (hcurrent : t.current = s.current) (hjob : t.job = s.job) (hwork : t.work ≠ .idle)
    (hother : ∀ n, n ≠ s.job.transaction → t.history n = s.history n)
    (hread : (t.history s.job.transaction).reads = (s.history s.job.transaction).reads)
    (hbooks : Books t) : Inv t := by
  -- only the job's own transaction has changed, and no other phase has a submission
  have hsub := h.submitted (by rw [hw]; nofun)
  have hne (h0 : (s.history s.current).submitted = none) :
      t.history t.current = s.history s.current := by
    rw [hcurrent]
    refine hother _ fun heq => ?_
    rw [heq, hsub] at h0
    cases h0
  have hfree : s.transport.response ≠ .result := by
    intro hr
    rw [(h.owned hr).2] at hw
    cases hw
  refine ⟨hbooks, ?_, fun hst => ?_, fun hr => ?_, fun hr => ?_⟩
  · rw [Phase, htransport]
    cases hst : s.transport.status with
    | ready =>
      have h0 := h.ready hst
      exact (hne (by rw [h0]; rfl)).trans h0
    | error =>
      have h0 : s.history s.current = .empty := by
        have hp := h.phase
        rwa [Phase, hst] at hp
      exact (hne (by rw [h0]; rfl)).trans h0
    | complete => trivial
    | responseReady =>
      obtain ⟨data, h1, h2, h3, h4, h5⟩ := h.replying hst
      have hlocal : s.transport.response = .localResponse := by
        cases hr : s.transport.response with
        | localResponse => rfl
        | result => exact absurd hr hfree
      have heq := hne (h5 hlocal)
      have hbuffer : t.response = s.response := by
        rw [System.response, System.response, htransport, hlocal]
      exact ⟨data, heq ▸ h1, by rw [hbuffer, htransport, h2], by rw [heq, htransport, h3],
        by rw [htransport]; exact h4, fun _ => by rw [heq]; exact h5 hlocal⟩
    | collecting =>
      obtain ⟨h1, h2, h3, h4, h5, h6, h7, h8⟩ := h.collecting hst
      have heq := hne h1
      have hbusy (hc : s.core0 = .filling ∨ s.core0 = .publishing) : False := by
        cases hw.symm.trans (h7 hc)
      refine ⟨by rw [heq, h1], by rw [heq, h2], ?_, ?_, ?_, ?_, ?_, ?_⟩
      · rw [heq, htransport, hcore0]
        exact h3
      · rw [heq, htransport]
        exact h4
      · rw [htransport, hcore0]
        exact h5
      · rw [htransport, hcore0]
        exact h6
      · rw [hcore0]
        exact fun hc => (hbusy hc).elim
      · rw [hcore0]
        exact fun hc => (hbusy (Or.inr hc)).elim
    | busy =>
      obtain ⟨h1, h2, h3, h4⟩ := h.busy hst
      refine ⟨hwork, ?_, ?_, ?_⟩
      · rw [hjob, h2, hcurrent]
      · rw [hjob, h3, htransport]
      · rw [hcurrent, ← h2, hread, h2, h4]
  · rw [hcore0]
    exact h.idle (by rwa [← htransport])
  · rw [htransport] at hr
    exact absurd hr hfree
  · rw [htransport] at hr ⊢
    exact h.sticky hr

theorem workerStart_inv (h : Inv s) : Inv (workerStart s) := by
  unfold workerStart
  split
  · next hw =>
    exact h.worker hw.1 rfl rfl rfl rfl (by rw [hw.1]; nofun) (fun _ _ => rfl) rfl
      ⟨h.exact, h.later, fun _ => hw.1, h.submitted, h.pending,
        fun hd => absurd (hd.symm.trans hw.1) nofun, fun _ => rfl⟩
  · exact h

theorem workerWrite_inv (h : Inv s) (answer : Answer) : Inv (workerWrite answer s) := by
  unfold workerWrite
  split
  · next hv =>
    have hw := h.serving hv
    exact h.worker hw rfl rfl rfl rfl (by rw [hw]; nofun) (fun _ _ => rfl) rfl
      ⟨h.exact, h.later, h.serving, h.submitted, h.pending,
        fun hd => absurd (hd.symm.trans hw) nofun, h.generation⟩
  · exact h

theorem workerDone_inv (h : Inv s) (answer : Answer) : Inv (workerDone answer s) := by
  by_cases hv : s.serving = true
  case neg => rwa [workerDone, if_neg hv]
  have hw := h.serving hv
  have hsub := h.submitted (by rw [hw]; nofun)
  have hunread := (h.exact s.job.transaction).unread
    ((h.exact s.job.transaction).alone (by rw [hsub]; nofun)) (h.pending hw)
  obtain ⟨T, hT⟩ : ∃ T, T =
      { s.history s.job.transaction with answered := some (s.job.request, answer) } := ⟨_, rfl⟩
  have hrecord (n : Nat) : (workerDone answer s).history n =
      if n = s.job.transaction then T else s.history n := by
    rw [workerDone, if_pos hv, hT]
    exact Function.update_apply _ _ _ _
  have hjob : (workerDone answer s).history s.job.transaction = T := by rw [hrecord, if_pos rfl]
  have hexact : Exact T := by
    rw [hT]
    refine ⟨Or.inl hunread, (h.exact _).payload, fun r a ha => ?_, (h.exact _).alone⟩
    cases ha
    exact hsub
  have hother (n : Nat) (hn : n ≠ s.job.transaction) :
      (workerDone answer s).history n = s.history n := by rw [hrecord, if_neg hn]
  have hreads : ((workerDone answer s).history s.job.transaction).reads =
      (s.history s.job.transaction).reads := by rw [hjob, hT]
  rw [workerDone, if_pos hv] at hrecord hjob hother hreads ⊢
  refine h.worker hw rfl rfl rfl rfl nofun hother hreads
    ⟨fun n => ?_, fun n hn => ?_, nofun, fun _ => ?_, nofun, fun _ => ?_, fun _ => ?_⟩
  · rw [hrecord]
    split
    · exact hexact
    · exact h.exact n
  · have hne : n ≠ s.job.transaction := by
      rintro rfl
      rw [h.later _ hn] at hsub
      cases hsub
    rw [hrecord, if_neg hne]
    exact h.later n hn
  · refine (congrArg Transaction.submitted hjob).trans ?_
    rw [hT]
    exact hsub
  · refine (congrArg Transaction.answered hjob).trans ?_
    rw [hT]
  · exact h.generation (Or.inr hv)

theorem Inv.step (h : Inv s) (a : Action) : Inv (step s a) := by
  cases a with
  | out port data clock =>
    show Inv (if s.core0 = .idle then portOut port data clock s else s)
    split
    · next hidle => exact portOut_inv h hidle port data clock
    · exact h
  | inp port =>
    show Inv (if s.core0 = .idle then (portIn port s).2 else s)
    split
    · next hidle => exact portIn_inv h hidle port
    · exact h
  | submit => exact submit_inv h
  | workerStart => exact workerStart_inv h
  | workerWrite answer => exact workerWrite_inv h answer
  | workerDone answer => exact workerDone_inv h answer

/-! ## What a step leaves alone -/

/-- The result, the job and the worker are not touched. -/
structure SlotKept (s t : System) : Prop where
  job : t.job = s.job
  result : t.result = s.result

theorem SlotKept.ite {c : Prop} [Decidable c] {t u : System} (ht : SlotKept s t)
    (hu : SlotKept s u) : SlotKept s (if c then t else u) := by
  by_cases hc : c
  · rwa [if_pos hc]
  · rwa [if_neg hc]

theorem SlotKept.trans {t u : System} (h : SlotKept s t) (h' : SlotKept t u) : SlotKept s u :=
  ⟨h'.job.trans h.job, h'.result.trans h.result⟩

theorem pollService_kept (s : System) : SlotKept s (pollService s) :=
  .ite ⟨rfl, rfl⟩ (.ite ⟨rfl, rfl⟩ (.ite ⟨rfl, rfl⟩ (.ite ⟨rfl, rfl⟩ ⟨rfl, rfl⟩)))

theorem timerService_kept (clock : Clock) (s : System) : SlotKept s (timerService clock s) :=
  .ite ⟨rfl, rfl⟩ (.ite ⟨rfl, rfl⟩ (.ite ⟨rfl, rfl⟩ (.ite (.ite ⟨rfl, rfl⟩ ⟨rfl, rfl⟩)
    (.ite ⟨rfl, rfl⟩ (.ite ⟨rfl, rfl⟩ ⟨rfl, rfl⟩)))))

theorem commandOut_kept (command : UInt8) (s : System) : SlotKept s (commandOut command s) :=
  .ite ⟨rfl, rfl⟩ (.ite (.ite ⟨rfl, rfl⟩ ⟨rfl, rfl⟩) (.ite ⟨rfl, rfl⟩ (.ite ⟨rfl, rfl⟩
    (.ite ⟨rfl, rfl⟩ ⟨rfl, rfl⟩))))

theorem requestOut_kept (data : UInt8) (clock : Clock) (s : System) :
    SlotKept s (requestOut data clock s) := by
  have htake : SlotKept s (takeByte data s) := ⟨rfl, rfl⟩
  have hpoll := htake.trans (pollService_kept _)
  refine .ite ⟨rfl, rfl⟩ (.ite (.ite ⟨rfl, rfl⟩ ⟨rfl, rfl⟩) (.ite htake (.ite ?_ ?_)))
  · exact hpoll.trans (timerService_kept clock _)
  · exact hpoll.trans ⟨rfl, rfl⟩

theorem portOut_kept (port data : UInt8) (clock : Clock) (s : System) :
    SlotKept s (portOut port data clock s) := by
  have hpoll := pollService_kept s
  have hrequest : SlotKept s (if s.transport.status ≠ .collecting then pollService s else s) :=
    .ite hpoll ⟨rfl, rfl⟩
  exact .ite (hpoll.trans (commandOut_kept data _))
    (.ite (hrequest.trans (requestOut_kept data clock _)) ⟨rfl, rfl⟩)

theorem readResponse_kept (s : System) : SlotKept s (readResponse s).2 := by
  unfold readResponse
  split
  · exact ⟨rfl, rfl⟩
  extract_lets data t u
  split
  · exact ⟨rfl, rfl⟩
  · exact .ite ⟨rfl, rfl⟩ ⟨rfl, rfl⟩

theorem portIn_kept (port : UInt8) (s : System) : SlotKept s (portIn port s).2 := by
  have hpoll := pollService_kept s
  have hread : SlotKept s (if s.transport.status = .busy then pollService s else s) :=
    .ite hpoll ⟨rfl, rfl⟩
  unfold portIn
  split
  · exact hpoll
  split
  · exact hread.trans (readResponse_kept _)
  · exact ⟨rfl, rfl⟩

theorem submit_kept (h : s.core0 ≠ .filling) : SlotKept s (submit s) := by
  unfold submit
  cases hc : s.core0 with
  | idle => exact ⟨rfl, rfl⟩
  | checking => exact .ite ⟨rfl, rfl⟩ ⟨rfl, rfl⟩
  | filling => exact absurd hc h
  | publishing => exact ⟨rfl, rfl⟩

/-- Core 0 leaves the slot alone but where it fills in a request. -/
theorem core0_kept (h : s.core0 ≠ .filling) :
    (∀ port data clock, SlotKept s (Io.step s (.out port data clock))) ∧
    (∀ port, SlotKept s (Io.step s (.inp port))) ∧ SlotKept s (Io.step s .submit) :=
  ⟨fun port data clock => .ite (portOut_kept port data clock s) ⟨rfl, rfl⟩,
    fun port => .ite (portIn_kept port s) ⟨rfl, rfl⟩, submit_kept h⟩

/-- The result changes only while the worker has a job. -/
theorem Inv.result_kept (h : Inv s) (hr : s.transport.response = .result) (a : Action) :
    (Io.step s a).result = s.result := by
  obtain ⟨hst, hw⟩ := h.owned hr
  have hv := h.toBooks.free hw
  have hidle : s.core0 = .idle := h.idle (by rcases hst with hst | hst <;> rw [hst] <;> nofun)
  obtain ⟨hout, hinp, hsubmit⟩ := core0_kept (s := s) (by rw [hidle]; nofun)
  cases a with
  | out port data clock => exact (hout port data clock).result
  | inp port => exact (hinp port).result
  | submit => exact hsubmit.result
  | workerStart => simp [Io.step, workerStart, hw]
  | workerWrite answer => simp [Io.step, workerWrite, hv]
  | workerDone answer => simp [Io.step, workerDone, hv]

/-- The request changes only while the slot is free. -/
theorem Inv.job_kept (h : Inv s) (hw : s.work ≠ .idle) (a : Action) :
    (Io.step s a).job = s.job := by
  have hfill : s.core0 ≠ .filling := by
    intro hc
    obtain ⟨-, hcol, -⟩ := h.submitting (by rw [hc]; nofun)
    exact hw (hcol.free (Or.inl hc))
  obtain ⟨hout, hinp, hsubmit⟩ := core0_kept hfill
  cases a with
  | out port data clock => exact (hout port data clock).job
  | inp port => exact (hinp port).job
  | submit => exact hsubmit.job
  | workerStart =>
    show (workerStart s).job = s.job
    unfold workerStart
    split <;> rfl
  | workerWrite answer =>
    show (workerWrite answer s).job = s.job
    unfold workerWrite
    split <;> rfl
  | workerDone answer =>
    show (workerDone answer s).job = s.job
    unfold workerDone
    split <;> rfl

/-! ## An error that requires a reset -/

def isReset : Action → Bool
  | .out port data _ => port = ioServiceCommandPort && data = ioServiceReset
  | _ => false

theorem fail_required (hr : s.transport.resetRequired = true) (e : ServiceError) (b : Bool) :
    (fail e b s).transport.resetRequired = true := by
  simp [fail, hr]

theorem Inv.required_kept (h : Inv s) (hr : s.transport.resetRequired = true) {a : Action}
    (ha : isReset a = false) : (Io.step s a).transport.resetRequired = true := by
  have hst := h.sticky hr
  have hidle : s.core0 = .idle := h.idle (by rw [hst]; nofun)
  have hpoll : pollService s = drop s := pollService_drop (by rw [hst]; nofun)
  have hdrop : (drop s).transport.resetRequired = true := hr
  have hdst : (drop s).transport.status = .error := hst
  cases a with
  | out port data clock =>
    simp only [Io.step, hidle, if_true, portOut, hpoll]
    by_cases hport : port = ioServiceCommandPort
    · have hdata : data ≠ ioServiceReset := by
        rintro rfl
        simp [isReset, hport] at ha
      rw [if_pos hport, commandOut, if_neg hdata]
      by_cases hack : data = ioServiceAck
      · rw [if_pos hack, if_neg (by simp [hdrop])]
        exact fail_required hdrop _ _
      · rw [if_neg hack, if_pos (by rw [hdst]; nofun)]
        exact fail_required hdrop _ _
    · rw [if_neg hport]
      by_cases hreq : port = ioServiceRequestPort
      · rw [if_pos hreq, if_pos (by rw [hst]; nofun), requestOut, if_pos (by rw [hdst]; nofun)]
        exact fail_required hdrop _ _
      · rwa [if_neg hreq]
  | inp port =>
    simp only [Io.step, hidle, if_true, portIn, hpoll]
    split
    · exact hdrop
    split
    · rw [if_neg (by rw [hst]; nofun)]
      unfold readResponse
      split
      · exact fail_required hr _ _
      · rw [if_pos (by rw [show (nextByte s).transport.status = .error from hst]; nofun)]
        exact hr
    · exact hr
  | submit => simpa [Io.step, submit, hidle] using hr
  | workerStart =>
    simp only [Io.step, workerStart]
    split <;> exact hr
  | workerWrite answer =>
    simp only [Io.step, workerWrite]
    split <;> exact hr
  | workerDone answer =>
    simp only [Io.step, workerDone]
    split <;> exact hr

theorem Inv.stuck (h : Inv s) (hr : s.transport.resetRequired = true) {actions : List Action}
    (ha : ∀ a ∈ actions, isReset a = false) : (run Io.step s actions).transport.status = .error := by
  induction actions generalizing s with
  | nil => exact h.sticky hr
  | cons a actions ih =>
    have hhead := ha a List.mem_cons_self
    exact ih (h.step a) (h.required_kept hr hhead) fun b hb => ha b (List.mem_cons_of_mem a hb)

end

/-! ## Every run -/

/-- In each transaction, what port 4 gives of a reply is, from its start on, the length and the
bytes of a reply core 0 has made in that transaction, or of what the worker answered to the very
request that was submitted in it, whose payload is what port 3 took. -/
structure Delivers (s : System) : Prop where
  exact : ∀ n, Exact (s.history n)
  /-- the worker leaves the buffer that is being read -/
  result : s.transport.response = .result → ∀ a, (Io.step s a).result = s.result
  /-- a request stays as it is until the slot is free again -/
  job : s.work ≠ .idle → ∀ a, (Io.step s a).job = s.job
  /-- the next byte of the payload has room -/
  position : s.transport.status = .collecting → 2 ≤ s.transport.lengthBytes → s.core0 = .idle →
    s.transport.requestPosition < ioServiceMaxPayload
  /-- an error that requires a reset stays until one -/
  stuck : s.transport.resetRequired = true → ∀ later : List Action,
    (∀ a ∈ later, isReset a = false) → (run Io.step s later).transport.status = .error

/-- **Every run** of the ports and the worker, in any order. -/
theorem transport_delivers (actions : List Action) : Delivers (run Io.step .start actions) := by
  have h : Inv (run Io.step .start actions) :=
    run_invariant (fun _ a hinv => hinv.step a) start_inv actions
  refine ⟨h.exact, h.result_kept, h.job_kept, fun hst hlen hidle => ?_, fun hr later => h.stuck hr⟩
  have hcol := h.collecting hst
  exact Nat.lt_of_lt_of_le (hcol.room hlen hidle) (hcol.typed hlen).2

end Z80Sbc.Io.ExactReply
