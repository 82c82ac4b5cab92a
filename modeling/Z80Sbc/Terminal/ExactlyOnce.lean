import Z80Sbc.Terminal.Session

/-! # The terminal delivers in order and once

Each direction of the session is a sliding window, of four frames for the output
and of one for the input. The relation below ties both ends of the session and
the messages between them to the two windows; every event of the session is
some steps of them, so what holds of the windows holds of the session. -/

namespace Z80Sbc.Terminal.ExactlyOnce
open Storage Concurrent
open Supervisor (WebReboot)

/-! ## Messages with their numbers -/

/-- A message to the page. -/
inductive Down where
  | hello
  | inputAck (m : Nat)
  | rebootStatus (status : WebReboot)
  | output (k : Nat)

/-- A message to the server. -/
inductive Up where
  | ready
  | reboot
  | outputAck (m : Nat)
  | input (k : Nat)

/-- The bytes of a message, where frame `k` carries the `k`-th payload. -/
def Down.bytes (framed : List (List UInt8)) : Down → List UInt8
  | .hello => protocolFrame MessageType.hello protocolVersion []
  | .inputAck m => protocolFrame MessageType.inputAck (UInt32.ofNat m) []
  | .rebootStatus status => protocolFrame MessageType.rebootStatus (rebootCode status) []
  | .output k => protocolFrame MessageType.output (UInt32.ofNat k) (framed.getD (k - 1) [])

def Up.bytes (inputs : List (List UInt8)) : Up → List UInt8
  | .ready => protocolFrame MessageType.ready protocolVersion []
  | .reboot => protocolFrame MessageType.reboot 0 []
  | .outputAck m => protocolFrame MessageType.outputAck (UInt32.ofNat m) []
  | .input k => protocolFrame MessageType.input (UInt32.ofNat k) (inputs.getD (k - 1) [])

def Down.data : Down → Option Nat
  | .output k => some k
  | _ => none

def Down.ack : Down → Option Nat
  | .inputAck m => some m
  | _ => none

def Up.data : Up → Option Nat
  | .input k => some k
  | _ => none

def Up.ack : Up → Option Nat
  | .outputAck m => some m
  | _ => none

section
variable {type : UInt8} {v : UInt32} {payload : List UInt8}

@[simp] theorem protocolFrame_length :
    (protocolFrame type v payload).length = 5 + payload.length := by
  simp [protocolFrame]
  omega

@[simp] theorem protocolFrame_type : (protocolFrame type v payload).getD 0 0 = type := rfl

@[simp] theorem protocolFrame_sequence :
    read32 ((protocolFrame type v payload).getD · 0) 1 = v := by
  refine read32_of_le32 fun i hi => ?_
  show (type :: (le32 v ++ payload)).getD (1 + i) 0 = _
  rw [Nat.add_comm, List.getD_cons_succ, List.getD_append _ _ _ _ (by simpa using hi)]

@[simp] theorem protocolFrame_payload : (protocolFrame type v payload).drop 5 = payload := rfl

/-- Sequences of frames that are less than a whole round apart. -/
theorem ofNat_inj {a b : Nat} (h : UInt32.ofNat a = UInt32.ofNat b) (hle : a ≤ b)
    (hlt : b < a + 4294967296) : a = b := by
  have hmod := congrArg UInt32.toNat h
  simp only [UInt32.toNat_ofNat'] at hmod
  omega

theorem ofNat_succ (a : Nat) : UInt32.ofNat a + 1 = UInt32.ofNat (a + 1) := by
  apply UInt32.toNat_inj.mp
  simp

theorem ofNat_pred (a : Nat) : UInt32.ofNat (a + 1) - 1 = UInt32.ofNat a := by
  rw [← ofNat_succ, UInt32.add_sub_cancel]

/-- Counting back from sequence `a` to sequence `b`. -/
theorem toNat_sub {a b : Nat} :
    (UInt32.ofNat a - UInt32.ofNat b).toNat = (a + (4294967296 - b % 4294967296)) % 4294967296 := by
  rw [UInt32.toNat_sub, UInt32.toNat_ofNat', UInt32.toNat_ofNat']
  omega

end

/-! ## The two ends -/

/-- A slot holds frame `k`. -/
structure Slot (f : OutputFrame) (k : Nat) (payload : List UInt8) : Prop where
  bytes : window f.data 0 f.length = protocolFrame MessageType.output (UInt32.ofNat k) payload
  length : f.length = headerBytes + payload.length

/-- The frames are staged and kept. -/
structure Staging (total transmitted acked : Nat) (framed : List (List UInt8)) (s : Server) :
    Prop where
  total : total = framed.length
  sequence : s.outputSequence = UInt32.ofNat (framed.length + 1)
  count : acked + s.outputCount = framed.length
  head : s.outputHead = acked % outputWindow
  slot : ∀ i < s.outputCount, Slot (s.frame i) (acked + i + 1) (framed.getD (acked + i) [])
  sent : ∀ i < s.outputCount, (s.frame i).sent = true ↔ acked + i + 1 ≤ transmitted
  sizes : ∀ p ∈ framed, 0 < p.length ∧ p.length ≤ frameBytes
  retained : s.retainedOutputBytes = ((framed.drop acked).map List.length).sum
  staged : s.stagedOutputLength ≤ frameBytes
  full : s.outputCount = outputWindow → s.stagedOutputLength = 0
  taken : s.taken = framed.flatten ++
    window (s.frame s.outputCount).data headerBytes s.stagedOutputLength

/-- What the page has written, and what its callbacks have yet to acknowledge. -/
structure Writing (consumed received : Nat) (framed : List (List UInt8)) (b : Browser) : Prop where
  next : b.outputSequence = UInt32.ofNat (consumed + 1)
  awaited : b.outputReceivedSequence = UInt32.ofNat (received + 1)
  pending : consumed + b.outputPending = received
  callbacks : b.callbacks = (List.range b.outputPending).map fun i => UInt32.ofNat (consumed + 1 + i)
  written : b.written = (framed.take received).flatten
  ready : b.protocolReady = false → received = 0

/-- What the page has queued, and the one frame it is sending. -/
structure Typing (total acked : Nat) (inputs : List (List UInt8)) (b : Browser) : Prop where
  total : total = inputs.length
  sequence : b.inputSequence = UInt32.ofNat (acked + 1)
  idle : b.inputFrame = none → inputs.length = acked
  frame : ∀ f, b.inputFrame = some f → inputs.length = acked + 1 ∧
    f = protocolFrame MessageType.input (UInt32.ofNat (acked + 1)) (inputs.getD acked []) ∧
    inputs.getD acked [] <+: b.inputBuffer
  sizes : ∀ p ∈ inputs, 0 < p.length ∧ p.length ≤ inputFrameBytes
  typed : b.typed = (inputs.take acked).flatten ++ b.inputBuffer

/-- The frames the Z80 has been given, and the one that waits for room. -/
structure Accepting (consumed received : Nat) (inputs : List (List UInt8)) (s : Server) : Prop where
  sequence : s.inputSequence = UInt32.ofNat (consumed + 1)
  idle : received = consumed → s.pendingInput = []
  held : consumed < received → s.pendingInput = inputs.getD consumed []
  delivered : s.delivered = (inputs.take consumed).flatten.map crlf

structure Rings (s : Server) : Prop where
  rx : s.queue.rx.Ok termRxDepth
  tx : s.queue.tx.Ok termTxDepth
  printed : s.printed = s.taken ++ s.queue.tx.toList termTxDepth
  delivered : s.delivered = s.read ++ s.queue.rx.toList termRxDepth

/-- The windows of a session, its payloads and the messages on their way. -/
structure Ghost where
  out : Window
  inp : Window
  framed : List (List UInt8)
  inputs : List (List UInt8)
  downs : List Down
  ups : List Up

structure Rel (g : Ghost) (s : Server) (b : Browser) : Prop where
  out : g.out.Inv outputWindow
  inp : g.inp.Inv 1
  staging : Staging g.out.total g.out.transmitted g.out.acked g.framed s
  writing : Writing g.out.consumed g.out.received g.framed b
  typing : Typing g.inp.total g.inp.acked g.inputs b
  accepting : Accepting g.inp.consumed g.inp.received g.inputs s
  rings : Rings s
  down : s.socket = g.downs.map (Down.bytes g.framed)
  up : s.active = true → b.socket = g.ups.map (Up.bytes g.inputs)
  outData : g.out.data = g.downs.filterMap Down.data
  outAcks : g.out.acks = g.ups.filterMap Up.ack
  inpData : g.inp.data = g.ups.filterMap Up.data
  inpAcks : g.inp.acks = g.downs.filterMap Down.ack
  /-- before the greeting nothing that needs it is under way -/
  greeted : b.protocolReady = false → s.protocolReady = false ∧ g.ups = [] ∧
    ∀ d ∈ g.downs, d.data = none ∧ ∀ status, d ≠ .rebootStatus status
  serverError : s.error = none ∨ s.error = some .invalidFrame
  browserError : b.error = none

def Inv (s : Server) (b : Browser) : Prop := ∃ g, Rel g s b

/-! ## What the parts read -/

section
variable {c r t tr a : Nat} {framed inputs : List (List UInt8)} {s s' : Server} {b b' : Browser}

def outputSide (s : Server) :=
  (s.outputFrames, s.outputHead, s.outputCount, s.retainedOutputBytes, s.stagedOutputLength,
    s.outputSequence, s.taken)

def inputSide (s : Server) := (s.inputSequence, s.pendingInput, s.delivered)

def ringSide (s : Server) := (s.queue, s.printed, s.taken, s.delivered, s.read)

def writeSide (b : Browser) :=
  (b.outputSequence, b.outputReceivedSequence, b.outputPending, b.callbacks, b.written,
    b.protocolReady)

def typeSide (b : Browser) := (b.inputSequence, b.inputFrame, b.inputBuffer, b.typed)

theorem Staging.congr (h : Staging t tr a framed s) (hs : outputSide s' = outputSide s) :
    Staging t tr a framed s' := by
  simp only [outputSide, Prod.mk.injEq] at hs
  obtain ⟨h1, h2, h3, h4, h5, h6, h7⟩ := hs
  have hframe (i : Nat) : s'.frame i = s.frame i := by rw [Server.frame, Server.frame, h1, h2]
  refine ⟨h.total, h6.trans h.sequence, h3 ▸ h.count, h2.trans h.head, ?_, ?_, h.sizes,
    h4.trans h.retained, h5 ▸ h.staged, h3 ▸ h5 ▸ h.full, ?_⟩
  · intro i hi
    rw [hframe]
    exact h.slot i (h3 ▸ hi)
  · intro i hi
    rw [hframe]
    exact h.sent i (h3 ▸ hi)
  · rw [h7, hframe, h3, h5]
    exact h.taken

theorem Accepting.congr (h : Accepting c r inputs s) (hs : inputSide s' = inputSide s) :
    Accepting c r inputs s' := by
  simp only [inputSide, Prod.mk.injEq] at hs
  obtain ⟨h1, h2, h3⟩ := hs
  exact ⟨h1.trans h.sequence, fun he => h2.trans (h.idle he), fun hlt => h2.trans (h.held hlt),
    h3.trans h.delivered⟩

theorem Rings.congr (h : Rings s) (hs : ringSide s' = ringSide s) : Rings s' := by
  simp only [ringSide, Prod.mk.injEq] at hs
  obtain ⟨h1, h2, h3, h4, h5⟩ := hs
  refine ⟨h1 ▸ h.rx, h1 ▸ h.tx, ?_, ?_⟩
  · rw [h2, h3, h1]
    exact h.printed
  · rw [h4, h5, h1]
    exact h.delivered

theorem Writing.congr (h : Writing c r framed b) (hb : writeSide b' = writeSide b) :
    Writing c r framed b' := by
  simp only [writeSide, Prod.mk.injEq] at hb
  obtain ⟨h1, h2, h3, h4, h5, h6⟩ := hb
  exact ⟨h1.trans h.next, h2.trans h.awaited, h3 ▸ h.pending, by rw [h4, h3]; exact h.callbacks,
    h5.trans h.written, fun hn => h.ready (h6 ▸ hn)⟩

theorem Typing.congr (h : Typing t a inputs b) (hb : typeSide b' = typeSide b) :
    Typing t a inputs b' := by
  simp only [typeSide, Prod.mk.injEq] at hb
  obtain ⟨h1, h2, h3, h4⟩ := hb
  refine ⟨h.total, h1.trans h.sequence, fun hn => h.idle (h2 ▸ hn), fun f hf => ?_, h.sizes, ?_⟩
  · rw [h3]
    exact h.frame f (h2 ▸ hf)
  · rw [h4, h3]
    exact h.typed

end

/-! ## Messages on their way -/

section
variable {g : Ghost} {s s' : Server} {b b' : Browser} {t tr a : Nat}

/-- The server has changed nothing that the relation reads. -/
theorem Rel.server (h : Rel g s b) (ho : outputSide s' = outputSide s)
    (hi : inputSide s' = inputSide s) (hr : ringSide s' = ringSide s)
    (hsocket : s'.socket = s.socket) (hready : s'.protocolReady = s.protocolReady)
    (hactive : s'.active = s.active) (herror : s'.error = s.error) : Rel g s' b :=
  ⟨h.out, h.inp, h.staging.congr ho, h.writing, h.typing, h.accepting.congr hi, h.rings.congr hr,
    hsocket.trans h.down, fun ha => h.up (hactive ▸ ha), h.outData, h.outAcks, h.inpData, h.inpAcks,
    fun hn => hready ▸ h.greeted hn, herror ▸ h.serverError, h.browserError⟩

theorem Rel.browser (h : Rel g s b) (hw : writeSide b' = writeSide b)
    (ht : typeSide b' = typeSide b) (hsocket : b'.socket = b.socket)
    (hready : b'.protocolReady = b.protocolReady) (herror : b'.error = b.error) : Rel g s b' :=
  ⟨h.out, h.inp, h.staging, h.writing.congr hw, h.typing.congr ht, h.accepting, h.rings, h.down,
    fun ha => hsocket.trans (h.up ha), h.outData, h.outAcks, h.inpData, h.inpAcks,
    fun hn => h.greeted (hready ▸ hn), h.serverError, herror.trans h.browserError⟩

/-- A message that belongs to no window is queued for the page. -/
theorem Rel.post (h : Rel g s b) (d : Down) (hdata : d.data = none) (hack : d.ack = none)
    (hstatus : b.protocolReady = false → ∀ status, d ≠ .rebootStatus status) :
    Rel { g with downs := g.downs ++ [d] } { s with socket := s.socket ++ [d.bytes g.framed] } b := by
  refine ⟨h.out, h.inp, h.staging.congr rfl, h.writing, h.typing, h.accepting.congr rfl,
    h.rings.congr rfl, ?_, h.up, ?_, h.outAcks, h.inpData, ?_, fun hn => ?_, h.serverError,
    h.browserError⟩
  · simp [h.down]
  · simp [h.outData, hdata]
  · simp [h.inpAcks, hack]
  · obtain ⟨hready, hups, hdowns⟩ := h.greeted hn
    refine ⟨hready, hups, fun e he => ?_⟩
    rcases List.mem_append.mp he with he | he
    · exact hdowns e he
    · rw [List.mem_singleton.mp he]
      exact ⟨hdata, hstatus hn⟩

/-- The last frame the Z80 was given is acknowledged. -/
theorem Rel.postAck (h : Rel g s b) :
    Rel { g with
        inp := { g.inp with acks := g.inp.acks ++ [g.inp.consumed] }
        downs := g.downs ++ [.inputAck g.inp.consumed] }
      { s with socket := s.socket ++ [(Down.inputAck g.inp.consumed).bytes g.framed] } b := by
  refine ⟨h.out, h.inp.step (.acknowledge _), h.staging.congr rfl, h.writing, h.typing,
    h.accepting.congr rfl, h.rings.congr rfl, ?_, h.up, ?_, h.outAcks, h.inpData, ?_, fun hn => ?_,
    h.serverError, h.browserError⟩
  · simp [h.down]
  · simp [h.outData, Down.data]
  · simp [h.inpAcks, Down.ack]
  · obtain ⟨hready, hups, hdowns⟩ := h.greeted hn
    refine ⟨hready, hups, fun e he => ?_⟩
    rcases List.mem_append.mp he with he | he
    · exact hdowns e he
    · rw [List.mem_singleton.mp he]
      exact ⟨rfl, fun status heq => by cases heq⟩

/-- A message that belongs to no window is sent to the server. -/
theorem Rel.answer (h : Rel g s b) (u : Up) (hdata : u.data = none) (hack : u.ack = none)
    (hready : b.protocolReady = true) :
    Rel { g with ups := g.ups ++ [u] } s { b with socket := b.socket ++ [u.bytes g.inputs] } := by
  refine ⟨h.out, h.inp, h.staging, h.writing.congr rfl, h.typing.congr rfl, h.accepting, h.rings,
    h.down, fun ha => ?_, h.outData, ?_, ?_, h.inpAcks, fun hn => ?_, h.serverError, h.browserError⟩
  · simp [h.up ha]
  · simp [h.outAcks, hack]
  · simp [h.inpData, hdata]
  · cases hready.symm.trans hn

/-- The last frame that is written is acknowledged. -/
theorem Rel.answerAck (h : Rel g s b) (hready : b.protocolReady = true) :
    Rel { g with
        out := { g.out with acks := g.out.acks ++ [g.out.consumed] }
        ups := g.ups ++ [.outputAck g.out.consumed] }
      s { b with socket := b.socket ++ [(Up.outputAck g.out.consumed).bytes g.inputs] } := by
  refine ⟨h.out.step (.acknowledge _), h.inp, h.staging, h.writing.congr rfl, h.typing.congr rfl,
    h.accepting, h.rings, h.down, fun ha => ?_, h.outData, ?_, ?_, h.inpAcks, fun hn => ?_, h.serverError,
    h.browserError⟩
  · simp [h.up ha]
  · simp [h.outAcks, Up.ack]
  · simp [h.inpData, Up.data]
  · cases hready.symm.trans hn

/-- The frame of input in flight is sent, again perhaps. -/
theorem Rel.answerInput (h : Rel g s b) (hready : b.protocolReady = true)
    (hframe : g.inputs.length = g.inp.acked + 1) :
    Rel { g with
        inp := { g.inp with
          transmitted := max g.inp.transmitted (g.inp.acked + 1)
          data := g.inp.data ++ [g.inp.acked + 1] }
        ups := g.ups ++ [.input (g.inp.acked + 1)] }
      s { b with socket := b.socket ++ [(Up.input (g.inp.acked + 1)).bytes g.inputs] } := by
  have hacked := Nat.le_trans h.inp.climbs.le (Nat.le_trans h.inp.consumed h.inp.flows.le)
  have htotal : g.inp.acked + 1 ≤ g.inp.total := by rw [h.typing.total, hframe]
  refine ⟨h.out, h.inp.step (.transmit _ _ (Nat.lt_succ_self _) (Nat.succ_le_succ hacked) htotal),
    h.staging, h.writing.congr rfl, h.typing.congr rfl, h.accepting, h.rings, h.down, fun ha => ?_, h.outData,
    ?_, ?_, h.inpAcks, fun hn => ?_, h.serverError, h.browserError⟩
  · simp [h.up ha]
  · simp [h.outAcks, Up.ack]
  · simp [h.inpData, Up.data]
  · cases hready.symm.trans hn

/-! ## The server -/

theorem Inv.sendHello (h : Inv s b) (retryReached queued : Bool) :
    Inv (s.sendHello retryReached queued) b := by
  obtain ⟨g, h⟩ := h
  unfold Server.sendHello
  split
  · cases queued with
    | false => exact ⟨g, h⟩
    | true => exact ⟨_, h.post .hello rfl rfl fun _ status heq => by cases heq⟩
  · exact ⟨g, h⟩

theorem Inv.reportRebootStatus (h : Inv s b) (queued : Bool) :
    Inv (s.reportRebootStatus queued) b := by
  obtain ⟨g, h⟩ := h
  unfold Server.reportRebootStatus
  extract_lets status
  split
  · next hcond =>
    cases queued with
    | false => exact ⟨g, h⟩
    | true =>
      have hpost := h.post (.rebootStatus s.rebootStatus) rfl rfl fun hn =>
        absurd hcond.1 (by simp [(h.greeted hn).1])
      exact ⟨_, hpost.server rfl rfl rfl rfl rfl rfl rfl⟩
  · exact ⟨g, h⟩

theorem Inv.retryInputAck (h : Inv s b) (queued : Bool) : Inv (s.retryInputAck queued) b := by
  obtain ⟨g, h⟩ := h
  unfold Server.retryInputAck
  split
  · cases queued with
    | false => exact ⟨g, h⟩
    | true =>
      have hlast : s.inputSequence - 1 = UInt32.ofNat g.inp.consumed := by
        rw [h.accepting.sequence, ofNat_pred]
      refine ⟨_, h.postAck.server rfl rfl rfl ?_ rfl rfl rfl⟩
      show s.socket ++ [MessageType.inputAck :: le32 (s.inputSequence - 1)] = _
      rw [hlast]
      rfl
  · exact ⟨g, h⟩

theorem take_succ_getD {l : List (List UInt8)} {k : Nat} (hk : k < l.length) :
    l.take (k + 1) = l.take k ++ [l.getD k []] := by
  rw [List.take_add_one, List.getD_eq_getElem _ _ hk, List.getElem?_eq_getElem hk]
  rfl

/-- The counts of the input are at most one frame apart. -/
theorem Rel.inputCounts (h : Rel g s b) :
    g.inp.acked ≤ g.inp.consumed ∧ g.inp.consumed ≤ g.inp.received ∧
      g.inp.received ≤ g.inputs.length ∧ g.inputs.length ≤ g.inp.acked + 1 := by
  have hacked := h.inp.climbs.le
  have hconsumed := h.inp.consumed
  have hreceived := h.inp.flows.le
  have htotal := h.inp.total
  have hroom := h.inp.room
  have hlength := h.typing.total
  omega

theorem Inv.acceptPendingInput (h : Inv s b) (queued : Bool) :
    Inv (s.acceptPendingInput queued) b := by
  obtain ⟨g, h⟩ := h
  unfold Server.acceptPendingInput
  split
  · exact ⟨g, h⟩
  next hpending =>
  obtain ⟨hok, htx, hrx⟩ := browserTryReceive_spec h.rings.rx s.pendingInput
  cases hq : s.queue.browserTryReceive s.pendingInput with
  | mk accepted queue =>
  rw [hq] at hok htx hrx
  cases accepted with
  | false =>
    refine ⟨g, h.out, h.inp, h.staging.congr rfl, h.writing, h.typing, h.accepting.congr rfl,
      ⟨hok, ?_, ?_, ?_⟩, h.down, h.up, h.outData, h.outAcks, h.inpData, h.inpAcks, h.greeted,
      h.serverError, h.browserError⟩
    · show queue.tx.Ok termTxDepth
      rw [htx]
      exact h.rings.tx
    · show s.printed = s.taken ++ queue.tx.toList termTxDepth
      rw [htx]
      exact h.rings.printed
    · show s.delivered = s.read ++ queue.rx.toList termRxDepth
      rw [hrx, h.rings.delivered]
      simp
  | true =>
    obtain ⟨hacked, hle, hreceived, hlength⟩ := h.inputCounts
    have hheld : g.inp.consumed < g.inp.received := by
      refine Nat.lt_of_le_of_ne hle fun heq => hpending ?_
      rw [h.accepting.idle heq.symm]
      rfl
    have hmore : g.inp.consumed < g.inputs.length := Nat.lt_of_lt_of_le hheld hreceived
    simp only [↓reduceIte]
    refine Inv.retryInputAck ?_ queued
    refine ⟨{ g with inp := { g.inp with consumed := g.inp.consumed + 1 } }, h.out, h.inp.step (.consume _ hheld),
      h.staging.congr rfl, h.writing, h.typing, ⟨?_, fun _ => rfl, fun hlt => ?_, ?_⟩,
      ⟨hok, ?_, ?_, ?_⟩, h.down, h.up, h.outData, h.outAcks, h.inpData, h.inpAcks, h.greeted,
      h.serverError, h.browserError⟩
    · show s.inputSequence + 1 = _
      rw [h.accepting.sequence, ofNat_succ]
    · have hlt : g.inp.consumed + 1 < g.inp.received := hlt
      have hnone : ¬g.inp.consumed + 1 < g.inp.received := by omega
      exact absurd hlt hnone
    · show s.delivered ++ s.pendingInput.map crlf = _
      rw [take_succ_getD hmore, List.flatten_append, List.map_append, h.accepting.delivered,
        h.accepting.held hheld]
      simp
    · show queue.tx.Ok termTxDepth
      rw [htx]
      exact h.rings.tx
    · show s.printed = s.taken ++ queue.tx.toList termTxDepth
      rw [htx]
      exact h.rings.printed
    · show s.delivered ++ s.pendingInput.map crlf = s.read ++ queue.rx.toList termRxDepth
      rw [hrx, h.rings.delivered]
      simp

/-- The server takes a message that belongs to no window. -/
theorem Rel.popOther (h : Rel g s b) {u : Up} {rest : List Up} {tail : List (List UInt8)}
    (hups : g.ups = u :: rest) (hdata : u.data = none) (hack : u.ack = none)
    (htail : s.active = true → tail = rest.map (Up.bytes g.inputs)) :
    Rel { g with ups := rest } s { b with socket := tail } := by
  refine ⟨h.out, h.inp, h.staging, h.writing.congr rfl, h.typing.congr rfl, h.accepting, h.rings,
    h.down, htail, h.outData, ?_, ?_, h.inpAcks, fun hn => ?_, h.serverError, h.browserError⟩
  · simp [h.outAcks, hups, hack]
  · simp [h.inpData, hups, hdata]
  · rw [(h.greeted hn).2.1] at hups
    cases hups

/-- The server takes a frame of input, the next one or one it has accepted. -/
theorem Rel.popInput (h : Rel g s b) {k : Nat} {rest : List Up} {tail : List (List UInt8)}
    (hups : g.ups = .input k :: rest)
    (htail : s.active = true → tail = rest.map (Up.bytes g.inputs))
    (hs : outputSide s' = outputSide s) (hr : ringSide s' = ringSide s)
    (hsocket : s'.socket = s.socket) (hactive : s'.active = s.active)
    (herror : s'.error = s.error) (hin : Accepting g.inp.consumed (max g.inp.received k) g.inputs s') :
    Rel { g with
        inp := { g.inp with
          received := max g.inp.received k
          data := rest.filterMap Up.data }
        ups := rest } s' { b with socket := tail } := by
  have hdata : g.inp.data = k :: rest.filterMap Up.data := by simp [h.inpData, hups, Up.data]
  refine ⟨h.out, h.inp.step (.arrive _ k _ hdata), h.staging.congr hs, h.writing.congr rfl,
    h.typing.congr rfl, hin, h.rings.congr hr, hsocket.trans h.down, fun ha => htail (hactive ▸ ha),
    h.outData, ?_, rfl, h.inpAcks, fun hn => ?_, herror ▸ h.serverError, h.browserError⟩
  · rw [h.outAcks, hups]
    rfl
  · rw [(h.greeted hn).2.1] at hups
    cases hups

theorem Rel.input (h : Rel g s b) {k : Nat} {rest : List Up} {tail : List (List UInt8)}
    (hups : g.ups = .input k :: rest)
    (htail : s.active = true → tail = rest.map (Up.bytes g.inputs)) (queued : Bool) :
    Inv (s.input (UInt32.ofNat k) (g.inputs.getD (k - 1) []) queued) { b with socket := tail } := by
  have hdata : g.inp.data = k :: rest.filterMap Up.data := by simp [h.inpData, hups, Up.data]
  obtain ⟨hpos, hnext, hold, hsent⟩ := h.inp.arriving hdata
  obtain ⟨hacked, hconsumed, hreceived, hlength⟩ := h.inputCounts
  have htotal := h.inp.total
  rw [h.typing.total] at htotal
  unfold Server.input
  have hk : k = g.inp.consumed + 1 ∨ k = g.inp.consumed := by omega
  rcases hk with rfl | rfl
  · rw [if_pos h.accepting.sequence.symm, Nat.add_sub_cancel]
    have hsame : ¬(s.pendingInput.length ≠ 0 ∧ s.pendingInput ≠ g.inputs.getD g.inp.consumed []) := by
      rintro ⟨hne, hchanged⟩
      rcases Nat.eq_or_lt_of_le hconsumed with heq | hlt
      · exact hne (by rw [h.accepting.idle heq.symm]; rfl)
      · exact hchanged (h.accepting.held hlt)
    rw [if_neg hsame]
    have hpop : Rel _ { s with pendingInput := g.inputs.getD g.inp.consumed [] }
        { b with socket := tail } := h.popInput hups htail rfl rfl rfl rfl rfl
      ⟨h.accepting.sequence, fun heq => absurd heq (by omega), fun _ => rfl, h.accepting.delivered⟩
    exact Inv.acceptPendingInput ⟨_, hpop⟩ queued
  · have hne : UInt32.ofNat g.inp.consumed ≠ s.inputSequence := by
      rw [h.accepting.sequence]
      intro heq
      have := ofNat_inj heq (Nat.le_succ _) (by omega)
      omega
    rw [if_neg hne, if_pos (by rw [h.accepting.sequence, ofNat_pred])]
    have hpop : Rel _ { s with inputAckPending := true } { b with socket := tail } :=
      h.popInput hups htail rfl rfl rfl rfl rfl
        (by rw [Nat.max_eq_left hconsumed]; exact h.accepting.congr rfl)
    exact Inv.retryInputAck ⟨_, hpop⟩ queued

/-! ## Acknowledged output -/

/-- The bytes of `n` frames leave the count of retained bytes. -/
theorem retained_foldl (h : Staging t tr a g.framed s) {n : Nat} (hn : n ≤ s.outputCount) :
    (List.range n).foldl (fun bytes j => bytes - ((s.frame j).length - headerBytes))
      s.retainedOutputBytes = ((g.framed.drop (a + n)).map List.length).sum := by
  induction n with
  | zero => exact h.retained
  | succ n ih =>
    have hcount := h.count
    have hlt : a + n < g.framed.length := by omega
    rw [List.range_succ, List.foldl_append, ih (Nat.le_of_succ_le hn)]
    show ((g.framed.drop (a + n)).map List.length).sum - ((s.frame n).length - headerBytes) = _
    rw [(h.slot n hn).length, List.drop_eq_getElem_cons hlt, List.getD_eq_getElem _ _ hlt,
      List.map_cons, List.sum_cons, Nat.add_sub_cancel_left, Nat.add_sub_cancel_left]
    rfl

theorem Slot.sequence {f : OutputFrame} {k : Nat} {payload : List UInt8} (h : Slot f k payload) :
    read32 f.data 1 = UInt32.ofNat k := by
  have hbytes (i : Nat) (hi : i < 4) : f.data (1 + i) =
      ((protocolFrame MessageType.output (UInt32.ofNat k) payload).getD · 0) (1 + i) := by
    have hlen : 1 + i < f.length := by rw [h.length]; unfold headerBytes; omega
    rw [← h.bytes]
    show _ = (window f.data 0 f.length).getD (1 + i) 0
    rw [window_getD hlen, Nat.zero_add]
  exact (read32_congr hbytes).trans protocolFrame_sequence

/-- An acknowledgement is matched to the frame it names, and to no other. -/
theorem candidate_spec (h : Staging t tr a g.framed s) {m : Nat} (hle : a ≤ m) (hsent : m ≤ tr)
    (htotal : m ≤ a + s.outputCount) (hcount : s.outputCount ≤ outputWindow) :
    s.candidate (UInt32.ofNat m) = if a = m then none else some (m - a - 1) := by
  have hwindow : outputWindow = 4 := rfl
  have hmatch (i : Nat) (hi : i < s.outputCount) :
      ((s.frame i).sent && read32 (s.frame i).data 1 == UInt32.ofNat m) = true ↔ a + i + 1 = m := by
    rw [Bool.and_eq_true, beq_iff_eq, h.sent i hi, (h.slot i hi).sequence]
    constructor
    · rintro ⟨-, heq⟩
      rcases Nat.le_total (a + i + 1) m with hl | hl
      · exact ofNat_inj heq hl (by omega)
      · exact (ofNat_inj heq.symm hl (by omega)).symm
    · intro heq
      rw [heq]
      exact ⟨hsent, rfl⟩
  unfold Server.candidate
  split
  · next heq =>
    rw [List.find?_range_eq_none]
    intro i hi
    rw [Bool.not_eq_true', Bool.eq_false_iff]
    intro hm
    have := (hmatch i hi).mp hm
    omega
  · next hne =>
    rw [List.find?_range_eq_some, List.mem_range]
    have hi : m - a - 1 < s.outputCount := by omega
    refine ⟨(hmatch _ hi).mpr (by omega), hi, fun j hj => ?_⟩
    rw [Bool.not_eq_true', Bool.eq_false_iff]
    intro hm
    have := (hmatch j (by omega)).mp hm
    omega

/-- Frames up to `m` are acknowledged. -/
theorem Staging.outputAck (h : Staging t tr a g.framed s) {m : Nat} (hle : a ≤ m) (hsent : m ≤ tr)
    (htotal : m ≤ a + s.outputCount) (hcount : s.outputCount ≤ outputWindow) :
    Staging t tr m g.framed (s.outputAck (UInt32.ofNat m)) := by
  unfold Server.outputAck
  rw [candidate_spec h hle hsent htotal hcount]
  by_cases heq : a = m
  · rw [if_pos heq]
    exact heq ▸ h
  rw [if_neg heq]
  obtain ⟨j, rfl⟩ : ∃ j, m = a + j + 1 := ⟨m - a - 1, by omega⟩
  have hj : a + j + 1 - a - 1 = j := by omega
  rw [hj]
  have hc := h.count
  obtain ⟨s', hs'⟩ : ∃ s', s' =
      { s with
        retainedOutputBytes := (List.range (j + 1)).foldl
          (fun bytes j => bytes - ((s.frame j).length - headerBytes)) s.retainedOutputBytes
        outputHead := (s.outputHead + j + 1) % outputWindow
        outputCount := s.outputCount - (j + 1) } := ⟨_, rfl⟩
  have hframe (i : Nat) : s'.frame i = s.frame (j + 1 + i) := by
    rw [hs', Server.frame, Server.frame]
    show s.outputFrames (((s.outputHead + j + 1) % outputWindow + i) % outputWindow) = _
    rw [Nat.mod_add_mod, Nat.add_assoc, Nat.add_assoc, Nat.add_assoc]
  have hrest : s'.outputCount = s.outputCount - (j + 1) := by rw [hs']
  dsimp only
  rw [← hs']
  refine ⟨h.total, ?_, by omega, ?_, fun i hi => ?_, fun i hi => ?_, h.sizes, ?_, ?_, fun hf => ?_, ?_⟩
  · rw [hs']
    exact h.sequence
  · rw [hs']
    show (s.outputHead + j + 1) % outputWindow = _
    rw [h.head, Nat.add_assoc, Nat.mod_add_mod, Nat.add_assoc]
  · have hslot := h.slot (j + 1 + i) (by omega)
    rw [hframe, show a + j + 1 + i = a + (j + 1 + i) by omega]
    exact hslot
  · rw [hframe, h.sent (j + 1 + i) (by omega), show a + j + 1 + i = a + (j + 1 + i) by omega]
  · rw [hs', Nat.add_assoc]
    exact retained_foldl h (by omega)
  · rw [hs']
    exact h.staged
  · rw [hrest] at hf
    unfold outputWindow at hf hcount
    omega
  · rw [hframe, hrest, show j + 1 + (s.outputCount - (j + 1)) = s.outputCount by omega, hs']
    exact h.taken

theorem outputAck_others (sequence : UInt32) (s : Server) :
    inputSide (s.outputAck sequence) = inputSide s ∧ ringSide (s.outputAck sequence) = ringSide s ∧
      (s.outputAck sequence).socket = s.socket ∧
      (s.outputAck sequence).protocolReady = s.protocolReady ∧
      (s.outputAck sequence).active = s.active ∧ (s.outputAck sequence).error = s.error := by
  unfold Server.outputAck
  split
  · exact ⟨rfl, rfl, rfl, rfl, rfl, rfl⟩
  · exact ⟨rfl, rfl, rfl, rfl, rfl, rfl⟩

/-- The server takes an acknowledgement of output. -/
theorem Rel.outputAck (h : Rel g s b) {m : Nat} {rest : List Up} {tail : List (List UInt8)}
    (hups : g.ups = .outputAck m :: rest)
    (htail : s.active = true → tail = rest.map (Up.bytes g.inputs)) :
    Inv (s.outputAck (UInt32.ofNat m)) { b with socket := tail } := by
  have hacks : g.out.acks = m :: rest.filterMap Up.ack := by rw [h.outAcks, hups]; rfl
  obtain ⟨hle, hconsumed⟩ := h.out.settling hacks
  have hsent : m ≤ g.out.transmitted :=
    Nat.le_trans hconsumed (Nat.le_trans h.out.consumed h.out.flows.le)
  have hcount := h.staging.count
  have htotal := h.staging.total
  have hroom := h.out.room
  have hmore := h.out.total
  have hstaging := h.staging.outputAck hle hsent (by omega) (by omega)
  obtain ⟨hin, hrings, hsocket, -, hactive, herror⟩ := outputAck_others (UInt32.ofNat m) s
  refine ⟨{ g with
      out := { g.out with acked := max g.out.acked m, acks := rest.filterMap Up.ack }
      ups := rest }, h.out.step (.settle _ m _ hacks), h.inp, ?_, h.writing.congr rfl,
    h.typing.congr rfl, h.accepting.congr hin, h.rings.congr hrings, hsocket.trans h.down,
    fun ha => htail (hactive ▸ ha), h.outData, rfl, ?_, h.inpAcks, fun hn => ?_,
    herror ▸ h.serverError, h.browserError⟩
  · show Staging _ _ (max g.out.acked m) _ _
    rw [Nat.max_eq_right hle]
    exact hstaging
  · rw [h.inpData, hups]
    rfl
  · rw [(h.greeted hn).2.1] at hups
    cases hups

/-- A server that has given up the session takes nothing more. -/
theorem Rel.disconnect (h : Rel g s b) {error : Option ServerError}
    (herror : error = none ∨ error = some .invalidFrame) (tail : List (List UInt8)) :
    Inv (s.disconnect error) { b with socket := tail } :=
  ⟨g, h.out, h.inp, h.staging.congr rfl, h.writing.congr rfl, h.typing.congr rfl,
    h.accepting.congr rfl, h.rings.congr rfl, h.down, fun ha => Bool.noConfusion ha, h.outData,
    h.outAcks, h.inpData, h.inpAcks, h.greeted, herror, h.browserError⟩

theorem onMessage_frame (type : UInt8) (v : UInt32) (payload : List UInt8) (queued : Bool)
    (s : Server) : s.onMessage (protocolFrame type v payload) queued =
      if type = MessageType.ready ∧ 5 + payload.length = 5 ∧ v = protocolVersion then
        Server.reportRebootStatus queued { s with protocolReady := true }
      else if type = MessageType.reboot ∧ s.protocolReady ∧ 5 + payload.length = 5 ∧ v = 0 then
        s.requestReboot
      else if type = MessageType.outputAck ∧ s.protocolReady ∧ 5 + payload.length = 5 then
        s.outputAck v
      else if type = MessageType.input ∧ s.protocolReady ∧ 5 + payload.length > 5 ∧
          5 + payload.length ≤ 5 + inputBytes then
        s.input v payload queued
      else s.disconnect (some .invalidFrame) := by
  unfold Server.onMessage
  simp only [protocolFrame_length, protocolFrame_type, protocolFrame_sequence, headerBytes,
    protocolFrame_payload]
  rw [if_neg (by omega)]

/-- The server takes a message. -/
theorem Rel.onMessage (h : Rel g s b) {u : Up} {rest : List Up} (hups : g.ups = u :: rest)
    {tail : List (List UInt8)} (htail : s.active = true → tail = rest.map (Up.bytes g.inputs))
    (queued : Bool) :
    Inv (s.onMessage (u.bytes g.inputs) queued) { b with socket := tail } := by
  have hready : b.protocolReady = true := by
    by_contra hn
    rw [(h.greeted (by simpa using hn)).2.1] at hups
    cases hups
  cases u with
  | ready =>
    have hpop := h.popOther hups rfl rfl htail
    have hrel : Rel { g with ups := rest } { s with protocolReady := true }
        { b with socket := tail } :=
      ⟨hpop.out, hpop.inp, hpop.staging.congr rfl, hpop.writing, hpop.typing,
        hpop.accepting.congr rfl, hpop.rings.congr rfl, hpop.down, hpop.up, hpop.outData,
        hpop.outAcks, hpop.inpData, hpop.inpAcks, fun hn => (by cases hready.symm.trans hn),
        hpop.serverError, hpop.browserError⟩
    rw [Up.bytes, onMessage_frame, if_pos ⟨rfl, rfl, rfl⟩]
    exact Inv.reportRebootStatus ⟨_, hrel⟩ queued
  | reboot =>
    have hpop := h.popOther hups rfl rfl htail
    rw [Up.bytes, onMessage_frame, if_neg fun hc => absurd hc.1 (by decide)]
    by_cases hr : s.protocolReady = true
    · rw [if_pos ⟨rfl, hr, rfl, rfl⟩]
      exact ⟨_, hpop.server rfl rfl rfl rfl rfl rfl rfl⟩
    · rw [if_neg fun hc => hr hc.2.1, if_neg fun hc => hr hc.2.1, if_neg fun hc => hr hc.2.1]
      exact h.disconnect (Or.inr rfl) tail
  | outputAck m =>
    rw [Up.bytes, onMessage_frame, if_neg fun hc => absurd hc.1 (by decide),
      if_neg fun hc => absurd hc.1 (by decide)]
    by_cases hr : s.protocolReady = true
    · rw [if_pos ⟨rfl, hr, rfl⟩]
      exact h.outputAck hups htail
    · rw [if_neg fun hc => hr hc.2.1, if_neg fun hc => hr hc.2.1]
      exact h.disconnect (Or.inr rfl) tail
  | input k =>
    rw [Up.bytes, onMessage_frame, if_neg fun hc => absurd hc.1 (by decide),
      if_neg fun hc => absurd hc.1 (by decide), if_neg fun hc => absurd hc.1 (by decide)]
    by_cases hr : s.protocolReady = true
    · have hdata : g.inp.data = k :: rest.filterMap Up.data := by
        rw [h.inpData, hups]
        rfl
      obtain ⟨hpos, -, -, hsent⟩ := h.inp.arriving hdata
      have htotal := h.inp.total
      rw [h.typing.total] at htotal
      have hlt : k - 1 < g.inputs.length := by omega
      have hsize := h.typing.sizes _ (List.getElem_mem hlt)
      rw [← List.getD_eq_getElem _ [] hlt] at hsize
      rw [if_pos ⟨rfl, hr, by omega, Nat.add_le_add_left hsize.2 5⟩]
      exact h.input hups htail queued
    · rw [if_neg fun hc => hr hc.2.1]
      exact h.disconnect (Or.inr rfl) tail

/-! ## Staging and sending -/

/-- The slots up to the staging slot are different. -/
theorem frame_setFrame {i j : Nat} {f : OutputFrame} (hi : i < outputWindow)
    (hj : j < outputWindow) :
    (s.setFrame i f).frame j = if i = j then f else s.frame j := by
  unfold Server.frame Server.setFrame
  by_cases hij : i = j
  · rw [if_pos hij, hij]
    exact Function.update_self ..
  · rw [if_neg hij]
    refine Function.update_of_ne (fun heq => hij ?_) ..
    exact (Data.RingBuffer.index_inj hj hi heq).symm

theorem Rel.room (h : Rel g s b) : s.outputCount ≤ outputWindow := by
  have hcount := h.staging.count
  have htotal := h.staging.total
  have hroom := h.out.room
  omega

theorem window_append {m : Nat → UInt8} {off n k : Nat} :
    window m off (n + k) = window m off n ++ window m (off + n) k := by
  simp [window, List.range_add, Function.comp_def, Nat.add_assoc]

theorem window_list (l : List UInt8) : window (l.getD · 0) 0 l.length = l :=
  window_eq_list (d := 0) fun i _ => by rw [Nat.zero_add]

theorem Inv.supplySlot (h : Inv s b) (hroom : s.outputCount < outputWindow) :
    Inv s.supplySlot b := by
  obtain ⟨g, h⟩ := h
  obtain ⟨htx, hlen, hbytes, hrx⟩ := supply_spec h.rings.tx (frameBytes - s.stagedOutputLength)
  have hframe (f : OutputFrame) (i : Nat) (hi : i < outputWindow) :=
    frame_setFrame (s := s) (f := f) hroom hi
  unfold Server.supplySlot
  cases hq : s.queue.supply (frameBytes - s.stagedOutputLength) with
  | mk bytes queue =>
  rw [hq] at htx hlen hbytes hrx
  dsimp only at htx hlen hbytes hrx ⊢
  have hstaged := h.staging.staged
  refine ⟨g, h.out, h.inp, ⟨h.staging.total, h.staging.sequence, h.staging.count, h.staging.head,
      fun i hi => ?_, fun i hi => ?_, h.staging.sizes, h.staging.retained, ?_, fun hf => ?_, ?_⟩,
    h.writing, h.typing, h.accepting.congr rfl, ⟨?_, htx, ?_, ?_⟩, h.down, h.up, h.outData,
    h.outAcks, h.inpData, h.inpAcks, h.greeted, h.serverError, h.browserError⟩
  · replace hi : i < s.outputCount := hi
    show Slot ((s.setFrame s.outputCount _).frame i) _ _
    rw [hframe _ i (Nat.lt_trans hi hroom), if_neg (Nat.ne_of_gt hi)]
    exact h.staging.slot i hi
  · replace hi : i < s.outputCount := hi
    show ((s.setFrame s.outputCount _).frame i).sent = true ↔ _
    rw [hframe _ i (Nat.lt_trans hi hroom), if_neg (Nat.ne_of_gt hi)]
    exact h.staging.sent i hi
  · show s.stagedOutputLength + bytes.length ≤ frameBytes
    omega
  · exact absurd hf (Nat.ne_of_lt hroom)
  · show s.taken ++ bytes = g.framed.flatten ++ window ((s.setFrame s.outputCount _).frame
      s.outputCount).data headerBytes (s.stagedOutputLength + bytes.length)
    rw [hframe _ _ hroom, if_pos rfl, window_append, window_overlay, window_list,
      window_overlay_disjoint (Or.inl (Nat.le_refl _)), h.staging.taken, List.append_assoc]
  · show queue.rx.Ok termRxDepth
    rw [hrx]
    exact h.rings.rx
  · show s.printed = s.taken ++ bytes ++ queue.tx.toList termTxDepth
    rw [List.append_assoc, ← hbytes]
    exact h.rings.printed
  · show s.delivered = s.read ++ queue.rx.toList termRxDepth
    rw [hrx]
    exact h.rings.delivered

/-- A new frame changes none of the messages that carry older ones. -/
theorem bytes_framed {framed : List (List UInt8)} {downs : List Down} (payload : List UInt8)
    (hdowns : ∀ k ∈ downs.filterMap Down.data, 1 ≤ k ∧ k ≤ framed.length) :
    downs.map (Down.bytes (framed ++ [payload])) = downs.map (Down.bytes framed) := by
  refine List.map_congr_left fun d hd => ?_
  cases d with
  | output k =>
    obtain ⟨hpos, hle⟩ := hdowns k (List.mem_filterMap.mpr ⟨_, hd, rfl⟩)
    show protocolFrame _ _ ((framed ++ [payload]).getD (k - 1) []) = _
    rw [List.getD_append _ _ _ _ (by omega)]
    rfl
  | _ => rfl

theorem bytes_inputs {inputs : List (List UInt8)} {ups : List Up} (payload : List UInt8)
    (hups : ∀ k ∈ ups.filterMap Up.data, 1 ≤ k ∧ k ≤ inputs.length) :
    ups.map (Up.bytes (inputs ++ [payload])) = ups.map (Up.bytes inputs) := by
  refine List.map_congr_left fun u hu => ?_
  cases u with
  | input k =>
    obtain ⟨hpos, hle⟩ := hups k (List.mem_filterMap.mpr ⟨_, hu, rfl⟩)
    show protocolFrame _ _ ((inputs ++ [payload]).getD (k - 1) []) = _
    rw [List.getD_append _ _ _ _ (by omega)]
    rfl
  | _ => rfl

/-- The messages in flight are numbered among the frames there are. -/
theorem Rel.downs_numbered (h : Rel g s b) :
    ∀ k ∈ g.downs.filterMap Down.data, 1 ≤ k ∧ k ≤ g.framed.length := by
  intro k hk
  rw [← h.outData] at hk
  obtain ⟨hpos, hle⟩ := h.out.flows.mem hk
  have htotal := h.out.total
  rw [h.staging.total] at htotal
  exact ⟨hpos, Nat.le_trans hle htotal⟩

theorem Rel.ups_numbered (h : Rel g s b) :
    ∀ k ∈ g.ups.filterMap Up.data, 1 ≤ k ∧ k ≤ g.inputs.length := by
  intro k hk
  rw [← h.inpData] at hk
  obtain ⟨hpos, hle⟩ := h.inp.flows.mem hk
  have htotal := h.inp.total
  rw [h.typing.total] at htotal
  exact ⟨hpos, Nat.le_trans hle htotal⟩

/-- The bytes of a slot after its header is written. -/
theorem closed_bytes (data : Nat → UInt8) (v : UInt32) (n : Nat) :
    window (overlay (Function.update data 0 MessageType.output) 1 4 ((le32 v).getD · 0)) 0
      (headerBytes + n) = protocolFrame MessageType.output v (window data headerBytes n) := by
  have hhead : window (overlay (Function.update data 0 MessageType.output) 1 4 ((le32 v).getD · 0))
      0 headerBytes = MessageType.output :: le32 v := rfl
  rw [window_append, hhead]
  refine congrArg (fun l => MessageType.output :: (le32 v ++ l)) ?_
  rw [Nat.zero_add]
  refine (window_overlay_disjoint (Or.inr (show 1 + 4 ≤ headerBytes from Nat.le_refl _))).trans ?_
  refine window_congr fun i _ => Function.update_of_ne ?_ ..
  unfold headerBytes
  omega

theorem Inv.closeSlot (h : Inv s b) (hroom : s.outputCount < outputWindow)
    (hstaged : s.stagedOutputLength ≠ 0) : Inv s.closeSlot b := by
  obtain ⟨g, h⟩ := h
  obtain ⟨payload, hp⟩ : ∃ p, p = window (s.frame s.outputCount).data headerBytes
      s.stagedOutputLength := ⟨_, rfl⟩
  have hplen : payload.length = s.stagedOutputLength := by rw [hp, window_length]
  have hcount := h.staging.count
  have htotal := h.staging.total
  have hframe (f : OutputFrame) (i : Nat) (hi : i < outputWindow) :=
    frame_setFrame (s := s) (f := f) hroom hi
  have hreceived : g.out.received ≤ g.framed.length := by
    have := h.out.flows.le
    have := h.out.total
    omega
  have hacked : g.out.acked ≤ g.framed.length := by omega
  have hindex (i : Nat) (hi : i < s.outputCount) : g.out.acked + i < g.framed.length := by omega
  have hnext : (g.framed ++ [payload]).length = g.framed.length + 1 := by simp
  have hlast : (g.framed ++ [payload]).getD g.framed.length [] = payload := by simp
  have hold (i : Nat) (hi : i < g.framed.length) :
      (g.framed ++ [payload]).getD i [] = g.framed.getD i [] := List.getD_append _ _ _ _ hi
  refine ⟨{ g with
      out := { g.out with total := g.out.total + 1 }
      framed := g.framed ++ [payload] },
    h.out.step (.frame _ (by omega)), h.inp,
    ⟨by rw [hnext, htotal], ?_, ?_, h.staging.head, fun i hi => ?_, fun i hi => ?_, ?_, ?_,
      Nat.zero_le _, fun _ => rfl, ?_⟩,
    ⟨h.writing.next, h.writing.awaited, h.writing.pending, h.writing.callbacks, ?_, h.writing.ready⟩,
    h.typing,
    h.accepting.congr rfl, h.rings.congr rfl, ?_, h.up, h.outData, h.outAcks, h.inpData, h.inpAcks,
    h.greeted, h.serverError, h.browserError⟩
  · show s.outputSequence + 1 = _
    rw [h.staging.sequence, ofNat_succ, hnext]
  · show g.out.acked + (s.outputCount + 1) = _
    rw [hnext]
    omega
  · replace hi : i < s.outputCount + 1 := hi
    show Slot ((s.setFrame s.outputCount _).frame i) _ _
    rw [hframe _ i (by omega)]
    by_cases heq : s.outputCount = i
    · rw [if_pos heq, ← heq, hcount, hlast]
      refine ⟨?_, by rw [hplen]⟩
      rw [closed_bytes, h.staging.sequence, hp]
    · have hlt : i < s.outputCount := by omega
      rw [if_neg heq, hold _ (hindex i hlt)]
      exact h.staging.slot i hlt
  · replace hi : i < s.outputCount + 1 := hi
    show ((s.setFrame s.outputCount _).frame i).sent = true ↔ _
    rw [hframe _ i (by omega)]
    by_cases heq : s.outputCount = i
    · rw [if_pos heq]
      have hmore := h.out.total
      constructor
      · intro hs
        cases hs
      · intro hs
        replace hs : g.out.acked + i + 1 ≤ g.out.transmitted := hs
        omega
    · rw [if_neg heq]
      exact h.staging.sent i (by omega)
  · intro p hmem
    rcases List.mem_append.mp hmem with hmem | hmem
    · exact h.staging.sizes p hmem
    · rw [List.mem_singleton.mp hmem, hplen]
      exact ⟨Nat.pos_of_ne_zero hstaged, h.staging.staged⟩
  · show s.retainedOutputBytes + s.stagedOutputLength = _
    rw [List.drop_append_of_le_length hacked, List.map_append, List.sum_append,
      h.staging.retained, ← hplen]
    simp
  · show s.taken = (g.framed ++ [payload]).flatten ++ []
    rw [h.staging.taken, hp]
    simp
  · show b.written = ((g.framed ++ [payload]).take g.out.received).flatten
    rw [List.take_append_of_le_length hreceived]
    exact h.writing.written
  · show s.socket = _
    rw [bytes_framed payload h.downs_numbered]
    exact h.down

theorem Inv.stageOutput (h : Inv s b) (batchReached : Bool) : Inv (s.stageOutput batchReached) b := by
  unfold Server.stageOutput
  split
  · next hcond =>
    have hsupply := h.supplySlot hcond.2
    extract_lets t
    split
    · exact hsupply
    next hstaged =>
    split
    · exact hsupply
    · exact hsupply.closeSlot (show s.outputCount < outputWindow from hcond.2) hstaged
  · exact h

/-- The server queues frame `i` of those it keeps, for the first time or again. -/
theorem Rel.postOutput (h : Rel g s b) {i : Nat} (hi : i < s.outputCount)
    (hnext : g.out.acked + i + 1 ≤ g.out.transmitted + 1) (hready : s.protocolReady = true) :
    Rel { g with
        out := { g.out with
          transmitted := max g.out.transmitted (g.out.acked + i + 1)
          data := g.out.data ++ [g.out.acked + i + 1] }
        downs := g.downs ++ [.output (g.out.acked + i + 1)] }
      { s.setFrame i { s.frame i with sent := true, retryNil := false } with
        socket := s.socket ++ [window (s.frame i).data 0 (s.frame i).length] } b := by
  have hroom := h.room
  have hcount := h.staging.count
  have htotal := h.staging.total
  have hin : i < outputWindow := Nat.lt_of_lt_of_le hi hroom
  have hbounds : g.out.acked < g.out.acked + i + 1 ∧ g.out.acked + i + 1 ≤ g.out.total := by omega
  have hframe (f : OutputFrame) (j : Nat) (hj : j < outputWindow) :=
    frame_setFrame (s := s) (f := f) hin hj
  have hslot (j : Nat) (hj : j < s.outputCount) (hlt : j < outputWindow)
      (k : Nat) (payload : List UInt8) (h : Slot (s.frame j) k payload) :
      Slot ((s.setFrame i { s.frame i with sent := true, retryNil := false }).frame j) k payload := by
    rw [hframe _ j hlt]
    split
    · next heq => exact heq ▸ ⟨h.bytes, h.length⟩
    · exact h
  refine ⟨h.out.step (.transmit _ _ hbounds.1 hnext hbounds.2), h.inp,
    ⟨htotal, h.staging.sequence, hcount, h.staging.head, fun j hj => ?_, fun j hj => ?_,
      h.staging.sizes, h.staging.retained, h.staging.staged, h.staging.full, ?_⟩,
    h.writing, h.typing, h.accepting.congr rfl, h.rings.congr rfl, ?_, h.up, ?_, h.outAcks,
    h.inpData, ?_, fun hn => ?_, h.serverError, h.browserError⟩
  · exact hslot j hj (Nat.lt_of_lt_of_le hj hroom) _ _ (h.staging.slot j hj)
  · replace hj : j < s.outputCount := hj
    have hsent := h.staging.sent j hj
    show ((s.setFrame i _).frame j).sent = true ↔
      g.out.acked + j + 1 ≤ max g.out.transmitted (g.out.acked + i + 1)
    rw [hframe _ j (Nat.lt_of_lt_of_le hj hroom)]
    split
    · next heq =>
      subst heq
      exact ⟨fun _ => Nat.le_max_right _ _, fun _ => rfl⟩
    · rw [hsent]
      omega
  · show s.taken = g.framed.flatten ++
      window ((s.setFrame i _).frame s.outputCount).data headerBytes s.stagedOutputLength
    have htaken := h.staging.taken
    by_cases hfull : s.outputCount = outputWindow
    · rw [h.staging.full hfull] at htaken ⊢
      exact htaken
    · rw [hframe _ _ (Nat.lt_of_le_of_ne hroom hfull), if_neg (Nat.ne_of_lt hi)]
      exact htaken
  · show s.socket ++ [_] = _
    rw [List.map_append, ← h.down, (h.staging.slot i hi).bytes]
    rfl
  · show g.out.data ++ [_] = _
    rw [List.filterMap_append, ← h.outData]
    rfl
  · show g.inp.acks = _
    rw [List.filterMap_append, ← h.inpAcks]
    exact (List.append_nil _).symm
  · rw [(h.greeted hn).1] at hready
    cases hready

/-- The loop sends no frame before those in front of it. -/
theorem Inv.sendFrames (retryReached : Nat → Bool) (result : Nat → SendResult) (n i : Nat)
    (h : Inv s b) (hready : s.protocolReady = true) (hn : i + n = s.outputCount)
    (hfront : ∀ j < i, (s.frame j).sent = true) :
    Inv (Server.sendFrames retryReached result n i s) b := by
  induction n generalizing i s with
  | zero => exact h
  | succ n ih =>
    have hi : i < s.outputCount := by omega
    have hroom : s.outputCount ≤ outputWindow := h.elim fun _ h => h.room
    rw [Server.sendFrames]
    extract_lets frame
    split
    · cases result i with
      | wouldBlock => exact h
      | failed =>
        obtain ⟨g, h⟩ := h
        exact h.disconnect (Or.inl rfl) b.socket
      | queued =>
        obtain ⟨g, h⟩ := h
        have hnext : g.out.acked + i + 1 ≤ g.out.transmitted + 1 := by
          have hacked := Nat.le_trans h.out.climbs.le (Nat.le_trans h.out.consumed h.out.flows.le)
          cases i with
          | zero => omega
          | succ j =>
            have hsent := (h.staging.sent j (by omega)).mp (hfront j (Nat.lt_succ_self j))
            omega
        refine ih (i + 1) ⟨_, h.postOutput hi hnext hready⟩ hready ((Nat.add_right_comm i 1 n).trans hn)
          fun j hj => ?_
        show ((s.setFrame i _).frame j).sent = true
        rw [frame_setFrame (by omega) (by omega)]
        split
        · rfl
        · exact hfront j (by omega)
    split
    · exact h
    · next hsent =>
      refine ih (i + 1) h hready (by omega) fun j hj => ?_
      rcases Nat.eq_or_lt_of_le (Nat.le_of_lt_succ hj) with rfl | hlt
      · simpa using hsent
      · exact hfront j hlt

theorem Inv.sendOutput (h : Inv s b) (retryReached : Nat → Bool) (result : Nat → SendResult) :
    Inv (s.sendOutput retryReached result) b := by
  unfold Server.sendOutput
  split
  · next hready =>
    exact h.sendFrames retryReached result _ _ hready (Nat.zero_add _)
      fun j hj => absurd hj (Nat.not_lt_zero j)
  · exact h

/-! ## The ports of the Z80 -/

theorem Inv.z80Out (h : Inv s b) (port value : UInt8) : Inv (s.z80Out port value) b := by
  obtain ⟨g, h⟩ := h
  unfold Server.z80Out Queue.ioWrite
  split
  · next hcond =>
    obtain ⟨hok, hadd⟩ := ringAdd_spec h.rings.tx hcond.2.2 value
    refine ⟨g, h.out, h.inp, h.staging.congr rfl, h.writing, h.typing, h.accepting.congr rfl,
      ⟨h.rings.rx, hok, ?_, h.rings.delivered⟩, h.down, h.up, h.outData, h.outAcks, h.inpData,
      h.inpAcks, h.greeted, h.serverError, h.browserError⟩
    show (if s.queue.tx.count + 1 = s.queue.tx.count then _ else _) = s.taken ++ _
    rw [if_neg (Nat.succ_ne_self _)]
    show s.printed ++ [value] = s.taken ++ (ringAdd termTxDepth s.queue.tx value).toList termTxDepth
    rw [hadd, h.rings.printed, List.append_assoc]
  · refine ⟨g, h.server rfl rfl ?_ rfl rfl rfl rfl⟩
    simp [ringSide]

theorem ioRead_cases (port : UInt8) (q : Queue) :
    (q.ioRead port).2 = q ∨ (q.rx.count ≠ 0 ∧
      q.ioRead port = (q.rx.data q.rx.head, { q with rx := ringDropOldest termRxDepth q.rx })) := by
  unfold Queue.ioRead
  split
  · exact Or.inl rfl
  split
  · next hpos => exact Or.inr ⟨hpos, rfl⟩
  · exact Or.inl rfl

theorem Inv.z80In (h : Inv s b) (port : UInt8) : Inv (s.z80In port) b := by
  obtain ⟨g, h⟩ := h
  unfold Server.z80In
  rcases ioRead_cases port s.queue with hsame | ⟨hpos, hread⟩
  · refine ⟨g, h.server rfl rfl ?_ rfl rfl rfl rfl⟩
    show ((s.queue.ioRead port).2, s.printed, s.taken, s.delivered,
      if (s.queue.ioRead port).2.rx.count = s.queue.rx.count then s.read else _) = _
    rw [hsame, if_pos rfl]
    rfl
  · rw [hread]
    obtain ⟨hok, hdrop⟩ := ringDropOldest_spec h.rings.rx (Nat.pos_of_ne_zero hpos)
    refine ⟨g, h.out, h.inp, h.staging.congr rfl, h.writing, h.typing, h.accepting.congr rfl,
      ⟨hok, h.rings.tx, h.rings.printed, ?_⟩, h.down, h.up, h.outData, h.outAcks, h.inpData,
      h.inpAcks, h.greeted, h.serverError, h.browserError⟩
    show s.delivered = (if s.queue.rx.count - 1 = s.queue.rx.count then _ else _) ++ _
    rw [if_neg (by omega)]
    show s.delivered = s.read ++ [s.queue.rx.data s.queue.rx.head] ++ _
    rw [h.rings.delivered, hdrop, List.append_assoc]
    rfl

/-! ## The page -/

theorem sendToServer_cases (data : List UInt8) (b : Browser) :
    b.sendToServer data = (false, b) ∨
      b.sendToServer data = (true, { b with socket := b.socket ++ [data] }) := by
  unfold Browser.sendToServer
  split
  · exact Or.inr rfl
  · exact Or.inl rfl

/-- The page makes a frame of the input that waits. -/
theorem Rel.openFrame (h : Rel g s b) (hready : b.protocolReady = true) (hnone : b.inputFrame = none)
    (hbuffer : b.inputBuffer.length ≠ 0) :
    Inv s { b with inputFrame := some (protocolFrame MessageType.input b.inputSequence
      (b.inputBuffer.take inputFrameBytes)) } := by
  obtain ⟨payload, hp⟩ : ∃ p, p = b.inputBuffer.take inputFrameBytes := ⟨_, rfl⟩
  have hlen : payload.length = min inputFrameBytes b.inputBuffer.length := by
    rw [hp, List.length_take]
  have hidle := h.typing.idle hnone
  obtain ⟨hacked, hconsumed, hreceived, -⟩ := h.inputCounts
  have htotal := h.typing.total
  have hnext : (g.inputs ++ [payload]).length = g.inputs.length + 1 := by simp
  have hlast : (g.inputs ++ [payload]).getD g.inp.acked [] = payload := by
    rw [← hidle]
    simp
  have hcount : g.inp.consumed ≤ g.inputs.length := Nat.le_trans hconsumed hreceived
  refine ⟨{ g with
      inp := { g.inp with total := g.inp.total + 1 }
      inputs := g.inputs ++ [payload] },
    h.out, h.inp.step (.frame _ (by omega)), h.staging, h.writing.congr rfl,
    ⟨by rw [hnext, htotal], h.typing.sequence, fun hn => (by cases hn), fun f hf => ?_, ?_, ?_⟩,
    ⟨h.accepting.sequence, h.accepting.idle, fun hlt => ?_, ?_⟩, h.rings, h.down, fun ha => ?_,
    h.outData, h.outAcks, h.inpData, h.inpAcks, fun hn => ?_, h.serverError, h.browserError⟩
  · cases hf
    refine ⟨by rw [hnext, hidle], ?_, ?_⟩
    · show protocolFrame _ b.inputSequence _ = _
      rw [hlast, h.typing.sequence, hp]
    · show (g.inputs ++ [payload]).getD g.inp.acked [] <+: b.inputBuffer
      rw [hlast, hp]
      exact List.take_prefix _ _
  · intro p hmem
    rcases List.mem_append.mp hmem with hmem | hmem
    · exact h.typing.sizes p hmem
    · rw [List.mem_singleton.mp hmem, hlen]
      unfold inputFrameBytes
      omega
  · show b.typed = ((g.inputs ++ [payload]).take g.inp.acked).flatten ++ b.inputBuffer
    rw [List.take_append_of_le_length (by omega)]
    exact h.typing.typed
  · have hlt : g.inp.consumed < g.inp.received := hlt
    show s.pendingInput = (g.inputs ++ [payload]).getD g.inp.consumed []
    rw [List.getD_append _ _ _ _ (by omega)]
    exact h.accepting.held hlt
  · show s.delivered = ((g.inputs ++ [payload]).take g.inp.consumed).flatten.map crlf
    rw [List.take_append_of_le_length hcount]
    exact h.accepting.delivered
  · show b.socket = g.ups.map (Up.bytes (g.inputs ++ [payload]))
    rw [bytes_inputs payload h.ups_numbered]
    exact h.up ha
  · cases hready.symm.trans hn

/-- The frame of input is sent, if the page is online. -/
theorem Rel.sendFrame (h : Rel g s b) (hready : b.protocolReady = true) {f : List UInt8}
    (hf : b.inputFrame = some f) :
    Inv s { (b.sendToServer f).2 with inputTimer := true } := by
  obtain ⟨hlength, hbytes, -⟩ := h.typing.frame f hf
  rcases sendToServer_cases f b with heq | heq
  · rw [heq]
    exact ⟨_, h.browser rfl rfl rfl rfl rfl⟩
  · rw [heq, hbytes]
    exact ⟨_, (h.answerInput hready hlength).browser rfl rfl rfl rfl rfl⟩

theorem Inv.pumpInput (h : Inv s b) : Inv s b.pumpInput := by
  unfold Browser.pumpInput
  split
  · exact h
  next hcond =>
  have hready : b.protocolReady = true := by
    by_contra hn
    exact hcond (Or.inl (by simpa using hn))
  have hbuffer : b.inputBuffer.length ≠ 0 := fun hz => hcond (Or.inr (Or.inr (Or.inr hz)))
  obtain ⟨g, h⟩ := h
  cases hf : b.inputFrame with
  | none =>
    obtain ⟨g, hrel⟩ := h.openFrame hready hf hbuffer
    exact hrel.sendFrame hready rfl
  | some f =>
    have hsame : { b with inputFrame := some f } = b := by rw [← hf]
    show Inv s { (Browser.sendToServer f { b with inputFrame := some f }).2 with inputTimer := true }
    rw [hsame]
    exact h.sendFrame hready hf

theorem Inv.browser (h : Inv s b) (hw : writeSide b' = writeSide b)
    (ht : typeSide b' = typeSide b) (hsocket : b'.socket = b.socket)
    (hready : b'.protocolReady = b.protocolReady) (herror : b'.error = b.error) : Inv s b' :=
  h.elim fun g h => ⟨g, h.browser hw ht hsocket hready herror⟩

theorem Inv.inputTimeout (h : Inv s b) : Inv s b.inputTimeout := by
  unfold Browser.inputTimeout
  split
  · exact Inv.pumpInput (h.browser rfl rfl rfl rfl rfl)
  · exact h

theorem Inv.finishReboot (h : Inv s b) : Inv s b.finishReboot :=
  show Inv s (Browser.pumpInput _) from Inv.pumpInput (h.browser rfl rfl rfl rfl rfl)

theorem Inv.rebootTimeout (h : Inv s b) : Inv s b.rebootTimeout := by
  unfold Browser.rebootTimeout
  split
  · exact Inv.finishReboot (h.browser rfl rfl rfl rfl rfl)
  · exact h

/-- Input is queued behind what is queued already. -/
theorem Inv.queueInput (h : Inv s b) (bytes : List UInt8) : Inv s (b.queueInput bytes) := by
  unfold Browser.queueInput
  split
  · exact h
  split
  · exact h
  split
  · exact h
  obtain ⟨g, h⟩ := h
  have hrel : Inv s
      { b with inputBuffer := b.inputBuffer ++ bytes, typed := b.typed ++ bytes } := by
    refine ⟨g, h.out, h.inp, h.staging, h.writing.congr rfl,
      ⟨h.typing.total, h.typing.sequence, h.typing.idle, fun f hf => ?_, h.typing.sizes, ?_⟩,
      h.accepting, h.rings, h.down, h.up, h.outData, h.outAcks, h.inpData, h.inpAcks, h.greeted,
      h.serverError, h.browserError⟩
    · obtain ⟨hlength, hbytes, hstart⟩ := h.typing.frame f hf
      exact ⟨hlength, hbytes, hstart.trans (List.prefix_append _ _)⟩
    · show b.typed ++ bytes = _ ++ (b.inputBuffer ++ bytes)
      rw [h.typing.typed, List.append_assoc]
  extract_lets t
  split
  · exact hrel.pumpInput
  · exact hrel

/-- The button discards what is queued behind the frame in flight. -/
theorem Inv.rebootClick (h : Inv s b) : Inv s b.rebootClick := by
  unfold Browser.rebootClick
  split
  · exact h
  next hcond =>
  have hready : b.protocolReady = true := by
    by_contra hn
    exact hcond (Or.inr (Or.inl (by simpa using hn)))
  extract_lets kept
  obtain ⟨g, h⟩ := h
  have hkept : kept <+: b.inputBuffer := by
    cases hf : b.inputFrame with
    | none => simp only [kept, hf, List.nil_prefix]
    | some f => simpa only [kept, hf] using List.take_prefix _ _
  have hinflight (f : List UInt8) (hf : b.inputFrame = some f) :
      g.inputs.getD g.inp.acked [] <+: kept := by
    obtain ⟨-, hbytes, hstart⟩ := h.typing.frame f hf
    have hk : kept = b.inputBuffer.take (f.length - 5) := by simp only [kept, hf]
    rw [hk, hbytes, protocolFrame_length, Nat.add_sub_cancel_left]
    exact List.prefix_take_iff.mpr ⟨hstart, Nat.le_refl _⟩
  have htyped : b.typed.take (b.typed.length - (b.inputBuffer.length - kept.length)) =
      (g.inputs.take g.inp.acked).flatten ++ kept := by
    obtain ⟨rest, hrest⟩ := hkept
    rw [h.typing.typed, ← hrest, ← List.append_assoc]
    simp only [List.length_append]
    rw [Nat.add_sub_cancel_left, Nat.add_sub_cancel, ← List.length_append, List.take_left]
  obtain ⟨t, ht⟩ : ∃ t, t = { b with
      rebootPending := true
      rebootDisconnected := false
      inputTimer := false
      inputBuffer := kept
      typed := b.typed.take (b.typed.length - (b.inputBuffer.length - kept.length)) } := ⟨_, rfl⟩
  have hrel : Rel g s t := by
    rw [ht]
    exact ⟨h.out, h.inp, h.staging, h.writing.congr rfl,
      ⟨h.typing.total, h.typing.sequence, h.typing.idle, fun f hf =>
        ⟨(h.typing.frame f hf).1, (h.typing.frame f hf).2.1, hinflight f hf⟩, h.typing.sizes, htyped⟩,
      h.accepting, h.rings, h.down, h.up, h.outData, h.outAcks, h.inpData, h.inpAcks, h.greeted,
      h.serverError, h.browserError⟩
  rw [← ht]
  have hpending : t.protocolReady = true := by rw [ht]; exact hready
  rcases sendToServer_cases (protocolFrame MessageType.reboot 0 []) t with heq | heq
  · rw [heq]
    exact Inv.finishReboot ⟨g, hrel⟩
  · rw [heq]
    exact ⟨_, (hrel.answer .reboot rfl rfl hpending).browser rfl rfl rfl rfl rfl⟩

theorem Inv.handleRebootStatus (h : Inv s b) (status : UInt32) :
    Inv s (b.handleRebootStatus status) := by
  unfold Browser.handleRebootStatus
  split
  · exact h.browser rfl rfl rfl rfl rfl
  split
  · exact h.finishReboot
  split
  · exact Inv.finishReboot (h.browser rfl rfl rfl rfl rfl)
  split
  · exact h.finishReboot
  have hrel : Inv s { b with rebootTimedOut := false } := h.browser rfl rfl rfl rfl rfl
  extract_lets t
  split
  · exact hrel.finishReboot
  · exact hrel

theorem pumpInput_ready (b : Browser) : b.pumpInput.protocolReady = b.protocolReady := by
  unfold Browser.pumpInput
  split
  · rfl
  · show (Browser.sendToServer _ _).2.protocolReady = b.protocolReady
    rcases sendToServer_cases _ _ with heq | heq
    · rw [heq]
    · rw [heq]

/-- A message that belongs to no window is sent, if the page is online. -/
theorem Inv.sendOther (h : Inv s b) {data : List UInt8} (u : Up) (hu : ∀ g : Ghost,
    u.bytes g.inputs = data) (hdata : u.data = none) (hack : u.ack = none)
    (hready : b.protocolReady = true) : Inv s (b.sendToServer data).2 := by
  obtain ⟨g, h⟩ := h
  rcases sendToServer_cases data b with heq | heq
  · rw [heq]
    exact ⟨g, h⟩
  · rw [heq, ← hu g]
    exact ⟨_, h.answer u hdata hack hready⟩

/-- The greeting is answered, and input that waits is sent. -/
theorem Inv.hello (h : Inv s b) : Inv s b.hello := by
  have hrel : Inv s { b with protocolReady := true } := by
    obtain ⟨g, h⟩ := h
    exact ⟨g, h.out, h.inp, h.staging, ⟨h.writing.next, h.writing.awaited, h.writing.pending,
        h.writing.callbacks, h.writing.written, fun hn => (by cases hn)⟩, h.typing.congr rfl,
      h.accepting, h.rings, h.down, h.up, h.outData, h.outAcks, h.inpData, h.inpAcks,
      fun hn => (by cases hn), h.serverError, h.browserError⟩
  unfold Browser.hello
  extract_lets t u v
  have hu : Inv s u ∧ u.protocolReady = true := by
    show Inv s (if _ then _ else _) ∧ (if _ then _ else _ : Browser).protocolReady = true
    split
    · exact ⟨hrel.finishReboot, pumpInput_ready _⟩
    · exact ⟨hrel, rfl⟩
  have hv : Inv s v := hu.1.sendOther .ready (fun _ => rfl) rfl rfl hu.2
  split
  · exact hv.pumpInput
  · exact hv

/-! ## Messages to the page -/

/-- The page receives a message that belongs to no window. -/
theorem Rel.pullOther (h : Rel g s b) {d : Down} {rest : List Down} (hdowns : g.downs = d :: rest)
    (hdata : d.data = none) (hack : d.ack = none) :
    Rel { g with downs := rest } { s with socket := rest.map (Down.bytes g.framed) } b := by
  refine ⟨h.out, h.inp, h.staging.congr rfl, h.writing, h.typing, h.accepting.congr rfl,
    h.rings.congr rfl, rfl, h.up, ?_, h.outAcks, h.inpData, ?_, fun hn => ?_, h.serverError,
    h.browserError⟩
  · simp [h.outData, hdowns, hdata]
  · simp [h.inpAcks, hdowns, hack]
  · obtain ⟨hready, hups, hall⟩ := h.greeted hn
    exact ⟨hready, hups, fun e he => hall e (hdowns ▸ List.mem_cons_of_mem _ he)⟩

/-- The page receives an acknowledgement of its frame, or of one before it. -/
theorem Rel.inputAck (h : Rel g s b) {m : Nat} {rest : List Down}
    (hdowns : g.downs = .inputAck m :: rest) :
    Inv { s with socket := rest.map (Down.bytes g.framed) } (b.inputAck (UInt32.ofNat m)) := by
  have hacks : g.inp.acks = m :: rest.filterMap Down.ack := by
    rw [h.inpAcks, hdowns]
    rfl
  obtain ⟨hle, hm⟩ := h.inp.settling hacks
  obtain ⟨hacked, hconsumed, hreceived, hlength⟩ := h.inputCounts
  have hpull {b' : Browser} (hw : writeSide b' = writeSide b)
      (hready : b'.protocolReady = b.protocolReady) (hsocket : b'.socket = b.socket)
      (herror : b'.error = b.error) (ht : Typing g.inp.total (max g.inp.acked m) g.inputs b') :
      Rel { g with
          inp := { g.inp with acked := max g.inp.acked m, acks := rest.filterMap Down.ack }
          downs := rest } { s with socket := rest.map (Down.bytes g.framed) } b' := by
    refine ⟨h.out, h.inp.step (.settle _ m _ hacks), h.staging.congr rfl, h.writing.congr hw, ht,
      h.accepting.congr rfl, h.rings.congr rfl, rfl, fun ha => hsocket.trans (h.up ha), ?_,
      h.outAcks, h.inpData, rfl, fun hn => ?_, h.serverError, herror.trans h.browserError⟩
    · rw [h.outData, hdowns]
      rfl
    · obtain ⟨hserver, hups, hall⟩ := h.greeted (hready ▸ hn)
      exact ⟨hserver, hups, fun e he => hall e (hdowns ▸ List.mem_cons_of_mem _ he)⟩
  unfold Browser.inputAck
  split
  · next hnone =>
    have heq : g.inp.acked = m := by
      have hidle := h.typing.idle hnone
      omega
    exact ⟨_, hpull rfl rfl rfl rfl (by rw [← heq, Nat.max_self]; exact h.typing)⟩
  · next f hf =>
    obtain ⟨hcount, hbytes, hstart⟩ := h.typing.frame f hf
    split
    · next hseq =>
      rw [h.typing.sequence] at hseq
      have heq : m = g.inp.acked + 1 := by
        by_contra hne
        have := ofNat_inj hseq (by omega) (by omega)
        omega
      obtain ⟨rest, hrest⟩ := hstart
      refine Inv.pumpInput ⟨_, hpull rfl rfl rfl rfl ?_⟩
      rw [heq, Nat.max_eq_right (Nat.le_succ _)]
      refine ⟨h.typing.total, ?_, fun _ => hcount, fun f hf => (by cases hf), h.typing.sizes, ?_⟩
      · show b.inputSequence + 1 = _
        rw [h.typing.sequence, ofNat_succ]
      · show b.typed = _ ++ b.inputBuffer.drop (f.length - 5)
        rw [hbytes, protocolFrame_length, Nat.add_sub_cancel_left, h.typing.typed, ← hrest,
          List.drop_left, take_succ_getD (by omega), List.flatten_append, ← List.append_assoc]
        simp
    · next hseq =>
      have heq : g.inp.acked = m := by
        by_contra hne
        refine hseq ?_
        rw [h.typing.sequence, show m = g.inp.acked + 1 by omega]
      exact ⟨_, hpull rfl rfl rfl rfl (by rw [← heq, Nat.max_self]; exact h.typing)⟩

/-- The page receives a frame of output. -/
theorem Rel.pullOutput (h : Rel g s b) {k : Nat} {rest : List Down}
    (hdowns : g.downs = .output k :: rest) (ht : typeSide b' = typeSide b)
    (hready : b'.protocolReady = b.protocolReady) (hsocket : b'.socket = b.socket)
    (herror : b'.error = b.error)
    (hw : Writing g.out.consumed (max g.out.received k) g.framed b') :
    Rel { g with
        out := { g.out with received := max g.out.received k, data := rest.filterMap Down.data }
        downs := rest } { s with socket := rest.map (Down.bytes g.framed) } b' := by
  have hdata : g.out.data = k :: rest.filterMap Down.data := by
    rw [h.outData, hdowns]
    rfl
  refine ⟨h.out.step (.arrive _ k _ hdata), h.inp, h.staging.congr rfl, hw, h.typing.congr ht,
    h.accepting.congr rfl, h.rings.congr rfl, rfl, fun ha => hsocket.trans (h.up ha), rfl, h.outAcks,
    h.inpData, ?_, fun hn => ?_, h.serverError, herror.trans h.browserError⟩
  · rw [h.inpAcks, hdowns]
    rfl
  · obtain ⟨hserver, hups, hall⟩ := h.greeted (hready ▸ hn)
    exact ⟨hserver, hups, fun e he => hall e (hdowns ▸ List.mem_cons_of_mem _ he)⟩

/-- Counting back over less than half a round. -/
theorem sub_small {a k : Nat} (hle : k ≤ a) (hlt : a < k + 2147483648) :
    (UInt32.ofNat a - UInt32.ofNat k).toNat = a - k := by
  rw [toNat_sub]
  omega

theorem sub_wrapped {a k : Nat} (hlt : a < k) (hle : k ≤ a + 2147483648) :
    2147483648 ≤ (UInt32.ofNat a - UInt32.ofNat k).toNat := by
  rw [toNat_sub]
  omega

/-- The next frame is written; one that is written already is acknowledged
again, and one that waits for its callback is left to it. -/
theorem Rel.output (h : Rel g s b) {k : Nat} {rest : List Down}
    (hdowns : g.downs = .output k :: rest) (hready : b.protocolReady = true) :
    Inv { s with socket := rest.map (Down.bytes g.framed) }
      (b.output (UInt32.ofNat k) (g.framed.getD (k - 1) [])) := by
  have hdata : g.out.data = k :: rest.filterMap Down.data := by
    rw [h.outData, hdowns]
    rfl
  obtain ⟨hpos, hnext, hold, hsent⟩ := h.out.arriving hdata
  have hpending := h.writing.pending
  have htotal := h.staging.total
  have hmore := h.out.total
  have hroom := h.out.room
  have hacked := h.out.climbs.le
  have hwindow : outputWindow = 4 := rfl
  have hconsumed := h.out.consumed
  unfold Browser.output
  by_cases hk : k = g.out.received + 1
  · have hfree : ¬b.outputPending ≥ outputWindow := by omega
    have hlt : g.out.received < g.framed.length := by omega
    subst hk
    rw [if_pos h.writing.awaited.symm, if_neg hfree]
    refine ⟨_, h.pullOutput hdowns rfl rfl rfl rfl ?_⟩
    rw [Nat.max_eq_right (Nat.le_succ _)]
    refine ⟨h.writing.next, ofNat_succ _, ?_, ?_, ?_, fun hn => (by cases hready.symm.trans hn)⟩
    · show g.out.consumed + (b.outputPending + 1) = _
      omega
    · show b.callbacks ++ [_] = _
      rw [List.range_succ, List.map_append, ← h.writing.callbacks,
        show g.out.received = g.out.consumed + b.outputPending from hpending.symm]
      simp [Nat.add_right_comm]
    · show b.written ++ _ = _
      rw [take_succ_getD hlt, List.flatten_append, h.writing.written]
      simp
  · have hle : k ≤ g.out.received := by omega
    have hne : UInt32.ofNat k ≠ b.outputReceivedSequence := by
      rw [h.writing.awaited]
      intro heq
      exact hk (ofNat_inj heq hnext (by omega))
    have hpull : Rel _ { s with socket := rest.map (Down.bytes g.framed) } b :=
      h.pullOutput hdowns rfl rfl rfl rfl (by rw [Nat.max_eq_left hle]; exact h.writing)
    rw [if_neg hne, h.writing.next, h.writing.awaited]
    extract_lets consumed pending
    have hc : consumed = UInt32.ofNat (g.out.consumed + 1) - UInt32.ofNat k := rfl
    have hp : pending.toNat = g.out.received + 1 - k := sub_small hnext (by omega)
    by_cases hdone : k ≤ g.out.consumed
    · have hv : consumed.toNat = g.out.consumed + 1 - k := by
        rw [hc, sub_small (by omega) (by omega)]
      rw [if_pos ⟨UInt32.lt_iff_toNat_lt.mpr (by rw [hv]; show 0 < _; omega),
        UInt32.lt_iff_toNat_lt.mpr (by rw [hv]; show _ < 2147483648; omega)⟩, ofNat_pred]
      rcases sendToServer_cases (protocolFrame MessageType.outputAck (UInt32.ofNat g.out.consumed) [])
        b with heq | heq
      · rw [heq]
        exact ⟨_, hpull⟩
      · rw [heq]
        exact ⟨_, hpull.answerAck hready⟩
    · have hnot : ¬(consumed > 0 ∧ consumed < 0x80000000) := by
        rintro ⟨hlow, hhigh⟩
        have hlow : 0 < consumed.toNat := UInt32.lt_iff_toNat_lt.mp hlow
        have hhigh : consumed.toNat < 2147483648 := UInt32.lt_iff_toNat_lt.mp hhigh
        rcases Nat.eq_or_lt_of_le (show g.out.consumed + 1 ≤ k by omega) with heq | hlt
        · rw [hc, heq, sub_small (Nat.le_refl _) (by omega), Nat.sub_self] at hlow
          exact absurd hlow (Nat.lt_irrefl 0)
        · have := sub_wrapped hlt (by omega)
          rw [← hc] at this
          omega
      have hin : ¬(pending = 0 ∨ pending > UInt32.ofNat outputWindow) := by
        rintro (hz | hgt)
        · rw [hz] at hp
          have hz : 0 = g.out.received + 1 - k := hp
          omega
        · have hgt : 4 < pending.toNat := UInt32.lt_iff_toNat_lt.mp hgt
          omega
      rw [if_neg hnot, if_neg hin]
      exact ⟨_, hpull⟩

/-- A write is done and acknowledged. -/
theorem Inv.writeDone (h : Inv s b) : Inv s b.writeDone := by
  obtain ⟨g, h⟩ := h
  unfold Browser.writeDone
  split
  · exact ⟨g, h⟩
  next sequence rest hcallbacks =>
  have hpending := h.writing.pending
  have hcb := h.writing.callbacks
  rw [hcallbacks] at hcb
  obtain ⟨p, hp⟩ : ∃ p, b.outputPending = p + 1 := by
    cases hz : b.outputPending with
    | zero => rw [hz] at hcb; cases hcb
    | succ p => exact ⟨p, rfl⟩
  rw [hp, List.range_succ_eq_map, List.map_cons, List.map_map, List.cons.injEq] at hcb
  obtain ⟨hfirst, hrest⟩ := hcb
  have hready : b.protocolReady = true := by
    by_contra hn
    have := h.writing.ready (by simpa using hn)
    omega
  have hrel : Rel { g with out := { g.out with consumed := g.out.consumed + 1 } } s
      { b with
        callbacks := rest
        outputPending := b.outputPending - 1
        outputSequence := b.outputSequence + 1 } := by
    refine ⟨h.out.step (.consume _ (by omega)), h.inp, h.staging, ⟨?_, h.writing.awaited, ?_, ?_,
      h.writing.written, h.writing.ready⟩, h.typing.congr rfl, h.accepting, h.rings, h.down, h.up,
      h.outData, h.outAcks, h.inpData, h.inpAcks, h.greeted, h.serverError, h.browserError⟩
    · show b.outputSequence + 1 = _
      rw [h.writing.next, ofNat_succ]
    · show g.out.consumed + 1 + (b.outputPending - 1) = g.out.received
      omega
    · show rest = (List.range (b.outputPending - 1)).map fun i => UInt32.ofNat (g.out.consumed + 1 + 1 + i)
      rw [hrest, hp, Nat.add_sub_cancel]
      refine List.map_congr_left fun i _ => ?_
      show UInt32.ofNat (g.out.consumed + 1 + (i + 1)) = _
      rw [Nat.add_assoc _ 1 i, Nat.add_comm 1 i]
  rcases sendToServer_cases (protocolFrame MessageType.outputAck sequence []) _ with heq | heq
  · rw [heq]
    exact ⟨_, hrel⟩
  · rw [heq, hfirst]
    exact ⟨_, hrel.answerAck hready⟩

theorem handleProtocolFrame_frame (type : UInt8) (v : UInt32) (payload : List UInt8)
    (b : Browser) : b.handleProtocolFrame (protocolFrame type v payload) =
      if type = MessageType.hello ∧ 5 + payload.length = 5 ∧ v = protocolVersion then b.hello
      else if type = MessageType.rebootStatus ∧ b.protocolReady ∧ 5 + payload.length = 5 ∧ v ≤ 7 then
        b.handleRebootStatus v
      else if type = MessageType.inputAck ∧ 5 + payload.length = 5 then b.inputAck v
      else if type = MessageType.output ∧ b.protocolReady ∧ 5 + payload.length > 5 ∧
          5 + payload.length ≤ 5 + outputFrameBytes then
        b.output v payload
      else { b with connected := false, error := some .unsupported } := by
  unfold Browser.handleProtocolFrame
  simp only [protocolFrame_length, protocolFrame_type, protocolFrame_sequence,
    protocolFrame_payload]
  rw [if_neg (by omega)]

theorem rebootCode_le (status : WebReboot) : rebootCode status ≤ 7 := by
  cases status <;> decide

/-- The page receives a message, and never refuses it. -/
theorem Rel.handleProtocolFrame (h : Rel g s b) {d : Down} {rest : List Down}
    (hdowns : g.downs = d :: rest) :
    Inv { s with socket := rest.map (Down.bytes g.framed) }
      (b.handleProtocolFrame (d.bytes g.framed)) := by
  have hgreeted (hd : d.data ≠ none ∨ ∃ status, d = .rebootStatus status) :
      b.protocolReady = true := by
    by_contra hn
    obtain ⟨hdata, hstatus⟩ := (h.greeted (by simpa using hn)).2.2 d (hdowns ▸ List.mem_cons_self)
    rcases hd with hd | ⟨status, hd⟩
    · exact hd hdata
    · exact hstatus status hd
  cases d with
  | hello =>
    rw [Down.bytes, handleProtocolFrame_frame, if_pos ⟨rfl, rfl, rfl⟩]
    exact Inv.hello ⟨_, h.pullOther hdowns rfl rfl⟩
  | rebootStatus status =>
    have hready := hgreeted (Or.inr ⟨status, rfl⟩)
    rw [Down.bytes, handleProtocolFrame_frame, if_neg fun hc => absurd hc.1 (by decide),
      if_pos ⟨rfl, hready, rfl, rebootCode_le status⟩]
    exact Inv.handleRebootStatus ⟨_, h.pullOther hdowns rfl rfl⟩ _
  | inputAck m =>
    rw [Down.bytes, handleProtocolFrame_frame, if_neg fun hc => absurd hc.1 (by decide),
      if_neg fun hc => absurd hc.1 (by decide), if_pos ⟨rfl, rfl⟩]
    exact h.inputAck hdowns
  | output k =>
    have hready := hgreeted (Or.inl (fun hn => by cases hn))
    obtain ⟨hpos, hle⟩ := h.downs_numbered k (by rw [hdowns]; exact List.mem_cons_self)
    have hlt : k - 1 < g.framed.length := by omega
    have hsize := h.staging.sizes _ (List.getElem_mem hlt)
    rw [← List.getD_eq_getElem _ [] hlt] at hsize
    rw [Down.bytes, handleProtocolFrame_frame, if_neg fun hc => absurd hc.1 (by decide),
      if_neg fun hc => absurd hc.1 (by decide), if_neg fun hc => absurd hc.1 (by decide),
      if_pos ⟨rfl, hready, by omega, Nat.add_le_add_left hsize.2 5⟩]
    exact h.output hdowns hready

end

/-! ## The session -/

theorem start_inv {s : Session} (h : Session.Start s) : Inv s.server s.browser := by
  obtain ⟨frames, rx, tx, status, online, pending, disconnected, timedOut, timer⟩ := h
  refine ⟨⟨.empty, .empty, [], [], [], []⟩, Window.empty_inv, Window.empty_inv,
    ⟨rfl, rfl, rfl, rfl, fun i hi => absurd hi (Nat.not_lt_zero i),
      fun i hi => absurd hi (Nat.not_lt_zero i), fun p hp => (by cases hp), rfl, Nat.zero_le _,
      fun _ => rfl, rfl⟩,
    ⟨rfl, rfl, rfl, rfl, rfl, fun _ => rfl⟩,
    ⟨rfl, rfl, fun _ => rfl, fun f hf => (by cases hf), fun p hp => (by cases hp), rfl⟩,
    ⟨rfl, fun _ => rfl, fun hlt => absurd hlt (Nat.lt_irrefl 0), rfl⟩,
    ⟨⟨Nat.zero_lt_succ _, Nat.zero_le _⟩, ⟨Nat.zero_lt_succ _, Nat.zero_le _⟩, rfl, rfl⟩, rfl, fun _ => rfl, rfl, rfl,
    rfl, rfl, fun _ => ⟨rfl, rfl, fun d hd => (by cases hd)⟩, Or.inl rfl, rfl⟩

theorem Inv.step {s : Session} (h : Inv s.server s.browser) (e : Event) :
    Inv (s.step e).server (s.step e).browser := by
  have hserver (f : Server → Server) (hf : s.server.active = true → Inv (f s.server) s.browser) :
      Inv (s.onServer f).server (s.onServer f).browser := by
    unfold Session.onServer
    split
    · next ha => exact hf ha
    · exact h
  have hbrowser (f : Browser → Browser) (hf : Inv s.server (f s.browser)) :
      Inv (s.onBrowser f).server (s.onBrowser f).browser := by
    unfold Session.onBrowser
    split
    · exact hf
    · exact h
  cases e with
  | z80Out port value => exact hserver _ fun _ => h.z80Out port value
  | z80In port => exact hserver _ fun _ => h.z80In port
  | supervisor status =>
    exact hserver _ fun _ => h.elim fun g h => ⟨g, h.server rfl rfl rfl rfl rfl rfl rfl⟩
  | message queued =>
    show Inv (s.message queued).server (s.message queued).browser
    unfold Session.message
    split
    · exact h
    next message tail hsocket =>
    split
    · next ha =>
      obtain ⟨g, h⟩ := h
      have hup := h.up ha
      rw [hsocket] at hup
      cases hg : g.ups with
      | nil => rw [hg] at hup; cases hup
      | cons u rest =>
        rw [hg, List.map_cons, List.cons.injEq] at hup
        rw [hup.1]
        exact h.onMessage hg (fun _ => hup.2) queued
    · exact h
  | acceptInput queued => exact hserver _ fun _ => h.acceptPendingInput queued
  | retryInputAck queued => exact hserver _ fun _ => h.retryInputAck queued
  | reportReboot queued => exact hserver _ fun _ => h.reportRebootStatus queued
  | hello retryReached queued => exact hserver _ fun _ => h.sendHello retryReached queued
  | stage batchReached => exact hserver _ fun _ => h.stageOutput batchReached
  | send retryReached result => exact hserver _ fun _ => h.sendOutput retryReached result
  | serverClose => exact hserver _ fun _ => h.elim fun g h => h.disconnect (Or.inl rfl) s.browser.socket
  | receive =>
    show Inv s.receive.server s.receive.browser
    unfold Session.receive
    split
    · exact h
    next frame tail hsocket =>
    split
    · obtain ⟨g, h⟩ := h
      have hdown := h.down
      rw [hsocket] at hdown
      cases hg : g.downs with
      | nil => rw [hg] at hdown; cases hdown
      | cons d rest =>
        rw [hg, List.map_cons, List.cons.injEq] at hdown
        rw [hdown.1, hdown.2]
        exact h.handleProtocolFrame hg
    · exact h
  | writeDone => exact hbrowser _ h.writeDone
  | type bytes => exact hbrowser _ (h.queueInput bytes)
  | inputTimeout => exact hbrowser _ h.inputTimeout
  | rebootClick => exact hbrowser _ h.rebootClick
  | rebootTimeout => exact hbrowser _ h.rebootTimeout
  | online now => exact hbrowser _ (h.browser rfl rfl rfl rfl rfl)
  | browserClose => exact hbrowser _ (h.browser rfl rfl rfl rfl rfl)

/-! ## Slots are kept -/

/-- The frames that are kept in `s` are still in their slots in `t`. -/
def SlotsKept (s t : Server) : Prop := ∀ i < s.outputCount,
  (t.outputFrames ((s.outputHead + i) % outputWindow)).data = (s.frame i).data ∧
    (t.outputFrames ((s.outputHead + i) % outputWindow)).length = (s.frame i).length

section
variable {s t : Server}

theorem slotsKept_of_eq (h : t.outputFrames = s.outputFrames) : SlotsKept s t := by
  intro i _
  rw [h]
  exact ⟨rfl, rfl⟩

theorem sendControl_frames (type : UInt8) (v : UInt32) (queued : Bool) (s : Server) :
    (s.sendControl type v queued).2.outputFrames = s.outputFrames := by
  cases queued <;> rfl

theorem retryInputAck_frames (queued : Bool) (s : Server) :
    (s.retryInputAck queued).outputFrames = s.outputFrames := by
  unfold Server.retryInputAck
  split
  · cases queued <;> rfl
  · rfl

theorem acceptPendingInput_frames (queued : Bool) (s : Server) :
    (s.acceptPendingInput queued).outputFrames = s.outputFrames := by
  unfold Server.acceptPendingInput
  split
  · rfl
  · cases s.queue.browserTryReceive s.pendingInput with
    | mk accepted queue =>
      cases accepted with
      | false => rfl
      | true =>
        simp only [↓reduceIte]
        exact retryInputAck_frames queued _

theorem reportRebootStatus_frames (queued : Bool) (s : Server) :
    (s.reportRebootStatus queued).outputFrames = s.outputFrames := by
  unfold Server.reportRebootStatus
  extract_lets status
  split
  · cases queued <;> rfl
  · rfl

theorem input_frames (v : UInt32) (bytes : List UInt8) (queued : Bool) (s : Server) :
    (s.input v bytes queued).outputFrames = s.outputFrames := by
  unfold Server.input
  split
  · split
    · rfl
    · exact acceptPendingInput_frames queued _
  split
  · exact retryInputAck_frames queued _
  · rfl

theorem outputAck_frames (v : UInt32) (s : Server) :
    (s.outputAck v).outputFrames = s.outputFrames := by
  unfold Server.outputAck
  split <;> rfl

theorem onMessage_frames (message : List UInt8) (queued : Bool) (s : Server) :
    (s.onMessage message queued).outputFrames = s.outputFrames := by
  unfold Server.onMessage
  split
  · rfl
  extract_lets type v
  split
  · exact reportRebootStatus_frames queued _
  split
  · rfl
  split
  · exact outputAck_frames v s
  split
  · exact input_frames v _ queued s
  · rfl

theorem setFrame_kept {i : Nat} {f : OutputFrame} (hdata : f.data = (s.frame i).data)
    (hlength : f.length = (s.frame i).length) (slot : Nat) :
    ((s.setFrame i f).outputFrames slot).data = (s.outputFrames slot).data ∧
      ((s.setFrame i f).outputFrames slot).length = (s.outputFrames slot).length := by
  unfold Server.setFrame
  by_cases heq : slot = (s.outputHead + i) % outputWindow
  · subst heq
    dsimp only
    rw [Function.update_self]
    exact ⟨hdata, hlength⟩
  · dsimp only
    rw [Function.update_of_ne heq]
    exact ⟨rfl, rfl⟩

theorem sendFrames_kept (retryReached : Nat → Bool) (result : Nat → SendResult) (n i : Nat)
    (s : Server) (slot : Nat) :
    ((s.sendFrames retryReached result n i).outputFrames slot).data = (s.outputFrames slot).data ∧
      ((s.sendFrames retryReached result n i).outputFrames slot).length =
        (s.outputFrames slot).length := by
  induction n generalizing i s with
  | zero => exact ⟨rfl, rfl⟩
  | succ n ih =>
    rw [Server.sendFrames]
    extract_lets frame
    split
    · cases result i with
      | wouldBlock => exact ⟨rfl, rfl⟩
      | failed => exact ⟨rfl, rfl⟩
      | queued =>
        obtain ⟨hdata, hlength⟩ := ih (i + 1)
          { s.setFrame i { s.frame i with sent := true, retryNil := false } with
            socket := s.socket ++ [window (s.frame i).data 0 (s.frame i).length] }
        have hkept := setFrame_kept (s := s) (i := i)
          (f := { s.frame i with sent := true, retryNil := false }) rfl rfl slot
        exact ⟨hdata.trans hkept.1, hlength.trans hkept.2⟩
    split
    · exact ⟨rfl, rfl⟩
    · exact ih (i + 1) s

/-- Staging writes into the slot behind the frames that are kept. -/
theorem setFrame_slotsKept (hroom : s.outputCount < outputWindow) (f : OutputFrame) :
    SlotsKept s (s.setFrame s.outputCount f) := by
  intro i hi
  have hframe := frame_setFrame (s := s) (f := f) hroom (Nat.lt_trans hi hroom)
  rw [if_neg (Nat.ne_of_gt hi)] at hframe
  have hslot : (s.setFrame s.outputCount f).outputFrames ((s.outputHead + i) % outputWindow) =
      s.frame i := hframe
  rw [hslot]
  exact ⟨rfl, rfl⟩

theorem closeSlot_kept (hroom : s.outputCount < outputWindow) : SlotsKept s s.closeSlot :=
  setFrame_slotsKept hroom _

theorem stageOutput_kept (batchReached : Bool) (s : Server) :
    SlotsKept s (s.stageOutput batchReached) := by
  unfold Server.stageOutput
  split
  · next hcond =>
    have hsupply : SlotsKept s s.supplySlot := setFrame_slotsKept hcond.2 _
    extract_lets t
    split
    · exact hsupply
    split
    · exact hsupply
    · have hclose : SlotsKept t t.closeSlot := closeSlot_kept hcond.2
      intro i hi
      obtain ⟨hdata, hlength⟩ := hsupply i hi
      obtain ⟨hdata', hlength'⟩ := hclose i hi
      exact ⟨hdata'.trans hdata, hlength'.trans hlength⟩
  · exact slotsKept_of_eq rfl

theorem step_slotsKept (s : Session) (e : Event) : SlotsKept s.server (s.step e).server := by
  have hserver (f : Server → Server) (hf : SlotsKept s.server (f s.server)) :
      SlotsKept s.server (s.onServer f).server := by
    unfold Session.onServer
    split
    · exact hf
    · exact slotsKept_of_eq rfl
  have hbrowser (f : Browser → Browser) : SlotsKept s.server (s.onBrowser f).server := by
    unfold Session.onBrowser
    split
    · exact slotsKept_of_eq rfl
    · exact slotsKept_of_eq rfl
  cases e with
  | message queued =>
    show SlotsKept s.server (s.message queued).server
    unfold Session.message
    split
    · exact slotsKept_of_eq rfl
    split
    · exact slotsKept_of_eq (onMessage_frames _ _ _)
    · exact slotsKept_of_eq rfl
  | acceptInput queued => exact hserver _ (slotsKept_of_eq (acceptPendingInput_frames queued _))
  | retryInputAck queued => exact hserver _ (slotsKept_of_eq (retryInputAck_frames queued _))
  | reportReboot queued => exact hserver _ (slotsKept_of_eq (reportRebootStatus_frames queued _))
  | hello retryReached queued =>
    refine hserver _ (slotsKept_of_eq ?_)
    unfold Server.sendHello
    split
    · exact sendControl_frames _ _ queued _
    · rfl
  | stage batchReached => exact hserver _ (stageOutput_kept batchReached _)
  | send retryReached result =>
    refine hserver _ ?_
    unfold Server.sendOutput
    split
    · exact fun i _ => sendFrames_kept retryReached result _ _ _ _
    · exact slotsKept_of_eq rfl
  | z80Out port value => exact hserver _ (slotsKept_of_eq rfl)
  | z80In port => exact hserver _ (slotsKept_of_eq rfl)
  | supervisor status => exact hserver _ (slotsKept_of_eq rfl)
  | serverClose => exact hserver _ (slotsKept_of_eq rfl)
  | receive =>
    show SlotsKept s.server s.receive.server
    unfold Session.receive
    split
    · exact slotsKept_of_eq rfl
    split
    · exact slotsKept_of_eq rfl
    · exact slotsKept_of_eq rfl
  | writeDone => exact hbrowser _
  | type bytes => exact hbrowser _
  | inputTimeout => exact hbrowser _
  | rebootClick => exact hbrowser _
  | rebootTimeout => exact hbrowser _
  | online now => exact hbrowser _
  | browserClose => exact hbrowser _

end

/-! ## The session as its users see it -/

/-- The bytes of output in the slots: those of the frames that are not
acknowledged, and those that are being staged. -/
def held (s : Server) : List UInt8 :=
  ((List.range s.outputCount).flatMap fun i =>
      window (s.frame i).data headerBytes ((s.frame i).length - headerBytes)) ++
    window (s.frame s.outputCount).data headerBytes s.stagedOutputLength

structure Delivers (s : Session) : Prop where
  /-- the page has written what was taken from the ring, but for bytes that are still held -/
  output : ∃ rest, s.server.taken = s.browser.written ++ rest ∧ rest <:+ held s.server
  /-- the Z80 has been given what was typed, but for bytes that the page still keeps -/
  input : ∃ accepted rest, s.browser.typed = accepted ++ rest ∧
    s.server.delivered = accepted.map crlf ∧ rest <:+ s.browser.inputBuffer
  printed : s.server.printed = s.server.taken ++ s.server.queue.tx.toList termTxDepth
  read : s.server.delivered = s.server.read ++ s.server.queue.rx.toList termRxDepth
  window : s.server.outputCount ≤ outputWindow
  kept : held s.server <:+ s.server.taken
  retained : s.server.retainedOutputBytes =
    ((List.range s.server.outputCount).map fun i => (s.server.frame i).length - headerBytes).sum
  /-- the one message the server may refuse comes before the answer to its greeting -/
  serverError : s.server.error = none ∨ s.server.error = some .invalidFrame
  browserError : s.browser.error = none

section
variable {g : Ghost} {s : Server} {b : Browser} {t tr a : Nat}

theorem Slot.payload {f : OutputFrame} {k : Nat} {payload : List UInt8} (h : Slot f k payload) :
    window f.data headerBytes (f.length - headerBytes) = payload := by
  have hbytes := h.bytes
  rw [h.length, window_append, Nat.zero_add] at hbytes
  rw [h.length, Nat.add_sub_cancel_left]
  exact (List.append_inj hbytes rfl).2

theorem map_getD_drop {l : List (List UInt8)} {n : Nat} (hn : a + n = l.length) :
    (List.range n).map (fun i => l.getD (a + i) []) = l.drop a := by
  refine List.ext_getElem (by simp; omega) fun i h1 h2 => ?_
  have hi : i < n := by simpa using h1
  rw [List.getElem_map, List.getElem_range, List.getD_eq_getElem _ _ (by omega), List.getElem_drop]

theorem Staging.payloads (h : Staging t tr a g.framed s) :
    (List.range s.outputCount).map (fun i =>
      window (s.frame i).data headerBytes ((s.frame i).length - headerBytes)) = g.framed.drop a := by
  rw [← map_getD_drop h.count]
  refine List.map_congr_left fun i hi => ?_
  exact (h.slot i (List.mem_range.mp hi)).payload

theorem Rel.delivers {s : Session} (h : Rel g s.server s.browser) : Delivers s := by
  have hacked := Nat.le_trans h.out.climbs.le h.out.consumed
  have hpayloads := h.staging.payloads
  have hheld : held s.server = (g.framed.drop g.out.acked).flatten ++
      window (s.server.frame s.server.outputCount).data headerBytes s.server.stagedOutputLength := by
    rw [held, List.flatMap_def, hpayloads]
  refine ⟨?_, ?_, h.rings.printed, h.rings.delivered, h.room, ?_, ?_, h.serverError,
    h.browserError⟩
  · refine ⟨(g.framed.drop g.out.received).flatten ++
      window (s.server.frame s.server.outputCount).data headerBytes s.server.stagedOutputLength,
      ?_, ?_⟩
    · rw [h.staging.taken, h.writing.written, ← List.append_assoc, ← List.flatten_append,
        List.take_append_drop]
    · obtain ⟨k, hk⟩ := Nat.exists_eq_add_of_le hacked
      rw [hheld, hk, ← List.drop_drop]
      refine ⟨((g.framed.drop g.out.acked).take k).flatten, ?_⟩
      rw [← List.append_assoc, ← List.flatten_append, List.take_append_drop]
  · obtain ⟨hle, hconsumed, hreceived, hlength⟩ := h.inputCounts
    refine ⟨(g.inputs.take g.inp.consumed).flatten, ?_⟩
    rcases Nat.eq_or_lt_of_le hle with heq | hlt
    · refine ⟨s.browser.inputBuffer, ?_, h.accepting.delivered, List.suffix_refl _⟩
      rw [h.typing.typed, heq]
    · have hnext : g.inp.consumed = g.inp.acked + 1 := by omega
      cases hf : s.browser.inputFrame with
      | none =>
        have := h.typing.idle hf
        omega
      | some f =>
        obtain ⟨-, -, rest, hrest⟩ := h.typing.frame f hf
        refine ⟨rest, ?_, h.accepting.delivered, ⟨_, hrest⟩⟩
        rw [h.typing.typed, ← hrest, hnext, take_succ_getD (by omega), List.flatten_append]
        simp
  · rw [hheld, h.staging.taken]
    refine ⟨(g.framed.take g.out.acked).flatten, ?_⟩
    rw [← List.append_assoc, ← List.flatten_append, List.take_append_drop]
  · rw [h.staging.retained, ← hpayloads, List.map_map]
    refine congrArg List.sum (List.map_congr_left fun i _ => ?_)
    exact window_length

end

/-- Whatever happens in a session, both directions deliver in order and once,
and no frame is overwritten before it is acknowledged. -/
theorem terminal_exactly_once {s₀ : Session} (hstart : Session.Start s₀) (events : List Event) :
    Delivers (run Session.step s₀ events) ∧
      ∀ e, SlotsKept (run Session.step s₀ events).server
        ((run Session.step s₀ events).step e).server := by
  have hinv : Inv (run Session.step s₀ events).server (run Session.step s₀ events).browser :=
    run_invariant (I := fun s : Session => Inv s.server s.browser) (fun s e h => h.step e)
      (start_inv hstart) events
  obtain ⟨g, h⟩ := hinv
  exact ⟨h.delivers, fun e => step_slotsKept _ e⟩

/-- A session whose buffers are clear and whose page has seen no reboot. -/
def freshSession : Session where
  server := .start (fun _ => ⟨fun _ => 0, 0, true, false⟩) (fun _ => 0) (fun _ => 0) .idle
  browser := .start true false false false false

/-- One byte each way; the output is sent twice, and its first
acknowledgement is on its way. -/
def oneByteEachWay : List Event :=
  [.hello true true, .receive, .message true, .receive, .z80Out 0 0x41, .stage true,
    .send (fun _ => true) (fun _ => .queued), .send (fun _ => true) (fun _ => .queued), .receive,
    .writeDone, .receive, .type [0x0A], .message true, .message true, .message true, .z80In 0]

theorem one_byte_each_way :
    (run Session.step freshSession oneByteEachWay).browser.written = [0x41] ∧
      (run Session.step freshSession oneByteEachWay).server.read = [0x0D] ∧
      Delivers (run Session.step freshSession oneByteEachWay) :=
  ⟨by decide +kernel, by decide +kernel, (terminal_exactly_once (.intro ..) oneByteEachWay).1⟩

end Z80Sbc.Terminal.ExactlyOnce
