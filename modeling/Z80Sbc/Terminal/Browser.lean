import Z80Sbc.Terminal.Server

/-! # The terminal page

The protocol of `Terminal/index.html` during one WebSocket session. The socket
holds what the page has sent and the server has not taken. `term.write` runs its
callbacks in the order of the writes. -/

namespace Z80Sbc.Terminal
open Storage

def inputFrameBytes : Nat := 64
def maxPendingInput : Nat := 65536
def outputFrameBytes : Nat := 512

/-- What `handleProtocolFrame` throws. -/
inductive BrowserError where
  | invalidProtocol | windowExceeded | outOfOrder | unsupported
  deriving DecidableEq

structure Browser where
  online : Bool
  inputBuffer : List UInt8
  /-- the retry timer runs -/
  inputTimer : Bool
  inputSequence : UInt32
  inputFrame : Option (List UInt8)
  outputSequence : UInt32
  outputReceivedSequence : UInt32
  outputPending : Nat
  protocolReady : Bool
  rebootPending : Bool
  rebootDisconnected : Bool
  rebootTimedOut : Bool
  rebootTimer : Bool
  /-- the sequences of the write callbacks that have not run -/
  callbacks : List UInt32
  connected : Bool
  error : Option BrowserError
  socket : List (List UInt8)
  /-- the bytes passed to `term.write` -/
  written : List UInt8
  /-- the bytes queued for input, less those that the reboot button discards -/
  typed : List UInt8

def protocolFrame (type : UInt8) (sequence : UInt32) (payload : List UInt8) : List UInt8 :=
  type :: le32 sequence ++ payload

namespace Browser

/-- The socket has opened: `resetProtocol`. What a reboot left is kept. -/
def start (online rebootPending rebootDisconnected rebootTimedOut rebootTimer : Bool) :
    Browser where
  online := online
  inputBuffer := []
  inputTimer := false
  inputSequence := 1
  inputFrame := none
  outputSequence := 1
  outputReceivedSequence := 1
  outputPending := 0
  protocolReady := false
  rebootPending := rebootPending
  rebootDisconnected := rebootDisconnected
  rebootTimedOut := rebootTimedOut
  rebootTimer := rebootTimer
  callbacks := []
  connected := true
  error := none
  socket := []
  written := []
  typed := []

def sendToServer (data : List UInt8) (b : Browser) : Bool × Browser :=
  if b.connected ∧ b.online then (true, { b with socket := b.socket ++ [data] }) else (false, b)

/-! ## Input -/

def pumpInput (b : Browser) : Browser :=
  if b.protocolReady = false ∨ b.connected = false ∨ b.rebootPending ∨ b.inputBuffer.length = 0 then b
  else
    let frame := b.inputFrame.getD
      (protocolFrame MessageType.input b.inputSequence (b.inputBuffer.take inputFrameBytes))
    { (sendToServer frame { b with inputFrame := some frame }).2 with inputTimer := true }

def queueInput (bytes : List UInt8) (b : Browser) : Browser :=
  if b.connected = false ∨ b.rebootPending then b
  else if b.protocolReady = false then b
  else if b.inputBuffer.length + bytes.length > maxPendingInput then b
  else
    let b := { b with inputBuffer := b.inputBuffer ++ bytes, typed := b.typed ++ bytes }
    if b.inputFrame.isNone then b.pumpInput else b

/-- The retry timer fires. -/
def inputTimeout (b : Browser) : Browser :=
  if b.inputTimer then pumpInput { b with inputTimer := false } else b

/-- The `INPUT_ACK` branch of `handleProtocolFrame`. -/
def inputAck (sequence : UInt32) (b : Browser) : Browser :=
  match b.inputFrame with
  | none => b
  | some frame =>
    if sequence = b.inputSequence then
      pumpInput
        { b with
          inputBuffer := b.inputBuffer.drop (frame.length - 5)
          inputFrame := none
          inputSequence := b.inputSequence + 1
          inputTimer := false }
    else b

/-! ## Output -/

/-- The `OUTPUT` branch of `handleProtocolFrame`. -/
def output (sequence : UInt32) (payload : List UInt8) (b : Browser) : Browser :=
  if sequence = b.outputReceivedSequence then
    if b.outputPending ≥ outputWindow then { b with connected := false, error := some .windowExceeded }
    else
      { b with
        outputReceivedSequence := sequence + 1
        outputPending := b.outputPending + 1
        written := b.written ++ payload
        callbacks := b.callbacks ++ [sequence] }
  else
    let consumed := b.outputSequence - sequence
    let pending := b.outputReceivedSequence - sequence
    if consumed > 0 ∧ consumed < 0x80000000 then
      (sendToServer (protocolFrame MessageType.outputAck (b.outputSequence - 1) []) b).2
    else if pending = 0 ∨ pending > UInt32.ofNat outputWindow then
      { b with connected := false, error := some .outOfOrder }
    else b

/-- The callback of the oldest write that is not done. -/
def writeDone (b : Browser) : Browser :=
  match b.callbacks with
  | [] => b
  | sequence :: rest =>
    (sendToServer (protocolFrame MessageType.outputAck sequence [])
      { b with
        callbacks := rest
        outputPending := b.outputPending - 1
        outputSequence := b.outputSequence + 1 }).2

/-! ## The reboot button -/

def finishReboot (b : Browser) : Browser :=
  pumpInput { b with rebootPending := false, rebootTimer := false }

def watchReboot (b : Browser) : Browser := { b with rebootTimer := true }

def rebootTimeout (b : Browser) : Browser :=
  if b.rebootTimer then finishReboot { b with rebootTimer := false, rebootTimedOut := true } else b

/-- The button is clicked and confirmed. Unsent keystrokes are discarded; the
frame in flight is kept until it is acknowledged. -/
def rebootClick (b : Browser) : Browser :=
  if b.connected = false ∨ b.protocolReady = false ∨ b.rebootPending ∨ b.rebootTimedOut then b
  else
    let kept := match b.inputFrame with
      | some frame => b.inputBuffer.take (frame.length - 5)
      | none => []
    let (sent, b) := sendToServer (protocolFrame MessageType.reboot 0 [])
      { b with
        rebootPending := true
        rebootDisconnected := false
        inputTimer := false
        inputBuffer := kept
        typed := b.typed.take (b.typed.length - (b.inputBuffer.length - kept.length)) }
    if sent then b.watchReboot else b.finishReboot

def handleRebootStatus (status : UInt32) (b : Browser) : Browser :=
  if status = 1 ∨ status = 2 ∨ status = 3 then watchReboot { b with rebootPending := true }
  else if status = 4 then b.finishReboot
  else if status = 5 then finishReboot { b with rebootTimedOut := true }
  else if status = 6 then b.finishReboot
  else
    let b := { b with rebootTimedOut := false }
    if status = 7 ∧ b.rebootPending ∧ b.rebootDisconnected then b.finishReboot else b

/-! ## Messages -/

/-- The `HELLO` branch of `handleProtocolFrame`. -/
def hello (b : Browser) : Browser :=
  let b := { b with protocolReady := true }
  let b := if b.rebootPending ∧ b.rebootDisconnected then b.finishReboot else b
  let b := (sendToServer (protocolFrame MessageType.ready protocolVersion []) b).2
  if b.inputFrame.isNone then b.pumpInput else b

def handleProtocolFrame (frame : List UInt8) (b : Browser) : Browser :=
  if frame.length < 5 then { b with connected := false, error := some .invalidProtocol }
  else
    let type := frame.getD 0 0
    let sequence := read32 (frame.getD · 0) 1
    if type = MessageType.hello ∧ frame.length = 5 ∧ sequence = protocolVersion then b.hello
    else if type = MessageType.rebootStatus ∧ b.protocolReady ∧ frame.length = 5 ∧ sequence ≤ 7 then
      b.handleRebootStatus sequence
    else if type = MessageType.inputAck ∧ frame.length = 5 then b.inputAck sequence
    else if type = MessageType.output ∧ b.protocolReady ∧ frame.length > 5 ∧
        frame.length ≤ 5 + outputFrameBytes then
      b.output sequence (frame.drop 5)
    else { b with connected := false, error := some .unsupported }

end Browser

end Z80Sbc.Terminal
