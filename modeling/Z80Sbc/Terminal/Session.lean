import Z80Sbc.Concurrent.Run
import Z80Sbc.Concurrent.SlidingWindow
import Z80Sbc.Terminal.Browser

/-! # One terminal session

The server, the page and the two directions of their socket, which loses nothing
once it has it. The Z80 uses its ports at any time, the parts of
`z80_web_terminal_poll` run in any order and any number of times, and so do the
events of the page. A side whose connection has ended does nothing more; what
was queued for the other side may still arrive. -/

namespace Z80Sbc.Terminal
open Supervisor (WebReboot)

structure Session where
  server : Server
  browser : Browser

inductive Event where
  | z80Out (port value : UInt8)
  | z80In (port : UInt8)
  /-- the supervisor moves the reboot status -/
  | supervisor (status : WebReboot)
  /-- the server takes a message, and a reply to it would be queued -/
  | message (queued : Bool)
  | acceptInput (queued : Bool)
  | retryInputAck (queued : Bool)
  | reportReboot (queued : Bool)
  | hello (retryReached queued : Bool)
  | stage (batchReached : Bool)
  | send (retryReached : Nat → Bool) (result : Nat → SendResult)
  /-- the server ends the session for another reason, or the connection fails -/
  | serverClose
  /-- the page receives a message -/
  | receive
  | writeDone
  | type (bytes : List UInt8)
  | inputTimeout
  | rebootClick
  | rebootTimeout
  | online (now : Bool)
  | browserClose

namespace Session

/-- The server runs `f` while its connection is active. -/
def onServer (f : Server → Server) (s : Session) : Session :=
  if s.server.active then { s with server := f s.server } else s

/-- The page runs `f` while it is connected. -/
def onBrowser (f : Browser → Browser) (s : Session) : Session :=
  if s.browser.connected then { s with browser := f s.browser } else s

def message (queued : Bool) (s : Session) : Session :=
  match s.browser.socket with
  | [] => s
  | message :: rest =>
    if s.server.active then
      ⟨s.server.onMessage message queued, { s.browser with socket := rest }⟩
    else s

def receive (s : Session) : Session :=
  match s.server.socket with
  | [] => s
  | frame :: rest =>
    if s.browser.connected then
      ⟨{ s.server with socket := rest }, s.browser.handleProtocolFrame frame⟩
    else s

def step (s : Session) : Event → Session
  | .z80Out port value => s.onServer (·.z80Out port value)
  | .z80In port => s.onServer (·.z80In port)
  | .supervisor status => s.onServer ({ · with rebootStatus := status })
  | .message queued => s.message queued
  | .acceptInput queued => s.onServer (·.acceptPendingInput queued)
  | .retryInputAck queued => s.onServer (·.retryInputAck queued)
  | .reportReboot queued => s.onServer (·.reportRebootStatus queued)
  | .hello retryReached queued => s.onServer (·.sendHello retryReached queued)
  | .stage batchReached => s.onServer (·.stageOutput batchReached)
  | .send retryReached result => s.onServer (·.sendOutput retryReached result)
  | .serverClose => s.onServer (·.disconnect none)
  | .receive => s.receive
  | .writeDone => s.onBrowser (·.writeDone)
  | .type bytes => s.onBrowser (·.queueInput bytes)
  | .inputTimeout => s.onBrowser (·.inputTimeout)
  | .rebootClick => s.onBrowser (·.rebootClick)
  | .rebootTimeout => s.onBrowser (·.rebootTimeout)
  | .online now => s.onBrowser ({ · with online := now })
  | .browserClose => s.onBrowser ({ · with connected := false })

/-- A session begins: any page, any contents of the buffers, any reboot status. -/
inductive Start : Session → Prop
  | intro (frames : Nat → OutputFrame) (rx tx : Nat → UInt8) (status : WebReboot)
      (online rebootPending rebootDisconnected rebootTimedOut rebootTimer : Bool) :
      Start ⟨.start frames rx tx status,
        .start online rebootPending rebootDisconnected rebootTimedOut rebootTimer⟩

end Session

end Z80Sbc.Terminal
