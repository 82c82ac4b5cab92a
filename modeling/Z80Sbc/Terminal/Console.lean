import Z80Sbc.Terminal.Queue

/-! # The terminal and its two owners

All of `terminal_queue.c`: the rings of `Queue`, what USB and a browser do with them, and the
counters of lost bytes. A firmware without the network uses `receive` and `setConnected`
for USB, one with it uses the functions with `usb` and `browser` in their names.

The fields from `written` on are not in the source. Since the output ring was cleared they
keep the bytes accepted from the Z80 and those supplied; since the input ring was cleared
they keep the bytes accepted and those taken out again, with whether the Z80 read them;
and since the start they keep the number of bytes that were dropped. -/

namespace Z80Sbc.Terminal
open Data

structure Console where
  queue : Queue
  usbConnected : Bool
  rxDrops : UInt32
  txDrops : UInt32
  written : List UInt8
  supplied : List UInt8
  received : List UInt8
  left : List (Bool × UInt8)
  dropped : Nat

/-- `z80_terminal_queue_init` -/
def queueInit : Console where
  queue := ⟨⟨fun _ => 0, 0, 0⟩, ⟨fun _ => 0, 0, 0⟩, false, false, false⟩
  usbConnected := false
  rxDrops := 0
  txDrops := 0
  written := []
  supplied := []
  received := []
  left := []
  dropped := 0

namespace Console

/-- The output half of `clear_queues`. -/
def clearOutput (c : Console) : Console :=
  { c with
    queue := { c.queue with tx := { c.queue.tx with head := 0, count := 0 }, txPending := false }
    written := []
    supplied := [] }

/-- `clear_queues` -/
def clearQueues (c : Console) : Console :=
  let c := c.clearOutput
  { c with
    queue := { c.queue with rx := { c.queue.rx with head := 0, count := 0 } }
    received := []
    left := [] }

/-- `z80_terminal_io_read` -/
def ioRead (port : UInt8) (c : Console) : UInt8 × Console :=
  let (value, queue) := c.queue.ioRead port
  (value,
    { c with
      queue
      left := if port ≠ termStatusPort ∧ c.queue.rx.count ≠ 0 then c.left ++ [(true, value)]
        else c.left })

/-- `z80_terminal_io_write` -/
def ioWrite (port value : UInt8) (c : Console) : Console :=
  { c with
    queue := c.queue.ioWrite port value
    txDrops :=
      if port = termDataPort ∧ c.queue.clientConnected ∧ ¬c.queue.tx.count < termTxDepth then
        c.txDrops + 1
      else c.txDrops
    written :=
      if port = termDataPort ∧ c.queue.clientConnected ∧ c.queue.tx.count < termTxDepth then
        c.written ++ [value]
      else c.written }

/-- A full input ring loses its oldest byte. -/
def makeRoom (c : Console) : Console :=
  if c.queue.rx.count = termRxDepth then
    { c with
      queue := { c.queue with rx := ringDropOldest termRxDepth c.queue.rx }
      rxDrops := c.rxDrops + 1
      left := c.left ++ [(false, c.queue.rx.data c.queue.rx.head)]
      dropped := c.dropped + 1 }
  else c

/-- The loop body of `z80_terminal_receive`. -/
def receiveByte (value : UInt8) (c : Console) : Console :=
  let c := c.makeRoom
  { c with
    queue := { c.queue with rx := ringAdd termRxDepth c.queue.rx (crlf value) }
    received := c.received ++ [crlf value] }

/-- `z80_terminal_receive` -/
def receive (data : List UInt8) (c : Console) : Console :=
  data.foldl (fun c value => c.receiveByte value) c

/-- `z80_terminal_peek` -/
def peek (limit : Nat) (c : Console) : List UInt8 :=
  if limit = 0 ∨ c.queue.txPending = false then [] else ringPeek termTxDepth c.queue.tx limit

/-- `z80_terminal_supply` -/
def supply (limit : Nat) (c : Console) : List UInt8 × Console :=
  let (bytes, queue) := c.queue.supply limit
  (bytes, { c with queue, supplied := c.supplied ++ bytes })

/-- `z80_terminal_browser_try_receive` -/
def browserTryReceive (data : List UInt8) (c : Console) : Bool × Console :=
  let (accepted, queue) := c.queue.browserTryReceive data
  (accepted, { c with queue, received := c.received ++ if accepted then data.map crlf else [] })

/-- `z80_terminal_browser_connect` -/
def browserConnect (c : Console) : Console :=
  let c := c.clearQueues
  { c with queue := { c.queue with browserConnected := true, clientConnected := true } }

/-- `z80_terminal_set_connected` -/
def setConnected (connected : Bool) (c : Console) : Console :=
  let c := { c with queue := { c.queue with clientConnected := connected } }
  if connected then c else c.clearOutput

/-- `z80_terminal_browser_disconnect` -/
def browserDisconnect (c : Console) : Console :=
  if c.queue.browserConnected then
    clearQueues { c with
      queue := { c.queue with browserConnected := false, clientConnected := c.usbConnected } }
  else c

/-- `z80_terminal_usb_connected` -/
def usbConnect (connected : Bool) (c : Console) : Console :=
  let c :=
    if c.queue.browserConnected then c
    else
      let changed := c.usbConnected != connected
      let c := { c with queue := { c.queue with clientConnected := connected } }
      if changed then c.clearQueues else c
  { c with usbConnected := connected }

/-- `z80_terminal_usb_receive` -/
def usbReceive (value : UInt8) (c : Console) : Console :=
  if c.usbConnected && !c.queue.browserConnected then c.receiveByte value else c

/-- `z80_terminal_usb_supply` -/
def usbSupply (limit : Nat) (c : Console) : List UInt8 × Console :=
  if limit = 0 ∨ c.queue.txPending = false then ([], c)
  else if c.usbConnected && !c.queue.browserConnected then c.supply limit
  else ([], c)

end Console

/-- The calls, each of them under the terminal lock. -/
inductive ConsoleOp where
  | ioRead (port : UInt8)
  | ioWrite (port value : UInt8)
  | receive (data : List UInt8)
  | peek (limit : Nat)
  | supply (limit : Nat)
  | browserTryReceive (data : List UInt8)
  | browserConnect
  | setConnected (connected : Bool)
  | browserDisconnect
  | usbConnected (connected : Bool)
  | usbReceive (value : UInt8)
  | usbSupply (limit : Nat)

def consoleStep (c : Console) : ConsoleOp → Console
  | .ioRead port => (c.ioRead port).2
  | .ioWrite port value => c.ioWrite port value
  | .receive data => c.receive data
  | .peek _ => c
  | .supply limit => (c.supply limit).2
  | .browserTryReceive data => (c.browserTryReceive data).2
  | .browserConnect => c.browserConnect
  | .setConnected connected => c.setConnected connected
  | .browserDisconnect => c.browserDisconnect
  | .usbConnected connected => c.usbConnect connected
  | .usbReceive value => c.usbReceive value
  | .usbSupply limit => (c.usbSupply limit).2

def consoleRun (ops : List ConsoleOp) : Console := ops.foldl consoleStep queueInit

/-! ## What every call keeps -/

structure Console.Kept (c : Console) : Prop where
  rx : c.queue.rx.Ok termRxDepth
  tx : c.queue.tx.Ok termTxDepth
  output : c.written = c.supplied ++ c.queue.tx.toList termTxDepth
  input : c.received = c.left.map Prod.snd ++ c.queue.rx.toList termRxDepth
  counted : c.rxDrops = UInt32.ofNat c.dropped
  pending : c.queue.txPending = true ↔ c.queue.tx.count ≠ 0

namespace Console
variable {c : Console}

theorem Kept.clearOutput (h : c.Kept) : c.clearOutput.Kept :=
  ⟨h.rx, ⟨Nat.zero_lt_succ _, Nat.zero_le _⟩, rfl, h.input, h.counted,
    by simp [Console.clearOutput]⟩

theorem Kept.clearQueues (h : c.Kept) : c.clearQueues.Kept :=
  ⟨⟨Nat.zero_lt_succ _, Nat.zero_le _⟩, h.clearOutput.tx, rfl, rfl, h.counted, h.clearOutput.pending⟩

/-- The flags of the owners do not matter. -/
theorem Kept.owner (h : c.Kept) (client browser usb : Bool) :
    Kept { c with
      queue := { c.queue with clientConnected := client, browserConnected := browser }
      usbConnected := usb } :=
  ⟨h.rx, h.tx, h.output, h.input, h.counted, h.pending⟩

/-- Only the data port takes a byte, and only when there is one. -/
theorem ioRead_eq (port : UInt8) :
    c.ioRead port =
      if port ≠ termStatusPort ∧ c.queue.rx.count ≠ 0 then
        (c.queue.rx.data c.queue.rx.head,
          { c with
            queue := { c.queue with rx := ringDropOldest termRxDepth c.queue.rx }
            left := c.left ++ [(true, c.queue.rx.data c.queue.rx.head)] })
      else ((c.queue.ioRead port).1, c) := by
  unfold Console.ioRead Queue.ioRead
  by_cases hport : port = termStatusPort
  · simp [hport]
  · by_cases hcount : c.queue.rx.count = 0
    · simp [hport, hcount]
    · simp [hport, hcount]

theorem Kept.ioRead (h : c.Kept) (port : UInt8) : (c.ioRead port).2.Kept := by
  rw [ioRead_eq]
  split
  next hread =>
    obtain ⟨hok, hlist⟩ := ringDropOldest_spec h.rx (Nat.pos_of_ne_zero hread.2)
    refine ⟨hok, h.tx, h.output, ?_, h.counted, h.pending⟩
    show c.received = List.map Prod.snd (c.left ++ _) ++ _
    rw [h.input, hlist, List.map_append, List.append_assoc]
    rfl
  · exact h

theorem Kept.ioWrite (h : c.Kept) (port value : UInt8) : (c.ioWrite port value).Kept := by
  unfold Console.ioWrite Queue.ioWrite
  by_cases hwrite : port = termDataPort ∧ c.queue.clientConnected ∧ c.queue.tx.count < termTxDepth
  · obtain ⟨hok, hlist⟩ := ringAdd_spec h.tx hwrite.2.2 value
    rw [if_pos hwrite, if_pos hwrite]
    refine ⟨h.rx, hok, ?_, h.input, h.counted, ?_⟩
    · show c.written ++ [value] = c.supplied ++ _
      rw [hlist, h.output, List.append_assoc]
    · show (if c.queue.tx.count = 0 then true else c.queue.txPending) = true ↔
        c.queue.tx.count + 1 ≠ 0
      refine ⟨fun _ => Nat.succ_ne_zero _, fun _ => ?_⟩
      split
      · rfl
      · next hne => exact h.pending.mpr hne
  · rw [if_neg hwrite, if_neg hwrite]
    exact ⟨h.rx, h.tx, h.output, h.input, h.counted, h.pending⟩

theorem Kept.makeRoom (h : c.Kept) :
    c.makeRoom.Kept ∧ c.makeRoom.queue.rx.count < termRxDepth := by
  have hcount := h.rx.count
  unfold Console.makeRoom
  split
  next hfull =>
    have hpos : 0 < c.queue.rx.count := by
      rw [hfull]
      decide
    obtain ⟨hok, hlist⟩ := ringDropOldest_spec h.rx hpos
    refine ⟨⟨hok, h.tx, h.output, ?_, ?_, h.pending⟩, ?_⟩
    · show c.received = List.map Prod.snd (c.left ++ _) ++ _
      rw [h.input, hlist, List.map_append, List.append_assoc]
      rfl
    · show c.rxDrops + 1 = UInt32.ofNat (c.dropped + 1)
      rw [h.counted, UInt32.ofNat_add]
      rfl
    · exact Nat.lt_of_lt_of_le (Nat.sub_lt hpos Nat.one_pos) hcount
  next hfull => exact ⟨h, Nat.lt_of_le_of_ne hcount hfull⟩

theorem Kept.receiveByte (h : c.Kept) (value : UInt8) : (c.receiveByte value).Kept := by
  obtain ⟨hroom, hlt⟩ := h.makeRoom
  obtain ⟨hok, hlist⟩ := ringAdd_spec hroom.rx hlt (crlf value)
  refine ⟨hok, hroom.tx, hroom.output, ?_, hroom.counted, hroom.pending⟩
  show c.makeRoom.received ++ [crlf value] = _ ++ (ringAdd _ _ _).toList termRxDepth
  rw [hlist, hroom.input, List.append_assoc]
  rfl

theorem Kept.receive (h : c.Kept) (data : List UInt8) : (c.receive data).Kept := by
  unfold Console.receive
  induction data generalizing c with
  | nil => exact h
  | cons value data ih => exact ih (h.receiveByte value)

theorem Kept.supply (h : c.Kept) (limit : Nat) : (c.supply limit).2.Kept := by
  unfold Console.supply Queue.supply
  by_cases hnone : limit = 0 ∨ c.queue.txPending = false
  · rw [if_pos hnone]
    refine ⟨h.rx, h.tx, ?_, h.input, h.counted, h.pending⟩
    show c.written = c.supplied ++ [] ++ _
    rw [List.append_nil]
    exact h.output
  · obtain ⟨hok, hlist⟩ := ringRemove_spec h.tx limit
    have hpending : c.queue.txPending = true := by
      rw [not_or, Bool.not_eq_false] at hnone
      exact hnone.2
    rw [if_neg hnone]
    refine ⟨h.rx, hok, ?_, h.input, h.counted, ?_⟩
    · show c.written = c.supplied ++ (ringRemove termTxDepth c.queue.tx limit).1 ++
        (ringRemove termTxDepth c.queue.tx limit).2.toList termTxDepth
      rw [h.output, hlist, List.append_assoc]
    · show (if (ringRemove termTxDepth c.queue.tx limit).2.count = 0 then false
        else c.queue.txPending) = true ↔ (ringRemove termTxDepth c.queue.tx limit).2.count ≠ 0
      split
      next hempty => exact ⟨fun hfalse => Bool.noConfusion hfalse, fun hne => absurd hempty hne⟩
      next hne => exact ⟨fun _ => hne, fun _ => hpending⟩

theorem Kept.browserTryReceive (h : c.Kept) (data : List UInt8) :
    (c.browserTryReceive data).2.Kept := by
  obtain ⟨hok, htx, hlist⟩ := browserTryReceive_spec h.rx data
  have hpending : (c.queue.browserTryReceive data).2.txPending = c.queue.txPending := by
    unfold Queue.browserTryReceive
    split
    · rfl
    · split <;> rfl
  refine ⟨hok, ?_, ?_, ?_, h.counted, ?_⟩
  · show (c.queue.browserTryReceive data).2.tx.Ok termTxDepth
    rw [htx]
    exact h.tx
  · show c.written = c.supplied ++ (c.queue.browserTryReceive data).2.tx.toList termTxDepth
    rw [htx]
    exact h.output
  · show c.received ++ (if (c.queue.browserTryReceive data).1 then _ else _) =
      c.left.map Prod.snd ++ (c.queue.browserTryReceive data).2.rx.toList termRxDepth
    rw [hlist, h.input, List.append_assoc]
  · show (c.queue.browserTryReceive data).2.txPending = true ↔
      (c.queue.browserTryReceive data).2.tx.count ≠ 0
    rw [hpending, htx]
    exact h.pending

end Console

theorem consoleStep_kept {c : Console} (h : c.Kept) (op : ConsoleOp) : (consoleStep c op).Kept := by
  cases op with
  | ioRead port => exact h.ioRead port
  | ioWrite port value => exact h.ioWrite port value
  | receive data => exact h.receive data
  | peek limit => exact h
  | supply limit => exact h.supply limit
  | browserTryReceive data => exact h.browserTryReceive data
  | browserConnect => exact h.clearQueues.owner true true c.usbConnected
  | setConnected connected =>
    have howner := h.owner connected c.queue.browserConnected c.usbConnected
    cases connected with
    | true => exact howner
    | false => exact howner.clearOutput
  | browserDisconnect =>
    show c.browserDisconnect.Kept
    unfold Console.browserDisconnect
    split
    · exact (h.owner c.usbConnected false c.usbConnected).clearQueues
    · exact h
  | usbConnected connected =>
    show (c.usbConnect connected).Kept
    unfold Console.usbConnect
    split
    · exact h.owner c.queue.clientConnected c.queue.browserConnected connected
    · have howner := h.owner connected c.queue.browserConnected c.usbConnected
      dsimp only
      split
      · exact howner.clearQueues.owner connected c.queue.browserConnected connected
      · exact howner.owner connected c.queue.browserConnected connected
  | usbReceive value =>
    show (c.usbReceive value).Kept
    unfold Console.usbReceive
    split
    · exact h.receiveByte value
    · exact h
  | usbSupply limit =>
    show (c.usbSupply limit).2.Kept
    unfold Console.usbSupply
    split
    · exact h
    split
    · exact h.supply limit
    · exact h

theorem consoleRun_kept (ops : List ConsoleOp) : (consoleRun ops).Kept := by
  have hfrom : ∀ {c : Console}, c.Kept → (ops.foldl consoleStep c).Kept := by
    induction ops with
    | nil => exact fun h => h
    | cons op ops ih => exact fun h => ih (consoleStep_kept h op)
  exact hfrom ⟨⟨by decide, by decide⟩, ⟨by decide, by decide⟩, rfl, rfl, rfl, by simp [queueInit]⟩

/-! ## Owners -/

/-- Nothing that was queued is left. -/
def Console.Fresh (c : Console) : Prop :=
  c.queue.rx.toList termRxDepth = [] ∧ c.queue.tx.toList termTxDepth = []

/-- What the calls mean for the two owners. -/
structure Console.Owned (c : Console) : Prop where
  silent : c.queue.browserConnected = true →
    (∀ value, c.usbReceive value = c) ∧ ∀ limit, c.usbSupply limit = ([], c)
  read : ∀ port, port ≠ termStatusPort →
    (c.ioRead port).1 = (c.queue.rx.toList termRxDepth).headD 0
  message : ∀ data, (c.browserTryReceive data).2.queue.rx.toList termRxDepth =
    c.queue.rx.toList termRxDepth ++
      if (c.browserTryReceive data).1 then data.map crlf else []
  overflow : ∀ value,
    (c.receiveByte value).queue.rx.toList termRxDepth =
        (c.queue.rx.toList termRxDepth).drop ((c.receiveByte value).dropped - c.dropped) ++
          [crlf value] ∧
      (c.receiveByte value).dropped =
        c.dropped + if c.queue.rx.count = termRxDepth then 1 else 0
  connect : c.browserConnect.Fresh
  disconnect : c.queue.browserConnected = true → c.browserDisconnect.Fresh
  usb : ∀ connected, c.queue.browserConnected = false → connected ≠ c.usbConnected →
    (c.usbConnect connected).Fresh
  output : (c.setConnected false).queue.tx.toList termTxDepth = []

theorem Console.usbSilent {c : Console} (hbrowser : c.queue.browserConnected = true) :
    (∀ value, c.usbReceive value = c) ∧ ∀ limit, c.usbSupply limit = ([], c) := by
  have howner : (c.usbConnected && !c.queue.browserConnected) = false := by
    rw [hbrowser, Bool.not_true, Bool.and_false]
  refine ⟨fun value => ?_, fun limit => ?_⟩
  · unfold Console.usbReceive
    rw [howner]
    rfl
  · unfold Console.usbSupply
    rw [howner]
    split <;> rfl

/-- A byte that finds the ring full takes the place of the oldest. -/
theorem Console.Kept.overflow {c : Console} (h : c.Kept) (value : UInt8) :
    (c.receiveByte value).queue.rx.toList termRxDepth =
        (c.queue.rx.toList termRxDepth).drop ((c.receiveByte value).dropped - c.dropped) ++
          [crlf value] ∧
      (c.receiveByte value).dropped =
        c.dropped + if c.queue.rx.count = termRxDepth then 1 else 0 := by
  obtain ⟨hroom, hlt⟩ := h.makeRoom
  obtain ⟨-, hlist⟩ := ringAdd_spec hroom.rx hlt (crlf value)
  have hbyte : (c.receiveByte value).queue.rx.toList termRxDepth =
      c.makeRoom.queue.rx.toList termRxDepth ++ [crlf value] := hlist
  have hdropped : (c.receiveByte value).dropped = c.makeRoom.dropped := rfl
  rw [hbyte, hdropped]
  unfold Console.makeRoom
  split
  next hfull =>
    have hpos : 0 < c.queue.rx.count := by
      rw [hfull]
      exact Nat.zero_lt_succ _
    obtain ⟨-, holdest⟩ := ringDropOldest_spec h.rx hpos
    refine ⟨?_, rfl⟩
    show (ringDropOldest termRxDepth c.queue.rx).toList termRxDepth ++ _ =
      (c.queue.rx.toList termRxDepth).drop (c.dropped + 1 - c.dropped) ++ _
    rw [holdest, Nat.add_sub_cancel_left, List.drop_one, List.tail_cons]
  next => exact ⟨by rw [Nat.sub_self, List.drop_zero], rfl⟩

theorem Console.Kept.owned {c : Console} (h : c.Kept) : c.Owned := by
  refine ⟨Console.usbSilent, ?_, ?_, h.overflow, ⟨rfl, rfl⟩, ?_, ?_, rfl⟩
  · intro port hport
    rw [Console.ioRead_eq]
    split
    next hread =>
      obtain ⟨-, hlist⟩ := ringDropOldest_spec h.rx (Nat.pos_of_ne_zero hread.2)
      rw [hlist, List.headD_cons]
    next hread =>
      have hcount : c.queue.rx.count = 0 := by
        by_contra hne
        exact hread ⟨hport, hne⟩
      have hnil : c.queue.rx.toList termRxDepth = [] := RingBuffer.toList_nil hcount
      rw [hnil]
      simp [Queue.ioRead, hport, hcount]
  · intro data
    exact (browserTryReceive_spec h.rx data).2.2
  · intro hbrowser
    unfold Console.browserDisconnect
    rw [if_pos hbrowser]
    exact ⟨rfl, rfl⟩
  · intro connected hbrowser hchanged
    have hne : (c.usbConnected != connected) = true := bne_iff_ne.mpr (Ne.symm hchanged)
    unfold Console.usbConnect
    rw [hbrowser]
    simp only [Bool.false_eq_true, if_false, hne, if_true]
    exact ⟨rfl, rfl⟩

/-- In every run the rings stay in range, the bytes supplied and those the Z80 reads are the
accepted ones in order but for the dropped ones, and the owners are kept apart. -/
theorem console_exact (ops : List ConsoleOp) : (consoleRun ops).Kept ∧ (consoleRun ops).Owned :=
  ⟨consoleRun_kept ops, (consoleRun_kept ops).owned⟩

/-- Where USB is the only owner, its disconnection leaves the input that was queued. -/
theorem console_exact_input_left :
    (consoleRun [.setConnected true, .receive [0x41]]).queue.rx.toList termRxDepth = [0x41] ∧
      ((consoleRun [.setConnected true, .receive [0x41], .setConnected false,
        .setConnected true]).ioRead termDataPort).1 = 0x41 := by
  decide

end Z80Sbc.Terminal
