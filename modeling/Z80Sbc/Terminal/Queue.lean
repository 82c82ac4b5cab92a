import Mathlib.Logic.Function.Basic
import Z80Sbc.Data.RingBuffer
import Z80Sbc.Storage.Cells

/-! # The terminal rings

`terminal_queue.c` while a browser is connected: the ring the Z80 reads its
terminal input from and the ring it writes its output to. Each function runs
under the terminal lock, so it is one step. -/

namespace Z80Sbc.Terminal
open Data Storage

def termDataPort : UInt8 := 0x00
def termStatusPort : UInt8 := 0x01
def termRxDepth : Nat := 128
def termTxDepth : Nat := 512
def termStatusRxReady : UInt8 := 1
def termStatusTxRoom : UInt8 := 2
def termStatusClient : UInt8 := 128

/-- `terminal_ring_t`; its capacity is an argument of the functions. -/
structure TerminalRing where
  data : Nat → UInt8
  head : Nat
  count : Nat

def ringAdd (capacity : Nat) (ring : TerminalRing) (value : UInt8) : TerminalRing :=
  { ring with
    data := Function.update ring.data ((ring.head + ring.count) % capacity) value
    count := ring.count + 1 }

def ringDropOldest (capacity : Nat) (ring : TerminalRing) : TerminalRing :=
  { ring with head := (ring.head + 1) % capacity, count := ring.count - 1 }

/-- The two `memcpy` of `ring_peek`. -/
def ringPeek (capacity : Nat) (ring : TerminalRing) (limit : Nat) : List UInt8 :=
  let count := if limit < ring.count then limit else ring.count
  let first := if count < capacity - ring.head then count else capacity - ring.head
  window ring.data ring.head first ++ window ring.data 0 (count - first)

def ringRemove (capacity : Nat) (ring : TerminalRing) (limit : Nat) : List UInt8 × TerminalRing :=
  let bytes := ringPeek capacity ring limit
  (bytes, { ring with head := (ring.head + bytes.length) % capacity, count := ring.count - bytes.length })

structure Queue where
  rx : TerminalRing
  tx : TerminalRing
  clientConnected : Bool
  browserConnected : Bool
  txPending : Bool

/-- `z80_terminal_browser_connect`, whatever the rings held. -/
def browserConnect (rx tx : Nat → UInt8) : Queue where
  rx := ⟨rx, 0, 0⟩
  tx := ⟨tx, 0, 0⟩
  clientConnected := true
  browserConnected := true
  txPending := false

namespace Queue

/-- `z80_terminal_io_read` -/
def ioRead (port : UInt8) (q : Queue) : UInt8 × Queue :=
  if port = termStatusPort then
    ((if q.rx.count ≠ 0 then termStatusRxReady else 0) |||
      (if q.clientConnected = false ∨ q.tx.count < termTxDepth then termStatusTxRoom else 0) |||
      (if q.clientConnected then termStatusClient else 0), q)
  else if q.rx.count ≠ 0 then
    (q.rx.data q.rx.head, { q with rx := ringDropOldest termRxDepth q.rx })
  else (0, q)

/-- `z80_terminal_io_write` -/
def ioWrite (port value : UInt8) (q : Queue) : Queue :=
  if port = termDataPort ∧ q.clientConnected ∧ q.tx.count < termTxDepth then
    { q with
      tx := ringAdd termTxDepth q.tx value
      txPending := if q.tx.count = 0 then true else q.txPending }
  else q

/-- `z80_terminal_supply` -/
def supply (limit : Nat) (q : Queue) : List UInt8 × Queue :=
  if limit = 0 ∨ q.txPending = false then ([], q)
  else
    let (bytes, tx) := ringRemove termTxDepth q.tx limit
    (bytes, { q with tx, txPending := if tx.count = 0 then false else q.txPending })

end Queue

/-- A line feed is received as a carriage return. -/
def crlf (c : UInt8) : UInt8 := if c = 0x0A then 0x0D else c

/-- `z80_terminal_browser_try_receive` -/
def Queue.browserTryReceive (data : List UInt8) (q : Queue) : Bool × Queue :=
  if data.length = 0 ∨ data.length > termRxDepth then (false, q)
  else if q.browserConnected ∧ data.length ≤ termRxDepth - q.rx.count then
    (true, { q with rx := data.foldl (fun ring c => ringAdd termRxDepth ring (crlf c)) q.rx })
  else (false, q)

/-! ## What the rings hold -/

/-- The ring with its write index beside it. -/
def TerminalRing.buffer (n : Nat) (ring : TerminalRing) : RingBuffer UInt8 :=
  ⟨ring.data, (ring.head + ring.count) % n, ring.head, ring.count⟩

def TerminalRing.toList (n : Nat) (ring : TerminalRing) : List UInt8 := (ring.buffer n).toList n

structure TerminalRing.Ok (n : Nat) (ring : TerminalRing) : Prop where
  head : ring.head < n
  count : ring.count ≤ n

variable {n : Nat} {ring : TerminalRing} {q : Queue}

theorem TerminalRing.Ok.buffer (h : ring.Ok n) : (ring.buffer n).Ok n := ⟨h.head, h.count, rfl⟩

theorem ringAdd_spec (h : ring.Ok n) (hroom : ring.count < n) (value : UInt8) :
    (ringAdd n ring value).Ok n ∧ (ringAdd n ring value).toList n = ring.toList n ++ [value] := by
  refine ⟨⟨h.head, hroom⟩, ?_⟩
  rw [TerminalRing.toList, TerminalRing.toList, ← RingBuffer.toList_push h.buffer hroom]
  rfl

theorem ringDropOldest_spec (h : ring.Ok n) (hpos : 0 < ring.count) :
    (ringDropOldest n ring).Ok n ∧
      ring.toList n = ring.data ring.head :: (ringDropOldest n ring).toList n := by
  have hn : 0 < n := Nat.lt_of_lt_of_le hpos h.count
  refine ⟨⟨Nat.mod_lt _ hn, Nat.le_trans (Nat.sub_le _ _) h.count⟩, ?_⟩
  rw [TerminalRing.toList, RingBuffer.toList_pop h.buffer hpos]
  rfl

@[simp] theorem length_toList : (ring.toList n).length = ring.count := RingBuffer.length_toList

theorem getElem_toList {i : Nat} (hi : i < (ring.toList n).length) :
    (ring.toList n)[i] = ring.data ((ring.head + i) % n) := by
  simp [TerminalRing.toList, RingBuffer.toList, TerminalRing.buffer]

theorem ringPeek_spec (h : ring.Ok n) (limit : Nat) :
    ringPeek n ring limit = (ring.toList n).take limit := by
  have hcount := h.count
  have hhead := h.head
  obtain ⟨count, hc⟩ : ∃ c, c = if limit < ring.count then limit else ring.count := ⟨_, rfl⟩
  obtain ⟨first, hf⟩ : ∃ f, f = if count < n - ring.head then count else n - ring.head := ⟨_, rfl⟩
  have hpeek : ringPeek n ring limit =
      window ring.data ring.head first ++ window ring.data 0 (count - first) := by
    rw [hf, hc]
    rfl
  have hle : first ≤ count := by split_ifs at hf <;> omega
  rw [hpeek]
  refine List.ext_getElem ?_ fun i h1 h2 => ?_
  · rw [List.length_append, window_length, window_length, List.length_take, length_toList]
    split_ifs at hc <;> omega
  · have hi : i < count := by
      rw [List.length_append, window_length, window_length] at h1
      omega
    rw [List.getElem_take, getElem_toList, List.getElem_append]
    split
    · next hlt =>
      rw [window_length] at hlt
      have hin : ring.head + i < n := by split_ifs at hf <;> omega
      rw [Nat.mod_eq_of_lt hin]
      simp [window]
    · next hge =>
      rw [window_length] at hge
      -- past the end of the array
      have hout : ring.head + i = (i - first) + n := by split_ifs at hf <;> omega
      have hin : i - first < n := by split_ifs at hc <;> omega
      rw [hout, Nat.add_mod_right, Nat.mod_eq_of_lt hin]
      simp [window]

theorem ringRemove_spec (h : ring.Ok n) (limit : Nat) :
    (ringRemove n ring limit).2.Ok n ∧
      ring.toList n = (ringRemove n ring limit).1 ++ (ringRemove n ring limit).2.toList n := by
  have hn : 0 < n := Nat.lt_of_le_of_lt (Nat.zero_le _) h.head
  refine ⟨⟨Nat.mod_lt _ hn, Nat.le_trans (Nat.sub_le _ _) h.count⟩, ?_⟩
  have hpeek : (ringRemove n ring limit).1 = (ring.toList n).take limit := ringPeek_spec h limit
  obtain ⟨k, hk⟩ : ∃ k, k = (ringPeek n ring limit).length := ⟨_, rfl⟩
  have hrest : (ringRemove n ring limit).2 =
      { ring with head := (ring.head + k) % n, count := ring.count - k } := by
    rw [hk]
    rfl
  rw [ringPeek_spec h, List.length_take, length_toList] at hk
  have hdrop : (ringRemove n ring limit).2.toList n = (ring.toList n).drop limit := by
    rw [hrest]
    refine List.ext_getElem ?_ fun i h1 h2 => ?_
    · rw [length_toList, List.length_drop, length_toList]
      show ring.count - k = _
      omega
    · rw [length_toList] at h1
      have hi : i < ring.count - k := h1
      have hlimit : k = limit := by omega
      rw [getElem_toList, List.getElem_drop, getElem_toList, ← hlimit]
      show ring.data (((ring.head + k) % n + i) % n) = _
      rw [Nat.mod_add_mod, Nat.add_assoc]
  rw [hpeek, hdrop, List.take_append_drop]

/-- What one call of `z80_terminal_supply` takes. -/
theorem supply_spec (h : q.tx.Ok termTxDepth) (limit : Nat) :
    (q.supply limit).2.tx.Ok termTxDepth ∧ (q.supply limit).1.length ≤ limit ∧
      q.tx.toList termTxDepth = (q.supply limit).1 ++ (q.supply limit).2.tx.toList termTxDepth ∧
      (q.supply limit).2.rx = q.rx := by
  unfold Queue.supply
  split
  · exact ⟨h, Nat.zero_le _, rfl, rfl⟩
  · obtain ⟨hok, happend⟩ := ringRemove_spec h limit
    refine ⟨hok, ?_, happend, rfl⟩
    show (ringPeek termTxDepth q.tx limit).length ≤ limit
    rw [ringPeek_spec h, List.length_take]
    exact Nat.min_le_left _ _

theorem ringAdd_all (data : List UInt8) (h : ring.Ok n) (hroom : ring.count + data.length ≤ n) :
    let t := data.foldl (fun ring c => ringAdd n ring (crlf c)) ring
    t.Ok n ∧ t.toList n = ring.toList n ++ data.map crlf := by
  induction data generalizing ring with
  | nil => exact ⟨h, (List.append_nil _).symm⟩
  | cons c data ih =>
    rw [List.length_cons] at hroom
    obtain ⟨hok, hadd⟩ := ringAdd_spec h (by omega) (crlf c)
    obtain ⟨hall, hlist⟩ := ih hok (by show ring.count + 1 + data.length ≤ n; omega)
    refine ⟨hall, ?_⟩
    rw [List.map_cons, List.append_cons, ← hadd]
    exact hlist

/-- A frame of input is received whole or not at all. -/
theorem browserTryReceive_spec (h : q.rx.Ok termRxDepth) (data : List UInt8) :
    (q.browserTryReceive data).2.rx.Ok termRxDepth ∧ (q.browserTryReceive data).2.tx = q.tx ∧
      (q.browserTryReceive data).2.rx.toList termRxDepth = q.rx.toList termRxDepth ++
        (if (q.browserTryReceive data).1 then data.map crlf else []) := by
  unfold Queue.browserTryReceive
  split
  · exact ⟨h, rfl, (List.append_nil _).symm⟩
  split
  · next hroom =>
    have hcount := h.count
    obtain ⟨hok, hlist⟩ := ringAdd_all data h (by omega)
    exact ⟨hok, rfl, hlist⟩
  · exact ⟨h, rfl, (List.append_nil _).symm⟩

end Z80Sbc.Terminal
