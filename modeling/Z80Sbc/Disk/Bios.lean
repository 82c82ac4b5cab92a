import Mathlib.Tactic.IntervalCases
import Z80Sbc.Disk.Device
import Z80Sbc.Flash.CacheCoherence

/-! # The disk driver of the BIOS

`read_record`, `write_record` and `flush_disk` of `z80_bios.asm` against any device behind the
disk ports, one step for each access to a port, so that the device may move between two of
them. A program calls them one at a time, with its stack where it likes; between two calls it
may change the memory and with it the BIOS's variables. The programs leave the disk ports to
the BIOS. A log of the calls that returned 0 is kept beside the run. -/

namespace Z80Sbc.Disk
open Z80Sbc.Concurrent Z80Sbc.Flash Z80Sbc.Flash.CacheCoherence

/-- A device behind the ports. -/
structure Ports (δ : Type) where
  input : UInt8 → δ → UInt8 × δ
  output : UInt8 → UInt8 → δ → δ

abbrev Memory := UInt16 → UInt8

/-- Where the BIOS keeps its variables, and where `prepare_disk_io` returns to in `read_record`
and in `write_record`. -/
structure Variables where
  diskDrive : UInt16
  diskTrack : UInt16
  diskSector : UInt16
  dmaAddress : UInt16
  writeCommand : UInt16
  readReturn : UInt16
  writeReturn : UInt16

def wordAt (m : Memory) (a : UInt16) : UInt16 := (m a).toUInt16 ||| ((m (a + 1)).toUInt16 <<< 8)

inductive Op where
  | read
  | write
  deriving DecidableEq

/-- The access the driver does next, with the registers it lives on. -/
inductive Pc where
  | idle
  | readyWait (op : Op)
  | drivePort (op : Op)
  | lbaLow (op : Op)
  | lbaHigh (op : Op) (hl : UInt16)
  | command (op : Op)
  | readWait
  | inir (b : Nat) (hl : UInt16)
  | roomWait
  | otir (b : Nat) (hl : UInt16)
  | doneWait
  | flushCommand
  | flushWait
  deriving DecidableEq

structure Bios where
  memory : Memory
  pc : Pc
  a : UInt8

/-- The bits that `rlca` moves to the carry and to bits 1, 2 and 3. -/
def errorBit (status : UInt8) : Bool := status &&& 0x80 != 0
def readyBit (status : UInt8) : Bool := status &&& 0x01 != 0
def dataReadyBit (status : UInt8) : Bool := status &&& 0x02 != 0
def dataRoomBit (status : UInt8) : Bool := status &&& 0x04 != 0

/-- Track and sector as a linear record. -/
def recordIndex (track sector : UInt16) : UInt16 :=
  let hl := track + track
  let hl := hl + hl
  let hl := hl + hl
  let hl := hl + hl
  let hl := hl + hl
  hl + sector

section
variable (v : Variables)

/-- The record and the transfer address that the variables name. -/
def driveOf (b : Bios) : UInt8 := b.memory v.diskDrive
def lbaOf (b : Bios) : UInt16 :=
  recordIndex (wordAt b.memory v.diskTrack) (wordAt b.memory v.diskSector)
def dmaOf (b : Bios) : UInt16 := wordAt b.memory v.dmaAddress

def RecordExists (began : Bios) : Prop :=
  (driveOf v began).toNat < z80FlashDiskSlotCount ∧ (lbaOf v began).toNat < z80FlashRecordCount

end

section
variable {δ : Type} (io : Ports δ) (v : Variables)

/-- `disk_io_error` and `disk_io_done`. -/
def Bios.return (b : Bios) (a : UInt8) : Bios := { b with pc := .idle, a := a }

/-- One access of the driver to a port. -/
def biosStep (d : δ) (b : Bios) : δ × Bios :=
  match b.pc with
  | .idle => (d, b)
  | .readyWait op =>
    let (status, d) := io.input diskCommandStatusPort d
    (d, if readyBit status then { b with pc := .drivePort op } else b)
  | .drivePort op =>
    (io.output diskDrivePort (b.memory v.diskDrive) d, { b with pc := .lbaLow op })
  | .lbaLow op =>
    let hl := recordIndex (wordAt b.memory v.diskTrack) (wordAt b.memory v.diskSector)
    (io.output diskLbaLowPort hl.toUInt8 d, { b with pc := .lbaHigh op hl })
  | .lbaHigh op hl =>
    (io.output diskLbaHighPort (hl >>> 8).toUInt8 d, { b with pc := .command op })
  | .command .read =>
    (io.output diskCommandStatusPort diskCommandRead d, { b with pc := .readWait })
  | .command .write =>
    (io.output diskCommandStatusPort (b.memory v.writeCommand) d, { b with pc := .roomWait })
  | .readWait =>
    let (status, d) := io.input diskCommandStatusPort d
    (d, if errorBit status then b.return 1
        else if dataReadyBit status then
          { b with pc := .inir 128 (wordAt b.memory v.dmaAddress) }
        else b)
  | .inir n hl =>
    let (value, d) := io.input diskDataPort d
    let b := { b with memory := Function.update b.memory hl value }
    (d, if n = 1 then b.return 0 else { b with pc := .inir (n - 1) (hl + 1) })
  | .roomWait =>
    let (status, d) := io.input diskCommandStatusPort d
    (d, if errorBit status then b.return 1
        else if dataRoomBit status then
          { b with pc := .otir 128 (wordAt b.memory v.dmaAddress) }
        else b)
  | .otir n hl =>
    (io.output diskDataPort (b.memory hl) d,
      { b with pc := if n = 1 then .doneWait else .otir (n - 1) (hl + 1) })
  | .doneWait =>
    let (status, d) := io.input diskCommandStatusPort d
    (d, if errorBit status then b.return 1 else if readyBit status then b.return 0 else b)
  | .flushCommand =>
    (io.output diskCommandStatusPort diskCommandFlush d, { b with pc := .flushWait })
  | .flushWait =>
    let (status, d) := io.input diskCommandStatusPort d
    (d, if errorBit status then b.return 1 else if readyBit status then b.return 0 else b)

/-! ## Calls -/

/-- What a program asks for; `c` is the kind of a write that BDOS gives. -/
inductive Call where
  | read
  | write (c : UInt8)
  | flush

/-- `call` pushes its return address. -/
def pushed (memory : Memory) (sp address : UInt16) : Memory :=
  Function.update (Function.update memory (sp - 1) (address >>> 8).toUInt8) (sp - 2)
    address.toUInt8

/-- The first access of a call. -/
def Call.entry : Call → Pc
  | .read => .readyWait .read
  | .write _ => .readyWait .write
  | .flush => .flushCommand

/-- What a call stores before its first access: a write keeps its command in memory, and
`call prepare_disk_io` has its return address on the stack. -/
def Call.stored (memory : Memory) (sp : UInt16) : Call → Memory
  | .read => pushed memory sp v.readReturn
  | .write c =>
    pushed (Function.update memory v.writeCommand (c + diskCommandWriteNormal)) sp v.writeReturn
  | .flush => memory

/-- The entry of a call. -/
def Bios.enter (b : Bios) (c : Call) (sp : UInt16) : Bios :=
  { b with memory := c.stored v b.memory sp, pc := c.entry }

/-- A record transfer that a call stands for: the record that the variables name, and the
memory at the transfer address. -/
structure Transferred where
  op : Op
  drive : Nat
  lba : Nat
  bytes : Nat → UInt8

def Bios.buffer (b : Bios) : Nat → UInt8 := fun i =>
  b.memory (dmaOf v b + UInt16.ofNat i)

/-! ## A program on the machine -/

/-- The machine, with the call in progress, the stack pointer and the memory it was made with,
its entry, and the log of the calls that ended well. -/
structure Cpm (δ : Type) where
  device : δ
  bios : Bios
  call : Call
  sp : UInt16
  found : Memory
  began : Bios
  log : List Transferred

inductive Act (ε : Type) where
  /-- The program runs and leaves this memory. -/
  | program (memory : Memory)
  | call (c : Call) (sp : UInt16)
  | bios
  /-- The device moves. -/
  | device (event : ε)

/-- The entry for a call of `began` that returned to `b`. -/
def logEntry (op : Op) (began b : Bios) : Transferred :=
  let drive := (driveOf v began).toNat
  let lba := (lbaOf v began).toNat
  match op with
  | .read => ⟨.read, drive, lba, fun i => b.memory (dmaOf v began + UInt16.ofNat i)⟩
  | .write => ⟨.write, drive, lba, began.buffer v⟩

/-- The transfer the driver is about to complete. -/
def Pc.op : Pc → Option Op
  | .inir _ _ => some .read
  | .doneWait => some .write
  | _ => none

variable {ε : Type} (env : Bool → ε → δ → δ) (sound : δ → Bool)

/-- One step of the machine. `env` is what the device does on its own, which may depend on
whether a call is in progress; only what `sound` devices answered is logged. -/
def Cpm.step (s : Cpm δ) : Act ε → Cpm δ
  | .program memory =>
    if s.bios.pc = .idle then { s with bios := { s.bios with memory := memory } } else s
  | .call c sp =>
    if s.bios.pc = .idle then
      let b := s.bios.enter v c sp
      { s with bios := b, call := c, sp := sp, found := s.bios.memory, began := b }
    else s
  | .bios =>
    let (d, b) := biosStep io v s.device s.bios
    let entries := match s.bios.pc.op with
      | some op => if b.pc = .idle ∧ b.a = 0 ∧ sound d then [logEntry v op s.began b] else []
      | none => []
    { s with device := d, bios := b, log := s.log ++ entries }
  | .device event => { s with device := env (s.bios.pc = .idle) event s.device }

def Cpm.start (d : δ) (memory : Memory) : Cpm δ :=
  let b : Bios := ⟨memory, .idle, 0⟩
  ⟨d, b, .flush, 0, memory, b, []⟩

end

/-! ## Words and addresses -/

theorem lba_bytes (x hl : UInt16) :
    ((x &&& (0xFF00 : UInt16)) ||| hl.toUInt8.toUInt16).toUInt8 = hl.toUInt8 := by
  have hhigh : (x &&& (0xFF00 : UInt16)).toUInt8 = 0 := by
    apply UInt8.toBitVec_inj.mp
    ext i hi
    interval_cases i <;> simp
  rw [UInt16.toUInt8_or, hhigh, UInt8.toUInt8_toUInt16, UInt8.zero_or]

theorem mod_bits (x : UInt16) : x % 256 = x &&& (0x00FF : UInt16) := by
  apply UInt16.toNat_inj.mp
  have := Nat.and_two_pow_sub_one_eq_mod x.toNat 8
  simp at this ⊢
  exact this.symm

/-- The low and the high byte make the record. -/
theorem lba_word {x hl : UInt16} (h : x.toUInt8 = hl.toUInt8) :
    (x &&& (0x00FF : UInt16)) ||| ((hl >>> 8).toUInt8.toUInt16 <<< 8) = hl := by
  have hlow : x &&& (0x00FF : UInt16) = hl &&& (0x00FF : UInt16) := by
    have hx := congrArg UInt8.toUInt16 h
    simpa only [UInt16.toUInt16_toUInt8, mod_bits] using hx
  rw [hlow, UInt16.toUInt16_toUInt8, mod_bits]
  apply UInt16.toBitVec_inj.mp
  ext i hi
  interval_cases i <;> simp

theorem add_ofNat_succ {a : UInt16} (k : Nat) :
    a + UInt16.ofNat k + 1 = a + UInt16.ofNat (k + 1) := by
  rw [UInt16.add_assoc, UInt16.ofNat_add]
  rfl

/-- Two bytes of a transfer lie at two addresses. -/
theorem dma_ne {dma : UInt16} {i k : Nat} (hi : i < k) (hk : k < z80FlashRecordBytes) :
    dma + UInt16.ofNat i ≠ dma + UInt16.ofNat k := by
  intro h
  have hk' : k < 128 := hk
  have hnat := congrArg UInt16.toNat h
  simp only [UInt16.toNat_add, UInt16.toNat_ofNat'] at hnat
  omega

/-- The bytes in memory after one more was stored. -/
theorem copied_update {memory : Memory} {dma : UInt16} {k : Nat} {record : Nat → UInt8}
    (hk : k < z80FlashRecordBytes) (h : ∀ i < k, memory (dma + UInt16.ofNat i) = record i) :
    ∀ i < k + 1, Function.update memory (dma + UInt16.ofNat k) (record k)
      (dma + UInt16.ofNat i) = record i := by
  intro i hi
  by_cases hik : i = k
  · subst hik
    simp
  · rw [Function.update_of_ne (dma_ne (by omega) hk)]
    exact h i (by omega)

/-! ## What a call may write

This holds against any device, also one that answers anything. -/

section
variable {δ ε : Type} {io : Ports δ} {v : Variables} {env : Bool → ε → δ → δ} {sound : δ → Bool}

/-- `a` is in the transfer buffer of the call. -/
def InBuffer (v : Variables) (began : Bios) (a : UInt16) : Prop :=
  ∃ i < z80FlashRecordBytes, a = dmaOf v began + UInt16.ofNat i

/-- The entry of the call that an access belongs to. -/
def Pc.entry : Pc → Option Pc
  | .idle => none
  | .readyWait op | .drivePort op | .lbaLow op | .lbaHigh op _ | .command op => some (.readyWait op)
  | .readWait | .inir _ _ => some (.readyWait .read)
  | .roomWait | .otir _ _ | .doneWait => some (.readyWait .write)
  | .flushCommand | .flushWait => some .flushCommand

/-- The call in progress has written only to its buffer, and only in its transfer. -/
structure Framed (v : Variables) (b began : Bios) : Prop where
  entry : ∀ e, b.pc.entry = some e → began.pc = e
  outside : ∀ a, ¬InBuffer v began a → b.memory a = began.memory a
  untouched : (∀ n hl, b.pc ≠ .inir n hl) → b.memory = began.memory
  pointer : ∀ n hl, b.pc = .inir n hl → n ≠ 0 ∧ n ≤ z80FlashRecordBytes ∧
    hl = dmaOf v began + UInt16.ofNat (z80FlashRecordBytes - n)

/-- What a step of the driver leaves of the memory of the call. -/
def KeepsFrame (v : Variables) (began after : Bios) : Prop :=
  (∀ a, ¬InBuffer v began a → after.memory a = began.memory a) ∧
    (began.pc ≠ .readyWait .read → after.memory = began.memory) ∧
    (after.pc ≠ .idle → Framed v after began)

/-- A step that writes no memory. -/
theorem Framed.quiet {b began : Bios} {pc : Pc} {a : UInt8} (h : Framed v b began)
    (hb : ∀ n hl, b.pc ≠ .inir n hl) (hpc : ∀ n hl, pc ≠ .inir n hl)
    (hentry : ∀ e, pc.entry = some e → began.pc = e) :
    KeepsFrame v began { b with pc := pc, a := a } :=
  ⟨h.outside, fun _ => h.untouched hb, fun _ =>
    ⟨hentry, h.outside, fun _ => h.untouched hb, fun n hl he => absurd he (hpc n hl)⟩⟩

/-- A step that waits. -/
theorem Framed.keeps {b began : Bios} (h : Framed v b began) (hb : ∀ n hl, b.pc ≠ .inir n hl) :
    KeepsFrame v began b := ⟨h.outside, fun _ => h.untouched hb, fun _ => h⟩

/-- One byte of the transfer goes to the buffer. -/
theorem Framed.inir {b began : Bios} {n : Nat} {hl : UInt16} {value : UInt8}
    (h : Framed v b began) (hpc : b.pc = .inir n hl) :
    KeepsFrame v began (if n = 1 then
        Bios.return { b with memory := Function.update b.memory hl value } 0
      else { b with
        memory := Function.update b.memory hl value
        pc := .inir (n - 1) (hl + 1) }) := by
  obtain ⟨hn, hle, hhl⟩ := h.pointer n hl hpc
  have hread : began.pc = .readyWait .read := h.entry _ (by rw [hpc]; rfl)
  have hbuffer : InBuffer v began hl := ⟨_, by omega, hhl⟩
  have houtside : ∀ a, ¬InBuffer v began a →
      Function.update b.memory hl value a = began.memory a := fun a ha => by
    rw [Function.update_of_ne (fun he => ha (by rw [he]; exact hbuffer))]
    exact h.outside a ha
  split
  · exact ⟨houtside, fun hne => absurd hread hne, fun hne => absurd rfl hne⟩
  · refine ⟨houtside, fun hne => absurd hread hne, fun _ => ⟨?_, houtside, ?_, ?_⟩⟩
    · intro e he
      exact hread.trans (Option.some.inj he)
    · intro hno
      exact absurd rfl (hno _ _)
    · intro n' hl' he
      simp only [Pc.inir.injEq] at he
      obtain ⟨rfl, rfl⟩ := he
      refine ⟨by omega, by omega, ?_⟩
      rw [hhl, add_ofNat_succ]
      congr 2
      omega

theorem Framed.step (io : Ports δ) (d : δ) {b began : Bios} (h : Framed v b began)
    (hbusy : b.pc ≠ .idle) :
    KeepsFrame v began (biosStep io v d b).2 := by
  have hentry := h.entry
  cases hpc : b.pc with
  | idle => exact absurd hpc hbusy
  | inir n hl =>
    simp only [biosStep, hpc]
    exact h.inir hpc
  | readWait =>
    have hb : ∀ n hl, b.pc ≠ .inir n hl := by simp [hpc]
    have hread : began.pc = .readyWait .read := hentry _ (by rw [hpc]; rfl)
    simp only [biosStep, hpc]
    split
    · exact h.quiet hb (by simp) (by simp [Pc.entry])
    · split
      · refine ⟨h.outside, fun _ => h.untouched hb, fun _ => ⟨?_, h.outside,
          fun _ => h.untouched hb, fun n hl he => ?_⟩⟩
        · intro e he
          exact hread.trans (Option.some.inj he)
        · simp only [Pc.inir.injEq] at he
          obtain ⟨rfl, rfl⟩ := he
          refine ⟨by decide, by decide, ?_⟩
          rw [h.untouched hb]
          simp [dmaOf, z80FlashRecordBytes]
      · exact h.keeps hb
  | command op =>
    have hb : ∀ n hl, b.pc ≠ .inir n hl := by simp [hpc]
    cases op <;> simp only [biosStep, hpc] <;>
      exact h.quiet hb (by simp) fun e he => hentry e (by rw [hpc]; exact he)
  | drivePort op | lbaLow op | lbaHigh op hl | flushCommand =>
    have hb : ∀ n hl, b.pc ≠ .inir n hl := by simp [hpc]
    simp only [biosStep, hpc]
    exact h.quiet hb (by simp) fun e he => hentry e (by rw [hpc]; exact he)
  | readyWait op =>
    have hb : ∀ n hl, b.pc ≠ .inir n hl := by simp [hpc]
    simp only [biosStep, hpc]
    split
    · exact h.quiet hb (by simp) fun e he => hentry e (by rw [hpc]; exact he)
    · exact h.keeps hb
  | otir n hl =>
    have hb : ∀ n hl, b.pc ≠ .inir n hl := by simp [hpc]
    simp only [biosStep, hpc]
    refine h.quiet hb (fun n' hl' => ?_) fun e he => hentry e ?_
    · split <;> simp
    · rw [hpc]
      split at he <;> exact he
  | roomWait =>
    have hb : ∀ n hl, b.pc ≠ .inir n hl := by simp [hpc]
    simp only [biosStep, hpc]
    split
    · exact h.quiet hb (by simp) (by simp [Pc.entry])
    · split
      · exact h.quiet hb (by simp) fun e he => hentry e (by rw [hpc]; exact he)
      · exact h.keeps hb
  | doneWait | flushWait =>
    have hb : ∀ n hl, b.pc ≠ .inir n hl := by simp [hpc]
    simp only [biosStep, hpc]
    split
    · exact h.quiet hb (by simp) (by simp [Pc.entry])
    · split
      · exact h.quiet hb (by simp) (by simp [Pc.entry])
      · exact h.keeps hb

theorem Framed.enter (v : Variables) (b : Bios) (c : Call) (sp : UInt16) :
    Framed v (b.enter v c sp) (b.enter v c sp) :=
  ⟨fun e he => by cases c <;> exact Option.some.inj he, fun _ _ => rfl, fun _ => rfl,
    fun n hl he => by cases c <;> cases he⟩

/-- The addresses that a call stores to before its first access. -/
def Call.Stores (v : Variables) (sp a : UInt16) : Call → Prop
  | .read => a = sp - 1 ∨ a = sp - 2
  | .write _ => a = v.writeCommand ∨ a = sp - 1 ∨ a = sp - 2
  | .flush => False

theorem pushed_outside {memory : Memory} {sp address a : UInt16} (h1 : a ≠ sp - 1)
    (h2 : a ≠ sp - 2) : pushed memory sp address a = memory a := by
  rw [pushed, Function.update_of_ne h2, Function.update_of_ne h1]

theorem Call.stored_outside {c : Call} {memory : Memory} {sp a : UInt16}
    (h : ¬c.Stores v sp a) : c.stored v memory sp a = memory a := by
  cases c with
  | read =>
    obtain ⟨h1, h2⟩ := not_or.mp h
    exact pushed_outside h1 h2
  | write kind =>
    obtain ⟨hcommand, hstack⟩ := not_or.mp h
    obtain ⟨h1, h2⟩ := not_or.mp hstack
    exact (pushed_outside h1 h2).trans (Function.update_of_ne hcommand _ _)
  | flush => rfl

/-- The call in progress keeps to its frame. -/
def Cpm.Framed (v : Variables) (s : Cpm δ) : Prop :=
  s.bios.pc ≠ .idle → Disk.Framed v s.bios s.began ∧ s.began.pc = s.call.entry ∧
    s.began.memory = s.call.stored v s.found s.sp

theorem Cpm.Framed.step {s : Cpm δ} (h : s.Framed v) (a : Act ε) :
    (s.step io v env sound a).Framed v := by
  intro hbusy
  cases a with
  | program memory =>
    by_cases hidle : s.bios.pc = .idle
    · simp [Cpm.step, hidle] at hbusy
    · simp only [Cpm.step, if_neg hidle] at hbusy ⊢
      exact h hbusy
  | call c sp =>
    by_cases hidle : s.bios.pc = .idle
    · simp only [Cpm.step, if_pos hidle]
      exact ⟨.enter v s.bios c sp, rfl, rfl⟩
    · simp only [Cpm.step, if_neg hidle] at hbusy ⊢
      exact h hbusy
  | bios =>
    by_cases hidle : s.bios.pc = .idle
    · simp [Cpm.step, biosStep, hidle] at hbusy
    · exact ⟨((h hidle).1.step _ _ hidle).2.2 hbusy, (h hidle).2⟩
  | device event => exact h hbusy

/-- Whatever the device answers: each step of a call leaves the memory as the call found it,
outside what it stored at its entry and, for a read, outside the transfer buffer. -/
theorem bios_frame (io : Ports δ) (v : Variables) (env : Bool → ε → δ → δ) (sound : δ → Bool)
    (d : δ) (memory : Memory) (acts : List (Act ε)) :
    let s := run (Cpm.step io v env sound) (Cpm.start d memory) acts
    s.bios.pc ≠ .idle →
      ∀ a, ¬s.call.Stores v s.sp a → (s.call = .read → ¬InBuffer v s.began a) →
        (s.step io v env sound .bios).bios.memory a = s.found a := by
  intro s hbusy a hstores hbuffer
  have hinv : s.Framed v := run_invariant (fun _ a h => h.step a)
    (fun hno => absurd rfl hno) acts
  obtain ⟨hframed, hentry, hmemory⟩ := hinv hbusy
  obtain ⟨houtside, hwhole, -⟩ := hframed.step io s.device hbusy
  have hfound : s.began.memory a = s.found a := by
    rw [hmemory]
    exact Call.stored_outside hstores
  refine Eq.trans ?_ hfound
  cases hcall : s.call with
  | read => exact houtside a (hbuffer hcall)
  | write kind =>
    rw [hcall] at hentry
    exact congrFun (hwhole (by rw [hentry]; simp [Call.entry])) a
  | flush =>
    rw [hcall] at hentry
    exact congrFun (hwhole (by rw [hentry]; simp [Call.entry])) a

/-- No device behind the ports: they read 0xFF. -/
def absent : Ports Unit := ⟨fun _ d => (0xFF, d), fun _ _ d => d⟩

/-- A write changes the byte of its command and the two below the stack pointer. -/
theorem bios_frame_absent :
    let step := Cpm.step (ε := Unit) absent ⟨0, 1, 3, 5, 7, 0x200, 0x300⟩ (fun _ _ d => d)
      fun _ => true
    let s := run step (Cpm.start () fun _ => 9) [.call (.write 0) 0x80, .bios]
    ∀ a, a ≠ 7 → a ≠ 0x7F → a ≠ 0x7E → (step s .bios).bios.memory a = 9 := by
  have hframe := bios_frame (ε := Unit) absent ⟨0, 1, 3, 5, 7, 0x200, 0x300⟩ (fun _ _ d => d)
    (fun _ => true) () (fun _ => 9) [.call (.write 0) 0x80, .bios] (by decide)
  intro step s a h7 h1 h2
  refine hframe a ?_ fun hread => by cases hread
  rintro (h | h | h)
  · exact h7 h
  · exact h1 h
  · exact h2 h

end

/-! ## A plain array of records -/

/-- The records after the logged writes. -/
def replay (r : Records) : List Transferred → Records
  | [] => r
  | t :: rest => replay (if t.op = .write then r.set t.drive t.lba t.bytes else r) rest

/-- Every logged read gave what the array held then. -/
def Faithful (r : Records) : List Transferred → Prop
  | [] => True
  | t :: rest =>
    (t.op = .read → ∀ i < z80FlashRecordBytes, t.bytes i = r t.drive t.lba i) ∧
      Faithful (if t.op = .write then r.set t.drive t.lba t.bytes else r) rest

theorem replay_append (r : Records) (log : List Transferred) (t : Transferred) :
    replay r (log ++ [t]) =
      if t.op = .write then (replay r log).set t.drive t.lba t.bytes else replay r log := by
  induction log generalizing r with
  | nil => rfl
  | cons u log ih => exact ih _

theorem faithful_append (r : Records) (log : List Transferred) (t : Transferred) :
    Faithful r (log ++ [t]) ↔ Faithful r log ∧
      (t.op = .read → ∀ i < z80FlashRecordBytes, t.bytes i = replay r log t.drive t.lba i) := by
  induction log generalizing r with
  | nil => simp [Faithful, replay]
  | cons u log ih => simp [Faithful, replay, ih, and_assoc]

/-- The records after a logged call. -/
def stored (store : Records) (t : Transferred) : Records :=
  if t.op = .write then store.set t.drive t.lba t.bytes else store

end Z80Sbc.Disk
