import Z80Sbc.Disk.Bios
import Z80Sbc.Storage.Cells

/-! # The host's disk

`sbc_disk.c`, the same ports over four image files on the development host, under the same
BIOS. The images are open and of the right length (`sbc_disk_init`); every later call of the C
library may fail. Until one that may lose what was written fails, the files make the same array
of records as the firmware; but a failed command leaves ERROR without READY, and the BIOS waits
for READY before its next transfer. -/

namespace Z80Sbc.Disk.Host
open Z80Sbc.Storage Z80Sbc.Concurrent Z80Sbc.Flash Z80Sbc.Disk
open Z80Sbc.Flash.CacheCoherence (Records SameRecords)

def diskBytes : Nat := 128 * 32 * 128
def recordBytes : Nat := 128
def driveCount : Nat := 4

def diskReady : UInt8 := 0x01
def diskDataReady : UInt8 := 0x02
def diskDataRoom : UInt8 := 0x04
def diskError : UInt8 := 0x80

/-- How a call of the C library ends. One that fails leaves the positions in the images as it
likes, `fread` its buffer, and the others the images: what was written may still be on its way. -/
structure Outcome where
  ok : Bool
  files : Nat → Nat → UInt8
  position : Nat → Nat
  record : Nat → UInt8

/-- How the calls end, in their order. -/
abbrev Stdio := Nat → Outcome

/-- `sbc_disk_context_t`, with the contents and the position of each image, the calls of the C
library so far, and whether one of them may have lost what was written. -/
structure Context where
  files : Nat → Nat → UInt8
  position : Nat → Nat
  calls : Nat
  failed : Bool
  drive : UInt8
  lba : UInt16
  status : UInt8
  record : Nat → UInt8
  recordIndex : Nat
  active : Bool

/-- After `sbc_disk_init`. -/
def Context.init (files : Nat → Nat → UInt8) : Context where
  files := files
  position := fun _ => 0
  calls := 0
  failed := false
  drive := 0
  lba := 0
  status := diskReady
  record := fun _ => 0
  recordIndex := 0
  active := false

section
variable (stdio : Stdio)

def fseek (offset : Nat) (c : Context) : Bool × Context :=
  let o := stdio c.calls
  let c := { c with calls := c.calls + 1 }
  if o.ok then (true, { c with position := Function.update c.position c.drive.toNat offset })
  else (false, { c with files := o.files, position := o.position, failed := true })

/-- `fread` of a record. -/
def fread (c : Context) : Bool × Context :=
  let o := stdio c.calls
  let c := { c with calls := c.calls + 1 }
  let drive := c.drive.toNat
  if o.ok then
    (true, { c with
      record := fun i => c.files drive (c.position drive + i)
      position := Function.update c.position drive (c.position drive + recordBytes) })
  else (false, { c with position := o.position, record := o.record })

/-- `fwrite` of the record. -/
def fwrite (c : Context) : Bool × Context :=
  let o := stdio c.calls
  let c := { c with calls := c.calls + 1 }
  let drive := c.drive.toNat
  if o.ok then
    (true, { c with
      files := Function.update c.files drive
        (overlay (c.files drive) (c.position drive) recordBytes c.record)
      position := Function.update c.position drive (c.position drive + recordBytes) })
  else (false, { c with files := o.files, position := o.position, failed := true })

def fflush (c : Context) : Bool × Context :=
  let o := stdio c.calls
  let c := { c with calls := c.calls + 1 }
  if o.ok then (true, c)
  else (false, { c with files := o.files, position := o.position, failed := true })

def seekRecord (c : Context) : Bool × Context :=
  let offset := c.lba.toNat * recordBytes
  if driveCount ≤ c.drive.toNat ∨ diskBytes ≤ offset then (false, c) else fseek stdio offset c

/-- The loop of the flush over the drives. -/
def flushDrives : Nat → Context → Context
  | 0, c => c
  | n + 1, c =>
    match fflush stdio (flushDrives n c) with
    | (true, c) => c
    | (false, c) => { c with status := diskError }

def diskCommand (command : UInt8) (c : Context) : Context :=
  let c := { c with recordIndex := 0 }
  if command = diskCommandRead then
    match seekRecord stdio c with
    | (false, c) => { c with status := diskError }
    | (true, c) =>
      match fread stdio c with
      | (false, c) => { c with status := diskError }
      | (true, c) => { c with status := diskReady ||| diskDataReady }
  else if diskCommandWriteNormal ≤ command ∧ command ≤ diskCommandWriteUnallocated then
    let (ok, c) := seekRecord stdio c
    { c with status := if ok then diskReady ||| diskDataRoom else diskError }
  else if command = diskCommandFlush then
    flushDrives stdio driveCount { c with status := diskReady }
  else { c with status := diskError }

def adapterActivate : UInt8 := 0x15

def sbcDiskInput (port : UInt8) (c : Context) : UInt8 × Context :=
  if port = diskCommandStatusPort then (c.status, c)
  else if port = diskDrivePort then (c.drive, c)
  else if port = diskLbaLowPort then (c.lba.toUInt8, c)
  else if port = diskLbaHighPort then ((c.lba >>> 8).toUInt8, c)
  else if port = diskDataPort then
    if c.status &&& diskDataReady = 0 ∨ recordBytes ≤ c.recordIndex then (0, c)
    else
      let value := c.record c.recordIndex
      let c := { c with recordIndex := c.recordIndex + 1 }
      (value, if c.recordIndex = recordBytes then { c with status := diskReady } else c)
  else (0, c)

def sbcDiskOutput (port data : UInt8) (c : Context) : Context :=
  if port = diskCommandStatusPort then diskCommand stdio data c
  else if port = diskDrivePort then { c with drive := data }
  else if port = diskLbaLowPort then
    { c with lba := (c.lba &&& (0xFF00 : UInt16)) ||| data.toUInt16 }
  else if port = diskLbaHighPort then
    { c with lba := (c.lba &&& (0x00FF : UInt16)) ||| (data.toUInt16 <<< 8) }
  else if port = diskDataPort then
    if c.status &&& diskDataRoom ≠ 0 ∧ c.recordIndex < recordBytes then
      let c := { c with
        record := Function.update c.record c.recordIndex data
        recordIndex := c.recordIndex + 1 }
      if c.recordIndex = recordBytes then
        match fwrite stdio c with
        | (true, c) => { c with status := diskReady }
        | (false, c) => { c with status := diskError }
      else c
    else c
  else if port = adapterActivate then { c with active := data = 0xA5 }
  else c

def host : Ports Context := ⟨sbcDiskInput, sbcDiskOutput stdio⟩

end

/-- Nothing but the ports moves the host's disk. -/
def hostEnv (_ : Bool) (e : Empty) (_ : Context) : Context := e.elim

/-- The records in the images. -/
def fileRecords (files : Nat → Nat → UInt8) : Records := fun drive lba i =>
  files drive (lba * recordBytes + i)

/-! ## The invariant -/

/-! ## Calls that succeed -/

section
variable {stdio : Stdio} {c : Context}

theorem fseek_ok {offset : Nat} (h : (fseek stdio offset c).2.failed = false) :
    fseek stdio offset c = (true, { c with
      calls := c.calls + 1, position := Function.update c.position c.drive.toNat offset }) := by
  cases hok : (stdio c.calls).ok with
  | true => simp only [fseek, hok, if_true]
  | false => simp [fseek, hok] at h

theorem fwrite_ok (h : (fwrite stdio c).2.failed = false) :
    fwrite stdio c = (true, { c with
      calls := c.calls + 1
      files := Function.update c.files c.drive.toNat
        (overlay (c.files c.drive.toNat) (c.position c.drive.toNat) recordBytes c.record)
      position := Function.update c.position c.drive.toNat
        (c.position c.drive.toNat + recordBytes) }) := by
  cases hok : (stdio c.calls).ok with
  | true => simp only [fwrite, hok, if_true]
  | false => simp [fwrite, hok] at h

theorem fread_ok (h : (fread stdio c).1 = true) :
    (fread stdio c).2 = { c with
      calls := c.calls + 1
      record := fun i => c.files c.drive.toNat (c.position c.drive.toNat + i)
      position := Function.update c.position c.drive.toNat
        (c.position c.drive.toNat + recordBytes) } := by
  cases hok : (stdio c.calls).ok with
  | true => simp only [fread, hok, if_true]
  | false => simp [fread, hok] at h

theorem fread_keeps (stdio : Stdio) (c : Context) :
    (fread stdio c).2.files = c.files ∧ (fread stdio c).2.failed = c.failed := by
  cases hok : (stdio c.calls).ok with
  | true => simp [fread, hok]
  | false => simp [fread, hok]

/-- A failure is not forgotten. -/
theorem fseek_failed {offset : Nat} (h : c.failed = true) :
    (fseek stdio offset c).2.failed = true := by
  cases hok : (stdio c.calls).ok with
  | true => simpa [fseek, hok] using h
  | false => simp [fseek, hok]

theorem fwrite_failed (h : c.failed = true) : (fwrite stdio c).2.failed = true := by
  cases hok : (stdio c.calls).ok with
  | true => simpa [fwrite, hok] using h
  | false => simp [fwrite, hok]

theorem flushDrives_keeps (n : Nat) (c : Context) :
    (c.failed = true → (flushDrives stdio n c).failed = true) ∧
      ((flushDrives stdio n c).failed = false → (flushDrives stdio n c).files = c.files) := by
  induction n with
  | zero => exact ⟨id, fun _ => rfl⟩
  | succ n ih =>
    obtain ⟨hmono, hfiles⟩ := ih
    simp only [flushDrives, fflush]
    cases hok : (stdio (flushDrives stdio n c).calls).ok with
    | true => exact ⟨hmono, hfiles⟩
    | false => simp

theorem flushDrives_status (stdio : Stdio) (n : Nat) (c : Context) :
    (flushDrives stdio n c).status = c.status ∨
      (flushDrives stdio n c).status = diskError := by
  induction n with
  | zero => exact .inl rfl
  | succ n ih =>
    simp only [flushDrives, fflush]
    cases hok : (stdio (flushDrives stdio n c).calls).ok with
    | true => exact ih
    | false => exact .inr rfl

theorem seekRecord_failed (stdio : Stdio) (h : c.failed = true) :
    (seekRecord stdio c).2.failed = true := by
  simp only [seekRecord]
  split
  · exact h
  · exact fseek_failed h

theorem diskCommand_failed (command : UInt8) (h : c.failed = true) :
    (diskCommand stdio command c).failed = true := by
  have hseek := seekRecord_failed stdio (c := { c with recordIndex := 0 }) h
  simp only [diskCommand]
  split
  · rcases hs : seekRecord stdio { c with recordIndex := 0 } with ⟨ok, c'⟩
    rw [hs] at hseek
    cases ok with
    | false => exact hseek
    | true =>
      have hread := (fread_keeps stdio c').2.trans hseek
      dsimp only
      rcases hr : fread stdio c' with ⟨ok, c''⟩
      rw [hr] at hread
      cases ok with
      | false => exact hread
      | true => exact hread
  · split
    · exact hseek
    · split
      · exact (flushDrives_keeps _ { c with recordIndex := 0, status := diskReady }).1 h
      · exact h

theorem sbcDiskInput_failed (port : UInt8) (h : c.failed = true) :
    (sbcDiskInput port c).2.failed = true := by
  simp only [sbcDiskInput]
  split_ifs <;> exact h

theorem sbcDiskOutput_failed (port data : UInt8) (h : c.failed = true) :
    (sbcDiskOutput stdio port data c).failed = true := by
  simp only [sbcDiskOutput]
  split_ifs
  · exact diskCommand_failed data h
  · exact h
  · exact h
  · exact h
  · generalize hc : ({ c with
      record := Function.update c.record c.recordIndex data
      recordIndex := c.recordIndex + 1 } : Context) = c'
    have hwrite : (fwrite stdio c').2.failed = true := fwrite_failed (by rw [← hc]; exact h)
    rcases hw : fwrite stdio c' with ⟨ok, c''⟩
    rw [hw] at hwrite
    cases ok with
    | true => exact hwrite
    | false => exact hwrite
  all_goals exact h

end

section
variable (v : Variables)

/-- A read under way, `k` bytes of it in memory. -/
structure Reads (c : Context) (memory : Memory) (began : Bios) (k : Nat) : Prop where
  valid : RecordExists v began
  status : c.status = diskReady ||| diskDataReady
  index : c.recordIndex = k
  record : ∀ i < recordBytes,
    c.record i = fileRecords c.files (driveOf v began).toNat (lbaOf v began).toNat i
  copied : ∀ i < k, memory (dmaOf v began + UInt16.ofNat i) =
    fileRecords c.files (driveOf v began).toNat (lbaOf v began).toNat i

/-- A write under way, `k` bytes of it in the record buffer. -/
structure Writes (c : Context) (began : Bios) (k : Nat) : Prop where
  valid : RecordExists v began
  drive : c.drive = driveOf v began
  status : c.status = diskReady ||| diskDataRoom
  index : c.recordIndex = k
  position : c.position (driveOf v began).toNat = (lbaOf v began).toNat * recordBytes
  record : ∀ i < k, c.record i = began.buffer v i

/-- What holds at each access of the driver. -/
def At (store : Records) (c : Context) (b began : Bios) : Prop :=
  match b.pc with
  | .idle | .flushCommand | .flushWait => SameRecords (fileRecords c.files) store
  | .readyWait _ | .drivePort _ =>
    SameRecords (fileRecords c.files) store ∧ b.memory = began.memory
  | .lbaLow _ => SameRecords (fileRecords c.files) store ∧ b.memory = began.memory ∧
      c.drive = driveOf v began
  | .lbaHigh _ hl => SameRecords (fileRecords c.files) store ∧ b.memory = began.memory ∧
      c.drive = driveOf v began ∧ hl = lbaOf v began ∧ c.lba.toUInt8 = hl.toUInt8
  | .command _ => SameRecords (fileRecords c.files) store ∧ b.memory = began.memory ∧
      c.drive = driveOf v began ∧ c.lba = lbaOf v began
  | .readWait => SameRecords (fileRecords c.files) store ∧ b.memory = began.memory ∧
      (c.status = diskError ∨ Reads v c b.memory began 0)
  | .inir n hl => SameRecords (fileRecords c.files) store ∧ n ≠ 0 ∧ n ≤ z80FlashRecordBytes ∧
      hl = dmaOf v began + UInt16.ofNat (z80FlashRecordBytes - n) ∧
      Reads v c b.memory began (z80FlashRecordBytes - n)
  | .roomWait => SameRecords (fileRecords c.files) store ∧ b.memory = began.memory ∧
      (dataRoomBit c.status = true → Writes v c began 0)
  | .otir n hl => SameRecords (fileRecords c.files) store ∧ b.memory = began.memory ∧ n ≠ 0 ∧
      n ≤ z80FlashRecordBytes ∧ hl = dmaOf v began + UInt16.ofNat (z80FlashRecordBytes - n) ∧
      Writes v c began (z80FlashRecordBytes - n)
  | .doneWait => RecordExists v began ∧ c.status = diskReady ∧
      SameRecords (fileRecords c.files)
        (store.set (driveOf v began).toNat (lbaOf v began).toNat (began.buffer v))

variable {v} {stdio : Stdio} {store : Records} {c : Context} {b began : Bios}

/-! ## The driver moves -/

theorem At.address (h : At v store c b began) :
    (∀ op, b.pc = .readyWait op ∨ b.pc = .drivePort op ∨ b.pc = .lbaLow op ∨
      (∃ hl, b.pc = .lbaHigh op hl) →
      At v store (biosStep (host stdio) v c b).1 (biosStep (host stdio) v c b).2 began) := by
  rintro op (hpc | hpc | hpc | ⟨hl, hpc⟩)
  · have hkeep := h
    simp only [At, hpc] at h
    simp only [biosStep, hpc, host, sbcDiskInput, if_true]
    split
    · exact h
    · exact hkeep
  · simp only [At, hpc] at h
    simp only [biosStep, hpc, host]
    exact ⟨h.1, h.2, by rw [driveOf, ← h.2]; rfl⟩
  · simp only [At, hpc] at h
    obtain ⟨hr, hm, hd⟩ := h
    simp only [biosStep, hpc, host]
    exact ⟨hr, hm, hd, by rw [lbaOf, hm], lba_bytes _ _⟩
  · simp only [At, hpc] at h
    obtain ⟨hr, hm, hd, hhl, hlow⟩ := h
    simp only [biosStep, hpc, host]
    exact ⟨hr, hm, hd, by rw [← hhl]; exact lba_word hlow⟩

/-- A seek finds the record when there is one. -/
theorem seekRecord_exists (hd : c.drive = driveOf v began) (hl : c.lba = lbaOf v began)
    (hex : RecordExists v began) (hok : (seekRecord stdio c).2.failed = false) :
    seekRecord stdio c = (true, { c with
      calls := c.calls + 1
      position := Function.update c.position (driveOf v began).toNat
        ((lbaOf v began).toNat * recordBytes) }) := by
  obtain ⟨hdrive, hlba⟩ := hex
  simp only [z80FlashDiskSlotCount, z80FlashRecordCount] at hdrive hlba
  have hrange : ¬(driveCount ≤ c.drive.toNat ∨ diskBytes ≤ c.lba.toNat * recordBytes) := by
    rw [hd, hl]
    simp only [driveCount, diskBytes, recordBytes]
    omega
  have hseek : seekRecord stdio c = fseek stdio (c.lba.toNat * recordBytes) c := if_neg hrange
  rw [hseek] at hok ⊢
  rw [fseek_ok hok, hd, hl]

theorem seekRecord_missing (hd : c.drive = driveOf v began) (hl : c.lba = lbaOf v began)
    (hex : ¬RecordExists v began) : seekRecord stdio c = (false, c) := by
  rw [RecordExists, not_and_or] at hex
  simp only [z80FlashDiskSlotCount, z80FlashRecordCount] at hex
  rw [seekRecord, hd, hl, if_pos]
  simp only [driveCount, diskBytes, recordBytes]
  omega

theorem At.readCommand (hpc : b.pc = .command .read)
    (hsound : (biosStep (host stdio) v c b).1.failed = false) (h : At v store c b began) :
    At v store (biosStep (host stdio) v c b).1 (biosStep (host stdio) v c b).2 began := by
  simp only [At, hpc] at h
  obtain ⟨hr, hm, hd, hl⟩ := h
  simp only [biosStep, hpc] at hsound ⊢
  have hout : (host stdio).output diskCommandStatusPort diskCommandRead c =
      diskCommand stdio diskCommandRead c := rfl
  rw [hout, diskCommand, if_pos rfl] at hsound ⊢
  by_cases hex : RecordExists v began
  · -- the seek went well, or the failure would have been noted
    have hseek : (seekRecord stdio { c with recordIndex := 0 }).2.failed = false := by
      rcases hs : seekRecord stdio { c with recordIndex := 0 } with ⟨ok, c'⟩
      rw [hs] at hsound
      cases ok with
      | false => exact hsound
      | true =>
        have hkeeps := (fread_keeps stdio c').2
        dsimp only at hsound
        rcases hf : fread stdio c' with ⟨ok, c''⟩
        rw [hf] at hsound hkeeps
        cases ok with
        | false => exact hkeeps.symm.trans hsound
        | true => exact hkeeps.symm.trans hsound
    rw [seekRecord_exists (c := { c with recordIndex := 0 }) hd hl hex hseek]
    dsimp only
    generalize hc : ({ c with
      recordIndex := 0
      calls := c.calls + 1
      position := Function.update c.position (driveOf v began).toNat
        ((lbaOf v began).toNat * recordBytes) } : Context) = c'
    have hfiles : c'.files = c.files := by rw [← hc]
    rcases hf : fread stdio c' with ⟨ok, c''⟩
    cases ok with
    | false =>
      have hkeeps := (fread_keeps stdio c').1
      rw [hf] at hkeeps
      have hr' : SameRecords (fileRecords c''.files) store := by
        rw [hkeeps, hfiles]
        exact hr
      exact ⟨hr', hm, .inl rfl⟩
    | true =>
      have hread := @fread_ok stdio c' (by rw [hf])
      rw [hf] at hread
      dsimp only at hread
      subst hread hc
      refine ⟨hr, hm, .inr ⟨hex, rfl, rfl, fun i hi => ?_, by simp⟩⟩
      simp [hd, fileRecords]
  · rw [seekRecord_missing (c := { c with recordIndex := 0 }) hd hl hex]
    exact ⟨hr, hm, .inl rfl⟩

theorem At.readWait (hpc : b.pc = .readWait) (h : At v store c b began) :
    At v store (biosStep (host stdio) v c b).1 (biosStep (host stdio) v c b).2 began := by
  simp only [At, hpc] at h
  obtain ⟨hr, hm, hcase⟩ := h
  simp only [biosStep, hpc, host, sbcDiskInput, if_true]
  rcases hcase with herr | hreads
  · have herror : errorBit c.status = true := by rw [herr]; decide
    rw [if_pos herror]
    exact hr
  · have hnoerror : ¬errorBit c.status = true := by rw [hreads.status]; decide
    have hready : dataReadyBit c.status = true := by rw [hreads.status]; decide
    rw [if_neg hnoerror, if_pos hready]
    refine ⟨hr, by decide, by decide, ?_, hreads⟩
    simp [dmaOf, hm, z80FlashRecordBytes]

/-- One byte of a record is stored; the last one ends the call. -/
theorem At.inir {n : Nat} {hl : UInt16} (hpc : b.pc = .inir n hl) (h : At v store c b began) :
    At v store (biosStep (host stdio) v c b).1 (biosStep (host stdio) v c b).2 began ∧
      ((biosStep (host stdio) v c b).2.pc = .idle → ∀ i < z80FlashRecordBytes,
        (logEntry v .read began (biosStep (host stdio) v c b).2).bytes i =
          store (driveOf v began).toNat (lbaOf v began).toNat i) := by
  simp only [At, hpc] at h
  obtain ⟨hr, hn, hle, hhl, hreads⟩ := h
  have hbytes : z80FlashRecordBytes = recordBytes := rfl
  have hk : z80FlashRecordBytes - n < z80FlashRecordBytes := by omega
  have hinput : (host stdio).input diskDataPort c =
      (c.record c.recordIndex,
        if c.recordIndex + 1 = recordBytes then
          { c with recordIndex := c.recordIndex + 1, status := diskReady }
        else { c with recordIndex := c.recordIndex + 1 }) := by
    have hready : ¬(c.status &&& diskDataReady = 0 ∨ recordBytes ≤ c.recordIndex) := by
      rw [hreads.status, hreads.index, not_or, ← hbytes]
      exact ⟨by decide, by omega⟩
    simp only [host, sbcDiskInput]
    rw [if_neg (by decide), if_neg (by decide), if_neg (by decide), if_neg (by decide),
      if_pos trivial, if_neg hready]
  have hvalue := hreads.record (z80FlashRecordBytes - n) hk
  have hcopied := copied_update hk hreads.copied
  rw [← hhl, ← hvalue, ← hreads.index] at hcopied
  simp only [biosStep, hpc, hinput]
  by_cases h1 : n = 1
  · subst h1
    have hall : z80FlashRecordBytes - 1 + 1 = z80FlashRecordBytes := by omega
    rw [hreads.index, hall] at hcopied
    have hlast : c.recordIndex + 1 = recordBytes := by rw [hreads.index, hall, hbytes]
    rw [if_pos rfl, if_pos hlast, hreads.index]
    refine ⟨hr, fun _ i hi => ?_⟩
    exact (hcopied i hi).trans (hr _ hreads.valid.1 _ hreads.valid.2 i hi)
  · have hnext : c.recordIndex + 1 = z80FlashRecordBytes - (n - 1) := by
      rw [hreads.index]
      omega
    have hmore : ¬c.recordIndex + 1 = recordBytes := by rw [hnext, ← hbytes]; omega
    rw [if_neg h1, if_neg hmore]
    rw [hnext] at hcopied
    refine ⟨⟨hr, by omega, by omega, ?_, hreads.valid, hreads.status, hnext, hreads.record,
      hcopied⟩, fun hidle => by simp at hidle⟩
    rw [hhl, add_ofNat_succ]
    congr 2
    omega

theorem At.writeCommand (hpc : b.pc = .command .write)
    (hsound : (biosStep (host stdio) v c b).1.failed = false) (h : At v store c b began) :
    At v store (biosStep (host stdio) v c b).1 (biosStep (host stdio) v c b).2 began := by
  simp only [At, hpc] at h
  obtain ⟨hr, hm, hd, hl⟩ := h
  simp only [biosStep, hpc] at hsound ⊢
  revert hsound
  generalize b.memory v.writeCommand = command
  have hout : (host stdio).output diskCommandStatusPort command c =
      diskCommand stdio command c := rfl
  rw [hout, diskCommand]
  have hquiet (value : UInt8) (c' : Context) (hf : c'.files = c.files)
      (hroom : dataRoomBit value = false) :
      At v store { c' with status := value } { b with pc := .roomWait } began :=
    ⟨by rw [hf]; exact hr, hm, fun hon => by rw [hroom] at hon; cases hon⟩
  dsimp only
  split
  · intro hsound
    by_cases hex : RecordExists v began
    · rcases hs : seekRecord stdio { c with recordIndex := 0 } with ⟨ok, c'⟩
      rw [hs] at hsound
      have hfiles : c'.failed = false → c'.files = c.files := fun hf => by
        have hexists := @seekRecord_exists v stdio { c with recordIndex := 0 } began hd hl hex
          (by rw [hs]; exact hf)
        rw [hs] at hexists
        rw [(Prod.mk.inj hexists).2]
      cases ok with
      | false => exact hquiet diskError c' (hfiles hsound) (by decide)
      | true =>
        dsimp only at hsound ⊢
        have hkeeps := fread_keeps stdio c'
        rcases hf : fread stdio c' with ⟨ok, c''⟩
        rw [hf] at hsound hkeeps
        have hfailed : c'.failed = false := by
          cases ok with
          | false => exact hkeeps.2.symm.trans hsound
          | true => exact hkeeps.2.symm.trans hsound
        have hfiles' := hkeeps.1.trans (hfiles hfailed)
        cases ok with
        | false => exact hquiet diskError c'' hfiles' (by decide)
        | true => exact hquiet (diskReady ||| diskDataReady) c'' hfiles' (by decide)
    · rw [seekRecord_missing (c := { c with recordIndex := 0 }) hd hl hex]
      exact hquiet diskError { c with recordIndex := 0 } rfl (by decide)
  · split
    · intro hsound
      by_cases hex : RecordExists v began
      · have hseek : (seekRecord stdio { c with recordIndex := 0 }).2.failed = false := hsound
        rw [seekRecord_exists (c := { c with recordIndex := 0 }) hd hl hex hseek]
        refine ⟨hr, hm, fun _ => ⟨hex, hd, rfl, rfl, ?_, by simp⟩⟩
        simp
      · rw [seekRecord_missing (c := { c with recordIndex := 0 }) hd hl hex]
        exact hquiet diskError { c with recordIndex := 0 } rfl (by decide)
    · split
      · intro hsound
        have hfiles := (flushDrives_keeps driveCount
          { c with recordIndex := 0, status := diskReady }).2 hsound
        refine ⟨?_, hm, fun hon => ?_⟩
        · rw [hfiles]
          exact hr
        · rcases flushDrives_status stdio driveCount
            { c with recordIndex := 0, status := diskReady } with hst | hst
          · rw [hst] at hon
            have hclear : dataRoomBit diskReady = false := by decide
            rw [hclear] at hon
            cases hon
          · rw [hst] at hon
            have hclear : dataRoomBit diskError = false := by decide
            rw [hclear] at hon
            cases hon
      · exact fun _ => hquiet diskError { c with recordIndex := 0 } rfl (by decide)

theorem At.roomWait (hpc : b.pc = .roomWait) (h : At v store c b began) :
    At v store (biosStep (host stdio) v c b).1 (biosStep (host stdio) v c b).2 began := by
  have hkeep := h
  simp only [At, hpc] at h
  obtain ⟨hr, hm, hwrites⟩ := h
  simp only [biosStep, hpc, host, sbcDiskInput, if_true]
  split
  · exact hr
  · split
    · rename_i hroom
      refine ⟨hr, hm, by decide, by decide, ?_, hwrites hroom⟩
      simp [dmaOf, hm, z80FlashRecordBytes]
    · exact hkeep

/-- The image after its record was written. -/
theorem fileRecords_write {files : Nat → Nat → UInt8} {drive lba : Nat} {record : Nat → UInt8} :
    SameRecords (fileRecords (Function.update files drive
        (overlay (files drive) (lba * recordBytes) recordBytes record)))
      ((fileRecords files).set drive lba record) := by
  intro d _ l _ i hi
  have hbytes : i < 128 := hi
  simp only [fileRecords, Flash.CacheCoherence.Records.set, recordBytes]
  by_cases hd : d = drive
  · subst hd
    rw [Function.update_self]
    by_cases hl : l = lba
    · subst hl
      rw [if_pos ⟨rfl, rfl⟩, overlay_inside hbytes]
    · rw [if_neg (fun h => hl h.2), overlay_outside]
      omega
  · rw [Function.update_of_ne hd, if_neg (fun h => hd h.1)]

theorem SameRecords.set {r r' : Records} {drive lba : Nat} {data data' : Nat → UInt8}
    (h : SameRecords r r') (hdata : ∀ i < z80FlashRecordBytes, data i = data' i) :
    SameRecords (r.set drive lba data) (r'.set drive lba data') := by
  intro d hd l hl i hi
  simp only [Flash.CacheCoherence.Records.set]
  split
  · exact hdata i hi
  · exact h d hd l hl i hi

theorem SameRecords.trans {r r' r'' : Records} (h : SameRecords r r') (h' : SameRecords r' r'') :
    SameRecords r r'' := fun d hd l hl i hi => (h d hd l hl i hi).trans (h' d hd l hl i hi)

theorem At.otir {n : Nat} {hl : UInt16} (hpc : b.pc = .otir n hl)
    (hsound : (biosStep (host stdio) v c b).1.failed = false) (h : At v store c b began) :
    At v store (biosStep (host stdio) v c b).1 (biosStep (host stdio) v c b).2 began := by
  simp only [At, hpc] at h
  obtain ⟨hr, hm, hn, hle, hhl, hwrites⟩ := h
  have hbytes : z80FlashRecordBytes = recordBytes := rfl
  have hvalue : b.memory hl = began.buffer v (z80FlashRecordBytes - n) := by
    rw [hm, hhl]
    rfl
  have houtput (value : UInt8) : (host stdio).output diskDataPort value c =
      if c.recordIndex + 1 = recordBytes then
        match fwrite stdio { c with
            record := Function.update c.record c.recordIndex value
            recordIndex := c.recordIndex + 1 } with
        | (true, c) => { c with status := diskReady }
        | (false, c) => { c with status := diskError }
      else { c with
        record := Function.update c.record c.recordIndex value
        recordIndex := c.recordIndex + 1 } := by
    have hroom : c.status &&& diskDataRoom ≠ 0 ∧ c.recordIndex < recordBytes := by
      rw [hwrites.status, hwrites.index, ← hbytes]
      exact ⟨by decide, by omega⟩
    simp only [host, sbcDiskOutput]
    rw [if_neg (by decide), if_neg (by decide), if_neg (by decide), if_neg (by decide),
      if_pos trivial, if_pos hroom]
  have hrecord : ∀ i < z80FlashRecordBytes - n + 1,
      Function.update c.record c.recordIndex (b.memory hl) i = began.buffer v i := by
    intro i hi
    rw [hwrites.index, hvalue]
    by_cases hik : i = z80FlashRecordBytes - n
    · rw [hik, Function.update_self]
    · rw [Function.update_of_ne hik]
      exact hwrites.record i (by omega)
  simp only [biosStep, hpc, houtput] at hsound ⊢
  by_cases h1 : n = 1
  · subst h1
    have hall : z80FlashRecordBytes - 1 + 1 = z80FlashRecordBytes := by omega
    have hlast : c.recordIndex + 1 = recordBytes := by rw [hwrites.index, hall, hbytes]
    rw [hall] at hrecord
    rw [if_pos hlast] at hsound ⊢
    have hwrite : (fwrite stdio { c with
        record := Function.update c.record c.recordIndex (b.memory hl)
        recordIndex := c.recordIndex + 1 }).2.failed = false := by
      rcases hw : fwrite stdio { c with
          record := Function.update c.record c.recordIndex (b.memory hl)
          recordIndex := c.recordIndex + 1 } with ⟨ok, c'⟩
      rw [hw] at hsound
      cases ok with
      | true => exact hsound
      | false => exact hsound
    rw [fwrite_ok hwrite]
    refine ⟨hwrites.valid, rfl, ?_⟩
    simp only [hwrites.drive, hwrites.position]
    exact SameRecords.trans fileRecords_write (SameRecords.set hr hrecord)
  · have hnext : c.recordIndex + 1 = z80FlashRecordBytes - (n - 1) := by
      rw [hwrites.index]
      omega
    have hmore : ¬c.recordIndex + 1 = recordBytes := by rw [hnext, ← hbytes]; omega
    rw [if_neg hmore, if_neg h1]
    refine ⟨hr, hm, by omega, by omega, ?_, hwrites.valid, hwrites.drive, hwrites.status, hnext,
      hwrites.position, fun i hi => hrecord i (by omega)⟩
    rw [hhl, add_ofNat_succ]
    congr 2
    omega

/-- A write that returns 0 is in the image. -/
theorem At.doneWait (stdio : Stdio) (hpc : b.pc = .doneWait) (h : At v store c b began) :
    (biosStep (host stdio) v c b).2 = b.return 0 ∧
      At v (stored store (logEntry v .write began (biosStep (host stdio) v c b).2))
        (biosStep (host stdio) v c b).1 (biosStep (host stdio) v c b).2 began := by
  simp only [At, hpc] at h
  obtain ⟨hex, hst, hr⟩ := h
  have hnoerror : ¬errorBit c.status = true := by rw [hst]; decide
  have hready : readyBit c.status = true := by rw [hst]; decide
  simp only [biosStep, hpc, host, sbcDiskInput, if_true, if_neg hnoerror, if_pos hready]
  exact ⟨trivial, hr⟩

theorem At.flush (hpc : b.pc = .flushCommand ∨ b.pc = .flushWait)
    (hsound : (biosStep (host stdio) v c b).1.failed = false) (h : At v store c b began) :
    At v store (biosStep (host stdio) v c b).1 (biosStep (host stdio) v c b).2 began := by
  have hkeep := h
  rcases hpc with hpc | hpc
  · simp only [At, hpc] at h
    simp only [biosStep, hpc] at hsound ⊢
    have hout : (host stdio).output diskCommandStatusPort diskCommandFlush c =
        flushDrives stdio driveCount { c with recordIndex := 0, status := diskReady } := rfl
    rw [hout] at hsound ⊢
    have hfiles := (flushDrives_keeps _ _).2 hsound
    have hr : SameRecords (fileRecords (flushDrives stdio driveCount
        { c with recordIndex := 0, status := diskReady }).files) store := by
      rw [hfiles]
      exact h
    exact hr
  · simp only [At, hpc] at h
    simp only [biosStep, hpc, host, sbcDiskInput, if_true]
    split
    · exact h
    · split
      · exact h
      · exact hkeep

/-! ## Runs -/

/-- The machine with the host's disk. -/
abbrev hostStep (stdio : Stdio) (v : Variables) (c : Cpm Context) (a : Act Empty) : Cpm Context :=
  c.step (host stdio) v hostEnv (fun d => !d.failed) a

theorem biosStep_failed (h : c.failed = true) :
    (biosStep (host stdio) v c b).1.failed = true := by
  have hin (port : UInt8) : ((host stdio).input port c).2.failed = true :=
    sbcDiskInput_failed port h
  have hout (port data : UInt8) : ((host stdio).output port data c).failed = true :=
    sbcDiskOutput_failed port data h
  cases hpc : b.pc with
  | idle => simpa only [biosStep, hpc] using h
  | command op =>
    cases op with
    | read => simpa only [biosStep, hpc] using hout _ _
    | write => simpa only [biosStep, hpc] using hout _ _
  | readyWait _ | readWait | inir _ _ | roomWait | doneWait | flushWait =>
    simpa only [biosStep, hpc] using hin _
  | drivePort _ | lbaLow _ | lbaHigh _ _ | otir _ _ | flushCommand =>
    simpa only [biosStep, hpc] using hout _ _

/-- The log is that of an array; as long as no call of the C library may have lost a write, it is
the array in the images. -/
structure HostInv (v : Variables) (initial : Records) (c : Cpm Context) : Prop where
  faithful : Faithful initial c.log
  position : c.device.failed = false → At v (replay initial c.log) c.device c.bios c.began

theorem HostInv.unlogged {initial : Records} {c : Cpm Context} (h : HostInv v initial c)
    (hop : c.bios.pc.op = none)
    (hat : At v (replay initial c.log) (biosStep (host stdio) v c.device c.bios).1
      (biosStep (host stdio) v c.device c.bios).2 c.began) :
    HostInv v initial (hostStep stdio v c .bios) := by
  have hlog : (hostStep stdio v c .bios).log = c.log := by simp [hostStep, Cpm.step, hop]
  exact ⟨hlog ▸ h.faithful, fun _ => by rw [hlog]; exact hat⟩

/-- Nothing is logged once a call failed. -/
theorem HostInv.lost {initial : Records} {c : Cpm Context} (h : HostInv v initial c)
    (hfailed : (biosStep (host stdio) v c.device c.bios).1.failed = true) :
    HostInv v initial (hostStep stdio v c .bios) := by
  have hlog : (hostStep stdio v c .bios).log = c.log := by
    cases hop : c.bios.pc.op with
    | none => simp [hostStep, Cpm.step, hop]
    | some op => simp [hostStep, Cpm.step, hop, hfailed]
  refine ⟨hlog ▸ h.faithful, fun hsound => ?_⟩
  have hdevice : (hostStep stdio v c .bios).device =
      (biosStep (host stdio) v c.device c.bios).1 := rfl
  rw [hdevice, hfailed] at hsound
  cases hsound

theorem HostInv.driver {initial : Records} {c : Cpm Context} (h : HostInv v initial c) :
    HostInv v initial (hostStep stdio v c .bios) := by
  rcases hsound : (biosStep (host stdio) v c.device c.bios).1.failed with _ | _
  swap
  · exact h.lost hsound
  have hbefore : c.device.failed = false := by
    by_contra hfailed
    rw [Bool.not_eq_false] at hfailed
    rw [biosStep_failed hfailed] at hsound
    cases hsound
  have hat := h.position hbefore
  cases hpc : c.bios.pc with
  | idle => exact h.unlogged (by rw [hpc]; rfl) (by simpa [biosStep, hpc] using hat)
  | readyWait op => exact h.unlogged (by rw [hpc]; rfl) (hat.address op (.inl hpc))
  | drivePort op => exact h.unlogged (by rw [hpc]; rfl) (hat.address op (.inr (.inl hpc)))
  | lbaLow op => exact h.unlogged (by rw [hpc]; rfl) (hat.address op (.inr (.inr (.inl hpc))))
  | lbaHigh op hl =>
    exact h.unlogged (by rw [hpc]; rfl) (hat.address op (.inr (.inr (.inr ⟨hl, hpc⟩))))
  | command op =>
    cases op with
    | read => exact h.unlogged (by rw [hpc]; rfl) (hat.readCommand hpc hsound)
    | write => exact h.unlogged (by rw [hpc]; rfl) (hat.writeCommand hpc hsound)
  | readWait => exact h.unlogged (by rw [hpc]; rfl) (hat.readWait hpc)
  | inir n hl =>
    obtain ⟨hnext, hbytes⟩ := hat.inir hpc
    have hstep : hostStep stdio v c .bios =
        { c with
          device := (biosStep (host stdio) v c.device c.bios).1
          bios := (biosStep (host stdio) v c.device c.bios).2
          log := c.log ++ if (biosStep (host stdio) v c.device c.bios).2.pc = .idle ∧
              (biosStep (host stdio) v c.device c.bios).2.a = 0 then
            [logEntry v .read c.began (biosStep (host stdio) v c.device c.bios).2] else [] } := by
      simp [hostStep, Cpm.step, hpc, Pc.op, hsound]
    rw [hstep]
    split
    · rename_i hend
      refine ⟨(faithful_append _ _ _).2 ⟨h.faithful, fun _ => hbytes hend.1⟩, fun _ => ?_⟩
      simp only [replay_append]
      exact hnext
    · simp only [List.append_nil]
      exact ⟨h.faithful, fun _ => hnext⟩
  | roomWait => exact h.unlogged (by rw [hpc]; rfl) (hat.roomWait hpc)
  | otir n hl => exact h.unlogged (by rw [hpc]; rfl) (hat.otir hpc hsound)
  | doneWait =>
    obtain ⟨hreturn, hnext⟩ := At.doneWait stdio hpc hat
    have hstep : hostStep stdio v c .bios =
        { c with
          device := (biosStep (host stdio) v c.device c.bios).1
          bios := (biosStep (host stdio) v c.device c.bios).2
          log := c.log ++
            [logEntry v .write c.began (biosStep (host stdio) v c.device c.bios).2] } := by
      simp [hostStep, Cpm.step, hpc, Pc.op, hreturn, Bios.return, hsound]
    rw [hstep]
    refine ⟨(faithful_append _ _ _).2 ⟨h.faithful, fun hop => by cases hop⟩, fun _ => ?_⟩
    simp only [replay_append]
    exact hnext
  | flushCommand => exact h.unlogged (by rw [hpc]; rfl) (hat.flush (.inl hpc) hsound)
  | flushWait => exact h.unlogged (by rw [hpc]; rfl) (hat.flush (.inr hpc) hsound)

theorem HostInv.step {initial : Records} {c : Cpm Context} (h : HostInv v initial c)
    (a : Act Empty) : HostInv v initial (hostStep stdio v c a) := by
  cases a with
  | program memory =>
    by_cases hidle : c.bios.pc = .idle
    · simp only [hostStep, Cpm.step, if_pos hidle]
      refine ⟨h.faithful, fun hsound => ?_⟩
      have hat := h.position hsound
      simp only [At, hidle] at hat
      simpa only [At, hidle] using hat
    · simpa only [hostStep, Cpm.step, if_neg hidle] using h
  | call call sp =>
    by_cases hidle : c.bios.pc = .idle
    · simp only [hostStep, Cpm.step, if_pos hidle]
      refine ⟨h.faithful, fun hsound => ?_⟩
      have hat := h.position hsound
      simp only [At, hidle] at hat
      cases call with
      | read => exact ⟨hat, rfl⟩
      | write kind => exact ⟨hat, rfl⟩
      | flush => exact hat
    · simpa only [hostStep, Cpm.step, if_neg hidle] using h
  | bios => exact h.driver
  | device e => exact e.elim

/-- **The host's disk is the same array.** Whatever programs do between the calls and however the
calls of the C library end: the calls that returned 0 before one of them may have lost a write are
those of the array that the images held at the start. -/
theorem host_records (stdio : Stdio) (v : Variables) (files : Nat → Nat → UInt8) (memory : Memory)
    (acts : List (Act Empty)) :
    Faithful (fileRecords files)
      (run (hostStep stdio v) (Cpm.start (Context.init files) memory) acts).log :=
  (run_invariant (fun _ a h => h.step a)
    ⟨trivial, fun _ _ _ _ _ _ _ => rfl⟩ acts : HostInv v (fileRecords files) _).faithful

/-- Where no call fails, a write comes to its end and is logged. -/
example : (run (hostStep (fun _ => ⟨true, fun _ _ => 0, fun _ => 0, fun _ => 0⟩)
      ⟨0, 1, 3, 5, 7, 0, 0⟩)
    (Cpm.start (Context.init fun _ _ => 0) fun _ => 0)
    (.call (.write 0) 0x200 :: List.replicate 135 .bios)).log.length = 1 := by
  decide +kernel

/-! ## After a failed command -/

/-- ERROR stands alone. -/
def ErrorAlone (c : Context) : Prop := errorBit c.status = true → c.status = diskError

theorem ErrorAlone.of_clear {c : Context} (status : UInt8) (hs : c.status = status)
    (h : errorBit status = false) : ErrorAlone c :=
  fun herr => by rw [hs, h] at herr; cases herr

theorem diskCommand_errorAlone (command : UInt8) (c : Context) :
    ErrorAlone (diskCommand stdio command c) := by
  simp only [diskCommand]
  split
  · rcases seekRecord stdio { c with recordIndex := 0 } with ⟨_ | _, c'⟩
    · exact fun _ => rfl
    · dsimp only
      rcases fread stdio c' with ⟨_ | _, c''⟩
      · exact fun _ => rfl
      · exact .of_clear (diskReady ||| diskDataReady) rfl (by decide)
  · split
    · rcases seekRecord stdio { c with recordIndex := 0 } with ⟨_ | _, c'⟩
      · exact fun _ => rfl
      · exact .of_clear (diskReady ||| diskDataRoom) rfl (by decide)
    · split
      · rcases flushDrives_status stdio driveCount
          { c with recordIndex := 0, status := diskReady } with hst | hst
        · exact .of_clear diskReady hst (by decide)
        · exact fun _ => hst
      · exact fun _ => rfl

theorem sbcDiskInput_errorAlone (port : UInt8) {c : Context} (h : ErrorAlone c) :
    ErrorAlone (sbcDiskInput port c).2 := by
  simp only [sbcDiskInput]
  split_ifs
  all_goals first | exact h | exact .of_clear diskReady rfl (by decide)

theorem sbcDiskOutput_errorAlone (port data : UInt8) {c : Context} (h : ErrorAlone c) :
    ErrorAlone (sbcDiskOutput stdio port data c) := by
  simp only [sbcDiskOutput]
  split_ifs
  · exact diskCommand_errorAlone data c
  · exact h
  · exact h
  · exact h
  · rcases fwrite stdio { c with
        record := Function.update c.record c.recordIndex data
        recordIndex := c.recordIndex + 1 } with ⟨_ | _, c'⟩
    · exact fun _ => rfl
    · exact .of_clear diskReady rfl (by decide)
  all_goals exact h

theorem biosStep_errorAlone {c : Context} {b : Bios} (h : ErrorAlone c) :
    ErrorAlone (biosStep (host stdio) v c b).1 := by
  have hin (port : UInt8) : ErrorAlone ((host stdio).input port c).2 :=
    sbcDiskInput_errorAlone port h
  have hout (port data : UInt8) : ErrorAlone ((host stdio).output port data c) :=
    sbcDiskOutput_errorAlone port data h
  cases hpc : b.pc with
  | idle => simpa only [biosStep, hpc] using h
  | command op =>
    cases op with
    | read => simpa only [biosStep, hpc] using hout _ _
    | write => simpa only [biosStep, hpc] using hout _ _
  | readyWait _ | readWait | inir _ _ | roomWait | doneWait | flushWait =>
    simpa only [biosStep, hpc] using hin _
  | drivePort _ | lbaLow _ | lbaHigh _ _ | otir _ _ | flushCommand =>
    simpa only [biosStep, hpc] using hout _ _

theorem hostStep_errorAlone {c : Cpm Context} (h : ErrorAlone c.device) (a : Act Empty) :
    ErrorAlone (hostStep stdio v c a).device := by
  cases a with
  | program memory =>
    simp only [hostStep, Cpm.step]
    split
    · exact h
    · exact h
  | call call sp =>
    simp only [hostStep, Cpm.step]
    split
    · exact h
    · exact h
  | bios => exact biosStep_errorAlone h
  | device e => exact e.elim

/-- The first call that a program makes; it may make the next one when this one returns. -/
def firstCall : List (Act Empty) → Option Call
  | [] => none
  | .call c _ :: _ => some c
  | _ :: rest => firstCall rest

/-- A call failed and is over, and `waiting` was made after it: it waits for READY. -/
structure Stuck (log : List Transferred) (waiting : Option Call) (c : Cpm Context) : Prop where
  status : c.device.status = diskError
  pc : c.bios.pc = (waiting.map Call.entry).getD .idle
  log : c.log = log

/-- A transfer that was made stays at its first access. -/
theorem Stuck.wait {log : List Transferred} {call : Call} {c : Cpm Context}
    (h : Stuck log (some call) c) (hcall : call ≠ .flush) (a : Act Empty) :
    Stuck log (some call) (hostStep stdio v c a) := by
  obtain ⟨hstatus, hpc, hlog⟩ := h
  obtain ⟨op, hop⟩ : ∃ op, call.entry = .readyWait op := by
    cases call with
    | read => exact ⟨.read, rfl⟩
    | write kind => exact ⟨.write, rfl⟩
    | flush => exact absurd rfl hcall
  have hpc' : c.bios.pc = .readyWait op := hpc.trans hop
  have hbusy : c.bios.pc ≠ .idle := by
    rw [hpc']
    exact fun h => by cases h
  cases a with
  | program memory =>
    simp only [hostStep, Cpm.step, if_neg hbusy]
    exact ⟨hstatus, hpc, hlog⟩
  | call call' sp =>
    simp only [hostStep, Cpm.step, if_neg hbusy]
    exact ⟨hstatus, hpc, hlog⟩
  | bios =>
    have hready : ¬readyBit c.device.status = true := by rw [hstatus]; decide
    have hwait : biosStep (host stdio) v c.device c.bios = (c.device, c.bios) := by
      simp only [biosStep, hpc', host, sbcDiskInput, if_true, if_neg hready]
    simp only [hostStep, Cpm.step, hwait, hpc', Pc.op]
    exact ⟨hstatus, hpc, by simpa using hlog⟩
  | device e => exact e.elim

theorem Stuck.run_wait {log : List Transferred} {call : Call} {c : Cpm Context}
    (h : Stuck log (some call) c) (hcall : call ≠ .flush) (acts : List (Act Empty)) :
    Stuck log (some call) (run (hostStep stdio v) c acts) :=
  run_invariant (fun _ a h => h.wait hcall a) h acts

/-- Whatever is done after a failed call, the next transfer waits. -/
theorem Stuck.run {log : List Transferred} {c : Cpm Context} (h : Stuck log none c)
    {acts : List (Act Empty)} (hflush : firstCall acts ≠ some .flush) :
    Stuck log (firstCall acts) (run (hostStep stdio v) c acts) := by
  obtain ⟨hstatus, hpc, hlog⟩ := h
  have hidle : c.bios.pc = .idle := hpc
  induction acts generalizing c with
  | nil => exact ⟨hstatus, hpc, hlog⟩
  | cons a acts ih =>
    rw [run_cons]
    cases a with
    | program memory =>
      refine ih hflush ?_ ?_ ?_ ?_
      all_goals simp only [hostStep, Cpm.step, if_pos hidle]
      · exact hstatus
      · exact hpc
      · exact hlog
      · exact hidle
    | call call sp =>
      have hstuck : Stuck log (some call) (hostStep stdio v c (.call call sp)) := by
        simp only [hostStep, Cpm.step, if_pos hidle]
        exact ⟨hstatus, rfl, hlog⟩
      exact hstuck.run_wait (fun hcall => hflush (congrArg some hcall)) acts
    | bios =>
      have hquiet : hostStep stdio v c .bios = c := by
        simp [hostStep, Cpm.step, biosStep, hidle, Pc.op]
      rw [hquiet]
      exact ih hflush hstatus hpc hlog hidle
    | device e => exact e.elim

/-- A call returns 1 when it sees ERROR, and for nothing else. -/
theorem biosStep_error (hbusy : b.pc ≠ .idle)
    (hend : (biosStep (host stdio) v c b).2.pc = .idle)
    (hfailed : (biosStep (host stdio) v c b).2.a = 1) :
    (biosStep (host stdio) v c b).1 = c ∧ errorBit c.status = true := by
  cases hpc : b.pc with
  | idle => exact absurd hpc hbusy
  | readyWait op =>
    simp only [biosStep, hpc] at hend
    split at hend
    · cases hend
    · rw [hpc] at hend
      cases hend
  | command op =>
    cases op with
    | read => simp [biosStep, hpc] at hend
    | write => simp [biosStep, hpc] at hend
  | drivePort _ | lbaLow _ | lbaHigh _ _ | flushCommand => simp [biosStep, hpc] at hend
  | otir n hl =>
    simp only [biosStep, hpc] at hend
    split at hend
    · cases hend
    · cases hend
  | inir n hl =>
    simp only [biosStep, hpc] at hend hfailed
    split at hend
    · rename_i h1
      rw [if_pos h1] at hfailed
      cases hfailed
    · cases hend
  | readWait | roomWait =>
    simp only [biosStep, hpc, host, sbcDiskInput, if_true] at hend ⊢
    refine ⟨trivial, ?_⟩
    by_contra hclear
    rw [if_neg hclear] at hend
    split at hend
    · cases hend
    · rw [hpc] at hend
      cases hend
  | doneWait | flushWait =>
    simp only [biosStep, hpc, host, sbcDiskInput, if_true] at hend hfailed ⊢
    refine ⟨trivial, ?_⟩
    by_contra hclear
    rw [if_neg hclear] at hend hfailed
    split at hend
    · rename_i hready
      rw [if_pos hready] at hfailed
      cases hfailed
    · rw [hpc] at hend
      cases hend

/-- A call that returns 1 leaves ERROR, and nothing is logged. -/
theorem Stuck.of_failed {c : Cpm Context} (h : ErrorAlone c.device) (hbusy : c.bios.pc ≠ .idle)
    (hend : (hostStep stdio v c .bios).bios.pc = .idle)
    (hfailed : (hostStep stdio v c .bios).bios.a = 1) :
    Stuck c.log none (hostStep stdio v c .bios) := by
  obtain ⟨hdevice, herror⟩ := biosStep_error hbusy hend hfailed
  have hlog : (hostStep stdio v c .bios).log = c.log := by
    have ha : ¬(biosStep (host stdio) v c.device c.bios).2.a = 0 := by
      have ha : (biosStep (host stdio) v c.device c.bios).2.a = 1 := hfailed
      rw [ha]
      decide
    cases hop : c.bios.pc.op with
    | none => simp [hostStep, Cpm.step, hop]
    | some op => simp [hostStep, Cpm.step, hop, ha]
  exact ⟨(congrArg Context.status hdevice).trans (h herror), hend, hlog⟩

/-- **One failed call is the last transfer.** On the host, a call that returned 1 leaves ERROR
without READY: whatever programs do afterwards, unless the next call is a flush, it stays at the
wait for READY of `prepare_disk_io` and never comes back. -/
theorem host_failed_transfer (stdio : Stdio) (v : Variables) (files : Nat → Nat → UInt8)
    (memory : Memory) (before after : List (Act Empty))
    (hbusy :
      (run (hostStep stdio v) (Cpm.start (Context.init files) memory) before).bios.pc ≠ .idle)
    (hend : (run (hostStep stdio v) (Cpm.start (Context.init files) memory)
      (before ++ [.bios])).bios.pc = .idle)
    (hfailed : (run (hostStep stdio v) (Cpm.start (Context.init files) memory)
      (before ++ [.bios])).bios.a = 1)
    (hflush : firstCall after ≠ some .flush) :
    Stuck (run (hostStep stdio v) (Cpm.start (Context.init files) memory) before).log
      (firstCall after)
      (run (hostStep stdio v) (Cpm.start (Context.init files) memory)
        (before ++ .bios :: after)) := by
  have halone : ErrorAlone
      (run (hostStep stdio v) (Cpm.start (Context.init files) memory) before).device :=
    run_invariant (I := fun c : Cpm Context => ErrorAlone c.device)
      (fun _ a h => hostStep_errorAlone h a) (.of_clear diskReady rfl (by decide)) before
  rw [run_append] at hend hfailed ⊢
  rw [run_cons]
  exact (Stuck.of_failed halone hbusy hend hfailed).run hflush

/-- Every call of the C library fails. -/
def broken : Stdio := fun _ => ⟨false, fun _ _ => 0, fun _ => 0, fun _ => 0⟩

/-- A read on a host whose every call fails, and then two more calls. -/
theorem host_failed_transfer_broken :
    Stuck [] (some .read) (run (hostStep broken ⟨0, 1, 3, 5, 7, 0, 0⟩)
      (Cpm.start (Context.init fun _ _ => 0) fun _ => 0)
      (.call .read 0x200 :: List.replicate 5 .bios ++ .bios ::
        [.program fun _ => 1, .call .read 0x200, .bios, .bios, .call (.write 0) 0x200, .bios])) :=
  host_failed_transfer broken ⟨0, 1, 3, 5, 7, 0, 0⟩ (fun _ _ => 0) (fun _ => 0)
    (.call .read 0x200 :: List.replicate 5 .bios)
    [.program fun _ => 1, .call .read 0x200, .bios, .bios, .call (.write 0) 0x200, .bios]
    (by decide) (by decide) (by decide) (by simp [firstCall])

end

end Z80Sbc.Disk.Host
