import Z80Sbc.Flash.Layout

/-! # The environment snapshot store

`environment_store.c`, and the sector write of `flash_backend.c` under it: two
flash sectors take turns in holding the newest snapshot, each a header page with
checksums and then the payload. -/

namespace Z80Sbc.Env
open Z80Sbc.Storage Z80Sbc.Flash

def envMagic : UInt32 := 0x31564E45
def envVersion : UInt32 := 1
def z80EnvSnapshotBytes : Nat := 3840

structure EnvHeader where
  magic : UInt32
  version : UInt32
  sequence : UInt32
  length : UInt32
  payloadCrc : UInt32
  headerCrc : UInt32
  deriving DecidableEq

/-- The bytes in front of `header_crc`. -/
def EnvHeader.prefixBytes (h : EnvHeader) : List UInt8 :=
  le32 h.magic ++ le32 h.version ++ le32 h.sequence ++ le32 h.length ++ le32 h.payloadCrc

def EnvHeader.bytes (h : EnvHeader) : List UInt8 := h.prefixBytes ++ le32 h.headerCrc

def slotData (slot : Nat) : Nat := z80FlashEnvOffset + slot * flashSectorSize

def readEnvHeader (f : Flash) (off : Nat) : EnvHeader :=
  ⟨read32 f off, read32 f (off + 4), read32 f (off + 8), read32 f (off + 12), read32 f (off + 16),
    read32 f (off + 20)⟩

def validSlot (slot : Nat) (f : Flash) : Bool × EnvHeader :=
  let data := slotData slot
  let header := readEnvHeader f data
  (header.magic == envMagic && header.version == envVersion &&
    decide (header.length.toNat ≤ z80EnvSnapshotBytes) &&
    header.headerCrc == crc32Bytes (window f data 20) &&
    header.payloadCrc == crc32Bytes (window f (data + flashPageSize) header.length.toNat), header)

/-- The slot of the newest snapshot; -1 when both sectors are blank, -2 when
neither holds a snapshot but they are not blank. -/
def currentSlot (f : Flash) : Int × EnvHeader :=
  let (valid0, header0) := validSlot 0 f
  let (valid1, header1) := validSlot 1 f
  if !valid0 && !valid1 then
    if same f (slotData 0) (fun _ => 0xFF) 0 flashSectorSize &&
        same f (slotData 1) (fun _ => 0xFF) 0 flashSectorSize then (-1, ⟨0, 0, 0, 0, 0, 0⟩)
    else (-2, ⟨0, 0, 0, 0, 0, 0⟩)
  else if !valid0 then (1, header1)
  else if !valid1 then (0, header0)
  else if header1.sequence - header0.sequence < 0x80000000 then (1, header1)
  else (0, header0)

/-- The status, and the payload when that is 0. -/
def snapshotLoad (capacity : Nat) (f : Flash) : Int × List UInt8 :=
  let (slot, header) := currentSlot f
  if slot = -2 then (-2, [])
  else if capacity < header.length.toNat then (-4, [])
  else (0, window f (slotData slot.toNat + flashPageSize) header.length.toNat)

/-! ## Writing a sector -/

def envWriteCallback (offset : Nat) (sector : Nat → UInt8) : Prog Bool := do
  Prog.erase offset flashSectorSize
  Prog.program (offset + flashPageSize) (fun i => sector (flashPageSize + i))
    (flashSectorSize - flashPageSize)
  let f ← Prog.contents
  if !same f (offset + flashPageSize) sector flashPageSize (flashSectorSize - flashPageSize) then
    return false
  else
    Prog.program offset sector flashPageSize
    let f ← Prog.contents
    return same f offset sector 0 flashSectorSize

/-- Whether core 0 grants the bus, and takes it back. -/
structure BusOutcome where
  acquired : Bool
  released : Bool

def envWrite (bus : BusOutcome) (slot : Nat) (sector : Nat → UInt8) : Prog Bool := do
  if 2 ≤ slot then return false
  else if !bus.acquired then return false
  else
    let committed ← envWriteCallback (slotData slot) sector
    return bus.released && committed

/-- The header of a snapshot, `previous` the sequence number before it. -/
def snapshotHeader (previous : UInt32) (data : List UInt8) : EnvHeader :=
  let header : EnvHeader :=
    { magic := envMagic
      version := envVersion
      sequence := previous + 1
      length := UInt32.ofNat data.length
      payloadCrc := crc32Bytes data
      headerCrc := 0 }
  { header with headerCrc := crc32Bytes header.prefixBytes }

/-- The sector buffer: header, FFh up to the page, payload, FFh. -/
def snapshotSector (header : EnvHeader) (data : List UInt8) : Nat → UInt8 := fun i =>
  if i < flashPageSize then header.bytes.getD i 0xFF else data.getD (i - flashPageSize) 0xFF

/-- The last part of a save: the other slot gets the next sequence number. -/
def writeSnapshot (bus : BusOutcome) (slot : Int) (previous : EnvHeader) (data : List UInt8) :
    Prog Int := do
  let written ← envWrite bus (if slot = 0 then 1 else 0)
    (snapshotSector (snapshotHeader previous.sequence data) data)
  return if written then 0 else -3

/-- `z80_env_snapshot_save`; `bus 0` is met by its own write, the rest by the
save of the empty baseline it may begin with. -/
def snapshotSave (bus : Nat → BusOutcome) (data : List UInt8) : Prog Int := do
  if z80EnvSnapshotBytes < data.length then return -4
  else
    let f ← Prog.contents
    let (slot, previous) := currentSlot f
    if slot = -2 then return -2
    else if 0 ≤ slot ∧ previous.length.toNat = data.length ∧
        window f (slotData slot.toNat + flashPageSize) data.length = data then return 0
    else if slot = -1 ∧ data.length ≠ 0 then
      let status ← snapshotSave (fun n => bus (n + 1)) []
      if status ≠ 0 then return status
      else
        let f ← Prog.contents
        let (slot, previous) := currentSlot f
        if slot < 0 then return -3
        else writeSnapshot (bus 0) slot previous data
    else writeSnapshot (bus 0) slot previous data
termination_by data.length
decreasing_by
  simp only [List.length_nil]
  omega

end Z80Sbc.Env
