import Mathlib.Data.List.Dedup
import Mathlib.Data.List.Sort
import Z80Sbc.Env.CommandLine

/-! # Directory disks

`directory_disk.cpp`: a disk image is built from host files over a template, and the files are
extracted from an image. Memory is a function of the address; a vector has its size beside it. -/

namespace Z80Sbc.Debugger.DirectoryDisk
open Z80Sbc.Env (ascii toupper)

def kTracks : Nat := 77
def kSectorsPerTrack : Nat := 32
def kPhysicalSectorSize : Nat := 137
def kLogicalSectorSize : Nat := 128
def kBlockSize : Nat := 2048
def kExtentSize : Nat := 16384
def kDirectoryEntries : Nat := 128
def kDirectoryOffset : Nat := 2 * kSectorsPerTrack * kLogicalSectorSize
def kDirectorySize : Nat := kDirectoryEntries * 32
def kRawSize : Nat := kTracks * kSectorsPerTrack * kPhysicalSectorSize
def kLogicalSize : Nat := kTracks * kSectorsPerTrack * kLogicalSectorSize
def kFirstDataBlock : Nat := 2
def kLastDataBlock : Nat := 149

def kSectorTranslation : List Nat :=
  [0, 8, 16, 24, 2, 10, 18, 26, 4, 12, 20, 28, 6, 14, 22, 30,
    1, 9, 17, 25, 3, 11, 19, 27, 5, 13, 21, 29, 7, 15, 23, 31]

abbrev Contents := Nat → UInt8
abbrev Message := List UInt8

structure Image where
  size : Nat
  byte : Contents

/-- A host file: its path, the file name in it, and the contents if it can be read. -/
structure Fixture where
  path : List UInt8
  filename : List UInt8
  text : Bool
  contents : Option (List UInt8)

/-- `std::copy_n` to an address. -/
def copyTo (memory : Contents) (address : Nat) (bytes : List UInt8) : Contents := fun a =>
  if address ≤ a ∧ a < address + bytes.length then bytes.getD (a - address) 0 else memory a

def slice (memory : Contents) (address length : Nat) : List UInt8 :=
  (List.range' address length).map memory

/-! ## Names and payloads -/

def isalnum (c : UInt8) : Bool :=
  ('0'.toUInt8 ≤ c && c ≤ '9'.toUInt8) || ('A'.toUInt8 ≤ c && c ≤ 'Z'.toUInt8) ||
    ('a'.toUInt8 ≤ c && c ≤ 'z'.toUInt8)

structure CpmName where
  base : List UInt8
  extension : List UInt8
  deriving DecidableEq

def splitCpmName (filename : List UInt8) : Option CpmName :=
  let name := filename.map toupper
  let base := name.takeWhile (· ≠ '.'.toUInt8)
  let extension := (name.dropWhile (· ≠ '.'.toUInt8)).drop 1
  if base = [] ∨ 8 < base.length ∨ 3 < extension.length ∨ '.'.toUInt8 ∈ extension then none
  else if (base ++ extension).all fun c => isalnum c || c = '_'.toUInt8 then
    some ⟨base, extension⟩
  else none

/-- The name as it is shown. -/
def CpmName.text (n : CpmName) : List UInt8 :=
  n.base ++ if n.extension = [] then [] else '.'.toUInt8 :: n.extension

/-- The loop of `text_payload`, after the byte that was pushed last. -/
def addReturns : Option UInt8 → List UInt8 → List UInt8
  | _, [] => []
  | last, c :: rest =>
    if c = '\n'.toUInt8 ∧ last ≠ some '\r'.toUInt8 then
      '\r'.toUInt8 :: c :: addReturns (some c) rest
    else c :: addReturns (some c) rest

def textPayload (source : List UInt8) : List UInt8 :=
  let result := addReturns none source
  if result.getLast? = some 0x1A then result else result ++ [0x1A]

/-- What `add_file` writes of a file. -/
def payload (text : Bool) (contents : List UInt8) : List UInt8 :=
  let source := if text then textPayload contents else contents
  if source = [] then [0] else source

/-! ## Building -/

/-- The logical disk with the next directory entry and block. -/
structure Build where
  logical : Contents
  directoryEntry : Nat
  nextBlock : Nat

def entryOffset (entry : Nat) : Nat := kDirectoryOffset + entry * 32
def blockOffset (block : Nat) : Nat := kDirectoryOffset + block * kBlockSize

/-- The 32 bytes of an entry. -/
def entryByte (name : CpmName) (extent extentBytes firstBlock blockCount : Nat) (i : Nat) : UInt8 :=
  if i = 0 then 0
  else if i < 9 then name.base.getD (i - 1) ' '.toUInt8
  else if i < 12 then name.extension.getD (i - 9) ' '.toUInt8
  else if i = 12 then (extent &&& 0x1F).toUInt8
  else if i = 13 then 0
  else if i = 14 then ((extent >>> 5) &&& 0x3F).toUInt8
  else if i = 15 then ((extentBytes + 127) / 128).toUInt8
  else if i < 16 + blockCount then (firstBlock + (i - 16)).toUInt8
  else 0

/-- The loop over the blocks of an extent. -/
def copyBlocks : Nat → List UInt8 → Nat → Contents → Contents
  | 0, _, _, logical => logical
  | count + 1, source, block, logical =>
    copyBlocks count (source.drop kBlockSize) (block + 1)
      (copyTo logical (blockOffset block) (source.take kBlockSize))

/-- The loop over the extents of a file. The block number stays below 256. -/
def addExtents (name : CpmName) (extent : Nat) (source : List UInt8) (s : Build) :
    Except Message Build :=
  if source = [] then .ok s
  else if kDirectoryEntries ≤ s.directoryEntry then
    .error (ascii "directory-backed drive has no free directory entries")
  else
    let extentBytes := min kExtentSize source.length
    let blockCount := (extentBytes + kBlockSize - 1) / kBlockSize
    if kLastDataBlock < s.nextBlock + blockCount - 1 then
      .error (ascii "directory-backed drive is full")
    else
      let entry := (List.range 32).map
        (entryByte name extent extentBytes s.nextBlock blockCount)
      let logical := copyTo s.logical (entryOffset s.directoryEntry) entry
      let logical := copyBlocks blockCount (source.take kExtentSize) s.nextBlock logical
      addExtents name (extent + 1) (source.drop kExtentSize)
        { logical, directoryEntry := s.directoryEntry + 1, nextBlock := s.nextBlock + blockCount }
termination_by source.length
decreasing_by
  have hsource : source ≠ [] := by assumption
  have := List.length_pos_of_ne_nil hsource
  rw [List.length_drop]
  unfold kExtentSize
  omega

def incompatible (file : Fixture) : Message :=
  ascii "file is not CP/M 8.3-compatible: " ++ file.path

def addFile (file : Fixture) (s : Build) : Except Message Build :=
  match splitCpmName file.filename with
  | none => .error (incompatible file)
  | some name =>
    match file.contents with
    | none => .error (ascii "cannot read host file: " ++ file.path)
    | some contents => addExtents name 0 (payload file.text contents) s

/-- The loop over the files, with the names that were seen. -/
def addFiles : List Fixture → List (List UInt8) → Build → Except Message Build
  | [], _, s => .ok s
  | file :: rest, names, s =>
    match splitCpmName file.filename with
    | none => .error (incompatible file)
    | some name =>
      if name.text ∈ names then .error (ascii "duplicate CP/M filename: " ++ name.text)
      else
        match addFile file s with
        | .error message => .error message
        | .ok s => addFiles rest (name.text :: names) s

def emptyLogical : Contents := fun a =>
  if kDirectoryOffset ≤ a ∧ a < kDirectoryOffset + kDirectorySize then 0xE5 else 0

def rawSector (track sector : Nat) : Nat :=
  let raw := kSectorTranslation.getD sector 0
  if 6 ≤ track then (raw * 17) &&& 0x1F else raw

def physical (track sector : Nat) : Nat :=
  (track * kSectorsPerTrack + rawSector track sector) * kPhysicalSectorSize

def dataOffset (track : Nat) : Nat := if track < 6 then 3 else 7

def logicalOffset (track sector : Nat) : Nat :=
  (track * kSectorsPerTrack + sector) * kLogicalSectorSize

def sumBytes (bytes : List UInt8) : Nat := bytes.foldl (fun sum c => sum + c.toNat) 0

/-- A logical sector in its place on the raw disk, with its checksum. -/
def wrapSector (logical : Contents) (wrapped : Contents) (place : Nat × Nat) : Contents :=
  let base := physical place.1 place.2
  let bytes := slice logical (logicalOffset place.1 place.2) kLogicalSectorSize
  let wrapped := copyTo wrapped (base + dataOffset place.1) bytes
  let checksum := sumBytes bytes
  if place.1 < 6 then copyTo wrapped (base + 131) [0xFF, checksum.toUInt8]
  else
    let checksum := checksum + (wrapped (base + 2)).toNat + (wrapped (base + 3)).toNat +
      (wrapped (base + 5)).toNat + (wrapped (base + 6)).toNat
    let wrapped := copyTo wrapped (base + 4) [checksum.toUInt8]
    copyTo wrapped (base + 135) [0xFF, 0x00]

/-- The sectors of the tracks from `first` on. -/
def sectorsFrom (first : Nat) : List (Nat × Nat) :=
  (List.range' first (kTracks - first)).flatMap fun track =>
    (List.range kSectorsPerTrack).map fun sector => (track, sector)

/-- `DirectoryDisk::build`: the image afterwards and the error. -/
def build (template : List UInt8) (raw : Option Image) (files : List Fixture) (rawImage : Image) :
    Image × Option Message :=
  match raw with
  | none => (rawImage, some (ascii "cannot read 88-DCDD template: " ++ template))
  | some raw =>
    if raw.size < kRawSize then
      (rawImage, some (ascii "cannot read 88-DCDD template: " ++ template))
    else
      match addFiles files [] ⟨emptyLogical, 0, kFirstDataBlock⟩ with
      | .error message => (rawImage, some message)
      | .ok s => (⟨kRawSize, (sectorsFrom 2).foldl (wrapSector s.logical) raw.byte⟩, none)

/-! ## Extracting -/

/-- A file that was found. -/
structure DiskFile where
  name : List UInt8
  data : List UInt8
  deriving DecidableEq

/-- An extent that was read, under the name of its file. -/
structure Extent where
  name : List UInt8
  extent : Nat
  data : List UInt8

/-- The logical disk: each of its bytes is copied from one sector. -/
def unwrap (raw : Contents) : Contents := fun a =>
  let track := a / 4096
  let sector := a / 128 % 32
  raw (physical track sector + dataOffset track + a % 128)

def nameField (entry : Contents) (first count : Nat) : List UInt8 :=
  ((List.range' first count).map fun i => entry i &&& 0x7F).takeWhile (· ≠ ' '.toUInt8)

/-- The loop over the block numbers: the data and what is still missing. -/
def readBlocks (logical : Contents) (name : List UInt8) :
    List UInt8 → Nat → Except Message (List UInt8 × Nat)
  | [], remaining => .ok ([], remaining)
  | block :: rest, remaining =>
    if remaining = 0 then .ok ([], 0)
    else if block.toNat < kFirstDataBlock ∨ kLastDataBlock < block.toNat then
      .error (ascii "invalid allocation block for " ++ name)
    else
      let bytes := min kBlockSize remaining
      if kLogicalSize < blockOffset block.toNat + bytes then
        .error (ascii "allocation block exceeds disk for " ++ name)
      else
        match readBlocks logical name rest (remaining - bytes) with
        | .error message => .error message
        | .ok (data, missing) =>
          .ok (slice logical (blockOffset block.toNat) bytes ++ data, missing)

/-- An entry that is in use. -/
def readEntry (logical : Contents) (entry : Contents) (extents : List Extent) :
    Except Message (List Extent) :=
  let base := nameField entry 1 8
  let extension := nameField entry 9 3
  if base = [] then .error (ascii "malformed CP/M directory entry")
  else
    let name := CpmName.text ⟨base, extension⟩
    let extent := (entry 12 &&& 0x1F).toNat ||| ((entry 14 &&& 0x3F).toNat <<< 5)
    match readBlocks logical name (slice entry 16 16) ((entry 15).toNat * kLogicalSectorSize) with
    | .error message => .error message
    | .ok (data, missing) =>
      if missing ≠ 0 ∨ extents.any fun e => e.name = name ∧ e.extent = extent then
        .error (ascii "incomplete or duplicate extent for " ++ name)
      else .ok (extents ++ [⟨name, extent, data⟩])

/-- The loop over the directory. -/
def readEntries (logical : Contents) : List Nat → List Extent → Except Message (List Extent)
  | [], extents => .ok extents
  | k :: rest, extents =>
    let entry : Contents := fun i => logical (entryOffset k + i)
    if entry 0 = 0xE5 ∨ entry 0 ≠ 0 then readEntries logical rest extents
    else
      match readEntry logical entry extents with
      | .error message => .error message
      | .ok extents => readEntries logical rest extents

/-- The order of `std::string`. -/
def nameLe : List UInt8 → List UInt8 → Bool
  | [], _ => true
  | _ :: _, [] => false
  | a :: x, b :: y => if a = b then nameLe x y else decide (a.toNat < b.toNat)

/-- The files in the order of `std::map`, their extents in order. -/
def collect (extents : List Extent) : List DiskFile :=
  ((extents.map Extent.name).dedup.insertionSort fun a b => nameLe a b = true).map fun name =>
    ⟨name, ((extents.filter fun e => e.name = name).insertionSort fun e f =>
      e.extent ≤ f.extent).flatMap Extent.data⟩

/-- `DirectoryDisk::extract` -/
def extract (rawImage : Image) : Except Message (List DiskFile) :=
  if rawImage.size < kRawSize then .error (ascii "88-DCDD image is too small")
  else
    match readEntries (unwrap rawImage.byte) (List.range kDirectoryEntries) [] with
    | .error message => .error message
    | .ok extents => .ok (collect extents)

end Z80Sbc.Debugger.DirectoryDisk
