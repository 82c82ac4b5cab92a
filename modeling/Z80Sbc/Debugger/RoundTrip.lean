import Mathlib.Algebra.Group.Nat.Defs
import Z80Sbc.Debugger.DirectoryDisk

/-! # Extraction undoes building

What is built is described by the extents that were placed, each with its entry and its blocks.
The sectors carry the logical disk both ways, and every entry reads back as its extent. -/

namespace Z80Sbc.Debugger.RoundTrip
open Z80Sbc.Debugger.DirectoryDisk

/-! ## Memory -/

theorem copyTo_inside {memory : Contents} {address i : Nat} {bytes : List UInt8}
    (h : i < bytes.length) : copyTo memory address bytes (address + i) = bytes.getD i 0 := by
  unfold copyTo
  rw [if_pos (by omega), Nat.add_sub_cancel_left]

theorem copyTo_outside {memory : Contents} {address a : Nat} {bytes : List UInt8}
    (h : a < address ∨ address + bytes.length ≤ a) : copyTo memory address bytes a = memory a := by
  unfold copyTo
  rw [if_neg (by omega)]

theorem slice_getD {memory : Contents} {address length i : Nat} (h : i < length) :
    (slice memory address length).getD i 0 = memory (address + i) := by
  unfold slice
  rw [List.getD_eq_getElem?_getD, List.getElem?_map, List.getElem?_range' h, Nat.one_mul]
  rfl

theorem slice_length (memory : Contents) (address length : Nat) :
    (slice memory address length).length = length := by
  unfold slice
  rw [List.length_map, List.length_range']

/-- The blocks of an extent lie behind each other. -/
theorem copyBlocks_eq (count : Nat) (source : List UInt8) (block : Nat) (logical : Contents)
    (h : source.length ≤ count * kBlockSize) :
    copyBlocks count source block logical = copyTo logical (blockOffset block) source := by
  induction count generalizing source block logical with
  | zero =>
    have hnil : source = [] := List.length_eq_zero_iff.mp (by omega)
    funext a
    rw [hnil, copyTo_outside (by rw [List.length_nil]; omega)]
    rfl
  | succ count ih =>
    have hdrop : (source.drop kBlockSize).length = source.length - kBlockSize := List.length_drop
    have htake : (source.take kBlockSize).length = min kBlockSize source.length := List.length_take
    have hnext : blockOffset (block + 1) = blockOffset block + kBlockSize := by
      unfold blockOffset
      rw [Nat.add_mul, Nat.one_mul, Nat.add_assoc]
    rw [Nat.add_mul, Nat.one_mul] at h
    unfold copyBlocks
    rw [ih _ _ _ (by omega)]
    funext a
    unfold copyTo
    rw [hnext, hdrop, htake]
    by_cases hfirst : a < blockOffset block + kBlockSize
    · rw [if_neg (by omega)]
      by_cases hin : blockOffset block ≤ a ∧ a < blockOffset block + source.length
      · rw [if_pos (by omega), if_pos hin, List.getD_eq_getElem?_getD, List.getD_eq_getElem?_getD,
          List.getElem?_take_of_lt (by omega)]
      · rw [if_neg (by omega), if_neg hin]
    · by_cases hin : a < blockOffset block + source.length
      · have hindex : kBlockSize + (a - (blockOffset block + kBlockSize)) =
            a - blockOffset block := by omega
        rw [if_pos (by omega), if_pos (by omega), List.getD_eq_getElem?_getD,
          List.getD_eq_getElem?_getD, List.getElem?_drop, hindex]
      · rw [if_neg (by omega), if_neg (by omega), if_neg (by omega)]

/-! ## Sectors -/

theorem rawSector_lt {track sector : Nat} (h : sector < 32) : rawSector track sector < 32 := by
  have hplain : ∀ s < 32, kSectorTranslation.getD s 0 < 32 := by decide
  have hturned : ∀ s < 32, (kSectorTranslation.getD s 0 * 17) &&& 0x1F < 32 := by decide
  unfold rawSector
  dsimp only
  split
  · exact hturned sector h
  · exact hplain sector h

theorem rawSector_inj {track sector sector' : Nat} (h : sector < 32) (h' : sector' < 32)
    (heq : rawSector track sector = rawSector track sector') : sector = sector' := by
  have hplain : ((List.range 32).map fun s => kSectorTranslation.getD s 0).Nodup := by decide
  have hturned :
      ((List.range 32).map fun s => (kSectorTranslation.getD s 0 * 17) &&& 0x1F).Nodup := by
    decide
  have hinj {f : Nat → Nat} (hnodup : ((List.range 32).map f).Nodup) (hf : f sector = f sector') :
      sector = sector' :=
    List.inj_on_of_nodup_map hnodup (List.mem_range.mpr h) (List.mem_range.mpr h') hf
  unfold rawSector at heq
  dsimp only at heq
  by_cases htrack : 6 ≤ track
  · rw [if_pos htrack, if_pos htrack] at heq
    exact hinj hturned heq
  · rw [if_neg htrack, if_neg htrack] at heq
    exact hinj hplain heq

/-- Two sectors do not overlap. -/
theorem physical_apart {t s t' s' : Nat} (hs : s < 32) (hs' : s' < 32) (hne : (t, s) ≠ (t', s')) :
    physical t s + kPhysicalSectorSize ≤ physical t' s' ∨
      physical t' s' + kPhysicalSectorSize ≤ physical t s := by
  have hr := @rawSector_lt t s hs
  have hr' := @rawSector_lt t' s' hs'
  have hplace : t * 32 + rawSector t s ≠ t' * 32 + rawSector t' s' := by
    intro heq
    obtain rfl : t = t' := by omega
    have hraw : rawSector t s = rawSector t s' := by omega
    exact hne (congrArg (Prod.mk t) (rawSector_inj hs hs' hraw))
  unfold physical kSectorsPerTrack kPhysicalSectorSize
  omega

theorem dataOffset_le (track : Nat) : 3 ≤ dataOffset track ∧ dataOffset track ≤ 7 := by
  unfold dataOffset
  split <;> omega

theorem wrapSector_outside {logical wrapped : Contents} {t s a : Nat}
    (h : a < physical t s ∨ physical t s + kPhysicalSectorSize ≤ a) :
    wrapSector logical wrapped (t, s) a = wrapped a := by
  have hlength := slice_length logical (logicalOffset t s) kLogicalSectorSize
  obtain ⟨hlow, hhigh⟩ := dataOffset_le t
  unfold kPhysicalSectorSize at h
  unfold kLogicalSectorSize at hlength
  have hdata : copyTo wrapped (physical t s + dataOffset t)
      (slice logical (logicalOffset t s) kLogicalSectorSize) a = wrapped a :=
    copyTo_outside (by unfold kLogicalSectorSize; omega)
  unfold wrapSector
  dsimp only
  split
  · rw [copyTo_outside (by rw [List.length_cons, List.length_singleton]; omega), hdata]
  · rw [copyTo_outside (by rw [List.length_cons, List.length_singleton]; omega),
      copyTo_outside (by rw [List.length_singleton]; omega), hdata]

theorem wrapSector_data {logical wrapped : Contents} {t s i : Nat} (hi : i < kLogicalSectorSize) :
    wrapSector logical wrapped (t, s) (physical t s + dataOffset t + i) =
      logical (logicalOffset t s + i) := by
  have hdata : copyTo wrapped (physical t s + dataOffset t)
      (slice logical (logicalOffset t s) kLogicalSectorSize) (physical t s + dataOffset t + i) =
        logical (logicalOffset t s + i) := by
    rw [copyTo_inside (by rwa [slice_length]), slice_getD hi]
  unfold kLogicalSectorSize at hi
  unfold wrapSector
  dsimp only
  by_cases htrack : t < 6
  · have hoffset : dataOffset t = 3 := if_pos htrack
    rw [if_pos htrack, copyTo_outside (by omega), hdata]
  · have hoffset : dataOffset t = 7 := if_neg htrack
    rw [if_neg htrack, copyTo_outside (by omega),
      copyTo_outside (by rw [List.length_singleton]; omega), hdata]

theorem fold_outside {logical : Contents} {a : Nat} (places : List (Nat × Nat))
    (h : ∀ p ∈ places, a < physical p.1 p.2 ∨ physical p.1 p.2 + kPhysicalSectorSize ≤ a)
    (wrapped : Contents) : places.foldl (wrapSector logical) wrapped a = wrapped a := by
  induction places generalizing wrapped with
  | nil => rfl
  | cons p rest ih =>
    rw [List.foldl_cons, ih fun q hq => h q (List.mem_cons_of_mem _ hq)]
    exact wrapSector_outside (h p List.mem_cons_self)

/-- After all sectors each carries its part of the logical disk. -/
theorem fold_data {logical : Contents} (places : List (Nat × Nat)) (hnodup : places.Nodup)
    (hsectors : ∀ p ∈ places, p.2 < 32) {t s i : Nat} (hmem : (t, s) ∈ places)
    (hi : i < kLogicalSectorSize) (wrapped : Contents) :
    places.foldl (wrapSector logical) wrapped (physical t s + dataOffset t + i) =
      logical (logicalOffset t s + i) := by
  induction places generalizing wrapped with
  | nil => cases hmem
  | cons p rest ih =>
    obtain ⟨hp, hnodup⟩ := List.nodup_cons.mp hnodup
    have hrest : ∀ q ∈ rest, q.2 < 32 := fun q hq => hsectors q (List.mem_cons_of_mem _ hq)
    rw [List.foldl_cons]
    rcases List.mem_cons.mp hmem with rfl | hmem
    · rw [fold_outside rest fun q hq => ?_]
      · exact wrapSector_data hi
      · have hne : (t, s) ≠ (q.1, q.2) := by
          rintro heq
          exact hp (heq ▸ hq)
        obtain ⟨hlow, hhigh⟩ := dataOffset_le t
        unfold kLogicalSectorSize at hi
        have hs : s < 32 := hsectors _ List.mem_cons_self
        have hapart := physical_apart hs (hrest q hq) hne
        unfold kPhysicalSectorSize at hapart ⊢
        omega
    · exact ih hnodup hrest hmem _

theorem mem_sectorsFrom {first t s : Nat} (hfirst : first ≤ kTracks) :
    (t, s) ∈ sectorsFrom first ↔ (first ≤ t ∧ t < kTracks) ∧ s < kSectorsPerTrack := by
  unfold sectorsFrom
  rw [List.mem_flatMap]
  constructor
  · rintro ⟨track, htrack, hmem⟩
    obtain ⟨sector, hsector, heq⟩ := List.mem_map.mp hmem
    rw [List.mem_range'_1] at htrack
    rw [List.mem_range] at hsector
    cases heq
    exact ⟨⟨htrack.1, by omega⟩, hsector⟩
  · rintro ⟨htrack, hsector⟩
    exact ⟨t, List.mem_range'_1.mpr ⟨htrack.1, by omega⟩,
      List.mem_map.mpr ⟨s, List.mem_range.mpr hsector, rfl⟩⟩

theorem sectorsFrom_nodup (first : Nat) : (sectorsFrom first).Nodup := by
  unfold sectorsFrom
  rw [List.nodup_flatMap]
  refine ⟨fun track _ => ?_, ?_⟩
  · exact List.nodup_range.map fun a b h => (Prod.mk.inj h).2
  · refine List.Pairwise.imp (fun {a b} hne => ?_) (List.nodup_range' (s := first))
    intro p hp hq
    obtain ⟨_, _, rfl⟩ := List.mem_map.mp hp
    obtain ⟨_, _, heq⟩ := List.mem_map.mp hq
    exact hne (Prod.mk.inj heq).1.symm

/-- **The sectors carry the logical disk** from track 2 on. -/
theorem unwrap_wrapped {logical raw : Contents} {a : Nat} (hlow : kDirectoryOffset ≤ a)
    (hhigh : a < kLogicalSize) :
    unwrap ((sectorsFrom 2).foldl (wrapSector logical) raw) a = logical a := by
  have hoffset : kDirectoryOffset = 8192 := rfl
  have hsize : kLogicalSize = 315392 := rfl
  have htracks : kTracks = 77 := rfl
  have hper : kSectorsPerTrack = 32 := rfl
  have hmem : (a / 4096, a / 128 % 32) ∈ sectorsFrom 2 :=
    (mem_sectorsFrom (by decide)).mpr ⟨⟨by omega, by omega⟩, by omega⟩
  have hdata := @fold_data logical _ (sectorsFrom_nodup 2)
    (fun p hp => ((mem_sectorsFrom (by decide)).mp hp).2) _ _ (a % 128) hmem
    (Nat.mod_lt a (by decide)) raw
  have haddress : logicalOffset (a / 4096) (a / 128 % 32) + a % 128 = a := by
    unfold logicalOffset kSectorsPerTrack kLogicalSectorSize
    omega
  rw [haddress] at hdata
  exact hdata

/-- The first two tracks are those of the template. -/
theorem wrapped_system {logical raw : Contents} {a : Nat}
    (ha : a < 2 * kSectorsPerTrack * kPhysicalSectorSize) :
    (sectorsFrom 2).foldl (wrapSector logical) raw a = raw a := by
  refine fold_outside _ (fun p hp => Or.inl ?_) raw
  obtain ⟨⟨htrack, -⟩, -⟩ := (mem_sectorsFrom (by decide)).mp (show (p.1, p.2) ∈ _ from hp)
  unfold physical
  unfold kSectorsPerTrack kPhysicalSectorSize at *
  omega

/-! ## What is placed -/

/-- An extent of a file. -/
structure Part where
  name : CpmName
  extent : Nat
  data : List UInt8

/-- With the first of its blocks. -/
structure Placed extends Part where
  first : Nat

def Part.count (p : Part) : Nat := (p.data.length + kBlockSize - 1) / kBlockSize

/-- A name that fits the fields of an entry. -/
structure CpmName.Good (n : CpmName) : Prop where
  ne : n.base ≠ []
  base : n.base.length ≤ 8
  extension : n.extension.length ≤ 3
  bytes : ∀ c ∈ n.base ++ n.extension, c &&& 0x7F = c ∧ c ≠ ' '.toUInt8

structure Part.Proper (p : Part) : Prop where
  name : CpmName.Good p.name
  ne : p.data ≠ []
  fits : p.data.length ≤ kExtentSize
  extent : p.extent < kDirectoryEntries

theorem Part.Proper.count {p : Part} (h : p.Proper) :
    0 < p.count ∧ p.count ≤ 8 ∧ p.data.length ≤ p.count * kBlockSize := by
  have hpos := List.length_pos_of_ne_nil h.ne
  have hfits := h.fits
  unfold Part.count kExtentSize kBlockSize at *
  omega

/-- A logical disk that carries the extents. -/
structure Carries (logical : Contents) (placed : List Placed) : Prop where
  room : placed.length ≤ kDirectoryEntries
  proper : ∀ p ∈ placed, p.Proper
  entry : ∀ (k : Nat) (p : Placed), placed[k]? = some p → ∀ i < 32,
    logical (entryOffset k + i) = entryByte p.name p.extent p.data.length p.first p.count i
  free : ∀ k, placed.length ≤ k → k < kDirectoryEntries → logical (entryOffset k) = 0xE5
  data : ∀ p ∈ placed, ∀ i < p.count * kBlockSize,
    logical (blockOffset p.first + i) = p.data.getD i 0
  inside : ∀ p ∈ placed, kFirstDataBlock ≤ p.first ∧ p.first + p.count ≤ kLastDataBlock + 1
  apart : placed.Pairwise fun p q => p.first + p.count ≤ q.first

/-- A disk that is being built. -/
structure Laid (s : Build) (placed : List Placed) : Prop extends Carries s.logical placed where
  entries : s.directoryEntry = placed.length
  low : kFirstDataBlock ≤ s.nextBlock
  high : s.nextBlock ≤ kLastDataBlock + 1
  unused : ∀ a, blockOffset s.nextBlock ≤ a → s.logical a = 0
  below : ∀ p ∈ placed, p.first + p.count ≤ s.nextBlock

theorem entries_before {k i b : Nat} (hk : k < kDirectoryEntries) (hi : i < 32)
    (hb : kFirstDataBlock ≤ b) : entryOffset k + i < blockOffset b := by
  have hoffset : kDirectoryOffset = 8192 := rfl
  unfold entryOffset blockOffset kDirectoryEntries kFirstDataBlock kBlockSize at *
  omega

theorem empty_laid : Laid ⟨emptyLogical, 0, kFirstDataBlock⟩ [] := by
  have hnone {P : Placed → Prop} : ∀ p ∈ ([] : List Placed), P p := fun p hp => by cases hp
  refine ⟨⟨Nat.zero_le _, hnone, fun k p hp => ?_, fun k _ hk => ?_, hnone, hnone, .nil⟩, rfl,
    Nat.le_refl _, by decide, fun a ha => ?_, hnone⟩
  · rw [List.getElem?_nil] at hp
    cases hp
  · unfold emptyLogical entryOffset kDirectorySize
    exact if_pos (by omega)
  · have hfirst : blockOffset kFirstDataBlock = kDirectoryOffset + kDirectorySize := rfl
    have hbehind : blockOffset kFirstDataBlock ≤ a := ha
    unfold emptyLogical
    exact if_neg (by omega)

/-- The build after one more extent. -/
def place (s : Build) (p : Part) : Build :=
  { logical := copyTo (copyTo s.logical (entryOffset s.directoryEntry) ((List.range 32).map
      (entryByte p.name p.extent p.data.length s.nextBlock p.count)))
        (blockOffset s.nextBlock) p.data
    directoryEntry := s.directoryEntry + 1
    nextBlock := s.nextBlock + p.count }

section
variable {s : Build} {placed : List Placed} {p : Part}

theorem place_entry (h : Laid s placed) (hroom : s.directoryEntry < kDirectoryEntries) {i : Nat}
    (hi : i < 32) : (place s p).logical (entryOffset s.directoryEntry + i) =
      entryByte p.name p.extent p.data.length s.nextBlock p.count i := by
  unfold place
  dsimp only
  rw [copyTo_outside (Or.inl (entries_before hroom hi h.low)),
    copyTo_inside (by rw [List.length_map, List.length_range]; exact hi),
    List.getD_eq_getElem?_getD, List.getElem?_map, List.getElem?_range hi]
  rfl

/-- Another entry stays. -/
theorem place_other (h : Laid s placed) {k i : Nat} (hk : k < kDirectoryEntries)
    (hne : k ≠ s.directoryEntry) (hi : i < 32) :
    (place s p).logical (entryOffset k + i) = s.logical (entryOffset k + i) := by
  unfold place
  dsimp only
  rw [copyTo_outside (Or.inl (entries_before hk hi h.low)), copyTo_outside]
  rw [List.length_map, List.length_range]
  unfold entryOffset
  omega

theorem place_data {i : Nat} (h : Laid s placed) (hroom : s.directoryEntry < kDirectoryEntries) :
    (place s p).logical (blockOffset s.nextBlock + i) = p.data.getD i 0 := by
  unfold place
  dsimp only
  by_cases hin : i < p.data.length
  · exact copyTo_inside hin
  · have hentry := @entries_before s.directoryEntry 31 s.nextBlock hroom (by decide) h.low
    rw [copyTo_outside (by omega), copyTo_outside, h.unused _ (Nat.le_add_right _ _),
      List.getD_eq_default _ _ (by omega)]
    rw [List.length_map, List.length_range]
    omega

/-- The blocks before stay. -/
theorem place_before (hroom : s.directoryEntry < kDirectoryEntries) {a : Nat}
    (hlow : blockOffset kFirstDataBlock ≤ a) (hhigh : a < blockOffset s.nextBlock) :
    (place s p).logical a = s.logical a := by
  have hentry :=
    @entries_before s.directoryEntry 31 kFirstDataBlock hroom (by decide) (Nat.le_refl _)
  unfold place
  dsimp only
  rw [copyTo_outside (Or.inl hhigh), copyTo_outside]
  rw [List.length_map, List.length_range]
  omega

theorem blockOffset_add (b n : Nat) : blockOffset (b + n) = blockOffset b + n * kBlockSize := by
  unfold blockOffset
  rw [Nat.add_mul, Nat.add_assoc]

theorem blockOffset_mono {b b' : Nat} (h : b ≤ b') : blockOffset b ≤ blockOffset b' := by
  unfold blockOffset
  exact Nat.add_le_add_left (Nat.mul_le_mul_right _ h) _

/-- **One more extent.** -/
theorem Laid.place (h : Laid s placed) (hp : p.Proper)
    (hroom : s.directoryEntry < kDirectoryEntries)
    (hblocks : s.nextBlock + p.count ≤ kLastDataBlock + 1) :
    Laid (place s p) (placed ++ [⟨p, s.nextBlock⟩]) := by
  have hcount := hp.count
  have hentries := h.entries
  have hmem {q : Placed} (hq : q ∈ placed ++ [⟨p, s.nextBlock⟩]) :
      q ∈ placed ∨ q = ⟨p, s.nextBlock⟩ := by
    rcases List.mem_append.mp hq with hq | hq
    · exact Or.inl hq
    · exact Or.inr (List.mem_singleton.mp hq)
  refine ⟨⟨?_, fun q hq => ?_, fun k q hq i hi => ?_, fun k hk hk' => ?_, fun q hq i hi => ?_,
    fun q hq => ?_, ?_⟩, ?_, ?_, hblocks, fun a ha => ?_, fun q hq => ?_⟩
  · rw [List.length_append, List.length_singleton, ← hentries]
    exact hroom
  · rcases hmem hq with hq | rfl
    · exact h.proper q hq
    · exact hp
  · rcases Nat.lt_trichotomy k placed.length with hk | hk | hk
    · rw [List.getElem?_append_left hk] at hq
      rw [place_other h (by omega) (by omega) hi]
      exact h.entry k q hq i hi
    · rw [List.getElem?_append_right (by omega), hk, Nat.sub_self] at hq
      obtain rfl := Option.some.inj hq
      rw [hk, ← hentries]
      exact place_entry h hroom hi
    · rw [List.getElem?_eq_none (by rw [List.length_append, List.length_singleton]; omega)] at hq
      cases hq
  · rw [List.length_append, List.length_singleton] at hk
    have hother := @place_other s placed p h k 0 hk' (by omega) (by decide)
    rw [Nat.add_zero] at hother
    rw [hother]
    exact h.free k (by omega) hk'
  · rcases hmem hq with hq | rfl
    · have hbelow := blockOffset_mono (h.below q hq)
      have hfirst := blockOffset_mono (h.inside q hq).1
      rw [blockOffset_add] at hbelow
      rw [place_before hroom (by omega) (by omega)]
      exact h.data q hq i hi
    · exact place_data h hroom
  · rcases hmem hq with hq | rfl
    · exact h.inside q hq
    · exact ⟨h.low, hblocks⟩
  · refine List.pairwise_append.mpr ⟨h.apart, List.pairwise_singleton _ _, fun q hq r hr => ?_⟩
    rw [List.mem_singleton.mp hr]
    exact h.below q hq
  · rw [List.length_append, List.length_singleton, ← hentries]
    rfl
  · exact Nat.le_trans h.low (Nat.le_add_right _ _)
  · have hnext : blockOffset (s.nextBlock + p.count) ≤ a := ha
    rw [blockOffset_add] at hnext
    have hentry := @entries_before s.directoryEntry 31 s.nextBlock hroom (by decide) h.low
    unfold RoundTrip.place
    dsimp only
    rw [copyTo_outside (by omega), copyTo_outside, h.unused a (by omega)]
    rw [List.length_map, List.length_range]
    omega
  · rcases hmem hq with hq | rfl
    · exact Nat.le_trans (h.below q hq) (Nat.le_add_right _ _)
    · exact Nat.le_refl _

end

/-! ## Files -/

/-- The extents of a payload. -/
def parts (name : CpmName) (extent : Nat) (source : List UInt8) : List Part :=
  if source = [] then []
  else ⟨name, extent, source.take kExtentSize⟩ :: parts name (extent + 1) (source.drop kExtentSize)
termination_by source.length
decreasing_by
  have hsource : source ≠ [] := by assumption
  have := List.length_pos_of_ne_nil hsource
  rw [List.length_drop]
  unfold kExtentSize
  omega

theorem addExtents_laid {name : CpmName} (hname : CpmName.Good name) (n : Nat) :
    ∀ {source : List UInt8} {extent : Nat} {s s' : Build} {placed : List Placed},
      source.length ≤ n → extent ≤ s.directoryEntry → Laid s placed →
      addExtents name extent source s = .ok s' →
      ∃ more, Laid s' (placed ++ more) ∧ more.map Placed.toPart = parts name extent source := by
  induction n with
  | zero =>
    intro source extent s s' placed hlength _ h hrun
    have hnil : source = [] := List.length_eq_zero_iff.mp (by omega)
    rw [addExtents, if_pos hnil] at hrun
    obtain rfl := Except.ok.inj hrun
    refine ⟨[], by rwa [List.append_nil], ?_⟩
    rw [parts, if_pos hnil]
    rfl
  | succ n ih =>
    intro source extent s s' placed hlength hextent h hrun
    rw [addExtents] at hrun
    rw [parts]
    by_cases hnil : source = []
    · rw [if_pos hnil] at hrun ⊢
      obtain rfl := Except.ok.inj hrun
      exact ⟨[], by rwa [List.append_nil], rfl⟩
    rw [if_neg hnil] at hrun ⊢
    by_cases hfull : kDirectoryEntries ≤ s.directoryEntry
    · rw [if_pos hfull] at hrun
      cases hrun
    rw [if_neg hfull] at hrun
    have hsource := List.length_pos_of_ne_nil hnil
    have htake : (source.take kExtentSize).length = min kExtentSize source.length :=
      List.length_take
    have hsize : 0 < kExtentSize := by decide
    have hproper : Part.Proper ⟨name, extent, source.take kExtentSize⟩ := by
      refine ⟨hname, List.ne_nil_of_length_pos ?_, ?_, ?_⟩
      · rw [htake]
        omega
      · rw [htake]
        exact Nat.min_le_left _ _
      · show extent < kDirectoryEntries
        omega
    have hcount : Part.count ⟨name, extent, source.take kExtentSize⟩ =
        (min kExtentSize source.length + kBlockSize - 1) / kBlockSize := by
      unfold Part.count
      dsimp only
      rw [htake]
    have hblocks := hproper.count
    rw [hcount] at hblocks
    dsimp only at hrun hblocks
    by_cases hdisk : kLastDataBlock < s.nextBlock +
        (min kExtentSize source.length + kBlockSize - 1) / kBlockSize - 1
    · rw [if_pos hdisk] at hrun
      cases hrun
    rw [if_neg hdisk, copyBlocks_eq _ _ _ _ hblocks.2.2] at hrun
    have hplace := h.place hproper (by omega) (by rw [hcount]; omega)
    have hstate : place s ⟨name, extent, source.take kExtentSize⟩ =
        { logical := copyTo (copyTo s.logical (entryOffset s.directoryEntry) ((List.range 32).map
            (entryByte name extent (min kExtentSize source.length) s.nextBlock
              ((min kExtentSize source.length + kBlockSize - 1) / kBlockSize))))
            (blockOffset s.nextBlock) (source.take kExtentSize)
          directoryEntry := s.directoryEntry + 1
          nextBlock := s.nextBlock +
            (min kExtentSize source.length + kBlockSize - 1) / kBlockSize } := by
      unfold place
      rw [hcount]
      dsimp only
      rw [htake]
    rw [← hstate] at hrun
    have hdrop : (source.drop kExtentSize).length = source.length - kExtentSize := List.length_drop
    have hnext : extent + 1 ≤ (place s ⟨name, extent, source.take kExtentSize⟩).directoryEntry :=
      Nat.succ_le_succ hextent
    obtain ⟨more, hlaid, hmore⟩ := ih (by omega) hnext hplace hrun
    refine ⟨⟨⟨name, extent, source.take kExtentSize⟩, s.nextBlock⟩ :: more, ?_, ?_⟩
    · rwa [List.append_assoc, List.singleton_append] at hlaid
    · rw [List.map_cons, hmore]

/-- A host file as it stands on the disk. -/
def hostFile (file : Fixture) : Option (CpmName × List UInt8) :=
  (splitCpmName file.filename).bind fun name =>
    file.contents.map fun contents => (name, payload file.text contents)

theorem low_byte {c : UInt8} (h : c.toNat < 128) : c &&& 0x7F = c := by
  rw [← UInt8.toNat_inj, UInt8.toNat_and]
  show c.toNat &&& (2 ^ 7 - 1) = c.toNat
  rw [Nat.and_two_pow_sub_one_eq_mod]
  exact Nat.mod_eq_of_lt h

theorem splitCpmName_good {filename : List UInt8} {name : CpmName}
    (h : splitCpmName filename = some name) : CpmName.Good name := by
  unfold splitCpmName at h
  dsimp only at h
  generalize (filename.map Env.toupper).takeWhile _ = base at h
  generalize ((filename.map Env.toupper).dropWhile _).drop 1 = extension at h
  by_cases hshape : base = [] ∨ 8 < base.length ∨ 3 < extension.length ∨ '.'.toUInt8 ∈ extension
  · rw [if_pos hshape] at h
    cases h
  rw [if_neg hshape] at h
  by_cases hbytes : ((base ++ extension).all fun c => isalnum c || c = '_'.toUInt8) = true
  swap
  · rw [if_neg hbytes] at h
    cases h
  rw [if_pos hbytes] at h
  obtain rfl := Option.some.inj h
  rw [List.all_eq_true] at hbytes
  refine ⟨fun hnil => hshape (Or.inl hnil), by dsimp only; omega, by dsimp only; omega,
    fun c hc => ?_⟩
  have hone := hbytes c hc
  unfold isalnum at hone
  simp only [Bool.or_eq_true, Bool.and_eq_true, decide_eq_true_eq, UInt8.le_iff_toNat_le,
    ← UInt8.toNat_inj] at hone
  change (((48 ≤ c.toNat ∧ c.toNat ≤ 57) ∨ (65 ≤ c.toNat ∧ c.toNat ≤ 90)) ∨
    (97 ≤ c.toNat ∧ c.toNat ≤ 122)) ∨ c.toNat = 95 at hone
  refine ⟨low_byte (by omega), fun hblank => ?_⟩
  rw [hblank] at hone
  revert hone
  decide

/-- **All files** are placed, and their names differ. -/
theorem addFiles_laid {files : List Fixture} :
    ∀ {names : List (List UInt8)} {s s' : Build} {placed : List Placed}, Laid s placed →
      addFiles files names s = .ok s' →
      ∃ (found : List (CpmName × List UInt8)) (more : List Placed),
        files.map hostFile = found.map some ∧ Laid s' (placed ++ more) ∧
        more.map Placed.toPart = found.flatMap (fun f => parts f.1 0 f.2) ∧
        (found.map fun f => f.1.text).Nodup ∧ ∀ f ∈ found, f.1.text ∉ names := by
  induction files with
  | nil =>
    intro names s s' placed h hrun
    obtain rfl := Except.ok.inj hrun
    exact ⟨[], [], rfl, by rwa [List.append_nil], rfl, .nil, fun f hf => by cases hf⟩
  | cons file rest ih =>
    intro names s s' placed h hrun
    unfold addFiles at hrun
    cases hname : splitCpmName file.filename with
    | none =>
      rw [hname] at hrun
      cases hrun
    | some name =>
    rw [hname] at hrun
    dsimp only at hrun
    by_cases hseen : name.text ∈ names
    · rw [if_pos hseen] at hrun
      cases hrun
    rw [if_neg hseen] at hrun
    unfold addFile at hrun
    rw [hname] at hrun
    dsimp only at hrun
    cases hcontents : file.contents with
    | none =>
      rw [hcontents] at hrun
      cases hrun
    | some contents =>
    rw [hcontents] at hrun
    dsimp only at hrun
    cases hadd : addExtents name 0 (payload file.text contents) s with
    | error message =>
      rw [hadd] at hrun
      cases hrun
    | ok s₁ =>
    rw [hadd] at hrun
    dsimp only at hrun
    obtain ⟨more, hlaid, hmore⟩ :=
      addExtents_laid (splitCpmName_good hname) _ (Nat.le_refl _) (Nat.zero_le _) h hadd
    obtain ⟨found, more', hfound, hlaid', hmore', hnodup, hnames⟩ := ih hlaid hrun
    have hhost : hostFile file = some (name, payload file.text contents) := by
      unfold hostFile
      rw [hname, hcontents]
      rfl
    refine ⟨(name, payload file.text contents) :: found, more ++ more', ?_, ?_, ?_, ?_, ?_⟩
    · rw [List.map_cons, List.map_cons, hhost, hfound]
    · rwa [← List.append_assoc]
    · rw [List.map_append, hmore, hmore', List.flatMap_cons]
    · rw [List.map_cons, List.nodup_cons]
      refine ⟨fun hmem => ?_, hnodup⟩
      obtain ⟨f, hf, heq⟩ := List.mem_map.mp hmem
      exact hnames f hf (heq ▸ List.mem_cons_self)
    · intro f hf
      rcases List.mem_cons.mp hf with rfl | hf
      · exact hseen
      · exact fun hmem => hnames f hf (List.mem_cons_of_mem _ hmem)

/-! ## Reading an entry -/

theorem nameField_eq {entry : Contents} {first n : Nat} {text : List UInt8}
    (hlength : text.length ≤ n)
    (hbytes : ∀ c ∈ text, c &&& 0x7F = c ∧ c ≠ ' '.toUInt8)
    (h : ∀ i < n, entry (first + i) = text.getD i ' '.toUInt8) :
    nameField entry first n = text := by
  have hmap : (List.range' first n).map (fun i => entry i &&& 0x7F) =
      text ++ List.replicate (n - text.length) ' '.toUInt8 := by
    refine List.ext_getElem? fun i => ?_
    rw [List.getElem?_map]
    by_cases hi : i < n
    · rw [List.getElem?_range' hi, Nat.one_mul, Option.map_some, h i hi]
      by_cases hin : i < text.length
      · rw [List.getElem?_append_left hin, List.getD_eq_getElem _ _ hin,
          List.getElem?_eq_getElem hin, (hbytes _ (List.getElem_mem hin)).1]
      · rw [List.getElem?_append_right (by omega), List.getD_eq_default _ _ (by omega),
          List.getElem?_replicate, if_pos (by omega)]
        rfl
    · rw [List.getElem?_eq_none (by rw [List.length_range']; omega), Option.map_none,
        List.getElem?_eq_none (by rw [List.length_append, List.length_replicate]; omega)]
  have hblank : (List.replicate (n - text.length) ' '.toUInt8).takeWhile
      (fun c => decide (c ≠ ' '.toUInt8)) = [] := by
    cases n - text.length with
    | zero => rfl
    | succ m => rfl
  unfold nameField
  rw [hmap, List.takeWhile_append_of_pos fun c hc => decide_eq_true (hbytes c hc).2, hblank,
    List.append_nil]

theorem slice_append (memory : Contents) (address n m : Nat) :
    slice memory address n ++ slice memory (address + n) m = slice memory address (n + m) := by
  unfold slice
  rw [← List.map_append, List.range'_append_1]

/-- The blocks of an extent are read as one piece. -/
theorem readBlocks_eq (logical : Contents) (name : List UInt8) (rest : List UInt8) (n : Nat) :
    ∀ {first remaining : Nat}, kFirstDataBlock ≤ first → first + n ≤ kLastDataBlock + 1 →
      remaining ≤ n * kBlockSize →
      readBlocks logical name ((List.range' first n).map Nat.toUInt8 ++ rest) remaining =
        .ok (slice logical (blockOffset first) remaining, 0) := by
  have hdone (blocks : List UInt8) (first : Nat) : readBlocks logical name blocks 0 =
      .ok (slice logical (blockOffset first) 0, 0) := by
    cases blocks with
    | nil => rfl
    | cons block rest =>
      unfold readBlocks
      rw [if_pos rfl]
      rfl
  induction n with
  | zero =>
    intro first remaining _ _ hremaining
    obtain rfl : remaining = 0 := by omega
    exact hdone _ first
  | succ n ih =>
    intro first remaining hlow hhigh hremaining
    by_cases hzero : remaining = 0
    · rw [hzero]
      exact hdone _ first
    have hblock : first.toUInt8.toNat = first := by
      refine UInt8.toNat_ofNat_of_lt' ?_
      show first < 256
      unfold kLastDataBlock at hhigh
      omega
    have hdisk : ¬kLogicalSize < blockOffset first + min kBlockSize remaining := by
      have hsize : kLogicalSize = kDirectoryOffset + 150 * kBlockSize := rfl
      have hmono := blockOffset_mono (show first + 1 ≤ 150 by unfold kLastDataBlock at hhigh; omega)
      rw [blockOffset_add] at hmono
      have hlast : blockOffset 150 = kLogicalSize := rfl
      omega
    rw [Nat.add_mul, Nat.one_mul] at hremaining
    rw [List.range'_succ, List.map_cons, List.cons_append]
    unfold readBlocks
    dsimp only
    rw [if_neg hzero, hblock, if_neg (by omega), if_neg hdisk,
      ih (by omega) (by omega) (by omega)]
    dsimp only
    by_cases hlast : remaining ≤ kBlockSize
    · have hrest : remaining - min kBlockSize remaining = 0 := by omega
      have hall : min kBlockSize remaining = remaining := by omega
      rw [hrest, hall]
      show Except.ok (slice logical (blockOffset first) remaining ++ [], 0) = _
      rw [List.append_nil]
    · have hfull : min kBlockSize remaining = kBlockSize := by omega
      have hnext : blockOffset (first + 1) = blockOffset first + kBlockSize := by
        rw [blockOffset_add, Nat.one_mul]
      rw [hfull, hnext, slice_append, Nat.add_sub_cancel' (by omega)]

/-- A payload as it is read back: with zero bytes up to a multiple of 128. -/
def padded (data : List UInt8) : List UInt8 :=
  data ++ List.replicate ((data.length + 127) / 128 * 128 - data.length) 0

/-- What is read of a part. -/
def Part.read (p : Part) : Extent := ⟨p.name.text, p.extent, padded p.data⟩

theorem extent_split {e : Nat} (h : e < kDirectoryEntries) :
    ((e &&& 0x1F).toUInt8 &&& 0x1F).toNat |||
        ((((e >>> 5) &&& 0x3F).toUInt8 &&& 0x3F).toNat <<< 5) =
      e := by
  have hall : ∀ n < 128, ((n &&& 0x1F).toUInt8 &&& 0x1F).toNat |||
      ((((n >>> 5) &&& 0x3F).toUInt8 &&& 0x3F).toNat <<< 5) = n := by decide
  exact hall e h

section
variable {logical : Contents} {placed : List Placed} {p : Placed}

theorem Carries.slice (h : Carries logical placed) (hp : p ∈ placed) :
    slice logical (blockOffset p.first) ((p.data.length + 127) / 128 * 128) = padded p.data := by
  have hcount := (h.proper p hp).count
  have hblocks : (p.data.length + 127) / 128 * 128 ≤ p.count * kBlockSize := by
    unfold kBlockSize at *
    omega
  refine List.ext_getElem? fun i => ?_
  unfold padded
  by_cases hi : i < (p.data.length + 127) / 128 * 128
  · have hget := @slice_getD logical (blockOffset p.first) _ i hi
    have hlength := slice_length logical (blockOffset p.first) ((p.data.length + 127) / 128 * 128)
    rw [List.getElem?_eq_getElem (by omega), ← List.getD_eq_getElem _ 0 (by omega), hget,
      h.data p hp i (by omega)]
    by_cases hin : i < p.data.length
    · rw [List.getElem?_append_left hin, List.getElem?_eq_getElem hin, List.getD_eq_getElem _ _ hin]
    · rw [List.getElem?_append_right (by omega), List.getElem?_replicate, if_pos (by omega),
        List.getD_eq_default _ _ (by omega)]
  · rw [List.getElem?_eq_none (by rw [slice_length]; omega), List.getElem?_eq_none]
    rw [List.length_append, List.length_replicate]
    omega

/-- **An entry reads back as its extent.** -/
theorem Carries.readEntry (h : Carries logical placed) {k : Nat} (hk : placed[k]? = some p)
    {extents : List Extent}
    (hnew : ∀ e ∈ extents, ¬(e.name = p.name.text ∧ e.extent = p.extent)) :
    readEntry logical (fun i => logical (entryOffset k + i)) extents =
      .ok (extents ++ [p.read]) := by
  have hmem : p ∈ placed := List.mem_of_getElem? hk
  have hproper := h.proper p hmem
  obtain ⟨hpos, hcount, hlength⟩ := hproper.count
  have hgood := hproper.name
  have hentry := h.entry k p hk
  obtain ⟨hfirst, hlast⟩ := h.inside p hmem
  have hfits := hproper.fits
  have hbase : nameField (fun i => logical (entryOffset k + i)) 1 8 = p.name.base := by
    refine nameField_eq hgood.base (fun c hc => hgood.bytes c (List.mem_append_left _ hc))
      fun i hi => ?_
    rw [hentry (1 + i) (by omega)]
    unfold entryByte
    rw [if_neg (by omega), if_pos (by omega), Nat.add_sub_cancel_left]
  have hextension : nameField (fun i => logical (entryOffset k + i)) 9 3 = p.name.extension := by
    refine nameField_eq hgood.extension (fun c hc => hgood.bytes c (List.mem_append_right _ hc))
      fun i hi => ?_
    rw [hentry (9 + i) (by omega)]
    unfold entryByte
    rw [if_neg (by omega), if_neg (by omega), if_pos (by omega), Nat.add_sub_cancel_left]
  have hblocks : DirectoryDisk.slice (fun i => logical (entryOffset k + i)) 16 16 =
      (List.range' p.first p.count).map Nat.toUInt8 ++ List.replicate (16 - p.count) 0 := by
    refine List.ext_getElem? fun i => ?_
    unfold DirectoryDisk.slice
    rw [List.getElem?_map]
    by_cases hi : i < 16
    · rw [List.getElem?_range' hi, Nat.one_mul, Option.map_some, hentry (16 + i) (by omega)]
      unfold entryByte
      rw [if_neg (by omega), if_neg (by omega), if_neg (by omega), if_neg (by omega),
        if_neg (by omega), if_neg (by omega), if_neg (by omega)]
      by_cases hin : i < p.count
      · rw [if_pos (by omega), Nat.add_sub_cancel_left, List.getElem?_append_left
          (by rw [List.length_map, List.length_range']; exact hin), List.getElem?_map,
          List.getElem?_range' hin, Nat.one_mul]
        rfl
      · rw [if_neg (by omega), List.getElem?_append_right
          (by rw [List.length_map, List.length_range']; omega), List.length_map,
          List.length_range', List.getElem?_replicate, if_pos (by omega)]
    · rw [List.getElem?_eq_none (by rw [List.length_range']; omega), Option.map_none,
        List.getElem?_eq_none (by
          rw [List.length_append, List.length_map, List.length_range', List.length_replicate]
          omega)]
  have hrecords : (logical (entryOffset k + 15)).toNat = (p.data.length + 127) / 128 := by
    have hbyte : logical (entryOffset k + 15) = ((p.data.length + 127) / 128).toUInt8 :=
      hentry 15 (by decide)
    rw [hbyte]
    refine UInt8.toNat_ofNat_of_lt' ?_
    show (p.data.length + 127) / 128 < 256
    unfold kExtentSize at hfits
    omega
  have hextent : ((logical (entryOffset k + 12) &&& 0x1F).toNat |||
      ((logical (entryOffset k + 14) &&& 0x3F).toNat <<< 5)) = p.extent := by
    have hlow : logical (entryOffset k + 12) = (p.extent &&& 0x1F).toUInt8 := hentry 12 (by decide)
    have hhigh : logical (entryOffset k + 14) = ((p.extent >>> 5) &&& 0x3F).toUInt8 :=
      hentry 14 (by decide)
    rw [hlow, hhigh]
    exact extent_split hproper.extent
  have hsectors : (p.data.length + 127) / 128 * kLogicalSectorSize ≤ p.count * kBlockSize := by
    unfold kLogicalSectorSize kBlockSize at *
    omega
  unfold DirectoryDisk.readEntry
  dsimp only
  rw [hbase, hextension, if_neg hgood.ne, hblocks, hrecords, hextent,
    readBlocks_eq _ _ _ _ hfirst hlast hsectors]
  dsimp only
  rw [if_neg]
  · have hslice : DirectoryDisk.slice logical (blockOffset p.first)
        ((p.data.length + 127) / 128 * kLogicalSectorSize) = padded p.data := h.slice hmem
    rw [hslice]
    rfl
  · rintro (hmissing | hdouble)
    · exact hmissing rfl
    · obtain ⟨e, he, hsame⟩ := List.any_eq_true.mp hdouble
      exact hnew e he (of_decide_eq_true hsame)

/-- **The directory reads back as the extents**, from any entry on. -/
theorem Carries.readEntries (h : Carries logical placed)
    (hdistinct : placed.Pairwise fun p q => ¬(p.name.text = q.name.text ∧ p.extent = q.extent))
    (n : Nat) : ∀ {k : Nat}, k + n = kDirectoryEntries →
      readEntries logical (List.range' k n) ((placed.take k).map fun p => p.read) =
        .ok (placed.map fun p => p.read) := by
  induction n with
  | zero =>
    intro k hk
    have hroom := h.room
    rw [List.take_of_length_le (by omega)]
    rfl
  | succ n ih =>
    intro k hk
    rw [List.range'_succ]
    unfold DirectoryDisk.readEntries
    dsimp only
    by_cases hused : k < placed.length
    swap
    · have hfree : logical (entryOffset k + 0) = 0xE5 ∨ logical (entryOffset k + 0) ≠ 0 :=
        Or.inl (h.free k (by omega) (by omega))
      rw [if_pos hfree]
      have hnext := ih (show k + 1 + n = kDirectoryEntries by omega)
      rw [List.take_of_length_le (by omega)] at hnext ⊢
      exact hnext
    have hk' : placed[k]? = some placed[k] := List.getElem?_eq_getElem hused
    have hzero : logical (entryOffset k + 0) = 0 := h.entry k _ hk' 0 (by decide)
    have htake : placed.take (k + 1) = placed.take k ++ [placed[k]] :=
      List.take_succ_eq_append_getElem hused
    have hnew : ∀ e ∈ (placed.take k).map (fun p => p.read),
        ¬(e.name = placed[k].name.text ∧ e.extent = placed[k].extent) := by
      intro e he
      obtain ⟨q, hq, rfl⟩ := List.mem_map.mp he
      have hsplit := hdistinct.sublist (List.take_sublist (k + 1) placed)
      rw [htake] at hsplit
      exact (List.pairwise_append.mp hsplit).2.2 q hq _ (List.mem_singleton.mpr rfl)
    have hread := h.readEntry hk' hnew
    have hin : ¬(logical (entryOffset k + 0) = 0xE5 ∨ logical (entryOffset k + 0) ≠ 0) := by
      rw [hzero]
      decide
    rw [if_neg hin, hread]
    dsimp only
    have hnext := ih (show k + 1 + n = kDirectoryEntries by omega)
    rw [htake, List.map_append] at hnext
    exact hnext

/-- The same extents in another memory that agrees on the logical disk. -/
theorem Carries.congr {logical' : Contents} (h : Carries logical placed)
    (hsame : ∀ a, kDirectoryOffset ≤ a → a < kLogicalSize → logical' a = logical a) :
    Carries logical' placed := by
  have hentry {k i : Nat} (hk : k < kDirectoryEntries) (hi : i < 32) :
      logical' (entryOffset k + i) = logical (entryOffset k + i) := by
    have hsize : kLogicalSize = 315392 := rfl
    have hoffset : kDirectoryOffset = 8192 := rfl
    refine hsame _ ?_ ?_
    · unfold entryOffset
      omega
    · unfold entryOffset kDirectoryEntries at *
      omega
  refine ⟨h.room, h.proper, fun k p hk i hi => ?_, fun k hk hk' => ?_, fun p hp i hi => ?_,
    h.inside,
    h.apart⟩
  · have hlt : k < placed.length := by
      by_contra hge
      rw [List.getElem?_eq_none (by omega)] at hk
      cases hk
    have hroom := h.room
    rw [hentry (by omega) hi]
    exact h.entry k p hk i hi
  · have hfirst := @hentry k 0 hk' (by decide)
    rw [Nat.add_zero] at hfirst
    rw [hfirst]
    exact h.free k hk hk'
  · obtain ⟨hlow, hhigh⟩ := h.inside p hp
    have hmono := blockOffset_mono hhigh
    have hend : blockOffset (kLastDataBlock + 1) = kLogicalSize := rfl
    rw [blockOffset_add, hend] at hmono
    rw [hsame _ (by unfold blockOffset; omega) (by omega)]
    exact h.data p hp i hi

end

/-! ## Files again -/

theorem parts_spec (name : CpmName) (n : Nat) : ∀ {source : List UInt8} {extent : Nat},
    source.length ≤ n → (∀ p ∈ parts name extent source, p.name = name ∧ extent ≤ p.extent) ∧
      (parts name extent source).Pairwise (fun p q => p.extent < q.extent) ∧
      ((parts name extent source).map Part.read).flatMap Extent.data = padded source := by
  induction n with
  | zero =>
    intro source extent hlength
    obtain rfl := List.length_eq_zero_iff.mp (show source.length = 0 by omega)
    rw [parts, if_pos rfl]
    exact ⟨fun p hp => (by cases hp), .nil, rfl⟩
  | succ n ih =>
    intro source extent hlength
    rw [parts]
    by_cases hnil : source = []
    · rw [if_pos hnil, hnil]
      exact ⟨fun p hp => (by cases hp), .nil, rfl⟩
    rw [if_neg hnil]
    have hpos := List.length_pos_of_ne_nil hnil
    have hdrop : (source.drop kExtentSize).length = source.length - kExtentSize := List.length_drop
    have hsize : kExtentSize = 16384 := rfl
    obtain ⟨hrest, hsorted, hdata⟩ :=
      @ih (source.drop kExtentSize) (extent + 1) (by omega)
    refine ⟨fun p hp => ?_, List.pairwise_cons.mpr ⟨fun p hp => (hrest p hp).2, hsorted⟩, ?_⟩
    · rcases List.mem_cons.mp hp with rfl | hp
      · exact ⟨rfl, Nat.le_refl _⟩
      · obtain ⟨hname, hextent⟩ := hrest p hp
        exact ⟨hname, by omega⟩
    · rw [List.map_cons, List.flatMap_cons, hdata]
      show padded (source.take kExtentSize) ++ padded (source.drop kExtentSize) = padded source
      unfold padded
      rw [List.length_take, hdrop]
      by_cases hfull : kExtentSize ≤ source.length
      · have hnone : (min kExtentSize source.length + 127) / 128 * 128 -
            min kExtentSize source.length = 0 := by omega
        have hpad :
            (source.length - kExtentSize + 127) / 128 * 128 - (source.length - kExtentSize) =
            (source.length + 127) / 128 * 128 - source.length := by omega
        rw [hnone, hpad, List.replicate_zero, List.append_nil, ← List.append_assoc,
          List.take_append_drop]
      · have hmin : min kExtentSize source.length = source.length := by omega
        have hend : source.length - kExtentSize = 0 := by omega
        rw [hmin, hend, List.drop_of_length_le (by omega), List.take_of_length_le (by omega)]
        rw [List.nil_append]
        show _ ++ [] = _
        rw [List.append_nil]

/-- The files as they are read back. -/
def DiskFile.of (f : CpmName × List UInt8) : DiskFile := ⟨f.1.text, padded f.2⟩

/-- The extents of all files. -/
def allParts (found : List (CpmName × List UInt8)) : List Part :=
  found.flatMap fun f => parts f.1 0 f.2

theorem parts_ne {name : CpmName} {extent : Nat} {source : List UInt8} (h : source ≠ []) :
    parts name extent source ≠ [] := by
  rw [parts, if_neg h]
  exact List.cons_ne_nil _ _

theorem payload_ne (text : Bool) (contents : List UInt8) : payload text contents ≠ [] := by
  unfold payload
  dsimp only
  generalize (if text = true then textPayload contents else contents) = source
  by_cases hnil : source = []
  · rw [if_pos hnil]
    exact List.cons_ne_nil _ _
  · rwa [if_neg hnil]

section
variable {found : List (CpmName × List UInt8)}

/-- Extents of different files differ in the name, those of one file in the number. -/
theorem allParts_distinct (hnodup : (found.map fun f => f.1.text).Nodup) :
    (allParts found).Pairwise fun p q => ¬(p.name.text = q.name.text ∧ p.extent = q.extent) := by
  induction found with
  | nil => exact .nil
  | cons f rest ih =>
    rw [List.map_cons, List.nodup_cons] at hnodup
    obtain ⟨hnames, hsorted, -⟩ := @parts_spec f.1 _ f.2 0 (Nat.le_refl _)
    refine List.pairwise_append.mpr ⟨hsorted.imp fun {p q} hlt heq => ?_, ih hnodup.2,
      fun p hp q hq heq => ?_⟩
    · exact absurd heq.2 (Nat.ne_of_lt hlt)
    · obtain ⟨g, hg, hq⟩ := List.mem_flatMap.mp hq
      have hname := ((@parts_spec g.1 _ g.2 0 (Nat.le_refl _)).1 q hq).1
      rw [(hnames p hp).1, hname] at heq
      exact hnodup.1 (List.mem_map.mpr ⟨g, hg, heq.1.symm⟩)

/-- The extents of one file among all. -/
theorem filter_parts (hnodup : (found.map fun f => f.1.text).Nodup) {f : CpmName × List UInt8}
    (hf : f ∈ found) :
    (((allParts found).map Part.read).filter fun e => e.name = f.1.text) =
      (parts f.1 0 f.2).map Part.read := by
  induction found with
  | nil => cases hf
  | cons g rest ih =>
    rw [List.map_cons, List.nodup_cons] at hnodup
    have hown {g : CpmName × List UInt8} {name : List UInt8} (hname : g.1.text = name) :
        (((parts g.1 0 g.2).map Part.read).filter fun e => e.name = name) =
          (parts g.1 0 g.2).map Part.read := by
      refine List.filter_eq_self.mpr fun e he => ?_
      obtain ⟨p, hp, rfl⟩ := List.mem_map.mp he
      refine decide_eq_true ?_
      show p.name.text = name
      rw [((@parts_spec g.1 _ g.2 0 (Nat.le_refl _)).1 p hp).1, hname]
    have hother {g : CpmName × List UInt8} {name : List UInt8} (hname : g.1.text ≠ name) :
        (((parts g.1 0 g.2).map Part.read).filter fun e => e.name = name) = [] := by
      refine List.filter_eq_nil_iff.mpr fun e he => ?_
      obtain ⟨p, hp, rfl⟩ := List.mem_map.mp he
      rw [decide_eq_true_eq]
      show p.name.text ≠ name
      rw [((@parts_spec g.1 _ g.2 0 (Nat.le_refl _)).1 p hp).1]
      exact hname
    show (((parts g.1 0 g.2 ++ allParts rest).map Part.read).filter fun e => e.name = f.1.text) = _
    rw [List.map_append, List.filter_append]
    rcases List.mem_cons.mp hf with rfl | hf
    · have hrest : (((allParts rest).map Part.read).filter fun e => e.name = f.1.text) = [] := by
        refine List.filter_eq_nil_iff.mpr fun e he => ?_
        obtain ⟨p, hp, rfl⟩ := List.mem_map.mp he
        obtain ⟨g, hg, hp⟩ := List.mem_flatMap.mp hp
        rw [decide_eq_true_eq]
        show p.name.text ≠ f.1.text
        rw [((@parts_spec g.1 _ g.2 0 (Nat.le_refl _)).1 p hp).1]
        exact fun heq => hnodup.1 (List.mem_map.mpr ⟨g, hg, heq⟩)
      rw [hown rfl, hrest, List.append_nil]
    · rw [hother fun heq => hnodup.1 (List.mem_map.mpr ⟨f, hf, heq.symm⟩), ih hnodup.2 hf,
        List.nil_append]

theorem nameLe_total : ∀ a b : List UInt8, nameLe a b = true ∨ nameLe b a = true
  | [], _ => Or.inl rfl
  | _ :: _, [] => Or.inr rfl
  | a :: x, b :: y => by
    unfold nameLe
    by_cases hab : a = b
    · rw [if_pos hab, if_pos hab.symm]
      exact nameLe_total x y
    · rw [if_neg hab, if_neg (Ne.symm hab), decide_eq_true_eq, decide_eq_true_eq]
      have hne : a.toNat ≠ b.toNat := fun h => hab (UInt8.toNat_inj.mp h)
      omega

theorem nameLe_trans : ∀ {a b c : List UInt8}, nameLe a b = true → nameLe b c = true →
    nameLe a c = true
  | [], _, _, _, _ => rfl
  | _ :: _, [], _, h, _ => by cases h
  | _ :: _, _ :: _, [], _, h => by cases h
  | a :: x, b :: y, c :: z, hab, hbc => by
    unfold nameLe at hab hbc ⊢
    by_cases h₁ : a = b
    · subst h₁
      rw [if_pos rfl] at hab
      by_cases h₂ : a = c
      · rw [if_pos h₂] at hbc ⊢
        exact nameLe_trans hab hbc
      · rw [if_neg h₂] at hbc ⊢
        exact hbc
    · rw [if_neg h₁, decide_eq_true_eq] at hab
      by_cases h₂ : b = c
      · subst h₂
        rw [if_neg h₁, decide_eq_true_eq]
        exact hab
      · rw [if_neg h₂, decide_eq_true_eq] at hbc
        have hne : a ≠ c := by
          rintro rfl
          omega
        rw [if_neg hne, decide_eq_true_eq]
        omega

/-- **What is collected** is one entry for each file, in the order of the names. -/
theorem collect_perm (hnodup : (found.map fun f => f.1.text).Nodup) (hne : ∀ f ∈ found, f.2 ≠ []) :
    (collect ((allParts found).map Part.read)).Perm (found.map DiskFile.of) ∧
      (collect ((allParts found).map Part.read)).Pairwise fun f g =>
        nameLe f.name g.name = true ∧ f.name ≠ g.name := by
  have hnames : (((allParts found).map Part.read).map Extent.name).dedup.Perm
      (found.map fun f => f.1.text) := by
    refine (List.perm_ext_iff_of_nodup (List.nodup_dedup _) hnodup).mpr fun name => ?_
    rw [List.mem_dedup, List.mem_map, List.mem_map]
    constructor
    · rintro ⟨e, he, rfl⟩
      obtain ⟨p, hp, rfl⟩ := List.mem_map.mp he
      obtain ⟨f, hf, hp⟩ := List.mem_flatMap.mp hp
      refine ⟨f, hf, ?_⟩
      show f.1.text = p.name.text
      rw [((@parts_spec f.1 _ f.2 0 (Nat.le_refl _)).1 p hp).1]
    · rintro ⟨f, hf, rfl⟩
      obtain ⟨p, hp⟩ := List.exists_mem_of_ne_nil _ (@parts_ne f.1 0 _ (hne f hf))
      refine ⟨p.read, List.mem_map.mpr ⟨p, List.mem_flatMap.mpr ⟨f, hf, hp⟩, rfl⟩, ?_⟩
      show p.name.text = f.1.text
      rw [((@parts_spec f.1 _ f.2 0 (Nat.le_refl _)).1 p hp).1]
  have hfile : ∀ f ∈ found, (⟨f.1.text, ((((allParts found).map Part.read).filter fun e =>
      e.name = f.1.text).insertionSort fun e f => e.extent ≤ f.extent).flatMap Extent.data⟩ :
      DiskFile) = DiskFile.of f := by
    intro f hf
    obtain ⟨-, hsorted, hdata⟩ := @parts_spec f.1 _ f.2 0 (Nat.le_refl _)
    have hpair : ((parts f.1 0 f.2).map Part.read).Pairwise fun e f => e.extent ≤ f.extent :=
      List.pairwise_map.mpr (hsorted.imp fun {p q} hlt => Nat.le_of_lt hlt)
    rw [filter_parts hnodup hf, hpair.insertionSort_eq, hdata]
    rfl
  constructor
  · unfold collect
    refine ((List.perm_insertionSort _ _).trans hnames).map _ |>.trans ?_
    rw [List.map_map]
    exact List.Perm.of_eq (List.map_congr_left hfile)
  · unfold collect
    refine List.pairwise_map.mpr ?_
    have htotal : Std.Total fun a b => nameLe a b = true := ⟨nameLe_total⟩
    have htrans : IsTrans (List UInt8) fun a b => nameLe a b = true := ⟨fun _ _ _ => nameLe_trans⟩
    have hsorted := List.pairwise_insertionSort (fun a b => nameLe a b = true)
      (((allParts found).map Part.read).map Extent.name).dedup
    have hdistinct : ((((allParts found).map Part.read).map Extent.name).dedup.insertionSort
        fun a b => nameLe a b = true).Nodup :=
      (List.perm_insertionSort _ _).nodup_iff.mpr (List.nodup_dedup _)
    exact hsorted.and hdistinct

end

/-! ## The built image -/

/-- A block number of an entry. -/
def blockAt (logical : Contents) (entry i : Nat) : UInt8 := logical (entryOffset entry + (16 + i))

/-- An entry that is not free. -/
def InUse (logical : Contents) (entry : Nat) : Prop :=
  entry < kDirectoryEntries ∧ logical (entryOffset entry) ≠ 0xE5

theorem Carries.block {logical : Contents} {placed : List Placed} (h : Carries logical placed)
    {k i : Nat} (hk : InUse logical k) (hi : i < 16) (hblock : blockAt logical k i ≠ 0) :
    ∃ p, placed[k]? = some p ∧ i < p.count ∧ (blockAt logical k i).toNat = p.first + i := by
  have hused : k < placed.length := by
    by_contra hfree
    exact hk.2 (h.free k (by omega) hk.1)
  have hentry := h.entry k _ (List.getElem?_eq_getElem hused) (16 + i) (by omega)
  refine ⟨placed[k], List.getElem?_eq_getElem hused, ?_⟩
  have hinside := (h.inside _ (List.getElem_mem hused)).2
  unfold blockAt at hblock ⊢
  rw [hentry] at hblock ⊢
  unfold entryByte at hblock ⊢
  rw [if_neg (by omega), if_neg (by omega), if_neg (by omega), if_neg (by omega),
    if_neg (by omega), if_neg (by omega), if_neg (by omega)] at hblock ⊢
  by_cases hin : i < placed[k].count
  · rw [if_pos (by omega), Nat.add_sub_cancel_left]
    refine ⟨hin, UInt8.toNat_ofNat_of_lt' ?_⟩
    show placed[k].first + i < 256
    unfold kLastDataBlock at hinside
    omega
  · rw [if_neg (by omega)] at hblock
    exact absurd rfl hblock

/-- Blocks lie in the data area, and no two entries or places share one. -/
def BlocksApart (logical : Contents) : Prop :=
  ∀ k i, InUse logical k → i < 16 → blockAt logical k i ≠ 0 →
    (kFirstDataBlock ≤ (blockAt logical k i).toNat ∧
      (blockAt logical k i).toNat ≤ kLastDataBlock) ∧
    ∀ k' i', InUse logical k' → i' < 16 → blockAt logical k i = blockAt logical k' i' →
      k = k' ∧ i = i'

theorem Carries.blocksApart {logical : Contents} {placed : List Placed} (h : Carries logical placed) :
    BlocksApart logical := by
  intro k i hk hi hblock
  obtain ⟨p, hp, hcount, hvalue⟩ := h.block hk hi hblock
  have hmem := List.mem_of_getElem? hp
  obtain ⟨hlow, hhigh⟩ := h.inside p hmem
  refine ⟨⟨by omega, by omega⟩, fun k' i' hk' hi' hsame => ?_⟩
  obtain ⟨q, hq, hcount', hvalue'⟩ := h.block hk' hi' (hsame ▸ hblock)
  have hequal : p.first + i = q.first + i' := by rw [← hvalue, ← hvalue', hsame]
  have happart {a b : Nat} {p q : Placed} (ha : placed[a]? = some p) (hb : placed[b]? = some q)
      (hlt : a < b) : p.first + p.count ≤ q.first := by
    obtain ⟨ha', rfl⟩ := List.getElem?_eq_some_iff.mp ha
    obtain ⟨hb', rfl⟩ := List.getElem?_eq_some_iff.mp hb
    exact List.pairwise_iff_getElem.mp h.apart a b ha' hb' hlt
  rcases Nat.lt_trichotomy k k' with hlt | heq | hgt
  · have := happart hp hq hlt
    omega
  · subst heq
    obtain rfl := Option.some.inj (hp.symm.trans hq)
    exact ⟨rfl, by omega⟩
  · have := happart hq hp hgt
    omega

/-! ## What a disk is to hold -/

/-- A CR before each LF that has none: every byte is taken with the one before it. -/
def withReturns (source : List UInt8) : List UInt8 :=
  ((none :: source.map some).zip source).flatMap fun (before, c) =>
    if c = '\n'.toUInt8 ∧ before ≠ some '\r'.toUInt8 then ['\r'.toUInt8, c] else [c]

/-- A text ends with 1Ah. -/
def terminated (text : List UInt8) : List UInt8 :=
  if text.getLast? = some 0x1A then text else text ++ [0x1A]

/-- A binary file as it is, unless it is empty; a text as CP/M has it. -/
def filePayload (text : Bool) (contents : List UInt8) : List UInt8 :=
  if text then terminated (withReturns contents) else if contents = [] then [0] else contents

/-- In capitals, and without a dot that nothing follows. -/
def fileName (filename : List UInt8) : List UInt8 :=
  let name := filename.map Env.toupper
  if name.getLast? = some '.'.toUInt8 then name.dropLast else name

/-- The file of the disk for a host file. -/
def diskFile (file : Fixture) : Option DiskFile :=
  file.contents.map fun contents =>
    ⟨fileName file.filename, padded (filePayload file.text contents)⟩

theorem addReturns_eq (before : Option UInt8) (source : List UInt8) :
    addReturns before source = ((before :: source.map some).zip source).flatMap fun (before, c) =>
      if c = '\n'.toUInt8 ∧ before ≠ some '\r'.toUInt8 then ['\r'.toUInt8, c] else [c] := by
  induction source generalizing before with
  | nil => rfl
  | cons c rest ih =>
    rw [addReturns, ih, List.map_cons, List.zip_cons_cons, List.flatMap_cons]
    dsimp only
    split
    · rfl
    · rfl

theorem payload_eq (text : Bool) (contents : List UInt8) :
    payload text contents = filePayload text contents := by
  cases text with
  | false => rfl
  | true =>
    have htext : textPayload contents = terminated (withReturns contents) := by
      unfold textPayload
      rw [addReturns_eq]
      rfl
    have hne : terminated (withReturns contents) ≠ [] := by
      unfold terminated
      split
      next hlast =>
        intro hnil
        rw [hnil] at hlast
        cases hlast
      · exact List.append_ne_nil_of_right_ne_nil _ (List.cons_ne_nil _ _)
    unfold payload filePayload
    dsimp only
    rw [if_pos rfl, if_pos rfl, htext, if_neg hne]

/-- The name in the directory is the one of the file. -/
theorem splitCpmName_text {filename : List UInt8} {name : CpmName}
    (h : splitCpmName filename = some name) : name.text = fileName filename := by
  unfold splitCpmName at h
  unfold fileName
  dsimp only at h ⊢
  generalize filename.map Env.toupper = whole at h ⊢
  by_cases hshape : whole.takeWhile (· ≠ '.'.toUInt8) = [] ∨
      8 < (whole.takeWhile (· ≠ '.'.toUInt8)).length ∨
      3 < ((whole.dropWhile (· ≠ '.'.toUInt8)).drop 1).length ∨
      '.'.toUInt8 ∈ (whole.dropWhile (· ≠ '.'.toUInt8)).drop 1
  · rw [if_pos hshape] at h
    cases h
  rw [if_neg hshape] at h
  simp only [not_or] at hshape
  obtain ⟨hbase, -, -, hdots⟩ := hshape
  split at h
  swap
  · cases h
  obtain rfl := Option.some.inj h
  have hsplit := List.takeWhile_append_dropWhile (p := (· ≠ '.'.toUInt8)) (l := whole)
  have hfree : '.'.toUInt8 ∉ whole.takeWhile (· ≠ '.'.toUInt8) := fun hmem =>
    absurd (List.mem_takeWhile_imp hmem) (by decide)
  have hhead : ∀ c ∈ (whole.dropWhile (· ≠ '.'.toUInt8)).head?, c = '.'.toUInt8 := by
    intro c hc
    have hnot := List.head?_dropWhile_not (· ≠ '.'.toUInt8) whole
    rw [hc] at hnot
    simpa using hnot
  unfold CpmName.text
  dsimp only
  generalize whole.takeWhile _ = base at hsplit hfree hdots ⊢
  generalize whole.dropWhile _ = rest at hsplit hhead hdots ⊢
  subst hsplit
  cases rest with
  | nil =>
    rw [List.drop_nil, if_pos rfl, List.append_nil, if_neg]
    exact fun hlast => hfree (List.mem_of_getLast? hlast)
  | cons c extension =>
    obtain rfl := hhead c rfl
    rw [List.drop_one, List.tail_cons] at hdots ⊢
    by_cases hextension : extension = []
    · rw [hextension, if_pos rfl, List.append_nil, List.getLast?_concat, if_pos rfl,
        List.dropLast_concat]
    · rw [if_neg hextension, if_neg]
      intro hlast
      rw [List.getLast?_append_of_ne_nil _ (List.cons_ne_nil _ _),
        List.getLast?_cons_of_ne_nil hextension] at hlast
      exact hdots (List.mem_of_getLast? hlast)

theorem diskFile_of {file : Fixture} {f : CpmName × List UInt8} (h : hostFile file = some f) :
    diskFile file = some (DiskFile.of f) := by
  obtain ⟨name, hname, h⟩ := Option.bind_eq_some_iff.mp h
  obtain ⟨contents, hcontents, rfl⟩ := Option.map_eq_some_iff.mp h
  unfold diskFile DiskFile.of
  rw [hcontents, payload_eq, splitCpmName_text hname]
  rfl

/-- **Extraction undoes building**, a refused build changes nothing, blocks are not shared, and the
system tracks are those of the template. -/
theorem extract_build (template : List UInt8) (raw : Option Image) (files : List Fixture)
    (rawImage : Image) :
    let built := build template raw files rawImage
    (∀ message, built.2 = some message → built.1 = rawImage) ∧
      (built.2 = none →
        (∃ result, extract built.1 = .ok result ∧
          (result.map some).Perm (files.map diskFile) ∧
          result.Pairwise fun f g => nameLe f.name g.name = true ∧ f.name ≠ g.name) ∧
        BlocksApart (unwrap built.1.byte) ∧
        ∃ image, raw = some image ∧
          ∀ a < 2 * kSectorsPerTrack * kPhysicalSectorSize, built.1.byte a = image.byte a) := by
  intro built
  cases hraw : raw with
  | none =>
    have hbuilt :
        built = (rawImage, some (Env.ascii "cannot read 88-DCDD template: " ++ template)) := by
      show build template raw files rawImage = _
      rw [hraw]
      rfl
    rw [hbuilt]
    exact ⟨fun _ _ => rfl, fun h => by cases h⟩
  | some image =>
  have hbuild : built = build template (some image) files rawImage := by
    rw [← hraw]
  unfold build at hbuild
  dsimp only at hbuild
  by_cases hsize : image.size < kRawSize
  · rw [if_pos hsize] at hbuild
    rw [hbuild]
    exact ⟨fun _ _ => rfl, fun h => by cases h⟩
  rw [if_neg hsize] at hbuild
  cases hfiles : addFiles files [] ⟨emptyLogical, 0, kFirstDataBlock⟩ with
  | error message =>
    rw [hfiles] at hbuild
    rw [hbuild]
    exact ⟨fun _ _ => rfl, fun h => by cases h⟩
  | ok s =>
  rw [hfiles] at hbuild
  dsimp only at hbuild
  rw [hbuild]
  refine ⟨fun message h => (by cases h), fun _ => ?_⟩
  obtain ⟨found, placed, hfound, hlaid, hparts, hnodup, -⟩ := addFiles_laid empty_laid hfiles
  rw [List.nil_append] at hlaid
  have hcarries := hlaid.toCarries.congr fun a hlow hhigh =>
    @unwrap_wrapped s.logical image.byte a hlow hhigh
  have hne : ∀ f ∈ found, f.2 ≠ [] := by
    intro f hf
    have hsome : some f ∈ files.map hostFile := by
      rw [hfound]
      exact List.mem_map.mpr ⟨f, hf, rfl⟩
    obtain ⟨file, -, hhost⟩ := List.mem_map.mp hsome
    obtain ⟨name, -, hname⟩ := Option.bind_eq_some_iff.mp hhost
    obtain ⟨contents, -, rfl⟩ := Option.map_eq_some_iff.mp hname
    exact payload_ne _ _
  have hread : placed.map (fun p => p.read) = (allParts found).map Part.read := by
    unfold allParts
    rw [← hparts, List.map_map]
    rfl
  have hdistinct : placed.Pairwise fun p q =>
      ¬(p.name.text = q.name.text ∧ p.extent = q.extent) := by
    have hall := allParts_distinct hnodup
    unfold allParts at hall
    rw [← hparts] at hall
    exact List.pairwise_map.mp hall
  have hentries := hcarries.readEntries hdistinct kDirectoryEntries (Nat.zero_add _)
  rw [List.take_zero, List.map_nil, hread, ← List.range_eq_range'] at hentries
  obtain ⟨hperm, hsorted⟩ := collect_perm hnodup hne
  have hapart := hcarries.blocksApart
  dsimp only
  refine ⟨⟨_, ?_, ?_, hsorted⟩, hapart, image, rfl, fun a ha => ?_⟩
  · have hfull : ∀ size : Nat, ¬ size < size := fun _ => Nat.lt_irrefl _
    unfold extract
    dsimp only
    rw [if_neg (hfull _), hentries]
  · have hmap : files.map diskFile = (found.map DiskFile.of).map some := by
      have hdisk : files.map diskFile = (files.map hostFile).map (Option.map DiskFile.of) := by
        rw [List.map_map]
        refine List.map_congr_left fun file hfile => ?_
        have hmem : hostFile file ∈ found.map some := by
          rw [← hfound]
          exact List.mem_map_of_mem hfile
        obtain ⟨f, -, hf⟩ := List.mem_map.mp hmem
        rw [diskFile_of hf.symm, Function.comp_apply, ← hf]
        rfl
      rw [hdisk, hfound, List.map_map, List.map_map]
      rfl
    rw [hmap]
    exact hperm.map some
  · exact wrapped_system ha

/-- A text of one line, without the CR and the 1Ah of CP/M. -/
def textFile : Fixture where
  path := Env.ascii "disk/a.txt"
  filename := Env.ascii "a.txt"
  text := true
  contents := some (Env.ascii "Hi\n")

def textName : CpmName := ⟨Env.ascii "A", Env.ascii "TXT"⟩

theorem textFile_name : splitCpmName textFile.filename = some textName := by decide

theorem textFile_payload : payload true (Env.ascii "Hi\n") = Env.ascii "Hi" ++ [13, 10, 26] := by
  decide

theorem build_textFile (rawImage : Image) :
    (build [] (some ⟨kRawSize, fun _ => 0⟩) [textFile] rawImage).2 = none := by
  have hextents : ∃ s, addExtents textName 0 (Env.ascii "Hi" ++ [13, 10, 26])
      ⟨emptyLogical, 0, kFirstDataBlock⟩ = .ok s := by
    rw [addExtents, if_neg (by decide), if_neg (by decide), if_neg (by decide), addExtents, if_pos]
    · exact ⟨_, rfl⟩
    · decide
  obtain ⟨s, hs⟩ := hextents
  have hfiles : addFiles [textFile] [] ⟨emptyLogical, 0, kFirstDataBlock⟩ = .ok s := by
    rw [addFiles, textFile_name]
    dsimp only
    rw [if_neg List.not_mem_nil, addFile, textFile_name]
    have hadd : addExtents textName 0 (payload true (Env.ascii "Hi\n"))
        ⟨emptyLogical, 0, kFirstDataBlock⟩ = .ok s := by rw [textFile_payload, hs]
    dsimp only [textFile]
    rw [hadd]
    rfl
  unfold build
  dsimp only
  rw [if_neg (Nat.lt_irrefl _), hfiles]

/-- It comes back as a text of CP/M. -/
theorem extract_build_text :
    extract (build [] (some ⟨kRawSize, fun _ => 0⟩) [textFile] ⟨0, fun _ => 0⟩).1 =
      .ok [⟨Env.ascii "A.TXT", Env.ascii "Hi" ++ [13, 10, 26] ++ List.replicate 123 0⟩] := by
  obtain ⟨result, hextract, hperm, -⟩ :=
    ((extract_build [] (some ⟨kRawSize, fun _ => 0⟩) [textFile] ⟨0, fun _ => 0⟩).2
      (build_textFile _)).1
  have hone : diskFile textFile = some ⟨Env.ascii "A.TXT",
      Env.ascii "Hi" ++ [13, 10, 26] ++ List.replicate 123 0⟩ := by decide
  rw [List.map_singleton, hone, List.perm_singleton] at hperm
  rw [hextract]
  exact congrArg Except.ok ((List.map_inj_right fun _ _ h => Option.some.inj h).mp hperm)

end Z80Sbc.Debugger.RoundTrip
