import Z80Sbc.Concurrent.Run
import Z80Sbc.Flash.JournalSafety

/-! # The sector cache is coherent

The four drives, seen from outside, are a map from records to their bytes. The
cache and the flash together represent that map (`Represents`), and the flash
alone does whenever the cache is clean. Every flush, eviction and write keeps
this for every outcome of the bus and of the flash calls, because a flush
touches nothing of the disk area but the cached block, and clears `dirty` only
after that block compared equal in flash. -/

namespace Z80Sbc.Flash.CacheCoherence
open Z80Sbc.Storage Z80Sbc.Concurrent Z80Sbc.Flash JournalSafety

/-- The bytes of every record of every drive. -/
abbrev Records := Nat → Nat → Nat → UInt8

/-- The records the flash array holds. -/
def flashRecords (f : Flash) : Records := fun drive lba i =>
  f (slotOffset drive + sectorOffset lba + i)

/-- Two record maps agree on every record that exists. -/
def SameRecords (r r' : Records) : Prop :=
  ∀ drive < z80FlashDiskSlotCount, ∀ lba < z80FlashRecordCount, ∀ i < z80FlashRecordBytes,
    r drive lba i = r' drive lba i

/-- The cache holds a block of a slot whenever it holds anything. -/
structure CacheOk (c : DiskCache) : Prop where
  dirty_valid : c.dirty = true → c.valid = true
  drive_lt : c.valid = true → c.drive < z80FlashDiskSlotCount
  in_slot : c.valid = true → c.blockOffset + flashSectorSize ≤ z80FlashDiskSlotBytes
  aligned : c.valid = true → c.blockOffset % flashSectorSize = 0

/-- The cached block, without the dirty flag. -/
def SameBlock (c c' : DiskCache) : Prop :=
  c.valid = c'.valid ∧ c.drive = c'.drive ∧ c.blockOffset = c'.blockOffset ∧ c.data = c'.data

/-- The backend represents the records `r`. -/
structure Represents (b : Backend) (r : Records) : Prop where
  cache : CacheOk b.cache
  reads : SameRecords (fun drive lba => readRecord drive lba b) r
  clean : b.cache.dirty = false → SameRecords (flashRecords b.flash) r

/-! ## Addresses -/

/-- Unfold the layout constants and the address functions for `omega`. -/
theorem layout : (∀ d, slotOffset d = 0x200000 + d * 0x80000) ∧
    (∀ l, sectorOffset l = l * 128) ∧
    (∀ l, blockOffset l = l * 128 - l * 128 % 4096) := ⟨fun _ => rfl, fun _ => rfl, fun _ => rfl⟩

/-- A record lies in a block exactly when the block is the one it maps to. -/
theorem record_in_block {d o drive lba i : Nat}
    (ho : o + flashSectorSize ≤ z80FlashDiskSlotBytes) (ha : o % flashSectorSize = 0)
    (hlba : lba < z80FlashRecordCount)
    (hi : i < z80FlashRecordBytes) :
    (slotOffset d + o ≤ slotOffset drive + sectorOffset lba + i ∧
      slotOffset drive + sectorOffset lba + i < slotOffset d + o + flashSectorSize) ↔
      d = drive ∧ o = blockOffset lba := by
  obtain ⟨hs, hsec, hblk⟩ := layout
  simp only [flashSectorSize, z80FlashDiskSlotBytes, z80FlashRecordCount,
    z80FlashRecordBytes] at *
  rw [hs, hs, hsec, hblk]
  constructor
  · rintro ⟨h1, h2⟩
    omega
  · rintro ⟨rfl, rfl⟩
    omega

theorem record_inDisk {drive lba i : Nat} (hd : drive < z80FlashDiskSlotCount)
    (hlba : lba < z80FlashRecordCount) (hi : i < z80FlashRecordBytes) :
    InDisk (slotOffset drive + sectorOffset lba + i) := by
  obtain ⟨hs, hsec, -⟩ := layout
  simp only [InDisk, diskEnd, z80FlashDiskSlotCount, z80FlashDiskOffset, z80FlashDiskSlotBytes,
    z80FlashRecordCount, z80FlashRecordBytes] at *
  rw [hs, hsec]
  omega

/-- The block of a record lies in its slot. -/
theorem blockOffset_ok {lba : Nat} (hlba : lba < z80FlashRecordCount) :
    blockOffset lba + flashSectorSize ≤ z80FlashDiskSlotBytes ∧
      blockOffset lba % flashSectorSize = 0 ∧ blockOffset lba ≤ sectorOffset lba ∧
      sectorOffset lba - blockOffset lba = sectorOffset lba % flashSectorSize ∧
      sectorOffset lba % flashSectorSize + z80FlashRecordBytes ≤ flashSectorSize := by
  obtain ⟨-, hsec, hblk⟩ := layout
  simp only [flashSectorSize, z80FlashDiskSlotBytes, z80FlashRecordCount,
    z80FlashRecordBytes] at *
  rw [hblk, hsec]
  omega

theorem cached_iff {b : Backend} {drive lba : Nat} :
    b.cached drive lba = true ↔
      b.cache.valid = true ∧ b.cache.drive = drive ∧ b.cache.blockOffset = blockOffset lba := by
  simp [Backend.cached, and_assoc]

theorem readRecord_cached {b : Backend} {drive lba : Nat} (h : b.cached drive lba = true) (i : Nat) :
    readRecord drive lba b i = b.cache.data (sectorOffset lba - blockOffset lba + i) := by
  simp only [readRecord, h, if_true]

theorem readRecord_uncached {b : Backend} {drive lba : Nat} (h : b.cached drive lba = false)
    (i : Nat) : readRecord drive lba b i = flashRecords b.flash drive lba i := by
  simp only [readRecord, h, Bool.false_eq_true, if_false, flashRecords]

/-! ## One flush -/

/-- Whatever the flash calls of a block write leave in their ranges, the disk
area changes in that block at most, and a success means it holds the data. -/
theorem writeCallback_robust {f : Flash} {pair t : Nat} {data : Nat → UInt8} {h : JournalHeader}
    (hpair : pair < flashJournalPairCount) (hb : BlockAt t) :
    (writeCallback ⟨pairHeaderOffset pair, pairHeaderOffset pair + flashSectorSize, t, data, h⟩).Robust
      (fun ok f' => DiskIsBut f' f t ∧ (ok = true → ∀ i < flashSectorSize, f' (t + i) = data i)) f := by
  have hhigh := pair_high hpair
  have hoff := pairHeaderOffset_eq pair
  have hlow := hb.low
  have h0 : DiskIsBut f f t := fun _ _ _ => rfl
  unfold writeCallback
  simp only [Prog.erase_bind, Prog.program_bind, Prog.contents_bind, Prog.pure_eq]
  intro g1 g2 g3
  have h3 := ((h0.leave (c := ⟨pairHeaderOffset pair, flashJournalPairBytes, fun _ => 0xFF⟩) g1
      (Or.inl (by simp only [flashJournalPairBytes, flashSectorSize]; omega))).leave
      (c := ⟨pairHeaderOffset pair + flashSectorSize, flashSectorSize, data⟩) g2
      (Or.inl (by simp only [flashSectorSize]; omega))).leave
      (c := ⟨pairHeaderOffset pair, flashPageSize, h.page⟩) g3
      (Or.inl (by simp only [flashPageSize]; omega))
  refine Prog.robust_read.mpr (Prog.robust_ite (fun _ => ?_) fun _ => ?_)
  · exact ⟨h3, by simp⟩
  intro g4 g5 g6
  have h6 := ((h3.leave (c := ⟨t, flashSectorSize, fun _ => 0xFF⟩) g4
      (Or.inr ⟨le_refl _, le_refl _⟩)).leave
      (c := ⟨t, flashSectorSize / 2, data⟩) g5
      (Or.inr (by simp only [flashSectorSize]; omega))).leave
      (c := ⟨t + flashSectorSize / 2, flashSectorSize / 2,
        fun i => data (flashSectorSize / 2 + i)⟩) g6
      (Or.inr (by simp only [flashSectorSize]; omega))
  refine Prog.robust_read.mpr (Prog.robust_ite (fun hsame => ?_) fun _ => ?_)
  · intro g7
    refine ⟨h6.leave (c := ⟨pairHeaderOffset pair, flashSectorSize, fun _ => 0xFF⟩) g7
      (Or.inl (by simp only [flashSectorSize]; omega)), fun _ i hi => ?_⟩
    have hd := same_iff.mp hsame i hi
    rw [Nat.zero_add] at hd
    rw [← hd, Call.leave, overlay_outside]
    simp only [flashSectorSize, z80FlashDiskOffset] at hhigh hlow ⊢
    omega
  · exact ⟨h6, by simp⟩

/-- What one flush does, for every outcome. -/
structure FlushSpec (b : Backend) (ok : Bool) (b' : Backend) : Prop where
  block : SameBlock b'.cache b.cache
  flash : DiskIsBut b'.flash b.flash (slotOffset b.cache.drive + b.cache.blockOffset)
  idle : b.cache.dirty = false → b'.flash = b.flash ∧ b'.cache = b.cache
  stored : b.cache.dirty = true → b'.cache.dirty = false → ∀ i < flashSectorSize,
    b'.flash (slotOffset b.cache.drive + b.cache.blockOffset + i) = b.cache.data i
  done : ok = true → b'.cache.dirty = false

/-- The cached block, as the block write the flush performs. -/
theorem cache_blockAt {c : DiskCache} (h : CacheOk c) (hd : c.dirty = true) :
    BlockAt (slotOffset c.drive + c.blockOffset) :=
  let hv := h.dirty_valid hd
  (⟨c.drive, c.blockOffset, c.data, h.drive_lt hv, h.in_slot hv, h.aligned hv⟩ : BlockWrite).blockAt

theorem writeParams_robust {b : Backend} (h : CacheOk b.cache) (hd : b.cache.dirty = true) :
    (writeCallback b.writeParams).Robust (fun ok f' =>
      DiskIsBut f' b.flash (slotOffset b.cache.drive + b.cache.blockOffset) ∧
      (ok = true → ∀ i < flashSectorSize,
        f' (slotOffset b.cache.drive + b.cache.blockOffset + i) = b.cache.data i)) b.flash :=
  writeCallback_robust (Nat.mod_lt _ (by decide)) (cache_blockAt h hd)

theorem flushDiskCache_spec (o : FlushOutcome) {b : Backend} (h : CacheOk b.cache) :
    FlushSpec b (flushDiskCache o b).1 (flushDiskCache o b).2 := by
  unfold flushDiskCache
  cases hd : b.cache.dirty with
  | false =>
    refine ⟨⟨rfl, rfl, rfl, rfl⟩, fun _ _ _ => rfl, fun _ => ⟨rfl, rfl⟩, fun h => ?_, fun _ => hd⟩
    rw [hd] at h; cases h
  | true =>
    simp only [Bool.not_true, Bool.false_eq_true, if_false]
    cases ha : o.acquired with
    | false =>
      refine ⟨⟨rfl, rfl, rfl, rfl⟩, fun _ _ _ => rfl, fun _ => ⟨rfl, rfl⟩, fun _ hd' => ?_, ?_⟩
      · simp only [Bool.not_false, if_true] at hd'
        rw [hd] at hd'; cases hd'
      · simp
    | true =>
      simp only [Bool.not_true, Bool.false_eq_true, if_false]
      obtain ⟨hbut, hstored⟩ := (writeParams_robust h hd).runWith o.fault
      generalize (writeCallback b.writeParams).runWith o.fault b.flash = r at hbut hstored ⊢
      obtain ⟨committed, flash⟩ := r
      cases committed with
      | false =>
        refine ⟨⟨rfl, rfl, rfl, rfl⟩, hbut, fun h => ?_, fun _ hd' => ?_, fun hok => ?_⟩
        · rw [hd] at h; cases h
        · simp only [Bool.false_eq_true, if_false] at hd'
          rw [hd] at hd'; cases hd'
        · simp at hok
      | true =>
        refine ⟨⟨rfl, rfl, rfl, rfl⟩, hbut, fun h => ?_, fun _ _ => hstored rfl, fun _ => rfl⟩
        rw [hd] at h; cases h

theorem CacheOk.flush {b b' : Backend} {ok : Bool} (h : CacheOk b.cache)
    (hs : FlushSpec b ok b') : CacheOk b'.cache := by
  obtain ⟨hv, hd, ho, -⟩ := hs.block
  refine ⟨fun hdirty => ?_, ?_, ?_, ?_⟩
  · cases hb : b.cache.dirty with
    | true => rw [hv]; exact h.dirty_valid hb
    | false => rw [(hs.idle hb).2] at hdirty; rw [hdirty] at hb; cases hb
  · rw [hv, hd]; exact h.drive_lt
  · rw [hv, ho]; exact h.in_slot
  · rw [hv, ho]; exact h.aligned

theorem SameBlock.cached {b b' : Backend} (h : SameBlock b'.cache b.cache) (drive lba : Nat) :
    b'.cached drive lba = b.cached drive lba := by
  obtain ⟨hv, hd, ho, -⟩ := h
  simp only [Backend.cached, hv, hd, ho]

/-- A record outside the cached block reads from flash, which a flush leaves
alone there; a cached record reads from the cache, which it leaves alone. -/
theorem readRecord_flush {b b' : Backend} {ok : Bool} (hc : CacheOk b.cache)
    (hs : FlushSpec b ok b') :
    SameRecords (fun drive lba => readRecord drive lba b')
      (fun drive lba => readRecord drive lba b) := by
  intro drive hdrive lba hlba i hi
  simp only [readRecord, hs.block.cached drive lba]
  cases hcd : b.cached drive lba with
  | true => simp only [if_true, hs.block.2.2.2]
  | false =>
    simp only [Bool.false_eq_true, if_false]
    by_cases hdirty : b.cache.dirty = true
    · have hv := hc.dirty_valid hdirty
      refine hs.flash _ (record_inDisk hdrive hlba hi) fun hin => ?_
      have := (record_in_block (hc.in_slot hv) (hc.aligned hv) hlba hi).mp hin
      rw [Bool.eq_false_iff, ne_eq, cached_iff] at hcd
      exact hcd ⟨hv, this⟩
    · rw [(hs.idle (by simpa using hdirty)).1]

theorem Represents.flush {b b' : Backend} {ok : Bool} {r : Records} (h : Represents b r)
    (hs : FlushSpec b ok b') : Represents b' r := by
  have hreads : SameRecords (fun drive lba => readRecord drive lba b') r :=
    fun drive hd lba hl i hi =>
      (readRecord_flush h.cache hs drive hd lba hl i hi).trans (h.reads drive hd lba hl i hi)
  refine ⟨h.cache.flush hs, hreads, fun hclean drive hd lba hl i hi => ?_⟩
  cases hdirty : b.cache.dirty with
  | false => rw [(hs.idle hdirty).1]; exact h.clean hdirty drive hd lba hl i hi
  | true =>
    have hv := h.cache.dirty_valid hdirty
    have hr := hreads drive hd lba hl i hi
    simp only [readRecord] at hr
    cases hcd : b'.cached drive lba with
    | false => simpa only [hcd, Bool.false_eq_true, if_false, flashRecords] using hr
    | true =>
      -- the record is in the block that was just committed
      simp only [hcd, if_true] at hr
      rw [← hr, hs.block.2.2.2]
      rw [hs.block.cached, cached_iff] at hcd
      obtain ⟨-, hdr, hoff⟩ := hcd
      obtain ⟨-, -, hle, -, hfit⟩ := blockOffset_ok hl
      have hst := hs.stored hdirty hclean (sectorOffset lba - blockOffset lba + i) (by
        have := (blockOffset_ok hl).2.2.2.1
        simp only [z80FlashRecordBytes] at hi hfit; omega)
      rw [hdr, hoff] at hst
      rw [← hst, flashRecords]
      congr 1
      omega

/-! ## Selecting a block -/

/-- Loading the block of a record from a flash that holds all records. -/
theorem Represents.load {b : Backend} {r : Records} (h : Represents b r)
    (hclean : b.cache.dirty = false) {drive lba : Nat} (hdrive : drive < z80FlashDiskSlotCount)
    (hlba : lba < z80FlashRecordCount) :
    Represents { b with cache :=
      { b.cache with data := fun i => b.flash (slotOffset drive + blockOffset lba + i)
                     drive := drive, blockOffset := blockOffset lba, valid := true } } r := by
  obtain ⟨hslot, halign, -⟩ := blockOffset_ok hlba
  refine ⟨⟨fun _ => rfl, fun _ => hdrive, fun _ => hslot, fun _ => halign⟩, ?_, h.clean⟩
  intro d hd l hl i hi
  rw [← h.clean hclean d hd l hl i hi, flashRecords]
  simp only [readRecord]
  split
  · rename_i hcd
    obtain ⟨-, hdr, hoff⟩ := cached_iff.mp hcd
    have hle := (blockOffset_ok hl).2.2.1
    simp only at hdr hoff ⊢
    rw [hdr, hoff]
    congr 1
    omega
  · rfl

structure SelectSpec (b : Backend) (drive lba : Nat) (ok : Bool) (b' : Backend) (r : Records) :
    Prop where
  represents : Represents b' r
  selected : ok = true → b'.cached drive lba = true
  kept : ok = false → SameBlock b'.cache b.cache

theorem selectDiskCache_spec (o : FlushOutcome) {b : Backend} {r : Records} {drive lba : Nat}
    (h : Represents b r) (hdrive : drive < z80FlashDiskSlotCount)
    (hlba : lba < z80FlashRecordCount) :
    SelectSpec b drive lba (selectDiskCache o drive lba b).1 (selectDiskCache o drive lba b).2 r := by
  unfold selectDiskCache
  cases hcd : b.cached drive lba with
  | true => exact ⟨h, fun _ => hcd, by simp⟩
  | false =>
    have hf := flushDiskCache_spec o h.cache
    simp only [Bool.false_eq_true, if_false]
    generalize flushDiskCache o b = s at hf ⊢
    obtain ⟨flushed, b'⟩ := s
    cases flushed with
    | false => exact ⟨h.flush hf, by simp, fun _ => hf.block⟩
    | true =>
      refine ⟨(h.flush hf).load (hf.done rfl) hdrive hlba, fun _ => ?_, by simp⟩
      exact cached_iff.mpr ⟨rfl, rfl, rfl⟩

/-! ## Writing a record -/

/-- The records after record `lba` of `drive` became `data`. -/
def Records.set (r : Records) (drive lba : Nat) (data : Nat → UInt8) : Records := fun d l i =>
  if d = drive ∧ l = lba then data i else r d l i

/-- Two records of one block do not overlap, so neither do their cache ranges. -/
theorem records_disjoint {lba l i : Nat} (hl : l < z80FlashRecordCount)
    (hlba : lba < z80FlashRecordCount) (hi : i < z80FlashRecordBytes)
    (hb : blockOffset l = blockOffset lba) :
    (sectorOffset lba % flashSectorSize ≤ sectorOffset l - blockOffset l + i ∧
      sectorOffset l - blockOffset l + i < sectorOffset lba % flashSectorSize + z80FlashRecordBytes)
      ↔ l = lba := by
  obtain ⟨-, hsec, hblk⟩ := layout
  simp only [flashSectorSize, z80FlashRecordBytes, z80FlashRecordCount] at *
  rw [hblk, hblk] at hb
  rw [hblk, hsec, hsec]
  omega

theorem Represents.store {b : Backend} {r : Records} (h : Represents b r) {drive lba : Nat}
    (hcd : b.cached drive lba = true) (hlba : lba < z80FlashRecordCount) (data : Nat → UInt8)
    (deadline : Nat) :
    Represents { b with
      cache := { b.cache with
        data := overlay b.cache.data (sectorOffset lba % flashSectorSize) z80FlashRecordBytes data
        dirty := true }
      flushDeadline := deadline } (r.set drive lba data) := by
  obtain ⟨hv, hdr, hoff⟩ := cached_iff.mp hcd
  refine ⟨⟨fun _ => hv, h.cache.drive_lt, h.cache.in_slot, h.cache.aligned⟩, ?_, by simp⟩
  intro d hd l hl i hi
  have hr : readRecord d l b i = r d l i := h.reads d hd l hl i hi
  cases hcl : b.cached d l with
  | false =>
    have hne : ¬(d = drive ∧ l = lba) := by
      rintro ⟨rfl, rfl⟩; rw [hcl] at hcd; cases hcd
    refine Eq.trans (readRecord_uncached ?_ i) ?_
    · exact hcl
    rw [Records.set, if_neg hne, ← hr, readRecord_uncached hcl]
  | true =>
    refine Eq.trans (readRecord_cached ?_ i) ?_
    · exact hcl
    rw [readRecord_cached hcl] at hr
    rw [Records.set]
    obtain ⟨-, hdr', hoff'⟩ := cached_iff.mp hcl
    have hdd : d = drive := hdr'.symm.trans hdr
    have hrange := records_disjoint hl hlba hi (hoff'.symm.trans hoff)
    by_cases hll : l = lba
    · subst hll
      rw [if_pos ⟨hdd, rfl⟩, (blockOffset_ok hl).2.2.2.1]
      exact overlay_inside hi
    · rw [if_neg (fun he => hll he.2), ← hr]
      exact overlay_outside fun hin => hll (hrange.mp hin)

theorem Represents.congr {b : Backend} {r r' : Records} (h : Represents b r)
    (hr : SameRecords r r') : Represents b r' :=
  ⟨h.cache, fun d hd l hl i hi => (h.reads d hd l hl i hi).trans (hr d hd l hl i hi),
    fun hc d hd l hl i hi => (h.clean hc d hd l hl i hi).trans (hr d hd l hl i hi)⟩

/-- A rewrite with the bytes that are already there changes no record. -/
theorem Represents.rewrite {b : Backend} {r : Records} (h : Represents b r) {drive lba : Nat}
    (hcd : b.cached drive lba = true) {data : Nat → UInt8}
    (hsame : same b.cache.data (sectorOffset lba % flashSectorSize) data 0 z80FlashRecordBytes = true)
    (hdrive : drive < z80FlashDiskSlotCount) (hlba : lba < z80FlashRecordCount) :
    Represents b (r.set drive lba data) := by
  have hrec : SameRecords r (r.set drive lba data) := by
    intro d hd l hl i hi
    simp only [Records.set]
    split
    · rename_i he
      obtain ⟨rfl, rfl⟩ := he
      have hr := h.reads d hdrive l hlba i hi
      simp only [readRecord, hcd, if_true] at hr
      have hs := same_iff.mp hsame i hi
      rw [Nat.zero_add] at hs
      rw [← hr, ← hs, (blockOffset_ok hlba).2.2.2.1]
    · rfl
  exact h.congr hrec

/-- The arguments `z80_flash_backend_write_record` does not refuse at once. -/
def writable (drive lba writeType : Nat) : Bool :=
  !(decide (z80FlashDiskSlotCount ≤ drive) || decide (z80FlashRecordCount ≤ lba) ||
    decide (2 < writeType))

theorem writable_iff {drive lba writeType : Nat} : writable drive lba writeType = true ↔
    drive < z80FlashDiskSlotCount ∧ lba < z80FlashRecordCount ∧ writeType ≤ 2 := by
  simp [writable, and_assoc]

theorem writeRecord_represents (evict commit : FlushOutcome) (now : Nat) {drive lba : Nat}
    {data : Nat → UInt8} {writeType : Nat} {b : Backend} {r : Records} (h : Represents b r) :
    Represents (writeRecord evict commit now drive lba data writeType b).2
      (if writable drive lba writeType && (selectDiskCache evict drive lba b).1 then
        r.set drive lba data else r) := by
  cases hw : writable drive lba writeType with
  | false =>
    unfold writeRecord
    rw [if_pos (by simpa only [writable, Bool.not_eq_eq_eq_not, Bool.not_false] using hw)]
    exact h
  | true =>
    obtain ⟨hdrive, hlba, -⟩ := writable_iff.mp hw
    have hsel := selectDiskCache_spec evict h hdrive hlba
    unfold writeRecord
    rw [if_neg (by
      simpa only [writable, Bool.not_eq_eq_eq_not, Bool.not_true, Bool.not_eq_true] using hw)]
    generalize selectDiskCache evict drive lba b = s at hsel ⊢
    obtain ⟨selected, b'⟩ := s
    cases selected with
    | false => exact hsel.represents
    | true =>
      simp only [Bool.not_true, Bool.false_eq_true, if_false, Bool.and_self, if_true]
      have hput : Represents (if !same b'.cache.data (sectorOffset lba % flashSectorSize) data 0
            z80FlashRecordBytes then
          { b' with
            cache := { b'.cache with
              data := overlay b'.cache.data (sectorOffset lba % flashSectorSize)
                z80FlashRecordBytes data
              dirty := true }
            flushDeadline := now + diskCacheIdleFlushMs }
          else b') (r.set drive lba data) := by
        cases hs : same b'.cache.data (sectorOffset lba % flashSectorSize) data 0
            z80FlashRecordBytes with
        | false => exact hsel.represents.store (hsel.selected rfl) hlba data _
        | true => exact hsel.represents.rewrite (hsel.selected rfl) hs hdrive hlba
      split
      · exact hput.flush (flushDiskCache_spec commit hput.cache)
      · exact hput

/-- A write that succeeds was not refused, and found its block. -/
theorem writeRecord_ok {evict commit : FlushOutcome} {now drive lba : Nat} {data : Nat → UInt8}
    {writeType : Nat} {b : Backend}
    (hok : (writeRecord evict commit now drive lba data writeType b).1 = true) :
    writable drive lba writeType = true ∧ (selectDiskCache evict drive lba b).1 = true := by
  unfold writeRecord at hok
  split at hok
  · cases hok
  · rename_i hw
    refine ⟨by simpa only [writable, Bool.not_eq_eq_eq_not, Bool.not_true, Bool.not_eq_true]
      using hw, ?_⟩
    generalize selectDiskCache evict drive lba b = s at hok ⊢
    obtain ⟨selected, b'⟩ := s
    cases selected with
    | true => rfl
    | false => cases hok

theorem Records.set_congr (r : Records) (drive lba : Nat) {data data' : Nat → UInt8}
    (h : ∀ i < z80FlashRecordBytes, data i = data' i) :
    SameRecords (r.set drive lba data) (r.set drive lba data') := by
  intro d _ l _ i hi
  simp only [Records.set, h i hi]

/-! ## Runs -/

inductive Op where
  | writeRecord (evict commit : FlushOutcome) (now drive lba : Nat) (data : Nat → UInt8)
      (writeType : Nat)
  | flush (o : FlushOutcome)

/-- The backend, and the records as its callers know them: the latest write of
each whose `select_disk_cache` step succeeded. -/
structure Session where
  backend : Backend
  records : Records

def Session.start (f : Flash) : Session := ⟨.boot f, flashRecords f⟩

def Session.step (s : Session) : Op → Session
  | .writeRecord evict commit now drive lba data writeType =>
    { backend := (writeRecord evict commit now drive lba data writeType s.backend).2
      records :=
        if writable drive lba writeType && (selectDiskCache evict drive lba s.backend).1 then
          s.records.set drive lba data
        else s.records }
  | .flush o => { s with backend := (flushDiskCache o s.backend).2 }


theorem Session.step_represents {s : Session} (h : Represents s.backend s.records) (op : Op) :
    Represents (s.step op).backend (s.step op).records := by
  cases op with
  | writeRecord evict commit now drive lba data writeType =>
    exact writeRecord_represents evict commit now h
  | flush o => exact h.flush (flushDiskCache_spec o h.cache)

theorem Session.run_represents {s : Session} (h : Represents s.backend s.records) (ops : List Op) :
    Represents (run Session.step s ops).backend (run Session.step s ops).records :=
  run_invariant (I := fun s : Session => Represents s.backend s.records)
    (fun _ op hs => Session.step_represents hs op) h ops

theorem Session.start_represents (f : Flash) :
    Represents (Session.start f).backend (Session.start f).records := by
  refine ⟨⟨?_, ?_, ?_, ?_⟩, fun _ _ _ _ _ _ => rfl, fun _ _ _ _ _ _ _ => rfl⟩ <;>
    simp [Session.start, Backend.boot]

/-- **The write-back cache is coherent.** After any sequence of record writes
and flushes, with any outcome of the bus and of the flash calls: every record
reads as its latest accepted write; a flush or an eviction that fails keeps the
cached block, its label and its bytes; and the flash array itself holds every
record once the backend is quiescent or a flush has succeeded. -/
theorem cache_coherent (f : Flash) (ops : List Op) :
    let s := run Session.step (.start f) ops
    SameRecords (fun drive lba => readRecord drive lba s.backend) s.records ∧
    (∀ o, (flushDiskCache o s.backend).1 = false →
      SameBlock (flushDiskCache o s.backend).2.cache s.backend.cache) ∧
    (∀ o, ∀ drive < z80FlashDiskSlotCount, ∀ lba < z80FlashRecordCount,
      (selectDiskCache o drive lba s.backend).1 = false →
        SameBlock (selectDiskCache o drive lba s.backend).2.cache s.backend.cache) ∧
    (∀ o, (flushDiskCache o s.backend).1 = true →
      SameRecords (flashRecords (flushDiskCache o s.backend).2.flash) s.records) ∧
    (quiescent s.backend = true → SameRecords (flashRecords s.backend.flash) s.records) := by
  intro s
  have h := Session.run_represents (Session.start_represents f) ops
  refine ⟨h.reads, fun o _ => (flushDiskCache_spec o h.cache).block, ?_, fun o hok => ?_,
    fun hq => h.clean (by simpa [quiescent] using hq)⟩
  · intro o drive hd lba hl hfail
    exact (selectDiskCache_spec o h hd hl).kept hfail
  · have hs := flushDiskCache_spec o h.cache
    exact (h.flush hs).clean (hs.done hok)

/-- The theorem at work: a record written to the cache reads back although the
bus was refused for the flush that followed. -/
theorem cache_coherent_unflushed :
    let busy : FlushOutcome := ⟨false, fun _ => none, false⟩
    readRecord 1 5 (run Session.step (.start fun _ => 0xFF)
      [.writeRecord busy busy 0 1 5 (fun _ => 7) 0, .flush busy]).backend 0 = 7 :=
  (cache_coherent _ _).1 1 (by decide) 5 (by decide) 0 (by decide)

end Z80Sbc.Flash.CacheCoherence
