import Mathlib.Logic.Relation
import Mathlib.Tactic.IntervalCases
import Z80Sbc.Flash.Backend

/-! # The journal survives power cuts

`Clean` and `Sealed` are the two kinds of flash a power cut can leave: no valid
journal header and the disk area complete, or exactly one valid header whose
data sector holds the block it promises, so that only that block of the disk
area may be torn. Every cut of `writeCallback` from a clean flash and every cut
of `restoreCallback` from a sealed one leaves one of the two; the invariant of
a whole run is assembled from these two facts. -/

namespace Z80Sbc.Flash.JournalSafety
open Z80Sbc.Storage Z80Sbc.Flash

/-! ## Headers in flash -/

/-- Reading a header back from a page that holds it. -/
theorem readHeader_page {f : Flash} {off : Nat} {h : JournalHeader}
    (hp : ∀ i < 20, f (off + i) = h.page i) : readHeader f off = h := by
  obtain ⟨m, s, t, d, c⟩ := h
  have words (k : Nat) (hk : k < 5) : read32 f (off + 4 * k) = [m, s, t, d, c][k] :=
    @read32_words f [m, s, t, d, c] 0xFF off hp k hk
  simp only [readHeader]
  congr 1
  · exact words 0 (by decide)
  · exact words 1 (by decide)
  · exact words 2 (by decide)
  · exact words 3 (by decide)
  · exact words 4 (by decide)

theorem readHeader_congr {f f' : Flash} {off : Nat} (h : ∀ i < 20, f (off + i) = f' (off + i)) :
    readHeader f off = readHeader f' off := by
  have word (k : Nat) (hk : k ≤ 16) : read32 f (off + k) = read32 f' (off + k) :=
    read32_congr fun i hi => by rw [Nat.add_assoc]; exact h _ (by omega)
  simp only [readHeader]
  rw [word 4 (by omega), word 8 (by omega), word 12 (by omega), word 16 (by omega)]
  rw [show read32 f off = read32 f' off from word 0 (by omega)]

/-- An erased page is no header. -/
theorem headerValid_erased {f : Flash} {off : Nat} (h : ∀ i < 20, f (off + i) = 0xFF) :
    headerValid (readHeader f off) = false := by
  have hm : read32 f off = 0xFFFFFFFF := by
    apply read32_of_le32
    intro i hi
    rw [h i (by omega)]
    interval_cases i <;> rfl
  have hne : ((0xFFFFFFFF : UInt32) == flashJournalMagic) = false := by decide
  simp [headerValid, readHeader, hm, hne]

def headerAt (f : Flash) (pair : Nat) : JournalHeader := readHeader f (pairHeaderOffset pair)

theorem pairHeaderOffset_eq (pair : Nat) : pairHeaderOffset pair = 0x1D0000 + pair * 8192 := rfl

/-- Two flashes that agree on the first words of a pair hold the same header there. -/
theorem headerAt_congr {f f' : Flash} {pair : Nat}
    (h : ∀ a, 0x1D0000 + pair * 8192 ≤ a → a < 0x1D0000 + pair * 8192 + 20 → f a = f' a) :
    headerAt f pair = headerAt f' pair := by
  apply readHeader_congr
  intro i hi
  rw [pairHeaderOffset_eq]
  exact h _ (by omega) (by omega)

theorem headerAt_leave {f : Flash} {c : Call} {g : Nat → UInt8} {pair : Nat}
    (h : c.off + c.len ≤ 0x1D0000 + pair * 8192 ∨ 0x1D0000 + pair * 8192 + 20 ≤ c.off) :
    headerAt (c.leave f g) pair = headerAt f pair :=
  headerAt_congr fun a _ _ => overlay_outside (by omega)

/-! ## What a power cut may leave -/

/-- A torn call leaves arbitrary bytes in its own range, but no header that is
valid by accident: a valid header after the cut has the fields that the page
held before the call, or that the call was to leave there. -/
def JournalTear : Tear := fun c f f' =>
  (∃ g, f' = c.leave f g) ∧
    ∀ pair < flashJournalPairCount, headerValid (headerAt f' pair) = true →
      headerAt f' pair = headerAt f pair ∨ headerAt f' pair = headerAt (c.apply f) pair

def NoValidHeader (f : Flash) : Prop :=
  ∀ pair < flashJournalPairCount, headerValid (headerAt f pair) = false

def InDisk (a : Nat) : Prop := z80FlashDiskOffset ≤ a ∧ a < diskEnd

/-- The disk area of `f` is that of `area`. -/
def DiskIs (f area : Flash) : Prop := ∀ a, InDisk a → f a = area a

/-- The disk area of `f` is that of `area` outside the block at `t`. -/
def DiskIsBut (f area : Flash) (t : Nat) : Prop :=
  ∀ a, InDisk a → ¬(t ≤ a ∧ a < t + flashSectorSize) → f a = area a

structure Clean (f area : Flash) : Prop where
  headers : NoValidHeader f
  disk : DiskIs f area

/-- One pair is valid and promises block `data` at `t`. -/
structure Sealed (f area : Flash) (t : Nat) (data : Nat → UInt8) (pair : Nat) : Prop where
  pair_lt : pair < flashJournalPairCount
  valid : headerValid (headerAt f pair) = true
  others : ∀ q < flashJournalPairCount, q ≠ pair → headerValid (headerAt f q) = false
  target : (headerAt f pair).targetOffset.toNat = t
  crc : (headerAt f pair).dataCrc32 = crc32Bytes (window data 0 flashSectorSize)
  stored : ∀ i < flashSectorSize, f (pairHeaderOffset pair + flashSectorSize + i) = data i
  disk : DiskIsBut f area t

/-- The area after the block at `t` was written. -/
def written (area : Flash) (t : Nat) (data : Nat → UInt8) : Flash :=
  overlay area t flashSectorSize data

/-- A block of the disk area that the journal can name. -/
structure BlockAt (t : Nat) : Prop where
  low : z80FlashDiskOffset ≤ t
  high : t ≤ diskEnd - flashSectorSize
  aligned : t % flashSectorSize = 0

theorem BlockAt.offset_valid {t : Nat} (h : BlockAt t) :
    (UInt32.ofNat t).toNat = t ∧ diskBlockOffsetValid (UInt32.ofNat t) = true := by
  obtain ⟨h1, h2, h3⟩ := h
  simp only [diskEnd, z80FlashDiskOffset, z80FlashDiskSlotCount, z80FlashDiskSlotBytes,
    flashSectorSize] at h1 h2 h3
  have ht : (UInt32.ofNat t).toNat = t := by
    rw [UInt32.toNat_ofNat']; omega
  refine ⟨ht, ?_⟩
  simp only [diskBlockOffsetValid, ht, z80FlashDiskOffset, diskEnd, z80FlashDiskSlotCount,
    z80FlashDiskSlotBytes, flashSectorSize, Bool.and_eq_true, decide_eq_true_eq, beq_iff_eq]
  omega

/-- A header the recovery accepts names a block of the disk area. -/
theorem blockAt_of_valid {h : JournalHeader} (hv : headerValid h = true) :
    BlockAt h.targetOffset.toNat := by
  simp only [headerValid, diskBlockOffsetValid, Bool.and_eq_true, decide_eq_true_eq,
    beq_iff_eq] at hv
  exact ⟨hv.2.1.1, hv.2.1.2, hv.2.2⟩

theorem DiskIsBut.written {f area : Flash} {t : Nat} (h : DiskIsBut f area t)
    (data : Nat → UInt8) : DiskIsBut f (written area t data) t := fun a ha hn => by
  rw [h a ha hn, JournalSafety.written, overlay_outside hn]

theorem DiskIs.but {f area : Flash} (h : DiskIs f area) (t : Nat) : DiskIsBut f area t :=
  fun a ha _ => h a ha

/-- Storage calls below the disk area leave it alone. -/
theorem DiskIs.leave {f area : Flash} (h : DiskIs f area) {c : Call} (g : Nat → UInt8)
    (hc : c.off + c.len ≤ z80FlashDiskOffset) : DiskIs (c.leave f g) area := by
  intro a ha
  rw [Call.leave, overlay_outside (by have := ha.1; omega)]
  exact h a ha

theorem DiskIsBut.leave {f area : Flash} {t : Nat} (h : DiskIsBut f area t) {c : Call}
    (g : Nat → UInt8)
    (hc : c.off + c.len ≤ z80FlashDiskOffset ∨
      t ≤ c.off ∧ c.off + c.len ≤ t + flashSectorSize) :
    DiskIsBut (c.leave f g) area t := by
  intro a ha hn
  rw [Call.leave, overlay_outside (by have := ha.1; omega)]
  exact h a ha hn

/-! ## One torn or completed call -/

theorem pair_high {pair : Nat} (h : pair < flashJournalPairCount) :
    0x1D0000 + pair * 8192 + 8192 ≤ z80FlashDiskOffset := by
  have : pair < 8 := h
  simp only [z80FlashDiskOffset]; omega

/-- The headers of a flash after a call above the journal. -/
theorem headerAt_leave_disk {f : Flash} {c : Call} {g : Nat → UInt8} {pair : Nat}
    (hp : pair < flashJournalPairCount) (h : z80FlashDiskOffset ≤ c.off) :
    headerAt (c.leave f g) pair = headerAt f pair :=
  headerAt_leave (Or.inr (by have := pair_high hp; omega))

/-- The header of one pair after a call inside another pair. -/
theorem headerAt_leave_pair {f : Flash} {c : Call} {g : Nat → UInt8} {pair q : Nat} (hne : q ≠ pair)
    (hlo : pairHeaderOffset pair ≤ c.off)
    (hhi : c.off + c.len ≤ pairHeaderOffset pair + flashJournalPairBytes) :
    headerAt (c.leave f g) q = headerAt f q := by
  simp only [pairHeaderOffset_eq, flashJournalPairBytes, flashSectorSize] at hlo hhi
  exact headerAt_leave (by omega)

theorem Clean.leave {f area : Flash} (h : Clean f area) {c : Call} {g : Nat → UInt8}
    (hn : NoValidHeader (c.leave f g)) (hc : c.off + c.len ≤ z80FlashDiskOffset) :
    Clean (c.leave f g) area := ⟨hn, h.disk.leave g hc⟩

/-- A tear of a call that neither finds nor leaves a valid header. -/
theorem Clean.torn {f f' area : Flash} (h : Clean f area) {c : Call} (ht : JournalTear c f f')
    (hn : NoValidHeader (c.apply f)) (hc : c.off + c.len ≤ z80FlashDiskOffset) :
    Clean f' area := by
  obtain ⟨⟨g, rfl⟩, hh⟩ := ht
  refine h.leave (fun pair hp => ?_) hc
  cases hv : headerValid (headerAt (c.leave f g) pair) with
  | false => rfl
  | true =>
    rcases hh pair hp hv with he | he
    · rw [he, h.headers pair hp] at hv; cases hv
    · rw [he, hn pair hp] at hv; cases hv

/-- A tear of the header program: the page is valid or it is not. -/
theorem Clean.torn_header {f f' area : Flash} {t pair : Nat} {data : Nat → UInt8}
    (h : Clean f area) {c : Call} (ht : JournalTear c f f')
    (hlo : pairHeaderOffset pair ≤ c.off)
    (hhi : c.off + c.len ≤ pairHeaderOffset pair + flashSectorSize)
    (hs : Sealed (c.apply f) area t data pair) :
    Clean f' area ∨ Sealed f' area t data pair := by
  obtain ⟨⟨g, rfl⟩, hh⟩ := ht
  have hpair := hs.pair_lt
  have hhi' : c.off + c.len ≤ pairHeaderOffset pair + flashJournalPairBytes := by
    simp only [flashJournalPairBytes]; omega
  have hdisk : c.off + c.len ≤ z80FlashDiskOffset := by
    have := pair_high hpair
    simp only [pairHeaderOffset_eq, flashSectorSize] at hhi; omega
  have hother : ∀ q < flashJournalPairCount, q ≠ pair →
      headerValid (headerAt (c.leave f g) q) = false := fun q hq hne => by
    rw [headerAt_leave_pair hne hlo hhi']; exact h.headers q hq
  cases hv : headerValid (headerAt (c.leave f g) pair) with
  | false =>
    left
    refine h.leave (fun q hq => ?_) hdisk
    by_cases hqp : q = pair
    · rw [hqp, hv]
    · exact hother q hq hqp
  | true =>
    right
    have he : headerAt (c.leave f g) pair = headerAt (c.apply f) pair := by
      rcases hh pair hpair hv with he | he
      · rw [he, h.headers pair hpair] at hv; cases hv
      · exact he
    refine ⟨hpair, hv, hother, he ▸ hs.target, he ▸ hs.crc, fun i hi => ?_, ?_⟩
    · rw [← hs.stored i hi, Call.apply, Call.leave, Call.leave, overlay_outside (by omega),
        overlay_outside (by omega)]
    · exact (h.disk.leave g hdisk).but t

/-- Calls inside the promised block keep the promise. -/
theorem Sealed.leave {f area : Flash} {t pair : Nat} {data : Nat → UInt8}
    (h : Sealed f area t data pair) (hb : BlockAt t) {c : Call} (g : Nat → UInt8)
    (hlo : t ≤ c.off) (hhi : c.off + c.len ≤ t + flashSectorSize) :
    Sealed (c.leave f g) area t data pair := by
  have hdisk : z80FlashDiskOffset ≤ c.off := hb.low.trans hlo
  have hkeep (q : Nat) (hq : q < flashJournalPairCount) :
      headerAt (c.leave f g) q = headerAt f q := headerAt_leave_disk hq hdisk
  refine ⟨h.pair_lt, ?_, fun q hq hne => ?_, ?_, ?_, fun i hi => ?_, h.disk.leave g (Or.inr ⟨hlo, hhi⟩)⟩
  · rw [hkeep _ h.pair_lt]; exact h.valid
  · rw [hkeep q hq]; exact h.others q hq hne
  · rw [hkeep _ h.pair_lt]; exact h.target
  · rw [hkeep _ h.pair_lt]; exact h.crc
  · have := pair_high h.pair_lt
    simp only [pairHeaderOffset_eq, flashSectorSize] at hi ⊢
    rw [Call.leave, overlay_outside (by omega)]
    exact h.stored i hi

/-- Once the block is in place, clearing the header finishes the write, and a
tear of the clearing leaves the promise or its end. -/
theorem Sealed.clear {f area : Flash} {t pair : Nat} {data : Nat → UInt8}
    (h : Sealed f area t data pair) (hd : DiskIs f area) {c : Call}
    (hc : c = ⟨pairHeaderOffset pair, flashSectorSize, fun _ => 0xFF⟩) :
    Clean (c.apply f) area ∧
      ∀ f', JournalTear c f f' → Clean f' area ∨ Sealed f' area t data pair := by
  have hpair := h.pair_lt
  have hoff : c.off = pairHeaderOffset pair := by rw [hc]
  have hlen : c.len = flashSectorSize := by rw [hc]
  have hdisk : c.off + c.len ≤ z80FlashDiskOffset := by
    have := pair_high hpair
    rw [hoff, hlen]; simp only [pairHeaderOffset_eq, flashSectorSize]; omega
  have hother (g : Nat → UInt8) : ∀ q < flashJournalPairCount, q ≠ pair →
      headerValid (headerAt (c.leave f g) q) = false := fun q hq hne => by
    rw [headerAt_leave_pair hne (by omega) (by rw [hoff, hlen]; simp only [flashJournalPairBytes]; omega)]
    exact h.others q hq hne
  have hnone (g : Nat → UInt8) (hv : headerValid (headerAt (c.leave f g) pair) = false) :
      Clean (c.leave f g) area := by
    refine ⟨fun q hq => ?_, hd.leave g hdisk⟩
    by_cases hqp : q = pair
    · rw [hqp, hv]
    · exact hother g q hq hqp
  constructor
  · refine hnone c.bytes (headerValid_erased fun i hi => ?_)
    rw [Call.leave, overlay_mem (by omega) (by rw [hoff, hlen]; simp only [flashSectorSize]; omega)]
    rw [hc]
  · rintro f' ⟨⟨g, rfl⟩, hh⟩
    cases hv : headerValid (headerAt (c.leave f g) pair) with
    | false => exact Or.inl (hnone g hv)
    | true =>
      right
      have he : headerAt (c.leave f g) pair = headerAt f pair := by
        rcases hh pair hpair hv with he | he
        · exact he
        · have hz : headerValid (headerAt (c.apply f) pair) = false := by
            refine headerValid_erased fun i hi => ?_
            rw [Call.apply, Call.leave,
              overlay_mem (by omega) (by rw [hoff, hlen]; simp only [flashSectorSize]; omega)]
            rw [hc]
          rw [he, hz] at hv; cases hv
      refine ⟨hpair, hv, hother g, he ▸ h.target, he ▸ h.crc, fun i hi => ?_, ?_⟩
      · rw [Call.leave, overlay_outside (by rw [hoff, hlen]; omega)]
        exact h.stored i hi
      · exact (hd.leave g hdisk).but t

/-! ## The two callbacks -/

/-- What a cut of a block write may leave, by the number of completed calls:
the old block up to the header program, the new one (or its promise) after it. -/
def WriteCut (area : Flash) (t : Nat) (data : Nat → UInt8) (n : Nat) (f : Flash) : Prop :=
  (n < 2 → Clean f area) ∧
  (n = 2 → Clean f area ∨ ∃ pair, Sealed f area t data pair) ∧
  (3 ≤ n → Clean f (written area t data) ∨ ∃ pair, Sealed f (written area t data) t data pair)

/-- What a cut of the restore may leave. -/
def RestoreCut (area : Flash) (t : Nat) (data : Nat → UInt8) (f : Flash) : Prop :=
  Clean f area ∨ ∃ pair, Sealed f area t data pair

theorem same_of_le {f : Flash} {off len : Nat} {g : Nat → UInt8}
    (h : ∀ i < len, f (off + i) = g i) : same f off g 0 len = true :=
  same_iff.mpr fun i hi => by rw [h i hi, Nat.zero_add]

/-- The word the clearing checks reads as erased. -/
theorem read32_erased {f : Flash} {off len : Nat} (h : 4 ≤ len) :
    (read32 (Call.apply ⟨off, len, fun _ => 0xFF⟩ f) off == 0xFFFFFFFF) = true := by
  rw [beq_iff_eq]
  apply read32_of_le32
  intro i hi
  rw [Call.apply, Call.leave, overlay_inside (show i < len by omega)]
  interval_cases i <;> rfl

/-- The disk area once the promised block was programmed. -/
theorem DiskIsBut.complete {f area : Flash} {t : Nat} {data : Nat → UInt8}
    (h : DiskIsBut f area t) (hd : ∀ i < flashSectorSize, f (t + i) = data i) :
    DiskIs f (JournalSafety.written area t data) := by
  intro a ha
  by_cases hin : t ≤ a ∧ a < t + flashSectorSize
  · have := hd (a - t) (by omega)
    rw [show t + (a - t) = a by omega] at this
    rw [JournalSafety.written, overlay_mem hin.1 hin.2, this]
  · rw [JournalSafety.written, overlay_outside hin]; exact h a ha hin

section
variable {f area : Flash} {t pair : Nat} {data : Nat → UInt8} {h : JournalHeader}

/-- The block write, from a clean flash, at every cut point. -/
theorem writeCallback_safe (hc : Clean f area) (hb : BlockAt t)
    (hpair : pair < flashJournalPairCount) (hv : headerValid h = true)
    (ht : h.targetOffset.toNat = t)
    (hcrc : h.dataCrc32 = crc32Bytes (window data 0 flashSectorSize)) :
    (writeCallback ⟨pairHeaderOffset pair, pairHeaderOffset pair + flashSectorSize, t, data, h⟩).Safe
      JournalTear (fun ok f' => ok = true ∧ Clean f' (written area t data))
      (WriteCut area t data) f := by
  have hhigh := pair_high hpair
  have htlow := hb.low
  have hoff := pairHeaderOffset_eq pair
  simp only [z80FlashDiskOffset] at hhigh htlow
  -- the pair is erased
  let c1 : Call := ⟨pairHeaderOffset pair, flashJournalPairBytes, fun _ => 0xFF⟩
  have hclean1 : Clean (c1.apply f) area := by
    refine hc.leave (fun q hq => ?_)
      (by simp only [c1, flashJournalPairBytes, flashSectorSize, z80FlashDiskOffset]; omega)
    by_cases hqp : q = pair
    · subst hqp
      refine headerValid_erased fun i hi => ?_
      rw [Call.leave, overlay_inside (by simp only [c1, flashJournalPairBytes, flashSectorSize]; omega)]
    · rw [headerAt_leave_pair hqp (le_refl _) (le_refl _)]; exact hc.headers q hq
  -- the data sector is programmed
  let c2 : Call := ⟨pairHeaderOffset pair + flashSectorSize, flashSectorSize, data⟩
  have hhdr2 (g : Nat → UInt8) (q : Nat) : headerAt (c2.leave (c1.apply f) g) q = headerAt (c1.apply f) q := by
    apply headerAt_leave
    simp only [c2, flashSectorSize]
    omega
  have hclean2 : Clean (c2.apply (c1.apply f)) area := by
    refine hclean1.leave (fun q hq => ?_) (by simp only [c2, flashSectorSize, z80FlashDiskOffset]; omega)
    rw [hhdr2]; exact hclean1.headers q hq
  have hdata2 : ∀ i < flashSectorSize,
      c2.apply (c1.apply f) (pairHeaderOffset pair + flashSectorSize + i) = data i :=
    fun i hi => overlay_inside hi
  -- the header page is programmed
  let c3 : Call := ⟨pairHeaderOffset pair, flashPageSize, h.page⟩
  let f3 := c3.apply (c2.apply (c1.apply f))
  have hpage3 : ∀ i < flashPageSize, f3 (pairHeaderOffset pair + i) = h.page i :=
    fun i hi => overlay_inside hi
  have hhead3 : headerAt f3 pair = h :=
    readHeader_page fun i hi => hpage3 i (by simp only [flashPageSize]; omega)
  have hdata3 : ∀ i < flashSectorSize,
      f3 (pairHeaderOffset pair + flashSectorSize + i) = data i := fun i hi => by
    rw [← hdata2 i hi]
    exact overlay_outside (by simp only [c3, flashPageSize, flashSectorSize]; omega)
  have hsealed3 : Sealed f3 area t data pair := by
    refine ⟨hpair, hhead3 ▸ hv, fun q hq hne => ?_, hhead3 ▸ ht, hhead3 ▸ hcrc, hdata3, ?_⟩
    · rw [show headerAt f3 q = headerAt (c2.apply (c1.apply f)) q from
        headerAt_leave_pair hne (le_refl _)
          (by simp only [c3, flashPageSize, flashJournalPairBytes, flashSectorSize]; omega)]
      exact hclean2.headers q hq
    · exact (hclean2.disk.leave _ (by simp only [c3, flashPageSize, z80FlashDiskOffset]; omega)).but t
  -- the target block is erased and programmed in two halves
  let c4 : Call := ⟨t, flashSectorSize, fun _ => 0xFF⟩
  let c5 : Call := ⟨t, flashSectorSize / 2, data⟩
  let c6 : Call := ⟨t + flashSectorSize / 2, flashSectorSize / 2,
    fun i => data (flashSectorSize / 2 + i)⟩
  have hin4 : t ≤ c4.off ∧ c4.off + c4.len ≤ t + flashSectorSize := ⟨le_refl _, le_refl _⟩
  have hin5 : t ≤ c5.off ∧ c5.off + c5.len ≤ t + flashSectorSize := by
    simp only [c5, flashSectorSize]; omega
  have hin6 : t ≤ c6.off ∧ c6.off + c6.len ≤ t + flashSectorSize := by
    simp only [c6, flashSectorSize]; omega
  have hs (g : Nat → UInt8) := hsealed3.leave hb g hin4.1 hin4.2
  have hsealed4 : Sealed (c4.apply f3) area t data pair := hs _
  have hsealed5 : Sealed (c5.apply (c4.apply f3)) area t data pair := hsealed4.leave hb _ hin5.1 hin5.2
  let f6 := c6.apply (c5.apply (c4.apply f3))
  have hsealed6 : Sealed f6 area t data pair := hsealed5.leave hb _ hin6.1 hin6.2
  have hdata6 : ∀ i < flashSectorSize, f6 (t + i) = data i := by
    intro i hi
    by_cases hlow : i < flashSectorSize / 2
    · have h6 : f6 (t + i) = c5.apply (c4.apply f3) (t + i) :=
        overlay_outside (by simp only [c6]; omega)
      rw [h6]; exact overlay_inside hlow
    · rw [show f6 (t + i) = data (flashSectorSize / 2 + (t + i - (t + flashSectorSize / 2))) from
        overlay_mem (by simp only [c6]; omega) (by simp only [c6, flashSectorSize] at hi ⊢; omega)]
      rw [show flashSectorSize / 2 + (t + i - (t + flashSectorSize / 2)) = i by omega]
  have hdisk6 : DiskIs f6 (written area t data) := hsealed6.disk.complete hdata6
  -- the header is cleared
  let c7 : Call := ⟨pairHeaderOffset pair, flashSectorSize, fun _ => 0xFF⟩
  have hsealed6' : Sealed f6 (written area t data) t data pair :=
    { hsealed6 with disk := hsealed6.disk.written data }
  obtain ⟨hclean7, htear7⟩ := hsealed6'.clear hdisk6 (c := c7) rfl
  have old {n : Nat} {f' : Flash} (hn : n < 2) (hf : Clean f' area) : WriteCut area t data n f' :=
    ⟨fun _ => hf, fun h => by omega, fun h => by omega⟩
  have new {n : Nat} {f' : Flash} (hn : 3 ≤ n) (hf : Sealed f' area t data pair) :
      WriteCut area t data n f' :=
    ⟨fun h => by omega, fun h => by omega,
      fun _ => Or.inr ⟨pair, { hf with disk := hf.disk.written data }⟩⟩
  unfold writeCallback
  simp only [Prog.erase_bind, Prog.program_bind, Prog.contents_bind, Prog.pure_eq]
  refine ⟨old (by omega) hc, fun f' htear => old (by omega) (hc.torn htear hclean1.headers ?_),
    old (by omega) hclean1, fun f' htear => old (by omega) (hclean1.torn htear hclean2.headers ?_),
    ⟨fun h => by omega, fun _ => Or.inl hclean2, fun h => by omega⟩, fun f' htear => ?_, ?_⟩
  · simp only [flashJournalPairBytes, flashSectorSize, z80FlashDiskOffset]; omega
  · simp only [flashSectorSize, z80FlashDiskOffset]; omega
  · refine ⟨fun h => by omega, fun _ => ?_, fun h => by omega⟩
    have := hclean2.torn_header htear (le_refl _)
      (by simp only [flashPageSize, flashSectorSize]; omega) hsealed3
    exact this.imp id fun h => ⟨pair, h⟩
  · have hcheck : ¬(!same f3 (pairHeaderOffset pair + flashSectorSize) data 0 flashSectorSize ||
        !same f3 (pairHeaderOffset pair) h.page 0 flashPageSize) = true := by
      rw [same_of_le hdata3, same_of_le hpage3]; decide
    refine Prog.safe_read.mpr (Prog.safe_if_neg hcheck ?_)
    refine ⟨new (by omega) hsealed3, fun f' htear => new (by omega) ?_,
      new (by omega) hsealed4, fun f' htear => new (by omega) ?_,
      new (by omega) hsealed5, fun f' htear => new (by omega) ?_, ?_⟩
    · obtain ⟨⟨g, rfl⟩, _⟩ := htear; exact hsealed3.leave hb g hin4.1 hin4.2
    · obtain ⟨⟨g, rfl⟩, _⟩ := htear; exact hsealed4.leave hb g hin5.1 hin5.2
    · obtain ⟨⟨g, rfl⟩, _⟩ := htear; exact hsealed5.leave hb g hin6.1 hin6.2
    · refine Prog.safe_read.mpr (Prog.safe_if_pos (same_of_le hdata6) ?_)
      refine ⟨new (by omega) hsealed6, fun f' htear => ?_, ⟨read32_erased (by decide), hclean7⟩, ?_⟩
      · exact ⟨fun h => by omega, fun h => by omega,
          fun _ => (htear7 f' htear).imp id fun h => ⟨pair, h⟩⟩
      · exact ⟨fun h => by omega, fun h => by omega, fun _ => Or.inl hclean7⟩

/-- The restore of the one promised block, at every cut point. -/
theorem restoreCallback_safe (hs : Sealed f area t data pair) {block : Nat → UInt8}
    (hblock : ∀ i < flashSectorSize, block i = data i) :
    (restoreCallback ⟨pairHeaderOffset pair, t, block⟩).Safe JournalTear
      (fun ok f' => ok = true ∧ Clean f' (written area t data))
      (fun _ => RestoreCut (written area t data) t data) f := by
  have hb : BlockAt t := hs.target ▸ blockAt_of_valid hs.valid
  have cut {f' : Flash} (h : Sealed f' area t data pair) : RestoreCut (written area t data) t data f' :=
    Or.inr ⟨pair, { h with disk := h.disk.written data }⟩
  let c1 : Call := ⟨t, flashSectorSize, fun _ => 0xFF⟩
  let c2 : Call := ⟨t, flashSectorSize, block⟩
  have hs1 (g : Nat → UInt8) : Sealed (c1.leave f g) area t data pair :=
    hs.leave hb g (le_refl _) (le_refl _)
  have hs2 (g : Nat → UInt8) : Sealed (c2.leave (c1.apply f) g) area t data pair :=
    (hs1 _).leave hb g (le_refl _) (le_refl _)
  let f2 := c2.apply (c1.apply f)
  have hblock2 : ∀ i < flashSectorSize, f2 (t + i) = block i := fun i hi => overlay_inside hi
  have hdisk2 : DiskIs f2 (written area t data) :=
    (hs2 _).disk.complete fun i hi => (hblock2 i hi).trans (hblock i hi)
  have hs2' : Sealed f2 (written area t data) t data pair :=
    { hs2 block with disk := (hs2 block).disk.written data }
  obtain ⟨hclean3, htear3⟩ := hs2'.clear hdisk2 rfl
  unfold restoreCallback
  simp only [Prog.erase_bind, Prog.program_bind, Prog.contents_bind, Prog.pure_eq]
  refine ⟨cut hs, fun f' htear => ?_, cut (hs1 _), fun f' htear => ?_, ?_⟩
  · obtain ⟨⟨g, rfl⟩, _⟩ := htear; exact cut (hs1 g)
  · obtain ⟨⟨g, rfl⟩, _⟩ := htear; exact cut (hs2 g)
  · refine Prog.safe_read.mpr (Prog.safe_if_pos (same_of_le hblock2) ?_)
    refine ⟨cut (hs2 _), fun f' htear => ?_, ⟨read32_erased (by decide), hclean3⟩, Or.inl hclean3⟩
    exact (htear3 f' htear).imp id fun h => ⟨pair, h⟩

end

/-! ## Recovery -/

/-- One round of the scan for the pair to restore. -/
def selectStep (headers : Nat → JournalHeader) (valid : Nat → Bool) (selected : Option Nat)
    (pair : Nat) : Option Nat :=
  if valid pair && selected.all (fun s => (headers pair).sequence < (headers s).sequence) then
    some pair
  else selected

theorem selectStep_invalid {headers : Nat → JournalHeader} {valid : Nat → Bool} (l : List Nat)
    (h : ∀ q ∈ l, valid q = false) (o : Option Nat) : l.foldl (selectStep headers valid) o = o := by
  induction l with
  | nil => rfl
  | cons q l ih =>
    have hq : selectStep headers valid o q = o := by simp [selectStep, h q (by simp)]
    rw [List.foldl_cons, hq]
    exact ih fun r hr => h r (by simp [hr])

theorem selectPair_none {headers : Nat → JournalHeader} {valid : Nat → Bool}
    (h : ∀ q < flashJournalPairCount, valid q = false) : selectPair headers valid = none :=
  selectStep_invalid _ (fun q hq => h q (List.mem_range.mp hq)) none

/-- With one valid pair the scan finds it. -/
theorem selectPair_single {headers : Nat → JournalHeader} {valid : Nat → Bool} {pair : Nat}
    (hp : pair < flashJournalPairCount) (hv : valid pair = true)
    (ho : ∀ q < flashJournalPairCount, q ≠ pair → valid q = false) :
    selectPair headers valid = some pair := by
  have hmem : pair ∈ List.range flashJournalPairCount := List.mem_range.mpr hp
  obtain ⟨l₁, l₂, hl⟩ := List.append_of_mem hmem
  have hnd : (l₁ ++ pair :: l₂).Nodup := hl ▸ List.nodup_range
  have hbound : ∀ q ∈ l₁ ++ pair :: l₂, q < flashJournalPairCount := fun q hq =>
    List.mem_range.mp (hl ▸ hq)
  have hne : pair ∉ l₁ ∧ pair ∉ l₂ := by
    rw [List.nodup_append] at hnd
    refine ⟨fun hm => hnd.2.2 _ hm _ (by simp) rfl, ?_⟩
    exact (List.nodup_cons.mp hnd.2.1).1
  change (List.range flashJournalPairCount).foldl (selectStep headers valid) none = some pair
  rw [hl, List.foldl_append, List.foldl_cons]
  rw [selectStep_invalid l₁ fun q hq => ho q (hbound q (by simp [hq])) (ne_of_mem_of_not_mem hq hne.1)]
  rw [show selectStep headers valid none pair = some pair by simp [selectStep, hv]]
  exact selectStep_invalid l₂
    (fun q hq => ho q (hbound q (by simp [hq])) (ne_of_mem_of_not_mem hq hne.2)) _

theorem recoverPairs_none {headers : Nat → JournalHeader} {valid : Nat → Bool} (n : Nat)
    (h : ∀ q < flashJournalPairCount, valid q = false) :
    recoverPairs headers n valid = .done true := by
  cases n with
  | zero => rfl
  | succ n => rw [recoverPairs, selectPair_none h]; rfl

/-- Recovery of a clean flash has nothing to do. -/
theorem recoverJournal_clean {f area : Flash} (h : Clean f area) :
    recoverJournal.Safe JournalTear (fun ok f' => ok = true ∧ Clean f' area)
      (fun _ f' => Clean f' area) f := by
  unfold recoverJournal
  rw [Prog.contents_bind, Prog.safe_read]
  change (recoverPairs (headerAt f) _ (fun pair => headerValid (headerAt f pair))).Safe _ _ _ f
  rw [recoverPairs_none _ h.headers]
  exact ⟨⟨rfl, h⟩, h⟩

/-- Recovery of a sealed flash writes the promised block. -/
theorem recoverJournal_sealed {f area : Flash} {t pair : Nat} {data : Nat → UInt8}
    (hs : Sealed f area t data pair) :
    recoverJournal.Safe JournalTear (fun ok f' => ok = true ∧ Clean f' (written area t data))
      (fun _ => RestoreCut (written area t data) t data) f := by
  have hcrc : ¬(crc32Bytes (window (fun i => f (pairHeaderOffset pair + flashSectorSize + i)) 0
      flashSectorSize) != (headerAt f pair).dataCrc32) = true := by
    have hw : window (fun i => f (pairHeaderOffset pair + flashSectorSize + i)) 0 flashSectorSize =
        window data 0 flashSectorSize :=
      window_congr fun i hi => by rw [Nat.zero_add]; exact hs.stored i hi
    rw [hs.crc, hw]
    simp
  have hrest : ∀ q < flashJournalPairCount,
      Function.update (fun pair => headerValid (headerAt f pair)) pair false q = false := by
    intro q hq
    by_cases hqp : q = pair
    · rw [hqp, Function.update_self]
    · rw [Function.update_of_ne hqp]; exact hs.others q hq hqp
  unfold recoverJournal
  rw [Prog.contents_bind, Prog.safe_read]
  change (recoverPairs (headerAt f) (7 + 1) (fun pair => headerValid (headerAt f pair))).Safe _ _ _ f
  rw [recoverPairs, selectPair_single hs.pair_lt hs.valid hs.others]
  simp only [Prog.contents_bind]
  refine Prog.safe_read.mpr (Prog.safe_if_neg hcrc (Prog.Safe.bind ?_))
  rw [hs.target]
  refine (restoreCallback_safe hs hs.stored).mono fun ok f' hok => ?_
  obtain ⟨rfl, hclean⟩ := hok
  refine Prog.safe_if_neg (by simp) ?_
  rw [recoverPairs_none _ hrest]
  exact ⟨⟨rfl, hclean⟩, Or.inl hclean⟩

/-! ## Runs -/

/-- A block write the cache can ask for: an aligned block of one of the slots. -/
structure BlockWrite where
  drive : Nat
  blockOffset : Nat
  data : Nat → UInt8
  drive_lt : drive < z80FlashDiskSlotCount
  in_slot : blockOffset + flashSectorSize ≤ z80FlashDiskSlotBytes
  aligned : blockOffset % flashSectorSize = 0

def BlockWrite.target (w : BlockWrite) : Nat := slotOffset w.drive + w.blockOffset

/-- The backend with that block cached and dirty. -/
def hold (b : Backend) (w : BlockWrite) : Backend :=
  { b with cache := ⟨true, true, w.drive, w.blockOffset, w.data⟩ }

theorem BlockWrite.blockAt (w : BlockWrite) : BlockAt w.target := by
  have h1 := w.drive_lt
  have h2 := w.in_slot
  have h3 := w.aligned
  simp only [z80FlashDiskSlotCount, flashSectorSize, z80FlashDiskSlotBytes] at h1 h2 h3
  constructor <;>
    simp only [target, slotOffset, diskEnd, z80FlashDiskOffset, z80FlashDiskSlotBytes,
      z80FlashDiskSlotCount, flashSectorSize] <;> omega

/-- The header a flush prepares is valid and names the block and its checksum. -/
theorem writeParams_hold (b : Backend) (w : BlockWrite) :
    ∃ pair < flashJournalPairCount, ∃ h, headerValid h = true ∧ h.targetOffset.toNat = w.target ∧
      h.dataCrc32 = crc32Bytes (window w.data 0 flashSectorSize) ∧
      (hold b w).writeParams =
        ⟨pairHeaderOffset pair, pairHeaderOffset pair + flashSectorSize, w.target, w.data, h⟩ := by
  obtain ⟨ht, hv⟩ := w.blockAt.offset_valid
  refine ⟨b.nextJournalPair.toNat % flashJournalPairCount, Nat.mod_lt _ (by decide),
    (hold b w).writeParams.header, ?_, ht, rfl, rfl⟩
  simp only [headerValid, Backend.writeParams, JournalHeader.prefixBytes, beq_self_eq_true,
    Bool.true_and]
  exact hv

/-- A power cut during the write of one block, after some completed flash calls. -/
structure Interrupted where
  block : BlockWrite
  calls : Nat

inductive Power where
  | on (b : Backend)
  | off (f : Flash)

/-- The machine with, as history variables, the disk area after all completed
writes and the write that the last power cut interrupted. -/
structure System where
  power : Power
  area : Flash
  interrupted : Option Interrupted

def System.start (f : Flash) : System := ⟨.on (.boot f), f, none⟩

inductive Step : System → System → Prop where
  /-- `flush_disk_cache` writes one block. -/
  | write (b : Backend) (area : Flash) (w : BlockWrite) (released : Bool) :
      Step ⟨.on b, area, none⟩
        ⟨.on (flushDiskCache ⟨true, fun _ => none, released⟩ (hold b w)).2,
          written area w.target w.data, none⟩
  /-- The power fails in `write_callback`. -/
  | cut (b : Backend) (area : Flash) (w : BlockWrite) (n : Nat) (f : Flash)
      (h : Cut JournalTear n (writeCallback (hold b w).writeParams) b.flash f) :
      Step ⟨.on b, area, none⟩ ⟨.off f, area, some ⟨w, n⟩⟩
  /-- The power fails, or the supervisor reboots, outside `write_callback`. -/
  | powerOff (b : Backend) (area : Flash) : Step ⟨.on b, area, none⟩ ⟨.off b.flash, area, none⟩
  /-- The power fails during recovery. -/
  | recoverCut (f area : Flash) (i : Option Interrupted) (n : Nat) (f' : Flash)
      (h : Cut JournalTear n recoverJournal f f') : Step ⟨.off f, area, i⟩ ⟨.off f', area, i⟩
  /-- Recovery runs to its end and the backend starts. -/
  | recover (f area : Flash) (i : Option Interrupted) (h : (recoverJournal.run f).1 = true) :
      Step ⟨.off f, area, i⟩
        ⟨.on (.boot (recoverJournal.run f).2), (recoverJournal.run f).2, none⟩

abbrev Reaches : System → System → Prop := Relation.ReflTransGen Step

/-- What the flash holds after the power failed. -/
def Recoverable (f area : Flash) : Option Interrupted → Prop
  | none => Clean f area
  | some i => (Clean f area ∧ i.calls ≤ 2) ∨
      (RestoreCut (written area i.block.target i.block.data) i.block.target i.block.data f ∧
        2 ≤ i.calls)

def Inv (s : System) : Prop :=
  match s.power with
  | .on b => Clean b.flash s.area ∧ s.interrupted = none
  | .off f => Recoverable f s.area s.interrupted

theorem Clean.self {f area : Flash} (h : Clean f area) : Clean f f := ⟨h.headers, fun _ _ => rfl⟩

theorem written_written (area : Flash) (t : Nat) (data : Nat → UInt8) :
    written (written area t data) t data = written area t data := overlay_overlay_self _

theorem recoverable_of_writeCut {f area : Flash} {w : BlockWrite} {n : Nat}
    (h : WriteCut area w.target w.data n f) : Recoverable f area (some ⟨w, n⟩) := by
  obtain ⟨h0, h2, h3⟩ := h
  have promise {pair : Nat} (hs : Sealed f area w.target w.data pair) :
      RestoreCut (written area w.target w.data) w.target w.data f :=
    Or.inr ⟨pair, { hs with disk := hs.disk.written w.data }⟩
  rcases Nat.lt_trichotomy n 2 with hn | hn | hn
  · exact Or.inl ⟨h0 hn, by simp only; omega⟩
  · rcases h2 hn with hc | ⟨pair, hs⟩
    · exact Or.inl ⟨hc, by simp only; omega⟩
    · exact Or.inr ⟨promise hs, by simp only; omega⟩
  · exact Or.inr ⟨h3 (by omega), by simp only; omega⟩

/-- Recovery from anything a restore may leave. -/
theorem recoverJournal_restoreCut {f area : Flash} {t : Nat} {data : Nat → UInt8}
    (h : RestoreCut (written area t data) t data f) :
    recoverJournal.Safe JournalTear (fun ok f' => ok = true ∧ Clean f' (written area t data))
      (fun _ => RestoreCut (written area t data) t data) f := by
  rcases h with hc | ⟨pair, hs⟩
  · have := recoverJournal_clean hc
    exact this.weaken fun _ _ h => Or.inl h
  · have := recoverJournal_sealed hs
    rwa [written_written] at this

theorem Inv.step {s s' : System} (h : Inv s) (hs : Step s s') : Inv s' := by
  cases hs with
  | write b area w released =>
    obtain ⟨hc, -⟩ := h
    obtain ⟨pair, hp, hd, hv, ht, hcrc, he⟩ := writeParams_hold b w
    have hsafe := (writeCallback_safe hc w.blockAt hp hv ht hcrc).run
    rw [← he] at hsafe
    refine ⟨?_, rfl⟩
    exact hsafe.2
  | cut b area w n f hcut =>
    obtain ⟨hc, -⟩ := h
    obtain ⟨pair, hp, hd, hv, ht, hcrc, he⟩ := writeParams_hold b w
    rw [he] at hcut
    exact recoverable_of_writeCut ((writeCallback_safe hc w.blockAt hp hv ht hcrc).cut hcut)
  | powerOff b area => exact h.1
  | recoverCut f area i n f' hcut =>
    cases i with
    | none => exact (recoverJournal_clean h).cut hcut
    | some i =>
      rcases h with ⟨hc, hn⟩ | ⟨hr, hn⟩
      · exact Or.inl ⟨(recoverJournal_clean hc).cut hcut, hn⟩
      · exact Or.inr ⟨(recoverJournal_restoreCut hr).cut hcut, hn⟩
  | recover f area i hok =>
    refine ⟨?_, rfl⟩
    cases i with
    | none => exact (recoverJournal_clean h).run.2.self
    | some i =>
      rcases h with ⟨hc, -⟩ | ⟨hr, -⟩
      · exact (recoverJournal_clean hc).run.2.self
      · exact (recoverJournal_restoreCut hr).run.2.self

theorem Inv.reaches {f₀ : Flash} (h : NoValidHeader f₀) {s : System}
    (hr : Reaches (.start f₀) s) : Inv s := by
  induction hr with
  | refl => exact ⟨⟨h, fun _ _ => rfl⟩, rfl⟩
  | tail _ hs ih => exact ih.step hs

/-- **Crash safety of the disk journal.** After any run from a flash without a
valid journal header, the first recovery that runs to its end succeeds, leaves
no valid header, and leaves the disk area of all completed writes, where the
interrupted block is entirely old or entirely new: new once the header program
was complete, old while it had not begun. -/
theorem recover_after_power_cut {f₀ : Flash} (h₀ : NoValidHeader f₀) {s : System}
    (hr : Reaches (.start f₀) s) {f : Flash} (hoff : s.power = .off f) :
    (recoverJournal.run f).1 = true ∧ NoValidHeader (recoverJournal.run f).2 ∧
    match s.interrupted with
    | none => DiskIs (recoverJournal.run f).2 s.area
    | some i =>
      (DiskIs (recoverJournal.run f).2 s.area ∨
        DiskIs (recoverJournal.run f).2 (written s.area i.block.target i.block.data)) ∧
      (i.calls < 2 → DiskIs (recoverJournal.run f).2 s.area) ∧
      (3 ≤ i.calls →
        DiskIs (recoverJournal.run f).2 (written s.area i.block.target i.block.data)) := by
  have hinv := Inv.reaches h₀ hr
  obtain ⟨power, area, interrupted⟩ := s
  subst hoff
  cases interrupted with
  | none =>
    obtain ⟨hok, hc⟩ := (recoverJournal_clean hinv).run
    exact ⟨hok, hc.headers, hc.disk⟩
  | some i =>
    rcases hinv with ⟨hc, hn⟩ | ⟨hrc, hn⟩
    · obtain ⟨hok, hc⟩ := (recoverJournal_clean hc).run
      exact ⟨hok, hc.headers, Or.inl hc.disk, fun _ => hc.disk, fun h => by omega⟩
    · obtain ⟨hok, hc⟩ := (recoverJournal_restoreCut hrc).run
      exact ⟨hok, hc.headers, Or.inr hc.disk, fun h => by omega, fun _ => hc.disk⟩

/-- The theorem at work: blank flash, and a cut right after the header program
of the first write, to the second block of drive B. -/
theorem recover_after_power_cut_blank :
    ∃ f, (recoverJournal.run f).1 = true ∧
      DiskIs (recoverJournal.run f).2 (written (fun _ => 0xFF) 0x281000 (fun _ => 0x5A)) := by
  let w : BlockWrite := ⟨1, 4096, fun _ => 0x5A, by decide, by decide, by decide⟩
  have hblank : NoValidHeader fun _ => 0xFF := fun pair _ => headerValid_erased fun _ _ => rfl
  have hcut : ∃ f, Cut JournalTear 3 (writeCallback (hold (.boot fun _ => 0xFF) w).writeParams)
      (fun _ => 0xFF) f := ⟨_, .later (.later (.later (.between _ _)))⟩
  obtain ⟨f, hf⟩ := hcut
  have hr : Reaches (.start fun _ => 0xFF) ⟨.off f, fun _ => 0xFF, some ⟨w, 3⟩⟩ :=
    .single (.cut (.boot fun _ => 0xFF) (fun _ => 0xFF) w 3 f hf)
  obtain ⟨hok, -, -, -, hnew⟩ := recover_after_power_cut hblank hr rfl
  have ht : w.target = 0x281000 := by decide
  exact ⟨f, hok, ht ▸ hnew (le_refl 3)⟩

end Z80Sbc.Flash.JournalSafety
