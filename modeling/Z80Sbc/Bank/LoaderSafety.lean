import Z80Sbc.Bank.LoaderHeader

/-! # The library loader is safe

The loop over the records keeps how much of the image is copied, which record is next, and the
cells that hold the header; it leaves the FCB to the BDOS, which counts the records there. So an
accepted library is in memory as the file has it, and no path writes outside of the image, the heap
below the stack and the loader's own cells. The way out is one for all paths; the ready byte is half
of the word that it restores the DMA pointer from. -/

namespace Z80Sbc.Bank.LoaderSafety
open Z80Sbc.Z80 Z80Sbc.Bank Loader LoaderHeader

variable {δ : Type}

/-! ## What a step touches -/

/-- Bank 1 is the same outside of `P`. -/
def Touches (P : Word → Prop) (s t : State δ) : Prop := ∀ a, ¬P a → t.get a = s.get a

section
variable {P Q : Word → Prop} {s t u : State δ}

theorem Touches.rfl : Touches P s s := fun _ _ => Eq.refl _

theorem Touches.trans (h : Touches P s t) (h' : Touches P t u) : Touches P s u :=
  fun a ha => (h' a ha).trans (h a ha)

theorem Touches.mono (h : Touches P s t) (hle : ∀ a, P a → Q a) : Touches Q s t :=
  fun a ha => h a fun hp => ha (hle a hp)

theorem Touches.get16 (h : Touches P s t) {a : Word} (h0 : ¬P a) (h1 : ¬P (a + 1)) :
    t.get16 a = s.get16 a := peek16_congr (h a h0) (h (a + 1) h1)

theorem touches_store {a : Word} {v : Byte} (ha : P a) : Touches P s (s.store a v) :=
  (changes_store ha).outside

theorem touches_store16 {a w : Word} (h0 : P a) (h1 : P (a + 1)) :
    Touches P s (s.store16 a w) := (changes_store16 h0 h1).outside

end

/-- What a call with the library's FCB and the DMA buffer may change. -/
def CallByte (a : Word) : Prop := SystemByte a ∨ Within libraryFcb 36 a ∨ Within dmaBuffer 128 a

/-- What the copy of a chunk may change. -/
def ChunkByte (r : Nat → Byte) (a : Word) : Prop :=
  0x100 ≤ a.toNat ∧ a.toNat < 0x100 + length r ∨ 0xDE96 ≤ a.toNat ∧ a.toNat < 0xDE9E

/-- What the loader may change: its own cells and buffers, and with a valid header the memory
from the image to the stack. -/
def LoaderByte (file : File) (a : Word) : Prop :=
  Work a ∨ SystemByte a ∨ ∃ r, file.record 0 = some r ∧ HeaderOk r ∧
    0x100 ≤ a.toNat ∧ a.toNat < 0xC800 - stack r

theorem CallByte.loader {file : File} {a : Word} (h : CallByte a) : LoaderByte file a := by
  rcases h with h | h | h
  · exact Or.inr (Or.inl h)
  · refine Or.inl ?_
    unfold Within libraryFcb at h
    unfold Work
    bv_omega
  · refine Or.inl ?_
    unfold Within dmaBuffer at h
    unfold Work
    bv_omega

theorem ChunkByte.loader {file : File} {r : Nat → Byte} {a : Word} (hr : file.record 0 = some r)
    (hok : HeaderOk r) (h : ChunkByte r a) : LoaderByte file a := by
  rcases h with h | h
  · have hlow := hok.heap_low
    have hhigh := hok.heap_high
    exact Or.inr (Or.inr ⟨r, hr, hok, h.1, by omega⟩)
  · refine Or.inl ?_
    unfold Work
    omega

theorem HeaderCell.loader {file : File} {a : Word} (h : HeaderCell a) : LoaderByte file a := by
  refine Or.inl ?_
  unfold HeaderCell LengthCell Within headerLength brkOffset stackBytes imageLength remaining
    exportCount at h
  unfold Work
  bv_omega

/-! ## Calls -/

section
variable {bdos : Bdos δ} {s t : State δ} {P : Word → Prop}

/-- What leaves the FCB and the BDOS's memory alone leaves the next record. -/
theorem Touches.alike (h : Touches P s t) (hdisk : t.disk = s.disk)
    (hfree : ∀ a, BdosByte a ∨ Within libraryFcb 36 a → ¬P a) :
    Alike (fun a => BdosByte a ∨ Within libraryFcb 36 a) s.toMachine t.toMachine :=
  ⟨hdisk, fun a ha => h a (hfree a ha)⟩

theorem call_touches (h : KeepsMemory bdos) {function : Byte}
    (hdma : s.get16 dmaPointer = dmaBuffer) :
    Touches CallByte s (s.call bdos function libraryFcb).2 := by
  intro a ha
  unfold CallByte at ha
  rw [not_or, not_or] at ha
  refine h.bank1 function libraryFcb s.toMachine a ha.1 (fun hfcb => ha.2.1 hfcb.2) fun hfill => ?_
  refine ha.2.2 ?_
  have hwithin := hfill.2
  rw [show peek16 s.mem dmaPointer = dmaBuffer from hdma] at hwithin
  exact hwithin

theorem call_dma (h : KeepsMemory bdos) {function : Byte} (hf : setsDma function = false)
    (hdma : s.get16 dmaPointer = dmaBuffer) :
    (s.call bdos function libraryFcb).2.get16 dmaPointer = dmaBuffer :=
  (h.dma function libraryFcb s.toMachine hf).trans hdma

end

/-! ## The copy of a chunk -/

/-- What `copy_chunk` does with `n` bytes of the buffer. -/
structure Copied (r : Nat → Byte) (s t : State δ) (o done n : Nat) : Prop where
  remaining : (t.get16 remaining).toNat = (s.get16 Loader.remaining).toNat - n
  destination : t.get16 destination = BitVec.ofNat 16 (0x100 + (done + n))
  bytes : ∀ i < n, t.get (BitVec.ofNat 16 (0x100 + (done + i))) =
    s.get (dmaBuffer + BitVec.ofNat 16 (o + i))
  before : ∀ i < done, t.get (BitVec.ofNat 16 (0x100 + i)) = s.get (BitVec.ofNat 16 (0x100 + i))
  touches : Touches (ChunkByte r) s t
  disk : t.disk = s.disk
  written : t.written = s.written ++ [(BitVec.ofNat 16 (0x100 + done), n)]

theorem copyChunk_spec {r : Nat → Byte} {s : State δ} {o done left : Nat}
    (hsource : s.get16 source = dmaBuffer + BitVec.ofNat 16 o) (ho : o < 128)
    (hdest : s.get16 destination = BitVec.ofNat 16 (0x100 + done))
    (hleft : (s.get16 remaining).toNat = left) (hpos : 0 < left)
    (hlength : done + left = length r) (hfits : length r ≤ 0xC600) :
    Copied r s (copyChunk s) o done (min (128 - o) left) := by
  have hbc : 0xE480 - s.get16 source = BitVec.ofNat 16 (128 - o) := by
    rw [hsource]
    unfold dmaBuffer
    bv_omega
  generalize hn : min (128 - o) left = n
  have hcount : (if s.get16 remaining < 0xE480 - s.get16 source then s.get16 remaining
      else 0xE480 - s.get16 source) = BitVec.ofNat 16 n := by
    rw [hbc]
    split
    · bv_omega
    · bv_omega
  have hnpos : 0 < n := by omega
  have hn128 : n ≤ 128 - o := by omega
  have hnleft : n ≤ left := by omega
  have hrounds : rounds (BitVec.ofNat 16 n) = n := by
    unfold rounds
    rw [if_neg (by bv_omega), BitVec.toNat_ofNat]
    omega
  have hcopy (m : Mem) : ldir m (dmaBuffer + BitVec.ofNat 16 o) (BitVec.ofNat 16 (0x100 + done)) n =
      copied m true (BitVec.ofNat 16 (0x100 + done)) true (dmaBuffer + BitVec.ofNat 16 o) n := by
    refine ldir_eq ?_ ?_ fun a ha hb => ?_
    · unfold dmaBuffer
      bv_omega
    · bv_omega
    · unfold Within dmaBuffer at ha
      unfold Within at hb
      bv_omega
  unfold copyChunk
  dsimp only
  rw [hcount]
  -- the count in its cell
  have hcell := changes_store16 (P := Within count 2) (s := s) (a := count)
    (w := BitVec.ofNat 16 n) (by decide) (by decide)
  have hcounted : (s.store16 count (BitVec.ofNat 16 n)).get16 count = BitVec.ofNat 16 n :=
    get16_store16_same
  generalize s.store16 count (BitVec.ofNat 16 n) = s1 at hcell hcounted ⊢
  rw [(hcell.get16 (by decide) (by decide)).trans hdest,
    (hcell.get16 (by decide) (by decide)).trans hsource, hrounds, hcopy]
  -- the bytes
  generalize hs2 : ({ s1 with
    mem := copied s1.mem true (BitVec.ofNat 16 (0x100 + done)) true
      (dmaBuffer + BitVec.ofNat 16 o) n
    written := s1.written ++ [(BitVec.ofNat 16 (0x100 + done), n)] } : State δ) = s2
  have hinside : ∀ i < n, s2.get (BitVec.ofNat 16 (0x100 + (done + i))) =
      s.get (dmaBuffer + BitVec.ofNat 16 (o + i)) := by
    intro i hi
    subst hs2
    have hin : Within (BitVec.ofNat 16 (0x100 + done)) n
        (BitVec.ofNat 16 (0x100 + (done + i))) := by
      unfold Within
      bv_omega
    show copied s1.mem true _ true _ n true _ = _
    unfold copied
    rw [patch_inside hin]
    have haddress : dmaBuffer + BitVec.ofNat 16 o +
        (BitVec.ofNat 16 (0x100 + (done + i)) - BitVec.ofNat 16 (0x100 + done)) =
          dmaBuffer + BitVec.ofNat 16 (o + i) := by bv_omega
    rw [haddress]
    refine hcell.outside _ ?_
    unfold Within dmaBuffer count
    bv_omega
  have houtside : ∀ a, ¬Within (BitVec.ofNat 16 (0x100 + done)) n a → s2.get a = s1.get a := by
    intro a ha
    subst hs2
    show copied s1.mem true _ true _ n true a = _
    unfold copied
    rw [patch_outside ha]
    rfl
  have hdisk : s2.disk = s.disk := by
    subst hs2
    exact hcell.disk
  have hwritten : s2.written = s.written ++ [(BitVec.ofNat 16 (0x100 + done), n)] := by
    subst hs2
    show s1.written ++ _ = _
    rw [hcell.written]
  clear hs2
  have hstable {a : Word} (h0 : ¬Within (BitVec.ofNat 16 (0x100 + done)) n a)
      (h1 : ¬Within (BitVec.ofNat 16 (0x100 + done)) n (a + 1)) : s2.get16 a = s1.get16 a :=
    peek16_congr (houtside a h0) (houtside _ h1)
  have hcountCell : s2.get16 count = BitVec.ofNat 16 n := by
    rw [hstable (by unfold Within count; bv_omega) (by unfold Within count; bv_omega), hcounted]
  have hremainingCell : s2.get16 remaining = s.get16 remaining := by
    rw [hstable (by unfold Within remaining; bv_omega) (by unfold Within remaining; bv_omega)]
    exact hcell.get16 (by decide) (by decide)
  rw [@get16_store16 δ s2 destination remaining _ (by decide) (by decide), hremainingCell,
    @get16_store16 δ s2 destination count _ (by decide) (by decide), hcountCell]
  have hsum : BitVec.ofNat 16 (0x100 + done) + BitVec.ofNat 16 n =
      BitVec.ofNat 16 (0x100 + (done + n)) := by bv_omega
  rw [hsum]
  -- the two cells at the end
  have hend := (changes_store16 (P := Within destination 4) (s := s2) (a := destination)
    (w := BitVec.ofNat 16 (0x100 + (done + n))) (by decide) (by decide)).trans
      (changes_store16 (a := remaining) (w := s.get16 remaining - BitVec.ofNat 16 n)
        (by decide) (by decide))
  constructor
  · rw [get16_store16_same]
    bv_omega
  · rw [get16_store16 (by decide) (by decide), get16_store16_same]
  · intro i hi
    refine (hend.outside _ ?_).trans (hinside i hi)
    unfold Within destination
    bv_omega
  · intro i hi
    refine (hend.outside _ ?_).trans ((houtside _ ?_).trans (hcell.outside _ ?_))
    · unfold Within destination
      bv_omega
    · unfold Within
      bv_omega
    · unfold Within count
      bv_omega
  · intro a ha
    unfold ChunkByte at ha
    rw [not_or] at ha
    refine (hend.outside a ?_).trans ((houtside a ?_).trans (hcell.outside a ?_))
    · unfold Within destination
      bv_omega
    · unfold Within
      bv_omega
    · unfold Within count
      bv_omega
  · exact hend.disk.trans hdisk
  · exact hend.written.trans hwritten

/-! ## On the way -/

/-- The loader is under way: the DMA buffer is its own, and it has not succeeded. -/
structure Pending (entry : Word) (s : State δ) : Prop where
  dma : s.get16 dmaPointer = dmaBuffer
  caller : s.get16 callerDma = entry
  status : s.get Loader.status = 1

section
variable {P : Word → Prop} {s t : State δ} {entry : Word}

theorem Pending.touches (h : Pending entry s) (ht : Touches P s t)
    (hfree : ∀ a, Within dmaPointer 2 a ∨ Within callerDma 2 a ∨ a = Loader.status → ¬P a) :
    Pending entry t where
  dma := (ht.get16 (hfree _ (by decide)) (hfree _ (by decide))).trans h.dma
  caller := (ht.get16 (hfree _ (by decide)) (hfree _ (by decide))).trans h.caller
  status := (ht _ (hfree _ (by decide))).trans h.status

theorem Pending.call {bdos : Bdos δ} (h : Pending entry s) (hbdos : KeepsMemory bdos)
    {function : Byte} (hf : setsDma function = false) :
    Pending entry (s.call bdos function libraryFcb).2 := by
  have ht : Touches CallByte s (s.call bdos function libraryFcb).2 := call_touches hbdos h.dma
  constructor
  · exact call_dma hbdos hf h.dma
  · refine (ht.get16 ?_ ?_).trans h.caller
    · unfold CallByte
      decide
    · unfold CallByte
      decide
  · refine (ht _ ?_).trans h.status
    unfold CallByte
    decide

theorem Parsed.touches {r : Nat → Byte} (h : Parsed r s.mem) (ht : Touches P s t)
    (hfree : ∀ a, Within Loader.imageLength 4 a ∨ Within Loader.brkOffset 4 a ∨
      Within Loader.stackBytes 4 a → ¬P a) : Parsed r t.mem where
  imageLength := (ht.get16 (hfree _ (by decide)) (hfree _ (by decide))).trans h.imageLength
  headerLength := (ht.get16 (hfree _ (by decide)) (hfree _ (by decide))).trans h.headerLength
  brkOffset := (ht.get16 (hfree _ (by decide)) (hfree _ (by decide))).trans h.brkOffset
  hlimitOffset := (ht.get16 (hfree _ (by decide)) (hfree _ (by decide))).trans h.hlimitOffset
  stackBytes := (ht.get16 (hfree _ (by decide)) (hfree _ (by decide))).trans h.stackBytes
  heapBase := (ht.get16 (hfree _ (by decide)) (hfree _ (by decide))).trans h.heapBase

/-- The words that are not in the header's own cells. -/
theorem not_chunkByte {r : Nat → Byte} {a : Word} (hlength : length r < 0xC600)
    (ha : 0xDE00 ≤ a.toNat) (h : a.toNat < 0xDE96 ∨ 0xDE9E ≤ a.toNat) : ¬ChunkByte r a := by
  unfold ChunkByte
  omega

end

/-! ## The runtime -/

theorem zeroBss_eq {m : Mem} {hl : Word} {n : Nat} (h : hl.toNat + n ≤ 65536) (a : Word) :
    peek (zeroBss m hl n) a = if Within hl n a then 0 else peek m a := by
  induction n generalizing m hl with
  | zero =>
    rw [zeroBss, if_neg]
    unfold Within
    omega
  | succ n ih =>
    rw [zeroBss, ih (by bv_omega)]
    by_cases hnext : Within (hl + 1) n a
    · rw [if_pos hnext, if_pos]
      unfold Within at hnext ⊢
      bv_omega
    rw [if_neg hnext]
    by_cases hfirst : a = hl
    · subst hfirst
      rw [peek_poke, if_pos]
      unfold Within
      bv_omega
    · rw [peek_poke_ne hfirst, if_neg]
      unfold Within at hnext ⊢
      bv_omega

theorem hi_and_lo {w : Word} : hi w &&& lo w = 0xFF ↔ w = 0xFFFF := by
  constructor
  · intro h
    obtain ⟨hhi, hlo⟩ := BitVec.and_eq_allOnes_iff.mp h
    have h1 := toNat_hi w
    have h2 := toNat_lo w
    rw [hhi] at h1
    rw [hlo] at h2
    have hall : (BitVec.allOnes 8).toNat = 255 := rfl
    rw [hall] at h1 h2
    bv_omega
  · rintro rfl
    decide

theorem validRuntimeOffset_iff {m : Mem} {w : Word} :
    validRuntimeOffset m w = true ↔ w.toNat + 1 < (peek16 m imageLength).toNat := by
  unfold validRuntimeOffset
  by_cases h : w = 0xFFFF
  · rw [if_pos (hi_and_lo.mpr h)]
    subst h
    refine ⟨fun hf => Bool.noConfusion hf, fun hlt => ?_⟩
    have := (peek16 m imageLength).isLt
    change 65535 + 1 < _ at hlt
    omega
  · rw [if_neg fun hw => h (hi_and_lo.mp hw), decide_eq_true_iff]
    bv_omega

/-- A byte of one of the two runtime words. -/
def RuntimeByte (r : Nat → Byte) (i : Nat) : Prop :=
  HasRuntime r ∧ (i = (recordWord r 20).toNat ∨ i = (recordWord r 20).toNat + 1 ∨
    i = (recordWord r 22).toNat ∨ i = (recordWord r 22).toNat + 1)

/-- What `initialize_runtime` does where it accepts. -/
structure Initialized (r : Nat → Byte) (s t : State δ) : Prop where
  image : ∀ i < length r, ¬RuntimeByte r i →
    t.get (BitVec.ofNat 16 (0x100 + i)) = s.get (BitVec.ofNat 16 (0x100 + i))
  bss : HasRuntime r → ∀ a : Word, 0x100 + length r ≤ a.toNat → a.toNat < heap r → t.get a = 0
  touches : Touches (fun a => 0x100 ≤ a.toNat ∧ a.toNat < heap r ∨ Within brkAddress 4 a) s t
  written : ∀ p ∈ t.written, p ∈ s.written ∨ 0x100 ≤ p.1.toNat ∧ p.1.toNat + p.2 ≤ heap r

theorem storeRuntime_touches {s : State δ} {w v : Word} :
    Touches (Within w 2) s (s.storeRuntime w v) := by
  intro a ha
  exact peek_poke16_outside ha

theorem runtimePresent_spec {r : Nat → Byte} {s : State δ} (hok : HeaderOk r)
    (hparsed : Parsed r s.mem) (hruntime : HasRuntime r) :
    ((runtimePresent s).1 = true ∧ ¬RuntimeOk r ∧
        Touches (Within brkAddress 4) s (runtimePresent s).2 ∧
          (runtimePresent s).2.written = s.written) ∨
      ((runtimePresent s).1 = false ∧ RuntimeOk r ∧ Initialized r s (runtimePresent s).2) := by
  obtain ⟨himage, -, hbrk, hlimit, hstack, hheap⟩ := hparsed
  have hlow := hok.heap_low
  have hhigh := hok.heap_high
  have hlength : (recordWord r 10).toNat = length r := rfl
  have hheapNat : (recordWord r 24).toNat = heap r := rfl
  have hrok : RuntimeOk r ↔
      (recordWord r 20).toNat + 1 < length r ∧ (recordWord r 22).toNat + 1 < length r := by
    unfold RuntimeOk
    rw [if_neg hruntime]
  unfold runtimePresent
  have hbrk' : s.get16 brkOffset = recordWord r 20 := hbrk
  simp only [hbrk']
  have hvalid := @validRuntimeOffset_iff s.mem (recordWord r 20)
  rw [himage, hlength] at hvalid
  by_cases hbrkLt : (recordWord r 20).toNat + 1 < length r
  swap
  · rw [Bool.eq_false_iff.mpr fun h => hbrkLt (hvalid.mp h), Bool.not_false, if_pos rfl]
    exact Or.inl ⟨rfl, fun h => hbrkLt (hrok.mp h).1, Touches.rfl, rfl⟩
  rw [hvalid.mpr hbrkLt, Bool.not_true, if_neg Bool.false_ne_true]
  have h1 : Touches (Within brkAddress 4) s (s.store16 brkAddress (recordWord r 20 + 0x0100)) :=
    touches_store16 (by decide) (by decide)
  have haddress : (s.store16 brkAddress (recordWord r 20 + 0x0100)).get16 brkAddress =
      recordWord r 20 + 0x0100 := get16_store16_same
  have hwritten1 : (s.store16 brkAddress (recordWord r 20 + 0x0100)).written = s.written := rfl
  generalize s.store16 brkAddress (recordWord r 20 + 0x0100) = s1 at h1 haddress hwritten1 ⊢
  have hlimit1 : s1.get16 hlimitOffset = recordWord r 22 :=
    (h1.get16 (by decide) (by decide)).trans hlimit
  have himage1 : peek16 s1.mem imageLength = recordWord r 10 :=
    (h1.get16 (by decide) (by decide)).trans himage
  simp only [hlimit1]
  have hvalid' := @validRuntimeOffset_iff s1.mem (recordWord r 22)
  rw [himage1, hlength] at hvalid'
  by_cases hlimitLt : (recordWord r 22).toNat + 1 < length r
  swap
  · rw [Bool.eq_false_iff.mpr fun h => hlimitLt (hvalid'.mp h), Bool.not_false, if_pos rfl]
    exact Or.inl ⟨rfl, fun h => hlimitLt (hrok.mp h).2, h1, hwritten1⟩
  rw [hvalid'.mpr hlimitLt, Bool.not_true, if_neg Bool.false_ne_true]
  refine Or.inr ⟨rfl, hrok.mpr ⟨hbrkLt, hlimitLt⟩, ?_⟩
  have h2 := h1.trans (touches_store16 (s := s1) (a := hlimitAddress)
    (w := recordWord r 22 + 0x0100) (by decide) (by decide))
  have haddress2 : (s1.store16 hlimitAddress (recordWord r 22 + 0x0100)).get16 hlimitAddress =
      recordWord r 22 + 0x0100 := get16_store16_same
  have haddress1 : (s1.store16 hlimitAddress (recordWord r 22 + 0x0100)).get16 brkAddress =
      recordWord r 20 + 0x0100 := (get16_store16 (by decide) (by decide)).trans haddress
  have hwritten2 : (s1.store16 hlimitAddress (recordWord r 22 + 0x0100)).written = s.written :=
    hwritten1
  generalize s1.store16 hlimitAddress _ = s2 at h2 haddress1 haddress2 hwritten2 ⊢
  rw [haddress1, show s2.get16 heapBase = recordWord r 24 from
    (h2.get16 (by decide) (by decide)).trans hheap]
  -- the two runtime words are stored in the image
  have hfits : length r < 0xC600 := hok.length_lt
  have hcell {a v w : Word} (hw : w.toNat + 1 < 0x100 + length r) (ha : 0xDE00 ≤ a.toNat)
      (ha' : a.toNat < 0xF000) (u : State δ) : (u.storeRuntime w v).get16 a = u.get16 a := by
    refine storeRuntime_touches.get16 ?_ ?_
    · unfold Within
      bv_omega
    · unfold Within
      bv_omega
  have hw1 : (recordWord r 20 + 0x0100).toNat = 0x100 + (recordWord r 20).toNat := by bv_omega
  have hw2 : (recordWord r 22 + 0x0100).toNat = 0x100 + (recordWord r 22).toNat := by bv_omega
  have h3 := storeRuntime_touches (s := s2) (w := recordWord r 20 + 0x0100) (v := recordWord r 24)
  have hkeep3 {a : Word} (ha : 0xDE00 ≤ a.toNat) (ha' : a.toNat < 0xF000) :=
    hcell (v := recordWord r 24) (w := recordWord r 20 + 0x0100) (by omega) ha ha' s2
  have hwritten3 : (s2.storeRuntime (recordWord r 20 + 0x0100) (recordWord r 24)).written =
      s.written ++ [(recordWord r 20 + 0x0100, 2)] := congrArg (· ++ _) hwritten2
  generalize s2.storeRuntime _ _ = s3 at h3 hkeep3 hwritten3 ⊢
  rw [hkeep3 (by decide) (by decide), haddress2, hkeep3 (by decide) (by decide),
    show s2.get16 stackBytes = recordWord r 16 from
      (h2.get16 (by decide) (by decide)).trans hstack]
  have h4 := storeRuntime_touches (s := s3) (w := recordWord r 22 + 0x0100)
    (v := 0xC800 - recordWord r 16)
  have hkeep4 {a : Word} (ha : 0xDE00 ≤ a.toNat) (ha' : a.toNat < 0xF000) :=
    hcell (v := 0xC800 - recordWord r 16) (w := recordWord r 22 + 0x0100) (by omega) ha ha' s3
  have hwritten4 : (s3.storeRuntime (recordWord r 22 + 0x0100) (0xC800 - recordWord r 16)).written =
      s.written ++ [(recordWord r 20 + 0x0100, 2)] ++ [(recordWord r 22 + 0x0100, 2)] :=
    congrArg (· ++ _) hwritten3
  generalize s3.storeRuntime _ _ = s4 at h4 hkeep4 hwritten4 ⊢
  have himage4 : s4.get16 imageLength = recordWord r 10 := by
    rw [hkeep4 (by decide) (by decide), hkeep3 (by decide) (by decide)]
    exact (h2.get16 (by decide) (by decide)).trans himage
  have hheap4 : s4.get16 heapBase = recordWord r 24 := by
    rw [hkeep4 (by decide) (by decide), hkeep3 (by decide) (by decide)]
    exact (h2.get16 (by decide) (by decide)).trans hheap
  -- the BSS is from the image to the heap
  have hstart : (s4.get16 imageLength + 0x0100).toNat = 0x100 + length r := by
    rw [himage4]
    bv_omega
  have hsize : (s4.get16 heapBase - (s4.get16 imageLength + 0x0100)).toNat =
      heap r - (0x100 + length r) := by
    rw [himage4, hheap4]
    bv_omega
  have hbss (a : Word) := @zeroBss_eq s4.mem (s4.get16 imageLength + 0x0100)
    (s4.get16 heapBase - (s4.get16 imageLength + 0x0100)).toNat (by omega) a
  constructor
  · intro i hi hruntimeByte
    refine (hbss _).trans ?_
    have hbyte : ¬(i = (recordWord r 20).toNat ∨ i = (recordWord r 20).toNat + 1 ∨
        i = (recordWord r 22).toNat ∨ i = (recordWord r 22).toNat + 1) :=
      fun hc => hruntimeByte ⟨hruntime, hc⟩
    simp only [not_or] at hbyte
    obtain ⟨hb0, hb1, hl0, hl1⟩ := hbyte
    rw [if_neg (by unfold Within; rw [hsize]; bv_omega)]
    refine (h4 _ ?_).trans ((h3 _ ?_).trans (h2 _ ?_))
    · unfold Within
      bv_omega
    · unfold Within
      bv_omega
    · unfold Within brkAddress
      bv_omega
  · intro _ a hlo hhi
    refine (hbss a).trans (if_pos ?_)
    unfold Within
    rw [hsize]
    bv_omega
  · intro a ha
    rw [not_or] at ha
    refine (hbss a).trans ?_
    rw [if_neg (by unfold Within; rw [hsize]; bv_omega)]
    refine (h4 _ ?_).trans ((h3 _ ?_).trans (h2 _ ha.2))
    · unfold Within
      bv_omega
    · unfold Within
      bv_omega
  · intro p hp
    change p ∈ s4.written ++ [_] at hp
    rw [hwritten4] at hp
    simp only [List.mem_append, List.mem_singleton] at hp
    rcases hp with ((hp | rfl) | rfl) | rfl
    · exact Or.inl hp
    · rw [hw1]
      exact Or.inr ⟨Nat.le_add_right _ _, by omega⟩
    · rw [hw2]
      exact Or.inr ⟨Nat.le_add_right _ _, by omega⟩
    · rw [hstart, hsize]
      exact Or.inr ⟨Nat.le_add_right _ _, by omega⟩

theorem initializeRuntime_spec {r : Nat → Byte} {s : State δ} (hok : HeaderOk r)
    (hparsed : Parsed r s.mem) :
    ((initializeRuntime s).1 = true ∧ ¬RuntimeOk r ∧
        Touches (Within brkAddress 4) s (initializeRuntime s).2 ∧
          (initializeRuntime s).2.written = s.written) ∨
      ((initializeRuntime s).1 = false ∧ RuntimeOk r ∧
        Initialized r s (initializeRuntime s).2) := by
  have hbrk : s.get16 brkOffset = recordWord r 20 := hparsed.brkOffset
  have hlimit : s.get16 hlimitOffset = recordWord r 22 := hparsed.hlimitOffset
  unfold initializeRuntime
  simp only [hbrk, hlimit]
  by_cases hhi : hi (recordWord r 20) ≠ 0xFF
  · rw [if_pos hhi]
    refine runtimePresent_spec hok hparsed fun he => hhi ?_
    rw [he]
    decide
  rw [if_neg hhi]
  by_cases hlo : lo (recordWord r 20) ≠ 0xFF
  · rw [if_pos hlo]
    refine Or.inl ⟨rfl, fun hr => ?_, Touches.rfl, rfl⟩
    -- an offset from FF00h on is behind every image
    have hne : recordWord r 20 ≠ 0xFFFF := fun he => hlo (by rw [he]; decide)
    unfold RuntimeOk at hr
    rw [if_neg hne] at hr
    have hbyte := congrArg BitVec.toNat (not_not.mp hhi)
    rw [toNat_hi] at hbyte
    change _ = 255 at hbyte
    have := hok.length_lt
    omega
  rw [if_neg hlo]
  have habsent : recordWord r 20 = 0xFFFF := by
    refine hi_and_lo.mp ?_
    rw [not_not.mp hhi, not_not.mp hlo]
    decide
  have hnone : ¬HasRuntime r := fun h => h habsent
  by_cases hboth : recordWord r 22 = 0xFFFF
  · rw [hi_and_lo.mpr hboth]
    refine Or.inr ⟨rfl, ?_, ?_⟩
    · unfold RuntimeOk
      rw [if_pos habsent]
      exact hboth
    · exact ⟨fun _ _ _ => rfl, fun h => absurd h hnone, Touches.rfl, fun _ hp => Or.inl hp⟩
  · refine Or.inl ⟨?_, fun hr => ?_, Touches.rfl, rfl⟩
    · rw [Bool.not_eq_true', beq_eq_false_iff_ne]
      exact fun he => hboth (hi_and_lo.mp he)
    · unfold RuntimeOk at hr
      rw [if_pos habsent] at hr
      exact hboth hr

/-! ## The end -/

/-- Every range that was written is between the image and the stack. -/
def InBounds (file : File) (s : State δ) : Prop :=
  ∀ p ∈ s.written, ∃ r, file.record 0 = some r ∧ HeaderOk r ∧
    0x100 ≤ p.1.toNat ∧ p.1.toNat + p.2 ≤ 0xC800 - stack r

/-- The image of the file is in memory, and behind it the BSS. -/
structure ImageOk (file : File) (r : Nat → Byte) (s : State δ) : Prop where
  image : ∀ i < length r, ¬RuntimeByte r i →
    s.get (BitVec.ofNat 16 (0x100 + i)) = file.byte (header r + i)
  bss : HasRuntime r → ∀ a : Word, 0x100 + length r ≤ a.toNat → a.toNat < heap r → s.get a = 0

/-- What the loader returns with, `entry` being the DMA pointer it was called with. -/
structure Outcome (file : File) (entry : Word) (s : State δ) (hl : Word) (t : State δ) : Prop where
  result : hl = word 0 (t.get status)
  loaded : t.get status = 0 ↔ Loadable file
  image : t.get status = 0 → ∃ r, file.record 0 = some r ∧ HeaderOk r ∧ ImageOk file r t
  ready : t.get ready = if t.get status = 0 then 1 else hi entry
  dma : t.get16 dmaPointer = word (t.get Loader.ready) (lo entry)
  biosDma : t.biosDma = t.get16 dmaPointer
  frame : Touches (LoaderByte file) s t
  written : InBounds file t

section
variable {bdos : Bdos δ} {file : File} {entry : Word} {s u t : State δ} {hl : Word}

theorem Outcome.after (hu : Touches (LoaderByte file) s u) (h : Outcome file entry u hl t) :
    Outcome file entry s hl t := { h with frame := hu.trans h.frame }

/-- What is done on the way out. -/
structure Closed (s : State δ) (hl : Word) (t : State δ) : Prop where
  result : hl = word 0 (s.get status)
  dma : t.get16 dmaPointer = s.get16 callerDma
  biosDma : t.biosDma = s.get16 callerDma
  touches : Touches CallByte s t
  written : t.written = s.written

theorem restoreDma_spec (s : State δ) : Closed s (restoreDma s).1 (restoreDma s).2 := by
  have ht : Touches CallByte s (s.useDma (s.get16 callerDma)) := by
    refine touches_store16 (s := s) (a := dmaPointer) (w := s.get16 callerDma) ?_ ?_
    · unfold CallByte
      decide
    · unfold CallByte
      decide
  constructor
  · refine congrArg (word 0) (ht _ ?_)
    unfold CallByte
    decide
  · exact peek16_poke16
  · rfl
  · exact ht
  · rfl

theorem closeFile_spec (h : KeepsMemory bdos) (hp : s.get16 dmaPointer = dmaBuffer) :
    Closed s (closeFile bdos s).1 (closeFile bdos s).2 := by
  have ht : Touches CallByte s (s.call bdos 16 libraryFcb).2 := call_touches h hp
  unfold closeFile
  have hclosed := restoreDma_spec (s.call bdos 16 libraryFcb).2
  have hcaller : (s.call bdos 16 libraryFcb).2.get16 callerDma = s.get16 callerDma := by
    refine ht.get16 ?_ ?_
    · unfold CallByte
      decide
    · unfold CallByte
      decide
  constructor
  · rw [hclosed.result, ht _ (by unfold CallByte; decide)]
  · rw [hclosed.dma, hcaller]
  · rw [hclosed.biosDma, hcaller]
  · exact ht.trans hclosed.touches
  · rw [hclosed.written]
    rfl

theorem ready_eq (s : State δ) : s.get ready = hi (s.get16 callerDma) := (hi_word _ _).symm

theorem Closed.status (h : Closed s hl t) : t.get Loader.status = s.get Loader.status := by
  refine h.touches _ ?_
  unfold CallByte
  decide

theorem Closed.ready (h : Closed s hl t) : t.get Loader.ready = s.get Loader.ready := by
  refine h.touches _ ?_
  unfold CallByte
  decide

theorem Closed.rejected (h : Closed s hl t) (hcaller : s.get16 callerDma = entry)
    (hstatus : s.get Loader.status ≠ 0) (hnot : ¬Loadable file) (hw : InBounds file s) :
    Outcome file entry s hl t := by
  have hst := h.status
  have hready : t.get Loader.ready = hi entry := by rw [h.ready, ready_eq, hcaller]
  constructor
  · rw [h.result, hst]
  · rw [hst]
    exact ⟨fun h0 => absurd h0 hstatus, fun hl => absurd hl hnot⟩
  · intro h0
    exact absurd (hst ▸ h0) hstatus
  · rw [if_neg (by rw [hst]; exact hstatus), hready]
  · rw [h.dma, hcaller, hready, word_hi_lo]
  · rw [h.biosDma, h.dma]
  · exact h.touches.mono fun a ha => ha.loader
  · intro p hp
    rw [h.written] at hp
    exact hw p hp

/-- The ready byte is the high byte of the word that keeps the DMA pointer. -/
theorem Closed.accepted {r : Nat → Byte}
    (h : Closed ((s.store Loader.status 0).store Loader.ready 1) hl t)
    (hcaller : s.get16 callerDma = entry) (hload : Loadable file) (hr : file.record 0 = some r)
    (hok : HeaderOk r) (himage : ImageOk file r s) (hw : InBounds file s) :
    Outcome file entry s hl t := by
  have hst : t.get Loader.status = 0 :=
    h.status.trans ((get_store (by decide)).trans get_store_same)
  have hready : t.get Loader.ready = 1 := h.ready.trans get_store_same
  have hlow : ((s.store Loader.status 0).store Loader.ready 1).get callerDma = lo entry := by
    rw [get_store (by decide), get_store (by decide), ← hcaller]
    exact (lo_word _ _).symm
  have hword : ((s.store Loader.status 0).store Loader.ready 1).get16 callerDma =
      word 1 (lo entry) := congrArg₂ word get_store_same hlow
  have hflags : Touches (fun a => a = Loader.status ∨ a = Loader.ready) s
      ((s.store Loader.status 0).store Loader.ready 1) :=
    (touches_store (Or.inl rfl)).trans (touches_store (Or.inr rfl))
  have hhigh := hok.heap_high
  have hlowHeap := hok.heap_low
  have hsame {a : Word} (h0 : 0x100 ≤ a.toNat) (h1 : a.toNat < 0xC800) : t.get a = s.get a := by
    refine (h.touches a ?_).trans (hflags a ?_)
    · unfold CallByte SystemByte Within libraryFcb dmaBuffer
      bv_omega
    · unfold Loader.status Loader.ready
      bv_omega
  constructor
  · rw [h.result, ← h.status]
  · exact ⟨fun _ => hload, fun _ => hst⟩
  · refine fun _ => ⟨r, hr, hok, fun i hi hruntime => ?_, fun hruntime a h0 h1 => ?_⟩
    · rw [hsame (by bv_omega) (by bv_omega)]
      exact himage.image i hi hruntime
    · rw [hsame (by omega) (by omega)]
      exact himage.bss hruntime a h0 h1
  · rw [if_pos hst, hready]
  · rw [h.dma, hword, hready]
  · rw [h.biosDma, h.dma]
  · refine (hflags.mono fun a ha => Or.inl ?_).trans (h.touches.mono fun a ha => ha.loader)
    unfold Work
    rcases ha with rfl | rfl
    · decide
    · decide
  · intro p hp
    rw [h.written] at hp
    exact hw p hp

end

/-! ## The loop over the records -/

section
variable {bdos : Bdos δ} {file : File} {files : Machine δ → (Fin 12 → Byte) → Entry}
variable {active : Machine δ → Entry → Prop} {e : Entry} {start : Option Nat} {r : Nat → Byte}
variable {entry : Word} {s t : State δ} {done k o n : Nat}

/-- `done` bytes of the image are copied, and record `k` is the next one. -/
structure Loading (file : File) (stands : Nat → Machine δ → Prop) (r : Nat → Byte) (entry : Word)
    (s : State δ) (done k : Nat) : Prop where
  pending : Pending entry s
  parsed : Parsed r s.mem
  remaining : (s.get16 Loader.remaining).toNat = length r - done
  destination : s.get16 Loader.destination = BitVec.ofNat 16 (0x100 + done)
  le : done ≤ length r
  next : done < length r → header r + done = 128 * k
  covered : header r + done ≤ 128 * k
  stands : stands k s.toMachine
  read : ∀ j < k, file.record j ≠ none
  image : ∀ i < done, s.get (BitVec.ofNat 16 (0x100 + i)) = file.byte (header r + i)
  written : InBounds file s

/-- The part of a record that is in the buffer from offset `o` on is copied. -/
theorem Loading.copy (h : Serves bdos files active) (hfirst : file.record 0 = some r)
    (hok : HeaderOk r) (hp : Pending entry s) (hparsed : Parsed r s.mem)
    (hstands : Standing active e start (k + 1) s.toMachine)
    (hread : ∀ j < k, file.record j ≠ none) {record : Nat → Byte}
    (hrecord : file.record k = some record) (hbuffer : Buffer record s.mem)
    (hwhere : header r + done = 128 * k + o) (ho : o < 128)
    (himage : ∀ i < done, s.get (BitVec.ofNat 16 (0x100 + i)) = file.byte (header r + i))
    (hwritten : InBounds file s) (hlt : done < length r)
    (hleft : (s.get16 Loader.remaining).toNat = length r - done)
    (hsource : s.get16 source = dmaBuffer + BitVec.ofNat 16 o)
    (hdest : s.get16 Loader.destination = BitVec.ofNat 16 (0x100 + done)) :
    Loading file (Standing active e start) r entry (copyChunk s)
        (done + min (128 - o) (length r - done)) (k + 1) ∧
      Touches (ChunkByte r) s (copyChunk s) := by
  have hlength := hok.length_lt
  have hlow := hok.heap_low
  have hhigh := hok.heap_high
  have hcopied : Copied r s (copyChunk s) o done (min (128 - o) (length r - done)) :=
    copyChunk_spec hsource ho hdest hleft (Nat.sub_pos_of_lt hlt)
      (Nat.add_sub_cancel' (Nat.le_of_lt hlt)) (Nat.le_of_lt hlength)
  generalize hn : min (128 - o) (length r - done) = n at hcopied ⊢
  generalize copyChunk s = t at hcopied ⊢
  refine ⟨?_, hcopied.touches⟩
  constructor
  · refine hp.touches hcopied.touches fun a ha => not_chunkByte hlength ?_ ?_
    · unfold Within dmaPointer callerDma Loader.status at ha
      bv_omega
    · unfold Within dmaPointer callerDma Loader.status at ha
      bv_omega
  · refine Parsed.touches hparsed hcopied.touches fun a ha => not_chunkByte hlength ?_ ?_
    · unfold Within imageLength brkOffset stackBytes at ha
      bv_omega
    · unfold Within imageLength brkOffset stackBytes at ha
      bv_omega
  · rw [hcopied.remaining, hleft]
    omega
  · exact hcopied.destination
  · omega
  · omega
  · omega
  · refine hstands.alike h (hcopied.touches.alike hcopied.disk fun a ha => ?_)
    unfold BdosByte SystemByte Within libraryFcb dmaPointer at ha
    unfold ChunkByte
    bv_omega
  · intro j hj
    rcases Nat.lt_succ_iff_lt_or_eq.mp hj with hj | rfl
    · exact hread j hj
    · rw [hrecord]
      exact Option.some_ne_none record
  · intro i hi
    by_cases hold : i < done
    · rw [hcopied.before i hold]
      exact himage i hold
    · have hbyte := hcopied.bytes (i - done) (by omega)
      rw [Nat.add_sub_cancel' (Nat.le_of_not_lt hold)] at hbyte
      rw [hbyte]
      have hdiv : (header r + i) / 128 = k := by omega
      have hmod : (header r + i) % 128 = o + (i - done) := by omega
      rw [File.byte, hdiv, hmod, hrecord]
      exact hbuffer _ (by omega)
  · intro p hp
    rw [hcopied.written] at hp
    rcases List.mem_append.mp hp with hp | hp
    · exact hwritten p hp
    · rw [List.mem_singleton.mp hp]
      refine ⟨r, hfirst, hok, ?_⟩
      rw [BitVec.toNat_ofNat]
      omega

theorem not_callByte {a : Word} (h0 : 0x100 ≤ a.toNat) (h1 : a.toNat < 0xE400) : ¬CallByte a := by
  unfold CallByte SystemByte Within libraryFcb dmaBuffer
  bv_omega

/-- Before the first chunk: the export table is copied, and the chunk is set up. -/
structure FirstChunk (r : Nat → Byte) (s t : State δ) : Prop where
  source : t.get16 Loader.source = dmaBuffer + BitVec.ofNat 16 (header r)
  destination : t.get16 Loader.destination = BitVec.ofNat 16 (0x100 + 0)
  touches : Touches (fun a => Within exportTable 96 a ∨ Within Loader.destination 6 a) s t
  remaining : t.get16 Loader.remaining = s.get16 Loader.remaining
  disk : t.disk = s.disk
  written : t.written = s.written

theorem copyFirst_chunk (hok : HeaderOk r) (hparsed : Parsed r s.mem) :
    ∃ v, copyFirst s = copyChunk v ∧ FirstChunk r s v := by
  have hheader : (s.get16 headerLength).toNat = header r := by
    rw [show s.get16 headerLength = recordWord r 18 from hparsed.headerLength, hok.headerLength]
  have hexports := hok.exports_pos
  have hle := hok.exports_le
  have hheaderIs : header r = 26 + 12 * exports r := rfl
  have hrounds : rounds (s.get16 headerLength - 26) = 12 * exports r := by
    unfold rounds
    rw [if_neg (by bv_omega)]
    bv_omega
  unfold copyFirst
  dsimp only
  rw [hrounds]
  have hcopied : ldir s.mem 0xE41A exportTable (12 * exports r) =
      copied s.mem true exportTable true 0xE41A (12 * exports r) := by
    refine ldir_eq ?_ ?_ fun a ha hb => ?_
    · show 0xE41A + _ ≤ 65536
      omega
    · show 0xE300 + _ ≤ 65536
      omega
    · unfold Within exportTable at hb
      unfold Within at ha
      bv_omega
  rw [hcopied]
  have htable : Touches (Within exportTable 96) s
      { s with mem := copied s.mem true exportTable true 0xE41A (12 * exports r) } := by
    intro a ha
    show copied s.mem true exportTable true _ _ true a = _
    unfold copied
    rw [patch_outside fun hw => ha (hw.mono (by omega))]
    rfl
  have hdisk : ({ s with
      mem := copied s.mem true exportTable true 0xE41A (12 * exports r) } : State δ).disk =
        s.disk := rfl
  have hranges : ({ s with
      mem := copied s.mem true exportTable true 0xE41A (12 * exports r) } : State δ).written =
        s.written := rfl
  generalize ({ s with
    mem := copied s.mem true exportTable true 0xE41A (12 * exports r) } : State δ) = u
    at htable hdisk hranges ⊢
  have hset := (changes_store16 (P := fun a => Within source 2 a ∨ Within destination 2 a) (s := u)
    (a := source) (w := u.get16 headerLength + dmaBuffer) (by decide) (by decide)).trans
      (changes_store16 (a := destination) (w := 0x0100) (by decide) (by decide))
  refine ⟨_, rfl, ?_, get16_store16_same, ?_, ?_, hset.disk.trans hdisk,
    hset.written.trans hranges⟩
  · rw [get16_store16 (by decide) (by decide), get16_store16_same,
      htable.get16 (by decide) (by decide)]
    bv_omega
  · refine (htable.mono fun a ha => Or.inl ha).trans fun a ha => hset.outside a fun hw => ha ?_
    refine Or.inr ?_
    unfold Within source destination at hw
    unfold Within destination
    bv_omega
  · rw [hset.get16 (by decide) (by decide), htable.get16 (by decide) (by decide)]

end

/-! ## load_module -/

section
variable {bdos : Bdos δ} {files : Machine δ → (Fin 12 → Byte) → Entry}
variable {active : Machine δ → Entry → Prop}

/-- The machine at `bdos_ready`: the two flags are set, and a BDOS that had not been initialised
is reset. -/
def initialized (bdos : Bdos δ) (de : Word) (s : State δ) : State δ :=
  let s := (s.store ready 0).store status 1
  if s.get bdosReady ≠ 0 then s else (s.call bdos 13 de).2.store bdosReady 1

/-- The library that a call of the loader is for: what the BDOS finds under its FCB. -/
def requested (bdos : Bdos δ) (files : Machine δ → (Fin 12 → Byte) → Entry) (de : Word)
    (s : Machine δ) : File :=
  library files (initialized bdos de { toMachine := s, written := [] }).toMachine

end

end Z80Sbc.Bank.LoaderSafety
