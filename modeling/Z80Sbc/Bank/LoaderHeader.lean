import Z80Sbc.Bank.Loader

/-! # What the library loader accepts

The file is what its records are and which of them can be read. The BDOS serves it through the
FCB at E500h, where it keeps which record is next; an open leaves two of these three bytes as the
caller has set them. `validate_header` takes exactly the valid headers, and leaves their fields
in its cells. -/

namespace Z80Sbc.Bank.LoaderHeader
open Z80Sbc.Z80 Z80Sbc.Bank Loader

variable {δ : Type}

/-! ## Files -/

/-- A record is none where its read fails, or where the file has ended. -/
structure File where
  opens : Bool
  record : Nat → Option (Nat → Byte)

/-- Byte `i` of the file. -/
def File.byte (file : File) (i : Nat) : Byte := (file.record (i / 128)).getD (fun _ => 0) (i % 128)

/-! ## The FCB -/

/-- A file on the disk: which of its extents the directory has, and its records. -/
structure Entry where
  extent : Nat → Bool
  record : Nat → Option (Nat → Byte)

/-- The drive, the name and the type of the library. -/
def fcbName (m : Mem) : Fin 12 → Byte := fun i => peek m (libraryFcb + BitVec.ofNat 16 i.val)

/-- EX, S2 and CR: the extent, the module of 32 extents and the record of the extent. -/
def fcbExtent (m : Mem) : Nat := (peek m (libraryFcb + 12)).toNat % 32
def fcbModule (m : Mem) : Nat := (peek m (libraryFcb + 14)).toNat % 16
def fcbRecord (m : Mem) : Nat := (peek m (libraryFcb + 32)).toNat

/-- Record `current` of an extent, counted from the start of the file. 128 is the first of the
next extent, and there is none above. -/
def recordAt (extent current : Nat) : Option Nat :=
  if current ≤ 128 then some (128 * extent + current) else none

/-- The record that a read is for. -/
def nextRecord (m : Mem) : Option Nat :=
  recordAt (32 * fcbModule m + fcbExtent m) (fcbRecord m)

/-- The record that the first read after an open is for: S2 is cleared, EX and CR are kept. -/
def firstRecord (m : Mem) : Option Nat := recordAt (fcbExtent m) (fcbRecord m)

/-- The BDOS's own memory, but for the DMA pointer. -/
def BdosByte (a : Word) : Prop := SystemByte a ∧ ¬Within dmaPointer 2 a

instance (a : Word) : Decidable (BdosByte a) := inferInstanceAs (Decidable (_ ∧ _))

/-- The disks are the same, and bank 1 is where `P` holds. -/
structure Alike (P : Word → Prop) (s t : Machine δ) : Prop where
  disk : t.disk = s.disk
  memory : ∀ a, P a → peek t.mem a = peek s.mem a

/-- The BDOS serves the library's FCB. `files` are the files as the BDOS finds them by name;
`active` says of which of them the FCB holds the blocks, as an open has put them there.
Which record is next is in the FCB alone. -/
structure Serves (bdos : Bdos δ) (files : Machine δ → (Fin 12 → Byte) → Entry)
    (active : Machine δ → Entry → Prop) : Prop extends KeepsMemory bdos where
  files_own : ∀ s t, Alike BdosByte s t → files t = files s
  active_own : ∀ s t e, Alike (fun a => BdosByte a ∨ Within libraryFcb 36 a) s t →
    active s e → active t e
  opened : ∀ s, (bdos 15 libraryFcb s).1.a = 0xFF ↔
    (files s (fcbName s.mem)).extent (fcbExtent s.mem) = false
  first : ∀ s, (files s (fcbName s.mem)).extent (fcbExtent s.mem) = true →
    active (bdos 15 libraryFcb s).2 (files s (fcbName s.mem)) ∧
      nextRecord (bdos 15 libraryFcb s).2.mem = firstRecord s.mem
  failed : ∀ s e, active s e → (nextRecord s.mem).bind e.record = none →
    (bdos 20 libraryFcb s).1.a ≠ 0
  read : ∀ s e n r, peek16 s.mem dmaPointer = dmaBuffer → active s e →
    nextRecord s.mem = some n → e.record n = some r →
      (bdos 20 libraryFcb s).1.a = 0 ∧ active (bdos 20 libraryFcb s).2 e ∧
        nextRecord (bdos 20 libraryFcb s).2.mem = some (n + 1) ∧
          ∀ i < 128, peek (bdos 20 libraryFcb s).2.mem (dmaBuffer + BitVec.ofNat 16 i) = r i

/-- The library, as an open of its FCB and the reads after it give it: it begins at the record
that the FCB names. -/
def library (files : Machine δ → (Fin 12 → Byte) → Entry) (s : Machine δ) : File where
  opens := (files s (fcbName s.mem)).extent (fcbExtent s.mem)
  record k := (firstRecord s.mem).bind fun n => (files s (fcbName s.mem)).record (n + k)

section
variable {files : Machine δ → (Fin 12 → Byte) → Entry} {active : Machine δ → Entry → Prop}
variable {P : Word → Prop} {s t u : Machine δ} {e : Entry} {start : Option Nat} {k : Nat}

theorem Alike.mono {Q : Word → Prop} (h : Alike P s t) (hle : ∀ a, Q a → P a) : Alike Q s t :=
  ⟨h.disk, fun a ha => h.memory a (hle a ha)⟩

/-- The bytes of the FCB that the BDOS goes by. -/
theorem Alike.fcb (h : Alike (Within libraryFcb 36) s t) :
    fcbName t.mem = fcbName s.mem ∧ fcbExtent t.mem = fcbExtent s.mem ∧
      firstRecord t.mem = firstRecord s.mem ∧ nextRecord t.mem = nextRecord s.mem := by
  have hextent : fcbExtent t.mem = fcbExtent s.mem := by
    unfold fcbExtent
    rw [h.memory _ (by decide)]
  have hmodule : fcbModule t.mem = fcbModule s.mem := by
    unfold fcbModule
    rw [h.memory _ (by decide)]
  have hrecord : fcbRecord t.mem = fcbRecord s.mem := by
    unfold fcbRecord
    rw [h.memory _ (by decide)]
  refine ⟨funext fun i => h.memory _ ?_, hextent, ?_, ?_⟩
  · exact within_offset (Nat.lt_trans i.isLt (by decide)) (by decide)
  · unfold firstRecord
    rw [hextent, hrecord]
  · unfold nextRecord
    rw [hextent, hmodule, hrecord]

/-- The FCB is open, and `k` records have been read from record `start` on. -/
structure Standing (active : Machine δ → Entry → Prop) (e : Entry) (start : Option Nat) (k : Nat)
    (s : Machine δ) : Prop where
  active : active s e
  next : nextRecord s.mem = start.map (· + k)

theorem Standing.alike {bdos : Bdos δ} (h : Serves bdos files active)
    (hs : Standing active e start k s)
    (halike : Alike (fun a => BdosByte a ∨ Within libraryFcb 36 a) s t) :
    Standing active e start k t where
  active := h.active_own s t e halike hs.active
  next := (halike.mono fun _ ha => Or.inr ha).fcb.2.2.2.trans hs.next

theorem Standing.failed {bdos : Bdos δ} (h : Serves bdos files active)
    (hs : Standing active e start k s) (hnone : (start.bind fun n => e.record (n + k)) = none) :
    (bdos 20 libraryFcb s).1.a ≠ 0 := by
  refine h.failed s e hs.active ?_
  rw [hs.next]
  cases start with
  | none => rfl
  | some n => exact hnone

theorem Standing.read {bdos : Bdos δ} (h : Serves bdos files active)
    (hs : Standing active e start k s) (hdma : peek16 s.mem dmaPointer = dmaBuffer)
    {r : Nat → Byte} (hsome : (start.bind fun n => e.record (n + k)) = some r) :
    (bdos 20 libraryFcb s).1.a = 0 ∧ Standing active e start (k + 1) (bdos 20 libraryFcb s).2 ∧
      ∀ i < 128, peek (bdos 20 libraryFcb s).2.mem (dmaBuffer + BitVec.ofNat 16 i) = r i := by
  cases start with
  | none => cases hsome
  | some n =>
    obtain ⟨ha, hactive, hnext, hbuffer⟩ := h.read s e (n + k) r hdma hs.active hs.next hsome
    exact ⟨ha, ⟨hactive, hnext⟩, hbuffer⟩

end

/-! ## Valid files -/

/-- The word at offset `i` of a record. -/
def recordWord (r : Nat → Byte) (i : Nat) : Word := word (r (i + 1)) (r i)

def length (r : Nat → Byte) : Nat := (recordWord r 10).toNat
def exports (r : Nat → Byte) : Nat := (r 12).toNat
def stack (r : Nat → Byte) : Nat := (recordWord r 16).toNat
def header (r : Nat → Byte) : Nat := 26 + 12 * exports r
def heap (r : Nat → Byte) : Nat := (recordWord r 24).toNat

/-- The heap is after the image and below the stack, and the adapter and the signature of
each export are inside the image. -/
structure HeapOk (r : Nat → Byte) : Prop where
  heap_low : 0x100 + length r ≤ heap r
  heap_high : heap r < 0xC800 - stack r
  offsets : ∀ i < exports r, (recordWord r (34 + 12 * i)).toNat < length r ∧
    (recordWord r (36 + 12 * i)).toNat < length r

structure LengthsOk (r : Nat → Byte) : Prop extends HeapOk r where
  headerLength : (recordWord r 18).toNat = header r
  stack_units : stack r % 256 = 0
  stack_pos : 256 ≤ stack r
  stack_le : stack r ≤ 2048

structure HeaderOk (r : Nat → Byte) : Prop extends LengthsOk r where
  magic : ∀ i < 10, r i = magic.getD i 0
  length_pos : 0 < length r
  length_lt : length r < 0xC600
  exports_hi : r 13 = 0
  exports_pos : 0 < exports r
  exports_le : exports r ≤ 8

/-- The library has the DCC runtime. -/
def HasRuntime (r : Nat → Byte) : Prop := recordWord r 20 ≠ 0xFFFF

/-- Both runtime words are inside the image, or there are none. -/
def RuntimeOk (r : Nat → Byte) : Prop :=
  if recordWord r 20 = 0xFFFF then recordWord r 22 = 0xFFFF
  else (recordWord r 20).toNat + 1 < length r ∧ (recordWord r 22).toNat + 1 < length r

/-- The file is a library, and all of it can be read. -/
def Loadable (file : File) : Prop :=
  file.opens = true ∧ ∃ r, file.record 0 = some r ∧ HeaderOk r ∧ RuntimeOk r ∧
    ∀ k, 128 * k < header r + length r → file.record k ≠ none

/-! ## Work cells -/

/-- The loader's own cells and buffers. -/
def Work (a : Word) : Prop :=
  0xDE92 ≤ a.toNat ∧ a.toNat < 0xDEAF ∨ 0xE300 ≤ a.toNat ∧ a.toNat < 0xE360 ∨
    0xE400 ≤ a.toNat ∧ a.toNat < 0xE480 ∨ 0xE4D1 ≤ a.toNat ∧ a.toNat < 0xE4D6 ∨
      0xE500 ≤ a.toNat ∧ a.toNat < 0xE524

instance (a : Word) : Decidable (Work a) := inferInstanceAs (Decidable (_ ∨ _))

/-- A cell of the resident code that neither the image nor a BDOS call reaches. -/
def Cell (a : Word) : Prop :=
  0xDE00 ≤ a.toNat ∧ a.toNat < 0xE400 ∨ 0xE480 ≤ a.toNat ∧ a.toNat < 0xE500

instance (a : Word) : Decidable (Cell a) := inferInstanceAs (Decidable (_ ∨ _))

/-- The buffer holds a record. -/
def Buffer (r : Nat → Byte) (m : Mem) : Prop :=
  ∀ i < 128, peek m (dmaBuffer + BitVec.ofNat 16 i) = r i

theorem Buffer.word {r : Nat → Byte} {m : Mem} (h : Buffer r m) (i : Nat) (hi : i + 1 < 128) :
    peek16 m (dmaBuffer + BitVec.ofNat 16 i) = recordWord r i := by
  have hnext : dmaBuffer + BitVec.ofNat 16 i + 1 = dmaBuffer + BitVec.ofNat 16 (i + 1) := by
    unfold dmaBuffer
    bv_omega
  have h0 := h i (by omega)
  have h1 := h (i + 1) hi
  rw [← hnext] at h1
  unfold peek at h0 h1
  rw [peek16, fetch16, h0, h1, recordWord]

/-! ## validate_header -/

theorem matching_iff {r : Nat → Byte} {m : Mem} (h : Buffer r m) {vs : List Byte} {k : Nat}
    (hk : k + vs.length ≤ 128) :
    matching m (dmaBuffer + BitVec.ofNat 16 k) vs = true ↔
      ∀ i < vs.length, r (k + i) = vs.getD i 0 := by
  induction vs generalizing k with
  | nil => exact ⟨fun _ i hi => absurd hi (Nat.not_lt_zero i), fun _ => rfl⟩
  | cons v vs ih =>
    have hnext : dmaBuffer + BitVec.ofNat 16 k + 1 = dmaBuffer + BitVec.ofNat 16 (k + 1) := by
      unfold dmaBuffer
      bv_omega
    rw [List.length_cons] at hk
    have ih := ih (k := k + 1) (by omega)
    rw [matching, h k (by omega), hnext]
    constructor
    · intro hm i hi
      split at hm
      swap
      · cases hm
      next hv =>
      cases i with
      | zero => exact hv.symm
      | succ i =>
        have hi' := ih.mp hm i (by simpa using hi)
        rw [show k + 1 + i = k + (i + 1) by omega] at hi'
        exact hi'
    · intro hall
      have h0 : r k = v := hall 0 (Nat.succ_pos _)
      rw [if_pos h0.symm]
      refine ih.mpr fun i hi => ?_
      have hi' := hall (i + 1) (by simpa using hi)
      rw [show k + 1 + i = k + (i + 1) by omega]
      exact hi'

theorem validateOffset_iff {m : Mem} {a : Word} :
    validateOffset m a = false ↔ (peek16 m a).toNat < (peek16 m imageLength).toNat := by
  unfold validateOffset
  simp only [Bool.or_eq_false_iff, decide_eq_false_iff_not, beq_eq_false_iff_ne]
  bv_omega

theorem validateExports_iff {r : Nat → Byte} {m : Mem} (h : Buffer r m)
    (hlength : (peek16 m imageLength).toNat = length r) {n k : Nat} (hn : k + n ≤ 8) :
    validateExports m n (dmaBuffer + BitVec.ofNat 16 (34 + 12 * k)) = false ↔
      ∀ i < n, (recordWord r (34 + 12 * (k + i))).toNat < length r ∧
        (recordWord r (36 + 12 * (k + i))).toNat < length r := by
  induction n generalizing k with
  | zero => exact ⟨fun _ i hi => absurd hi (Nat.not_lt_zero i), fun _ => rfl⟩
  | succ n ih =>
    have ih := ih (k := k + 1) (by omega)
    have hsignature : dmaBuffer + BitVec.ofNat 16 (34 + 12 * k) + 2 =
        dmaBuffer + BitVec.ofNat 16 (36 + 12 * k) := by
      unfold dmaBuffer
      bv_omega
    have hnext : dmaBuffer + BitVec.ofNat 16 (34 + 12 * k) + 12 =
        dmaBuffer + BitVec.ofNat 16 (34 + 12 * (k + 1)) := by
      unfold dmaBuffer
      bv_omega
    have hadapter := @validateOffset_iff m (dmaBuffer + BitVec.ofNat 16 (34 + 12 * k))
    have hsign := @validateOffset_iff m (dmaBuffer + BitVec.ofNat 16 (36 + 12 * k))
    rw [h.word _ (by omega), hlength] at hadapter hsign
    rw [validateExports, hsignature, hnext]
    constructor
    · intro hv i hi
      split at hv
      · cases hv
      next ha =>
      split at hv
      · cases hv
      next hs =>
      cases i with
      | zero => exact ⟨hadapter.mp (by simpa using ha), hsign.mp (by simpa using hs)⟩
      | succ i =>
        have hi' := ih.mp hv i (by omega)
        rw [show k + 1 + i = k + (i + 1) by omega] at hi'
        exact hi'
    · intro hall
      obtain ⟨ha, hs⟩ := hall 0 (Nat.succ_pos _)
      rw [hadapter.mpr ha, hsign.mpr hs]
      refine ih.mpr fun i hi => ?_
      have hi' := hall (i + 1) (by omega)
      rw [show k + 1 + i = k + (i + 1) by omega]
      exact hi'

section
variable {s : State δ} {a a' w : Word} {v : Byte}

@[simp] theorem get16_store16_same : (s.store16 a w).get16 a = w := peek16_poke16

theorem get16_store16 (h : ¬Within a 2 a') (h' : ¬Within a 2 (a' + 1)) :
    (s.store16 a w).get16 a' = s.get16 a' := peek16_poke16_outside h h'

@[simp] theorem get_store_same : (s.store a v).get a = v := peek_poke

theorem get_store (h : a' ≠ a) : (s.store a v).get a' = s.get a' := peek_poke_ne h

theorem get16_store (h : a' ≠ a) (h' : a' + 1 ≠ a) : (s.store a v).get16 a' = s.get16 a' :=
  peek16_poke_ne h h'

end

/-- Only the cells of `P` are changed. -/
structure Changes (P : Word → Prop) (s t : State δ) : Prop where
  outside : ∀ a, ¬P a → t.get a = s.get a
  bank0 : t.mem false = s.mem false
  biosDma : t.biosDma = s.biosDma
  disk : t.disk = s.disk
  written : t.written = s.written

section
variable {P Q : Word → Prop} {s t u : State δ}

theorem Changes.rfl : Changes P s s where
  outside _ _ := Eq.refl _
  bank0 := Eq.refl _
  biosDma := Eq.refl _
  disk := Eq.refl _
  written := Eq.refl _

theorem Changes.trans (h : Changes P s t) (h' : Changes P t u) : Changes P s u where
  outside a ha := (h'.outside a ha).trans (h.outside a ha)
  bank0 := h'.bank0.trans h.bank0
  biosDma := h'.biosDma.trans h.biosDma
  disk := h'.disk.trans h.disk
  written := h'.written.trans h.written

theorem Changes.mono (h : Changes P s t) (hle : ∀ a, P a → Q a) : Changes Q s t :=
  { h with outside := fun a ha => h.outside a fun hp => ha (hle a hp) }

theorem Changes.get16 (h : Changes P s t) {a : Word} (h0 : ¬P a) (h1 : ¬P (a + 1)) :
    t.get16 a = s.get16 a := peek16_congr (h.outside a h0) (h.outside (a + 1) h1)

theorem changes_store {a : Word} {v : Byte} (ha : P a) : Changes P s (s.store a v) where
  outside _ hb := peek_poke_ne fun he => hb (he ▸ ha)
  bank0 := bank0_poke (m := s.mem) (a := a) (v := v)
  biosDma := Eq.refl _
  disk := Eq.refl _
  written := Eq.refl _

theorem changes_store16 {a w : Word} (h0 : P a) (h1 : P (a + 1)) :
    Changes P s (s.store16 a w) where
  outside b hb := by
    refine peek_poke16_outside fun hw => hb ?_
    have hcases : b = a ∨ b = a + 1 := by unfold Within at hw; bv_omega
    rcases hcases with rfl | rfl
    · exact h0
    · exact h1
  bank0 := bank0_poke16 (m := s.mem) (a := a) (w := w)
  biosDma := Eq.refl _
  disk := Eq.refl _
  written := Eq.refl _

theorem Changes.buffer {r : Nat → Byte} (h : Changes P s t) (hb : Buffer r s.mem)
    (hp : ∀ a, P a → Cell a) : Buffer r t.mem := by
  intro i hi
  refine (h.outside _ fun hc => ?_).trans (hb i hi)
  have hcell := hp _ hc
  unfold Cell dmaBuffer at hcell
  bv_omega

end

/-- From the heap base on, with the lengths in their cells. -/
theorem validateHeap_spec {r : Nat → Byte} {s : State δ} (hb : Buffer r s.mem)
    (himage : s.get16 imageLength = recordWord r 10)
    (hstack : s.get16 stackBytes = recordWord r 16) (hexports : exports r ≤ 8)
    (hlength : length r < 0xC600) (hle : stack r ≤ 2048) :
    Changes (Within heapBase 2) s (validateHeap s).2 ∧
      ((validateHeap s).1 = false ↔ HeapOk r) ∧
      ((validateHeap s).1 = false → (validateHeap s).2.get16 heapBase = recordWord r 24) := by
  have hheap : s.get16 0xE418 = recordWord r 24 := hb.word 24 (by decide)
  have hcount : s.get 0xE40C = r 12 := hb 12 (by decide)
  have hset := changes_store16 (P := Within heapBase 2) (s := s) (a := heapBase)
    (w := recordWord r 24) (by decide) (by decide)
  have hcells : ∀ a, Within heapBase 2 a → Cell a := by
    intro a ha
    unfold Within heapBase at ha
    unfold Cell
    bv_omega
  have hval := validateExports_iff (hset.buffer hb hcells) (n := exports r) (k := 0) (by
    show (State.get16 (s.store16 heapBase (recordWord r 24)) imageLength).toNat = length r
    rw [hset.get16 (by decide) (by decide), himage]
    rfl) (by omega)
  unfold validateHeap
  simp only [himage, hheap]
  have hbase : State.get16 (s.store16 heapBase (recordWord r 24)) heapBase = recordWord r 24 :=
    peek16_poke16
  have hst : State.get16 (s.store16 heapBase (recordWord r 24)) stackBytes = recordWord r 16 :=
    (hset.get16 (by decide) (by decide)).trans hstack
  have hct : State.get (s.store16 heapBase (recordWord r 24)) 0xE40C = r 12 :=
    (hset.outside _ (by decide)).trans hcount
  unfold length at hlength
  unfold stack at hle
  by_cases hlow : recordWord r 24 < recordWord r 10 + 0x0100
  · rw [if_pos hlow]
    refine ⟨Changes.rfl, ⟨fun h => (Bool.noConfusion h), fun h => ?_⟩, fun h => (Bool.noConfusion h)⟩
    have hge := h.heap_low
    unfold heap length at hge
    bv_omega
  rw [if_neg hlow]
  simp only [hbase, hst, hct]
  by_cases hhigh : 0xC800 - recordWord r 16 < recordWord r 24 ∨
      0xC800 - recordWord r 16 = recordWord r 24
  · rw [if_pos hhigh]
    refine ⟨hset, ⟨fun h => (Bool.noConfusion h), fun h => ?_⟩, fun h => (Bool.noConfusion h)⟩
    have hlt := h.heap_high
    unfold heap stack at hlt
    bv_omega
  rw [if_neg hhigh]
  refine ⟨hset, ⟨fun h => ?_, fun h => ?_⟩, fun _ => hbase⟩
  · have hoffsets := hval.mp h
    simp only [Nat.zero_add] at hoffsets
    exact ⟨by unfold heap length; bv_omega, by unfold heap stack; bv_omega, hoffsets⟩
  · refine hval.mpr fun i hi => ?_
    simp only [Nat.zero_add]
    exact h.offsets i hi

/-- The cells that the lengths, the offsets and the heap base of a header go to. -/
def LengthCell (a : Word) : Prop :=
  Within headerLength 2 a ∨ Within brkOffset 4 a ∨ Within stackBytes 4 a

/-- The cells that a header goes to. -/
def HeaderCell (a : Word) : Prop :=
  LengthCell a ∨ Within imageLength 2 a ∨ Within remaining 2 a ∨ Within exportCount 4 a

instance (a : Word) : Decidable (LengthCell a) := inferInstanceAs (Decidable (_ ∨ _))
instance (a : Word) : Decidable (HeaderCell a) := inferInstanceAs (Decidable (_ ∨ _))

theorem LengthCell.cell {a : Word} (h : LengthCell a) : Cell a := by
  unfold LengthCell Within headerLength brkOffset stackBytes at h
  unfold Cell
  bv_omega

theorem HeaderCell.cell {a : Word} (h : HeaderCell a) : Cell a := by
  rcases h with h | h
  · exact h.cell
  · unfold Within imageLength remaining exportCount at h
    unfold Cell
    bv_omega

/-- The header of a record, in its cells. -/
structure Parsed (r : Nat → Byte) (m : Mem) : Prop where
  imageLength : peek16 m imageLength = recordWord r 10
  headerLength : peek16 m headerLength = recordWord r 18
  brkOffset : peek16 m brkOffset = recordWord r 20
  hlimitOffset : peek16 m hlimitOffset = recordWord r 22
  stackBytes : peek16 m stackBytes = recordWord r 16
  heapBase : peek16 m heapBase = recordWord r 24

theorem toNat_hi_ne_zero {w : Word} : hi w ≠ 0 ↔ 256 ≤ w.toNat := by
  have h := toNat_hi w
  have hw := w.isLt
  rw [Ne, ← BitVec.toNat_inj, h]
  show ¬w.toNat / 256 = 0 ↔ _
  omega

theorem validateLengths_spec {r : Nat → Byte} {s : State δ} {b : Byte} (hb : Buffer r s.mem)
    (himage : s.get16 imageLength = recordWord r 10) (hexports : exports r ≤ 8)
    (hlength : length r < 0xC600) (hneed : b.toNat = header r) :
    Changes LengthCell s (validateLengths b s).2 ∧
      ((validateLengths b s).1 = false ↔ LengthsOk r) ∧
      ((validateLengths b s).1 = false → Parsed r (validateLengths b s).2.mem) := by
  have hword : s.get16 0xE412 = recordWord r 18 := hb.word 18 (by decide)
  unfold validateLengths
  simp only [hword]
  have hlo := toNat_lo (recordWord r 18)
  have hhi := toNat_hi (recordWord r 18)
  by_cases hheader : hi (recordWord r 18) ≠ 0 ∨ lo (recordWord r 18) ≠ b
  · rw [if_pos hheader]
    refine ⟨Changes.rfl, ⟨fun h => (Bool.noConfusion h), fun h => ?_⟩, fun h => (Bool.noConfusion h)⟩
    have hfit : header r ≤ 122 := by unfold header; omega
    have heq := h.headerLength
    rcases hheader with hne | hne
    · rw [toNat_hi_ne_zero] at hne
      omega
    · exact absurd (BitVec.eq_of_toNat_eq (by omega)) hne
  rw [if_neg hheader]
  obtain ⟨hh, hl⟩ := not_or.mp hheader
  have hh0 : ¬256 ≤ (recordWord r 18).toNat := fun h => hh (toNat_hi_ne_zero.mpr h)
  have hl0 : (lo (recordWord r 18)).toNat = b.toNat := congrArg BitVec.toNat (not_not.mp hl)
  have hheader : (recordWord r 18).toNat = header r := by omega
  -- the cells of the header length and of the two offsets
  have h1 := changes_store16 (P := LengthCell) (s := s) (a := headerLength)
    (w := recordWord r 18) (by decide) (by decide)
  have hbrk := (h1.buffer hb fun a ha => ha.cell).word 20 (by decide)
  change State.get16 _ 0xE414 = _ at hbrk
  rw [hbrk]
  have h2 := h1.trans (changes_store16 (a := brkOffset) (w := recordWord r 20) (by decide)
    (by decide))
  have hlimit := (h2.buffer hb fun a ha => ha.cell).word 22 (by decide)
  change State.get16 _ 0xE416 = _ at hlimit
  rw [hlimit]
  have h3 := h2.trans (changes_store16 (a := hlimitOffset) (w := recordWord r 22) (by decide)
    (by decide))
  have hstack := (h3.buffer hb fun a ha => ha.cell).word 16 (by decide)
  change State.get16 _ 0xE410 = _ at hstack
  rw [hstack]
  have hslo := toNat_lo (recordWord r 16)
  have hshi := toNat_hi (recordWord r 16)
  by_cases hunits : lo (recordWord r 16) ≠ 0 ∨ hi (recordWord r 16) = 0 ∨
      9 ≤ hi (recordWord r 16)
  · rw [if_pos hunits]
    refine ⟨h3, ⟨fun h => (Bool.noConfusion h), fun h => ?_⟩, fun h => (Bool.noConfusion h)⟩
    have := h.stack_units
    have := h.stack_pos
    have := h.stack_le
    unfold stack at *
    bv_omega
  rw [if_neg hunits]
  have hstackOk : stack r % 256 = 0 ∧ 256 ≤ stack r ∧ stack r ≤ 2048 := by
    unfold stack
    bv_omega
  have h4 := h3.trans (changes_store16 (a := stackBytes) (w := recordWord r 16) (by decide)
    (by decide))
  generalize ht : State.store16 _ stackBytes (recordWord r 16) = t at h4 ⊢
  have hcell : t.get16 imageLength = recordWord r 10 ∧ t.get16 headerLength = recordWord r 18 ∧
      t.get16 brkOffset = recordWord r 20 ∧ t.get16 hlimitOffset = recordWord r 22 ∧
      t.get16 stackBytes = recordWord r 16 := by
    subst ht
    simp (disch := decide) only [get16_store16, get16_store16_same, himage, and_self]
  obtain ⟨hcimage, hcheader, hcbrk, hclimit, hcstack⟩ := hcell
  obtain ⟨hheapChanges, hheapOk, hheapBase⟩ := validateHeap_spec (h4.buffer hb fun a ha => ha.cell)
    hcimage hcstack hexports hlength hstackOk.2.2
  have hrest : ∀ {a : Word}, ¬Within heapBase 2 a → ¬Within heapBase 2 (a + 1) →
      (validateHeap t).2.get16 a = t.get16 a := fun h0 h1 => hheapChanges.get16 h0 h1
  refine ⟨h4.trans (hheapChanges.mono fun a ha => ?_), hheapOk.trans ⟨fun h => ?_, fun h => ?_⟩,
    fun h => ?_⟩
  · unfold LengthCell Within stackBytes
    unfold Within heapBase at ha
    bv_omega
  · exact { h with
      headerLength := hheader, stack_units := hstackOk.1
      stack_pos := hstackOk.2.1, stack_le := hstackOk.2.2 }
  · exact h.toHeapOk
  · exact {
      imageLength := (hrest (by decide) (by decide)).trans hcimage
      headerLength := (hrest (by decide) (by decide)).trans hcheader
      brkOffset := (hrest (by decide) (by decide)).trans hcbrk
      hlimitOffset := (hrest (by decide) (by decide)).trans hclimit
      stackBytes := (hrest (by decide) (by decide)).trans hcstack
      heapBase := hheapBase h }

theorem validateHeader_spec {r : Nat → Byte} {s : State δ} (hb : Buffer r s.mem) :
    Changes HeaderCell s (validateHeader s).2 ∧
      ((validateHeader s).1 = false ↔ HeaderOk r) ∧
      ((validateHeader s).1 = false → Parsed r (validateHeader s).2.mem ∧
        (validateHeader s).2.get16 remaining = recordWord r 10) := by
  unfold validateHeader
  have hmagic := @matching_iff r s.mem hb magic 0 (by decide)
  change matching s.mem dmaBuffer magic = true ↔ _ at hmagic
  simp only [Nat.zero_add] at hmagic
  by_cases hmatch : matching s.mem dmaBuffer magic = true
  swap
  · rw [Bool.not_eq_true] at hmatch
    rw [hmatch, Bool.not_false, if_pos rfl]
    refine ⟨Changes.rfl, ⟨fun h => (Bool.noConfusion h), fun h => ?_⟩, fun h => (Bool.noConfusion h)⟩
    exact absurd (hmagic.mpr h.magic) (by rw [hmatch]; decide)
  rw [hmatch, Bool.not_true, if_neg Bool.false_ne_true]
  have himage : s.get16 0xE40A = recordWord r 10 := hb.word 10 (by decide)
  simp only [himage]
  by_cases hlength : recordWord r 10 = 0 ∨ 0xC600 ≤ recordWord r 10
  · rw [if_pos hlength]
    refine ⟨Changes.rfl, ⟨fun h => (Bool.noConfusion h), fun h => ?_⟩, fun h => (Bool.noConfusion h)⟩
    have hpos := h.length_pos
    have hlt := h.length_lt
    unfold length at hpos hlt
    bv_omega
  rw [if_neg hlength]
  -- the three cells of the image length
  have h1 := ((changes_store16 (P := HeaderCell) (s := s) (a := imageLength)
    (w := recordWord r 10) (by decide) (by decide)).trans (changes_store16 (a := imageBytes)
    (w := recordWord r 10) (by decide) (by decide))).trans (changes_store16 (a := remaining)
    (w := recordWord r 10) (by decide) (by decide))
  generalize ht : State.store16 _ remaining (recordWord r 10) = t at h1 ⊢
  have hcell : t.get16 imageLength = recordWord r 10 ∧ t.get16 remaining = recordWord r 10 := by
    subst ht
    simp (disch := decide) only [get16_store16, get16_store16_same, and_self]
  have hb1 := h1.buffer hb fun a ha => ha.cell
  have hcount : t.get 0xE40C = r 12 := hb1 12 (by decide)
  have hupper : t.get 0xE40D = r 13 := hb1 13 (by decide)
  simp only [hcount, hupper]
  by_cases hexports : r 13 ≠ 0 ∨ r 12 = 0 ∨ 9 ≤ r 12
  · rw [if_pos hexports]
    refine ⟨h1, ⟨fun h => (Bool.noConfusion h), fun h => ?_⟩, fun h => (Bool.noConfusion h)⟩
    have hhi := h.exports_hi
    have hpos := h.exports_pos
    have hle := h.exports_le
    unfold exports at hpos hle
    bv_omega
  rw [if_neg hexports]
  have hle : exports r ≤ 8 := by
    unfold exports
    bv_omega
  have h2 := h1.trans (changes_store (a := exportCount) (v := r 12) (by decide))
  have hneed : (r 12 + r 12 + (r 12 + r 12) + (r 12 + r 12 + (r 12 + r 12)) +
      (r 12 + r 12 + (r 12 + r 12)) + 26).toNat = header r := by
    unfold header exports at *
    bv_omega
  have hlengthOk : 0 < length r ∧ length r < 0xC600 := by
    unfold length
    bv_omega
  obtain ⟨hchanges, hok, hparsed⟩ := validateLengths_spec
    (s := t.store exportCount (r 12)) (h2.buffer hb fun a ha => ha.cell)
    ((get16_store (by decide) (by decide)).trans hcell.1) hle hlengthOk.2 hneed
  refine ⟨h2.trans (hchanges.mono fun a ha => Or.inl ha),
    hok.trans ⟨fun h => ?_, fun h => h.toLengthsOk⟩, fun h => ⟨hparsed h, ?_⟩⟩
  · exact { h with
      magic := hmagic.mp hmatch, length_pos := hlengthOk.1, length_lt := hlengthOk.2
      exports_hi := by_contra fun hne => hexports (Or.inl hne)
      exports_pos := by
        unfold exports
        bv_omega
      exports_le := hle }
  · rw [hchanges.get16 (by decide) (by decide), get16_store (by decide) (by decide)]
    exact hcell.2

end Z80Sbc.Bank.LoaderHeader
