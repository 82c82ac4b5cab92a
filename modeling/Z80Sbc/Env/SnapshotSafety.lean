import Mathlib.Tactic.IntervalCases
import Z80Sbc.Env.Store

/-! # Crash safety of the environment snapshots

One sector holds the current snapshot and is not touched while the other one is
rewritten. That covers every save but the very first, which has nothing to fall
back on: a power cut that tears its sector leaves a store that is neither blank
nor valid, and `current_slot` refuses it from then on. -/

namespace Z80Sbc.Env.SnapshotSafety
open Z80Sbc.Storage Z80Sbc.Flash Z80Sbc.Env

/-! ## Sectors -/

/-- Sector `slot` holds the bytes of `g`. -/
def SectorIs (f : Flash) (slot : Nat) (g : Nat → UInt8) : Prop :=
  ∀ i < flashSectorSize, f (slotData slot + i) = g i

def SameSector (f f' : Flash) (slot : Nat) : Prop :=
  ∀ i < flashSectorSize, f (slotData slot + i) = f' (slotData slot + i)

def Blank (f : Flash) (slot : Nat) : Prop := SectorIs f slot fun _ => 0xFF

theorem SameSector.symm {f f' : Flash} {slot : Nat} (h : SameSector f f' slot) :
    SameSector f' f slot := fun i hi => (h i hi).symm

theorem SameSector.trans {f f' f'' : Flash} {slot : Nat} (h : SameSector f f' slot)
    (h' : SameSector f' f'' slot) : SameSector f f'' slot := fun i hi => (h i hi).trans (h' i hi)

theorem SectorIs.same {f f' : Flash} {slot : Nat} {g : Nat → UInt8} (h : SectorIs f slot g)
    (hs : SameSector f' f slot) : SectorIs f' slot g := fun i hi => (hs i hi).trans (h i hi)

theorem slotData_eq (slot : Nat) : slotData slot = 0x1FE000 + slot * 4096 := rfl

/-- A call inside one sector leaves the other one alone. -/
theorem same_of_leave {f : Flash} {c : Call} {g : Nat → UInt8} {slot other : Nat}
    (hne : slot ≠ other) (hlo : slotData slot ≤ c.off)
    (hhi : c.off + c.len ≤ slotData slot + flashSectorSize) :
    SameSector (c.leave f g) f other := by
  intro i hi
  refine overlay_outside fun hin => hne ?_
  simp only [slotData_eq, flashSectorSize] at hlo hhi hi hin
  omega

/-- Whether a slot is valid, and its header, depend on its sector only. -/
theorem validSlot_congr {f f' : Flash} {slot : Nat} (h : SameSector f f' slot) :
    validSlot slot f = validSlot slot f' := by
  have word (k : Nat) (hk : k ≤ 20) : read32 f (slotData slot + k) = read32 f' (slotData slot + k) :=
    read32_congr fun i hi => by
      rw [Nat.add_assoc]
      exact h _ (by simp only [flashSectorSize]; omega)
  have hheader : readEnvHeader f (slotData slot) = readEnvHeader f' (slotData slot) := by
    simp only [readEnvHeader]
    rw [word 4 (by omega), word 8 (by omega), word 12 (by omega), word 16 (by omega),
      word 20 (by omega), show read32 f (slotData slot) = _ from word 0 (by omega)]
    rfl
  have hprefix : window f (slotData slot) 20 = window f' (slotData slot) 20 :=
    window_congr fun i hi => h i (by simp only [flashSectorSize]; omega)
  simp only [validSlot, hheader, hprefix]
  by_cases hlen : (readEnvHeader f' (slotData slot)).length.toNat ≤ z80EnvSnapshotBytes
  · have hpayload : window f (slotData slot + flashPageSize)
        (readEnvHeader f' (slotData slot)).length.toNat =
        window f' (slotData slot + flashPageSize)
          (readEnvHeader f' (slotData slot)).length.toNat :=
      window_congr fun i hi => by
        rw [Nat.add_assoc]
        refine h _ ?_
        simp only [flashPageSize, flashSectorSize, z80EnvSnapshotBytes] at hlen ⊢
        omega
    rw [hpayload]
  · simp [hlen]

/-- A sector that does not begin with the magic number holds no snapshot. -/
theorem invalid_of_magic {f : Flash} {slot : Nat} (h : read32 f (slotData slot) ≠ envMagic) :
    (validSlot slot f).1 = false := by
  have hm : ((readEnvHeader f (slotData slot)).magic == envMagic) = false := beq_false_of_ne h
  simp [validSlot, hm]

theorem invalid_of_erased {f : Flash} {slot : Nat} (h : ∀ i < 4, f (slotData slot + i) = 0xFF) :
    (validSlot slot f).1 = false := by
  refine invalid_of_magic ?_
  have hm : read32 f (slotData slot) = 0xFFFFFFFF := by
    apply read32_of_le32
    intro i hi
    rw [h i hi]
    interval_cases i <;> rfl
  rw [hm]
  decide

theorem Blank.invalid {f : Flash} {slot : Nat} (h : Blank f slot) : (validSlot slot f).1 = false :=
  invalid_of_erased fun i hi => h i (by simp only [flashSectorSize]; omega)

/-! ## Snapshots -/

/-- The sector that `z80_env_snapshot_save` builds after sequence number `p`. -/
def image (p : UInt32) (data : List UInt8) : Nat → UInt8 :=
  snapshotSector (snapshotHeader p data) data

/-- Slot `slot` holds a valid snapshot. -/
structure Holds (f : Flash) (slot : Nat) (sequence : UInt32) (data : List UInt8) : Prop where
  valid : (validSlot slot f).1 = true
  sequence : (validSlot slot f).2.sequence = sequence
  length : (validSlot slot f).2.length.toNat = data.length
  payload : window f (slotData slot + flashPageSize) data.length = data

theorem Holds.length_le {f : Flash} {slot : Nat} {sequence : UInt32} {data : List UInt8}
    (h : Holds f slot sequence data) : data.length ≤ z80EnvSnapshotBytes := by
  have hv := h.valid
  rw [← h.length]
  simp only [validSlot, Bool.and_eq_true, decide_eq_true_eq] at hv
  exact hv.1.1.2

theorem Holds.same {f f' : Flash} {slot : Nat} {sequence : UInt32} {data : List UInt8}
    (h : Holds f slot sequence data) (hs : SameSector f' f slot) : Holds f' slot sequence data := by
  have hv := validSlot_congr hs
  refine ⟨by rw [hv]; exact h.valid, by rw [hv]; exact h.sequence, by rw [hv]; exact h.length, ?_⟩
  have hlen := h.length_le
  have hw : window f' (slotData slot + flashPageSize) data.length =
      window f (slotData slot + flashPageSize) data.length :=
    window_congr fun i hi => by
      rw [Nat.add_assoc]
      refine hs _ ?_
      simp only [flashPageSize, flashSectorSize, z80EnvSnapshotBytes] at hlen ⊢
      omega
  rw [hw]
  exact h.payload

/-- Reading the header of a sector image back. -/
theorem readEnvHeader_image {f : Flash} {slot : Nat} {h : EnvHeader} {data : List UInt8}
    (hs : SectorIs f slot (snapshotSector h data)) : readEnvHeader f (slotData slot) = h := by
  have hbytes : ∀ i < 24, f (slotData slot + i) = h.bytes.getD i 0xFF := by
    intro i hi
    rw [hs i (by simp only [flashSectorSize]; omega), snapshotSector,
      if_pos (by simp only [flashPageSize]; omega)]
  obtain ⟨m, v, s, l, p, c⟩ := h
  have words (k : Nat) (hk : k < 6) : read32 f (slotData slot + 4 * k) = [m, v, s, l, p, c][k] :=
    @read32_words f [m, v, s, l, p, c] 0xFF (slotData slot) hbytes k hk
  simp only [readEnvHeader]
  congr 1
  · exact words 0 (by decide)
  · exact words 1 (by decide)
  · exact words 2 (by decide)
  · exact words 3 (by decide)
  · exact words 4 (by decide)
  · exact words 5 (by decide)

/-- A sector image is a valid snapshot of its payload. -/
theorem SectorIs.holds {f : Flash} {slot : Nat} {p : UInt32} {data : List UInt8}
    (hs : SectorIs f slot (image p data)) (hlen : data.length ≤ z80EnvSnapshotBytes) :
    Holds f slot (p + 1) data := by
  have hheader := readEnvHeader_image hs
  have hcount : (UInt32.ofNat data.length).toNat = data.length := by
    rw [UInt32.toNat_ofNat']
    simp only [z80EnvSnapshotBytes] at hlen
    omega
  have hpayload : window f (slotData slot + flashPageSize) data.length = data := by
    refine window_eq_list (d := 0xFF) fun i hi => ?_
    rw [Nat.add_assoc, hs (flashPageSize + i) (by
      simp only [flashPageSize, flashSectorSize, z80EnvSnapshotBytes] at hlen ⊢; omega),
      image, snapshotSector, if_neg (by omega), Nat.add_sub_cancel_left]
  have hprefix : window f (slotData slot) 20 = (snapshotHeader p data).prefixBytes := by
    refine window_eq_list (d := 0xFF) (l := (snapshotHeader p data).prefixBytes) fun i hi => ?_
    have hi' : i < 20 := hi
    rw [hs i (by simp only [flashSectorSize]; omega), image, snapshotSector,
      if_pos (by simp only [flashPageSize]; omega), EnvHeader.bytes, List.getD_append _ _ _ _ hi]
  have hl : (snapshotHeader p data).length.toNat = data.length := hcount
  refine ⟨?_, ?_, ?_, hpayload⟩
  · simp only [validSlot, hheader, hprefix, hl, hpayload]
    simp only [snapshotHeader, beq_self_eq_true, Bool.true_and, Bool.and_true, Bool.and_eq_true,
      decide_eq_true_eq, beq_iff_eq]
    exact ⟨hlen, rfl⟩
  · simp only [validSlot, hheader]
    rfl
  · simp only [validSlot, hheader, hl]

/-! ## Power cuts -/

/-- A torn erase leaves anything in its sector, a torn program a prefix of its
bytes; programs are shorter than a sector. A sector is not torn into a valid
snapshot other than the one it held or the one it was to hold. -/
def EnvTear : Tear := fun c f f' =>
  (if c.len = flashSectorSize then ∃ g, f' = c.leave f g
    else ∃ k ≤ c.len, f' = Call.apply ⟨c.off, k, c.bytes⟩ f) ∧
  ∀ slot < 2, (validSlot slot f').1 = true →
    SameSector f' f slot ∨ SameSector f' (c.apply f) slot

theorem leave_of_prefix {c : Call} {f : Flash} {k : Nat} (hk : k ≤ c.len) :
    Call.apply ⟨c.off, k, c.bytes⟩ f = c.leave f fun i => Call.apply ⟨c.off, k, c.bytes⟩ f (c.off + i) := by
  funext a
  by_cases ha : c.off ≤ a ∧ a < c.off + c.len
  · rw [Call.leave, overlay_mem ha.1 ha.2, Nat.add_sub_cancel' ha.1]
  · rw [Call.leave, overlay_outside ha]
    exact overlay_outside fun hin => ha (by simp only at hin; omega)

theorem EnvTear.leaves {c : Call} {f f' : Flash} (h : EnvTear c f f') : ∃ g, f' = c.leave f g := by
  obtain ⟨ht, -⟩ := h
  split at ht
  · exact ht
  · obtain ⟨k, hk, rfl⟩ := ht
    exact ⟨_, leave_of_prefix hk⟩

/-- What a cut during the rewriting of a sector may leave: the other sector, and
in this one nothing valid but the old snapshot or the new one. -/
structure Rewriting (f f' : Flash) (slot : Nat) (g : Nat → UInt8) : Prop where
  other : SameSector f' f (1 - slot)
  genuine : (validSlot slot f').1 = true → SameSector f' f slot ∨ SectorIs f' slot g

/-! ### The three calls of a sector write -/

def eraseCall (slot : Nat) : Call := ⟨slotData slot, flashSectorSize, fun _ => 0xFF⟩

def payloadCall (slot : Nat) (g : Nat → UInt8) : Call :=
  ⟨slotData slot + flashPageSize, flashSectorSize - flashPageSize, fun i => g (flashPageSize + i)⟩

def headerCall (slot : Nat) (g : Nat → UInt8) : Call := ⟨slotData slot, flashPageSize, g⟩

section
variable {f f' : Flash} {slot : Nat} {g h : Nat → UInt8}

theorem erase_same (hslot : slot < 2) : SameSector ((eraseCall slot).leave f h) f (1 - slot) :=
  same_of_leave (show slot ≠ 1 - slot by omega) (le_refl _) (le_refl _)

theorem payload_same (hslot : slot < 2) :
    SameSector ((payloadCall slot g).leave f h) f (1 - slot) :=
  same_of_leave (show slot ≠ 1 - slot by omega) (Nat.le_add_right _ _)
    (by simp only [payloadCall, flashPageSize, flashSectorSize]; omega)

theorem header_same (hslot : slot < 2) : SameSector ((headerCall slot g).leave f h) f (1 - slot) :=
  same_of_leave (show slot ≠ 1 - slot by omega) (le_refl _)
    (by simp only [headerCall, flashPageSize, flashSectorSize]; omega)

theorem erase_blank : Blank ((eraseCall slot).apply f) slot := fun _ hi => overlay_inside hi

/-- The program of the payload leaves the header page erased. -/
theorem payload_invalid (hb : Blank f slot) :
    (validSlot slot ((payloadCall slot g).leave f h)).1 = false := by
  refine invalid_of_erased fun i hi => ?_
  rw [Call.leave, overlay_outside]
  · exact hb i (by simp only [flashSectorSize]; omega)
  · simp only [payloadCall, flashPageSize]
    omega

theorem payload_done : same ((payloadCall slot g).apply f) (slotData slot + flashPageSize) g
    flashPageSize (flashSectorSize - flashPageSize) = true :=
  same_iff.mpr fun _ hi => overlay_inside hi

/-- Payload and header page together are the sector. -/
theorem header_done : SectorIs ((headerCall slot g).apply ((payloadCall slot g).apply f)) slot g := by
  intro i hi
  by_cases hp : i < flashPageSize
  · exact overlay_inside hp
  · obtain ⟨j, rfl⟩ := Nat.exists_eq_add_of_le (Nat.le_of_not_lt hp)
    have hj : j < flashSectorSize - flashPageSize := by omega
    have hout : ¬(slotData slot ≤ slotData slot + (flashPageSize + j) ∧
        slotData slot + (flashPageSize + j) < slotData slot + flashPageSize) := by omega
    refine (overlay_outside hout).trans ?_
    rw [← Nat.add_assoc]
    exact overlay_inside hj

/-- `env_write_callback`, at every cut point. -/
theorem envWriteCallback_safe (hslot : slot < 2) (f : Flash) (g : Nat → UInt8) :
    (envWriteCallback (slotData slot) g).Safe EnvTear
      (fun ok f' => ok = true ∧ SameSector f' f (1 - slot) ∧ SectorIs f' slot g)
      (fun _ f' => Rewriting f f' slot g) f := by
  have hself : SameSector f f (1 - slot) := fun _ _ => rfl
  have hnot {f' : Flash} (hv : (validSlot slot f').1 = false) {P : Prop}
      (h : (validSlot slot f').1 = true) : P := by rw [hv] at h; cases h
  unfold envWriteCallback
  simp only [Prog.erase_bind, Prog.program_bind, Prog.contents_bind]
  refine ⟨⟨hself, fun _ => Or.inl fun _ _ => rfl⟩, fun f' ht => ?_, ?_⟩
  · obtain ⟨h, rfl⟩ := ht.leaves
    refine ⟨erase_same hslot, fun hv => ?_⟩
    rcases ht.2 slot hslot hv with hs | hs
    · exact Or.inl hs
    · have hblank : Blank ((eraseCall slot).leave f h) slot := erase_blank.same hs
      exact hnot hblank.invalid hv
  have h1 : SameSector ((eraseCall slot).apply f) f (1 - slot) := erase_same hslot
  have hb : Blank ((eraseCall slot).apply f) slot := erase_blank
  change Prog.Safe _ (Prog.call (payloadCall slot g) _) _ _ ((eraseCall slot).apply f)
  generalize (eraseCall slot).apply f = f1 at h1 hb ⊢
  refine ⟨⟨h1, hnot hb.invalid⟩, fun f' ht => ?_, ?_⟩
  · obtain ⟨h, rfl⟩ := ht.leaves
    exact ⟨(payload_same hslot).trans h1, hnot (payload_invalid hb)⟩
  have h2 : SameSector ((payloadCall slot g).apply f1) f (1 - slot) := (payload_same hslot).trans h1
  have hv2 : (validSlot slot ((payloadCall slot g).apply f1)).1 = false := payload_invalid hb
  refine Prog.safe_read.mpr (Prog.safe_if_neg ?_ ?_)
  · rw [payload_done]
    exact Bool.false_ne_true
  have hdone : SectorIs ((headerCall slot g).apply ((payloadCall slot g).apply f1)) slot g :=
    header_done
  have h3 : SameSector ((headerCall slot g).apply ((payloadCall slot g).apply f1)) f (1 - slot) :=
    (header_same hslot).trans h2
  refine ⟨⟨h2, hnot hv2⟩, fun f' ht => ?_, ?_⟩
  · obtain ⟨h, rfl⟩ := ht.leaves
    refine ⟨(header_same hslot).trans h2, fun hv => ?_⟩
    rcases ht.2 slot hslot hv with hs | hs
    · rw [validSlot_congr hs, hv2] at hv; cases hv
    · exact Or.inr (hdone.same hs)
  refine Prog.safe_read.mpr ⟨⟨?_, h3, hdone⟩, h3, fun _ => Or.inr hdone⟩
  rw [same_iff]
  intro i hi
  rw [Nat.zero_add]
  exact hdone i hi

end

/-! ## The current snapshot -/

/-- Slot `slot` holds the current snapshot: the other one is not valid, or one
sequence number behind. -/
structure Current (f : Flash) (slot : Nat) (sequence : UInt32) (data : List UInt8) : Prop where
  slot_lt : slot < 2
  holds : Holds f slot sequence data
  behind : (validSlot (1 - slot) f).1 = true → (validSlot (1 - slot) f).2.sequence + 1 = sequence

/-- Both sectors are as they left the factory. -/
def Fresh (f : Flash) : Prop := Blank f 0 ∧ Blank f 1

/-- The store holds the payload `data`; a fresh store holds the empty one. -/
def Durable (f : Flash) (data : List UInt8) : Prop :=
  (Fresh f ∧ data = []) ∨ ∃ slot sequence, Current f slot sequence data

/-- The store holds nothing and is not fresh. -/
structure Dead (f : Flash) : Prop where
  invalid0 : (validSlot 0 f).1 = false
  invalid1 : (validSlot 1 f).1 = false
  used : ¬Fresh f

theorem fresh_iff {f : Flash} : Fresh f ↔
    (same f (slotData 0) (fun _ => 0xFF) 0 flashSectorSize &&
      same f (slotData 1) (fun _ => 0xFF) 0 flashSectorSize) = true := by
  rw [Bool.and_eq_true, same_iff, same_iff]
  exact Iff.rfl

/-- One step behind is behind, also where the sequence number wraps. -/
theorem newer (a : UInt32) : a + 1 - a < 0x80000000 ∧ ¬a - (a + 1) < 0x80000000 := by
  have h1 : a + 1 - a = 1 := by grind
  have h2 : a - (a + 1) = -1 := by grind
  rw [h1, h2]
  decide

theorem Current.currentSlot {f : Flash} {slot : Nat} {sequence : UInt32} {data : List UInt8}
    (h : Current f slot sequence data) : currentSlot f = ((slot : Int), (validSlot slot f).2) := by
  obtain ⟨hslot, hholds, hbehind⟩ := h
  have hv := hholds.valid
  have hs := hholds.sequence
  unfold Env.currentSlot
  obtain rfl | rfl : slot = 0 ∨ slot = 1 := by omega
  · cases hother : (validSlot 1 f).1 with
    | false => simp [hv, hother]
    | true =>
      have hseq := hbehind hother
      rw [← hs] at hseq
      have hn := (newer (validSlot 1 f).2.sequence).2
      rw [show (validSlot 1 f).2.sequence + 1 = (validSlot 0 f).2.sequence from hseq] at hn
      simp [hv, hother, hn]
  · cases hother : (validSlot 0 f).1 with
    | false => simp [hv, hother]
    | true =>
      have hseq := hbehind hother
      rw [← hs] at hseq
      have hn := (newer (validSlot 0 f).2.sequence).1
      rw [show (validSlot 0 f).2.sequence + 1 = (validSlot 1 f).2.sequence from hseq] at hn
      simp [hv, hother, hn]

theorem Fresh.currentSlot {f : Flash} (h : Fresh f) :
    currentSlot f = (-1, ⟨0, 0, 0, 0, 0, 0⟩) := by
  unfold Env.currentSlot
  simp only [h.1.invalid, h.2.invalid, Bool.not_false, Bool.and_self, if_true]
  rw [if_pos (fresh_iff.mp h)]

theorem Dead.currentSlot {f : Flash} (h : Dead f) : currentSlot f = (-2, ⟨0, 0, 0, 0, 0, 0⟩) := by
  unfold Env.currentSlot
  simp only [h.invalid0, h.invalid1, Bool.not_false, Bool.and_self, if_true]
  rw [if_neg (fun hs => h.used (fresh_iff.mpr hs))]

theorem Durable.load {f : Flash} {data : List UInt8} (h : Durable f data) {capacity : Nat}
    (hc : z80EnvSnapshotBytes ≤ capacity) : snapshotLoad capacity f = (0, data) := by
  unfold snapshotLoad
  rcases h with ⟨hf, rfl⟩ | ⟨slot, sequence, hcur⟩
  · rw [hf.currentSlot]
    simp
  · have hle := hcur.holds.length_le
    rw [hcur.currentSlot]
    dsimp only
    rw [hcur.holds.length, if_neg (by omega), if_neg (by omega), Int.toNat_natCast,
      hcur.holds.payload]

theorem Dead.load {f : Flash} (h : Dead f) (capacity : Nat) :
    (snapshotLoad capacity f).1 = -2 := by
  unfold snapshotLoad
  rw [h.currentSlot]
  rfl

/-! ## Saving -/

/-- What is left of the store when a save ends or is cut: the old payload or
the new one. -/
def Either (f : Flash) (old new : List UInt8) : Prop := Durable f old ∨ Durable f new

/-- The other slot, rewritten: kept slot and new image make a current snapshot. -/
theorem Current.replaced {f f' : Flash} {slot : Nat} {p : UInt32} {old data : List UInt8}
    (h : Current f slot p old) (hkept : SameSector f' f slot)
    (himage : SectorIs f' (1 - slot) (image p data)) (hlen : data.length ≤ z80EnvSnapshotBytes) :
    Current f' (1 - slot) (p + 1) data := by
  have hslot := h.slot_lt
  refine ⟨by omega, himage.holds hlen, fun _ => ?_⟩
  rw [show 1 - (1 - slot) = slot by omega, validSlot_congr hkept, h.holds.sequence]

/-- A cut while the other slot is rewritten. -/
theorem Current.rewriting {f f' : Flash} {slot : Nat} {p : UInt32} {old data : List UInt8}
    (h : Current f slot p old) (hr : Rewriting f f' (1 - slot) (image p data))
    (hlen : data.length ≤ z80EnvSnapshotBytes) :
    SameSector f' f slot ∧ Either f' old data := by
  have hslot := h.slot_lt
  obtain ⟨hkept, hgenuine⟩ := hr
  rw [show 1 - (1 - slot) = slot by omega] at hkept
  refine ⟨hkept, ?_⟩
  have hcurrent (hb : (validSlot (1 - slot) f').1 = true →
      (validSlot (1 - slot) f').2.sequence + 1 = p) : Either f' old data :=
    Or.inl (Or.inr ⟨slot, p, hslot, h.holds.same hkept, hb⟩)
  cases hv : (validSlot (1 - slot) f').1 with
  | false => exact hcurrent fun hv' => by rw [hv] at hv'; cases hv'
  | true =>
    rcases hgenuine hv with hs | hs
    · refine hcurrent fun hv' => ?_
      rw [validSlot_congr hs] at hv' ⊢
      exact h.behind hv'
    · exact Or.inr (Or.inr ⟨_, _, h.replaced hkept hs hlen⟩)

/-- How a save ends. -/
structure Saved (granted : Bool) (old data : List UInt8) (status : Int) (f : Flash) : Prop where
  done : status = 0 → Durable f data
  store : Either f old data
  granted : granted = true → status = 0

/-- A sector write with its bus requests, when it may begin anywhere. -/
theorem envWrite_safe (bus : BusOutcome) {f : Flash} {slot : Nat} (hslot : slot < 2)
    (g : Nat → UInt8) : (envWrite bus slot g).Safe EnvTear
      (fun ok f' => (ok = true → SameSector f' f (1 - slot) ∧ SectorIs f' slot g) ∧
        (ok = false → f' = f ∨ SameSector f' f (1 - slot) ∧ SectorIs f' slot g) ∧
        (bus.acquired = true → bus.released = true → ok = true))
      (fun _ f' => Rewriting f f' slot g) f := by
  have hhere : Rewriting f f slot g := ⟨fun _ _ => rfl, fun _ => Or.inl fun _ _ => rfl⟩
  unfold envWrite
  refine Prog.safe_if_neg (by omega) ?_
  cases hacq : bus.acquired with
  | false => exact ⟨⟨nofun, fun _ => Or.inl rfl, nofun⟩, hhere⟩
  | true =>
    refine Prog.safe_if_neg (by simp) (Prog.Safe.bind ?_)
    refine (envWriteCallback_safe hslot f g).mono fun ok f' hpost => ?_
    obtain ⟨rfl, hsame, himage⟩ := hpost
    refine ⟨⟨fun _ => ⟨hsame, himage⟩, fun _ => Or.inr ⟨hsame, himage⟩, fun _ hrel => ?_⟩, hsame,
      fun _ => Or.inr himage⟩
    rw [hrel]
    rfl

/-- The bus was granted and taken back. -/
def busGranted (bus : BusOutcome) : Bool := bus.acquired && bus.released

/-- The write of one snapshot over another. -/
theorem writeSnapshot_safe (bus : BusOutcome) {f : Flash} {slot : Nat} {previous : EnvHeader}
    {old data : List UInt8} (h : Current f slot previous.sequence old)
    (hlen : data.length ≤ z80EnvSnapshotBytes) :
    (writeSnapshot bus slot previous data).Safe EnvTear
      (fun status f' => Saved (busGranted bus) old data status f' ∧ SameSector f' f slot)
      (fun _ f' => SameSector f' f slot ∧ Either f' old data) f := by
  have hslot := h.slot_lt
  have hother : (if (slot : Int) = 0 then 1 else 0) = 1 - slot := by
    obtain rfl | rfl : slot = 0 ∨ slot = 1 := by omega
    · rfl
    · rfl
  have hback : 1 - (1 - slot) = slot := by omega
  unfold writeSnapshot
  rw [hother]
  refine Prog.Safe.bind ?_
  refine ((envWrite_safe bus (show 1 - slot < 2 by omega) _).weaken
    fun _ f' hr => h.rewriting hr hlen).mono fun ok f' hpost => ?_
  rw [hback] at hpost
  obtain ⟨hwritten, hrefused, hgranted⟩ := hpost
  have hnew (hs : SameSector f' f slot ∧ SectorIs f' (1 - slot) (image previous.sequence data)) :
      SameSector f' f slot ∧ Durable f' data :=
    ⟨hs.1, Or.inr ⟨_, _, h.replaced hs.1 hs.2 hlen⟩⟩
  have hg (hb : busGranted bus = true) : ok = true := by
    simp only [busGranted, Bool.and_eq_true] at hb
    exact hgranted hb.1 hb.2
  cases ok with
  | true =>
    obtain ⟨hsame, hd⟩ := hnew (hwritten rfl)
    exact ⟨⟨⟨fun _ => hd, Or.inr hd, fun _ => rfl⟩, hsame⟩, hsame, Or.inr hd⟩
  | false =>
    have hfail {P : Prop} (hs : (if (false : Bool) then (0 : Int) else -3) = 0) : P :=
      absurd hs (by decide)
    rcases hrefused rfl with rfl | hs
    · have hd : Durable f' old := Or.inr ⟨slot, _, h⟩
      have hself : SameSector f' f' slot := fun _ _ => rfl
      exact ⟨⟨⟨hfail, Or.inl hd, fun hb => by cases hg hb⟩, hself⟩, hself, Or.inl hd⟩
    · obtain ⟨hsame, hd⟩ := hnew hs
      exact ⟨⟨⟨hfail, Or.inr hd, fun hb => by cases hg hb⟩, hsame⟩, hsame, Or.inr hd⟩

/-- A save over a current snapshot. -/
theorem snapshotSave_current (bus : Nat → BusOutcome) {f : Flash} {slot : Nat} {sequence : UInt32}
    {old data : List UInt8} (h : Current f slot sequence old)
    (hlen : data.length ≤ z80EnvSnapshotBytes) :
    (snapshotSave bus data).Safe EnvTear
      (fun status f' => Saved (busGranted (bus 0)) old data status f')
      (fun _ f' => Either f' old data) f := by
  have hheader := h.holds.sequence
  rw [snapshotSave]
  refine Prog.safe_if_neg (by omega) ?_
  simp only [Prog.contents_bind]
  refine Prog.safe_read.mpr ?_
  rw [h.currentSlot]
  dsimp only
  have hnat : (0 : Int) ≤ slot := Int.natCast_nonneg slot
  refine Prog.safe_if_neg (by omega) ?_
  split
  · rename_i hsame
    obtain ⟨-, hl, hw⟩ := hsame
    rw [h.holds.length] at hl
    have hpayload := h.holds.payload
    rw [hl, ← Int.toNat_natCast slot, hw] at hpayload
    subst hpayload
    have hd : Durable f data := Or.inr ⟨slot, _, h⟩
    exact ⟨⟨fun _ => hd, Or.inl hd, fun _ => rfl⟩, Or.inl hd⟩
  · refine Prog.safe_if_neg (by omega) ?_
    rw [← hheader] at h
    exact ((writeSnapshot_safe (bus 0) h hlen).mono fun _ _ hp => hp.1).weaken fun _ _ hc => hc.2

/-! ## The first save -/

/-- The sector of the empty baseline. -/
def emptySector : Nat → UInt8 := image 0 []

theorem emptySector_current {f : Flash} (h : SectorIs f 0 emptySector) (hb : Blank f 1) :
    Current f 0 1 [] := by
  refine ⟨by decide, h.holds (Nat.zero_le _), fun hv => ?_⟩
  rw [hb.invalid] at hv
  cases hv

/-- What a cut of the first save may leave: the baseline incomplete or complete,
or the baseline and a cut of the save proper. -/
def FirstCut (f : Flash) (data : List UInt8) : Prop :=
  (Blank f 1 ∧ ((validSlot 0 f).1 = true → SectorIs f 0 emptySector)) ∨
    (SectorIs f 0 emptySector ∧ Either f [] data)

/-- The baseline, written to a fresh store. -/
theorem writeBaseline_safe (bus : BusOutcome) {f : Flash} (h : Fresh f) :
    (writeSnapshot bus (-1) ⟨0, 0, 0, 0, 0, 0⟩ []).Safe EnvTear
      (fun status f' => (status = 0 → SectorIs f' 0 emptySector ∧ Blank f' 1) ∧
        Durable f' [] ∧ (busGranted bus = true → status = 0) ∧
        (Blank f' 1 ∧ ((validSlot 0 f').1 = true → SectorIs f' 0 emptySector)))
      (fun _ f' => Blank f' 1 ∧ ((validSlot 0 f').1 = true → SectorIs f' 0 emptySector)) f := by
  have hcut {f' : Flash} (hr : Rewriting f f' 0 emptySector) :
      Blank f' 1 ∧ ((validSlot 0 f').1 = true → SectorIs f' 0 emptySector) := by
    refine ⟨h.2.same hr.other, fun hv => ?_⟩
    rcases hr.genuine hv with hs | hs
    · have hblank : Blank f' 0 := h.1.same hs
      rw [hblank.invalid] at hv; cases hv
    · exact hs
  unfold writeSnapshot
  refine Prog.Safe.bind ?_
  refine ((envWrite_safe bus (show 0 < 2 by decide) emptySector).weaken
    fun _ f' hr => hcut hr).mono fun ok f' hpost => ?_
  obtain ⟨hwritten, hrefused, hgranted⟩ := hpost
  have hg (hb : busGranted bus = true) : ok = true := by
    simp only [busGranted, Bool.and_eq_true] at hb
    exact hgranted hb.1 hb.2
  have hnew (hs : SameSector f' f 1 ∧ SectorIs f' 0 emptySector) :
      Blank f' 1 ∧ SectorIs f' 0 emptySector := ⟨h.2.same hs.1, hs.2⟩
  cases ok with
  | true =>
    obtain ⟨hb, hs⟩ := hnew (hwritten rfl)
    exact ⟨⟨fun _ => ⟨hs, hb⟩, Or.inr ⟨_, _, emptySector_current hs hb⟩, fun _ => rfl, hb,
      fun _ => hs⟩, hb, fun _ => hs⟩
  | false =>
    have hfail {P : Prop} (hs : (if (false : Bool) then (0 : Int) else -3) = 0) : P :=
      absurd hs (by decide)
    rcases hrefused rfl with rfl | hs
    · have hno (hv : (validSlot 0 f').1 = true) : SectorIs f' 0 emptySector := by
        rw [h.1.invalid] at hv; cases hv
      exact ⟨⟨hfail, Or.inl ⟨h, rfl⟩, fun hb => (by cases hg hb), h.2, hno⟩, h.2, hno⟩
    · obtain ⟨hb, hs⟩ := hnew hs
      exact ⟨⟨hfail, Or.inr ⟨_, _, emptySector_current hs hb⟩, fun hb => (by cases hg hb), hb,
        fun _ => hs⟩, hb, fun _ => hs⟩

/-- The empty payload, saved to a fresh store, is the baseline alone. -/
theorem snapshotSave_empty (bus : Nat → BusOutcome) :
    snapshotSave bus [] = .read fun f =>
      if (currentSlot f).1 = -2 then .done (-2)
      else if 0 ≤ (currentSlot f).1 ∧ (currentSlot f).2.length.toNat = 0 then .done 0
      else writeSnapshot (bus 0) (currentSlot f).1 (currentSlot f).2 [] := by
  rw [snapshotSave]
  simp [z80EnvSnapshotBytes]

theorem snapshotSave_fresh (bus : Nat → BusOutcome) {f : Flash} {data : List UInt8} (h : Fresh f)
    (hlen : data.length ≤ z80EnvSnapshotBytes) :
    (snapshotSave bus data).Safe EnvTear
      (fun status f' => Saved (busGranted (bus 0) && busGranted (bus 1)) [] data
        status f')
      (fun _ f' => FirstCut f' data) f := by
  have hempty (bus : Nat → BusOutcome) := writeBaseline_safe (bus 0) h
  by_cases hdata : data = []
  · subst hdata
    rw [snapshotSave_empty]
    refine Prog.safe_read.mpr ?_
    rw [h.currentSlot]
    refine Prog.safe_if_neg (by decide) (Prog.safe_if_neg (by decide) ?_)
    refine ((hempty bus).weaken fun _ _ hc => Or.inl hc).mono fun status f' hpost => ?_
    obtain ⟨hdone, hd, hgranted, -⟩ := hpost
    refine ⟨fun _ => hd, Or.inl hd, fun hb => hgranted ?_⟩
    simp only [Bool.and_eq_true] at hb
    exact hb.1
  · have hne : data.length ≠ 0 := fun he => hdata (List.length_eq_zero_iff.mp he)
    rw [snapshotSave]
    refine Prog.safe_if_neg (by omega) ?_
    simp only [Prog.contents_bind]
    refine Prog.safe_read.mpr ?_
    rw [h.currentSlot]
    refine Prog.safe_if_neg (by decide) (Prog.safe_if_neg (by simp) ?_)
    refine Prog.safe_if_pos ⟨rfl, hne⟩ (Prog.Safe.bind ?_)
    rw [snapshotSave_empty]
    refine Prog.safe_read.mpr ?_
    rw [h.currentSlot]
    refine Prog.safe_if_neg (by decide) (Prog.safe_if_neg (by decide) ?_)
    refine ((hempty fun n => bus (n + 1)).weaken fun _ _ hc => Or.inl hc).mono
      fun status f' hpost => ?_
    obtain ⟨hdone, hd, hgranted, hcut⟩ := hpost
    by_cases hstatus : status = 0
    · -- the baseline stands, and the save proper replaces it
      obtain ⟨hbase, hblank⟩ := hdone hstatus
      have hcur := emptySector_current hbase hblank
      refine Prog.safe_if_neg (not_not.mpr hstatus) (Prog.safe_read.mpr ?_)
      rw [hcur.currentSlot]
      refine Prog.safe_if_neg (by simp) ?_
      have hcur' : Current f' 0 (validSlot 0 f').2.sequence [] := by
        rw [hcur.holds.sequence]
        exact hcur
      refine ((writeSnapshot_safe (bus 0) hcur' hlen).mono fun _ _ hp => ?_).weaken
        fun _ _ hc => Or.inr ⟨hbase.same hc.1, hc.2⟩
      refine ⟨hp.1.done, hp.1.store, fun hb => hp.1.granted ?_⟩
      simp only [Bool.and_eq_true] at hb
      exact hb.1
    · refine Prog.safe_if_pos hstatus ⟨⟨fun he => absurd he hstatus, Or.inl hd, fun hb => ?_⟩,
        Or.inl hcut⟩
      simp only [Bool.and_eq_true] at hb
      exact hgranted hb.2

/-! ## After a cut -/

/-- A cut that meets a fresh store leaves its first sector blank or complete. -/
def Benign (f f' : Flash) : Prop := Fresh f → Blank f' 0 ∨ SectorIs f' 0 emptySector

theorem FirstCut.either {f : Flash} {data : List UInt8} (h : FirstCut f data)
    (hb : Blank f 0 ∨ SectorIs f 0 emptySector) : Either f [] data := by
  rcases h with ⟨hblank, -⟩ | ⟨-, he⟩
  · rcases hb with hb | hb
    · exact Or.inl (Or.inl ⟨⟨hb, hblank⟩, rfl⟩)
    · exact Or.inl (Or.inr ⟨_, _, emptySector_current hb hblank⟩)
  · exact he

theorem FirstCut.dead {f : Flash} {data : List UInt8} (h : FirstCut f data)
    (hb : ¬(Blank f 0 ∨ SectorIs f 0 emptySector)) : Dead f := by
  rcases h with ⟨hblank, hvalid⟩ | ⟨hs, -⟩
  · refine ⟨?_, hblank.invalid, fun hf => hb (Or.inl hf.1)⟩
    rw [Bool.eq_false_iff]
    exact fun hv => hb (Or.inr (hvalid hv))
  · exact absurd (Or.inr hs) hb

theorem Durable.cut {f f' : Flash} {old data : List UInt8} {bus : Nat → BusOutcome} {n : Nat}
    (h : Durable f old) (hlen : data.length ≤ z80EnvSnapshotBytes)
    (hcut : Cut EnvTear n (snapshotSave bus data) f f') (hb : Benign f f') : Either f' old data := by
  rcases h with ⟨hf, rfl⟩ | ⟨slot, sequence, hcur⟩
  · exact ((snapshotSave_fresh bus hf hlen).cut hcut).either (hb hf)
  · exact (snapshotSave_current bus hcur hlen).cut hcut

/-- A save that runs to its end. -/
theorem Durable.save {f : Flash} {old data : List UInt8} (bus : Nat → BusOutcome)
    (h : Durable f old) (hlen : data.length ≤ z80EnvSnapshotBytes) :
    Saved (busGranted (bus 0) && busGranted (bus 1)) old data
      ((snapshotSave bus data).run f).1 ((snapshotSave bus data).run f).2 := by
  rcases h with ⟨hf, rfl⟩ | ⟨slot, sequence, hcur⟩
  · exact (snapshotSave_fresh bus hf hlen).run
  · have hs := (snapshotSave_current bus hcur hlen).run
    refine ⟨hs.done, hs.store, fun hb => hs.granted ?_⟩
    simp only [Bool.and_eq_true] at hb
    exact hb.1

/-- A dead store refuses every save, and stays as it is. -/
theorem Dead.save {f : Flash} (h : Dead f) (bus : Nat → BusOutcome) {data : List UInt8}
    (hlen : data.length ≤ z80EnvSnapshotBytes) : (snapshotSave bus data).run f = (-2, f) := by
  rw [snapshotSave, if_neg (by omega)]
  simp only [Prog.contents_bind, Prog.run_read, h.currentSlot, if_true]
  rfl

/-! ## Runs -/

/-- The flash, the payload of the last completed save, and the payload of a save
that a power cut or a refused bus ended. -/
structure System where
  flash : Flash
  content : List UInt8
  interrupted : Option (List UInt8)

/-- The systems that saves, power cuts and reboots lead to, where every cut is
one of `cuts`. -/
inductive Reaches (cuts : Flash → Flash → Prop) : System → Prop where
  | start {f : Flash} (h : Fresh f) : Reaches cuts ⟨f, [], none⟩
  /-- A save that returns 0. -/
  | save {f f' : Flash} {content data : List UInt8} (bus : Nat → BusOutcome)
      (h : Reaches cuts ⟨f, content, none⟩) (hlen : data.length ≤ z80EnvSnapshotBytes)
      (hrun : (snapshotSave bus data).run f = (0, f')) : Reaches cuts ⟨f', data, none⟩
  /-- A save that returns an error. -/
  | fail {f f' : Flash} {content data : List UInt8} {status : Int} (bus : Nat → BusOutcome)
      (h : Reaches cuts ⟨f, content, none⟩) (hlen : data.length ≤ z80EnvSnapshotBytes)
      (hrun : (snapshotSave bus data).run f = (status, f')) (hstatus : status ≠ 0) :
      Reaches cuts ⟨f', content, some data⟩
  /-- The power fails during a save. -/
  | cut {f f' : Flash} {content data : List UInt8} {n : Nat} (bus : Nat → BusOutcome)
      (h : Reaches cuts ⟨f, content, none⟩) (hlen : data.length ≤ z80EnvSnapshotBytes)
      (hcut : Cut EnvTear n (snapshotSave bus data) f f') (hok : cuts f f') :
      Reaches cuts ⟨f', content, some data⟩
  /-- A reboot, which finds one of the two payloads. -/
  | reboot {s : System} (h : Reaches cuts s) :
      Reaches cuts ⟨s.flash, (snapshotLoad z80EnvSnapshotBytes s.flash).2, none⟩

def Inv (s : System) : Prop :=
  match s.interrupted with
  | none => Durable s.flash s.content
  | some data => Either s.flash s.content data

theorem Inv.durable {s : System} (h : Inv s) :
    Durable s.flash s.content ∨ ∃ data, s.interrupted = some data ∧ Durable s.flash data := by
  unfold Inv at h
  cases hi : s.interrupted with
  | none =>
    rw [hi] at h
    exact Or.inl h
  | some data =>
    rw [hi] at h
    exact h.imp id fun hd => ⟨data, rfl, hd⟩

/-- Whatever the store holds, a load returns it. -/
theorem Inv.loaded {s : System} (h : Inv s) :
    Durable s.flash (snapshotLoad z80EnvSnapshotBytes s.flash).2 := by
  rcases h.durable with hd | ⟨data, -, hd⟩
  · rw [hd.load (le_refl _)]
    exact hd
  · rw [hd.load (le_refl _)]
    exact hd

theorem Inv.reaches {s : System} (hr : Reaches Benign s) : Inv s := by
  induction hr with
  | start h => exact Or.inl ⟨h, rfl⟩
  | save bus h hlen hrun ih =>
    have hs := Durable.save bus ih hlen
    rw [hrun] at hs
    exact hs.done rfl
  | fail bus h hlen hrun hstatus ih =>
    have hs := Durable.save bus ih hlen
    rw [hrun] at hs
    exact hs.store
  | cut bus h hlen hcut hok ih => exact Durable.cut ih hlen hcut hok
  | reboot h ih => exact ih.loaded

/-- **Crash safety of the snapshots**, where no cut tears the first sector of a
fresh store. In every system reached a load returns the payload of the last
completed save or that of the interrupted one, and every later save to a
granted bus succeeds. A cut that does tear it leaves a store that refuses every
load and every save. -/
theorem snapshot_crash_safe {s : System} (hr : Reaches Benign s) :
    (∀ capacity, z80EnvSnapshotBytes ≤ capacity →
      snapshotLoad capacity s.flash = (0, s.content) ∨
        ∃ data, s.interrupted = some data ∧ snapshotLoad capacity s.flash = (0, data)) ∧
    (∀ bus data, data.length ≤ z80EnvSnapshotBytes →
      busGranted (bus 0) = true → busGranted (bus 1) = true →
      ∃ f', (snapshotSave bus data).run s.flash = (0, f') ∧
        snapshotLoad z80EnvSnapshotBytes f' = (0, data)) ∧
    (∀ f' bus data n, data.length ≤ z80EnvSnapshotBytes →
      Cut EnvTear n (snapshotSave bus data) s.flash f' → ¬Benign s.flash f' →
      (∀ capacity, (snapshotLoad capacity f').1 = -2) ∧
        ∀ bus data, data.length ≤ z80EnvSnapshotBytes →
          (snapshotSave bus data).run f' = (-2, f')) := by
  have hinv := Inv.reaches hr
  refine ⟨fun capacity hc => ?_, fun bus data hlen h0 h1 => ?_, fun f' bus data n hlen hcut hb => ?_⟩
  · rcases hinv.durable with hd | ⟨data, hi, hd⟩
    · exact Or.inl (hd.load hc)
    · exact Or.inr ⟨data, hi, hd.load hc⟩
  · have hs := Durable.save bus hinv.loaded hlen
    have hzero := hs.granted (by rw [h0, h1]; rfl)
    exact ⟨_, Prod.ext hzero rfl, (hs.done hzero).load (le_refl _)⟩
  · obtain ⟨hf, hno⟩ := Classical.not_imp.mp hb
    have hdead := ((snapshotSave_fresh bus hf hlen).cut hcut).dead hno
    exact ⟨hdead.load, fun bus data hlen => hdead.save bus hlen⟩

/-! ### The first byte of the first header -/

/-- A cut of the write of the baseline is a cut of the first save. -/
theorem cut_first {f f' : Flash} {n : Nat} (h : Fresh f)
    (hcut : Cut EnvTear n (envWriteCallback (slotData 0) emptySector) f f') :
    Cut EnvTear n (snapshotSave (fun _ => ⟨true, true⟩) []) f f' := by
  rw [snapshotSave_empty]
  refine .read ?_
  rw [h.currentSlot, if_neg (by decide), if_neg (by decide)]
  exact Cut.bind (Cut.bind hcut _) _

/-- The first save of anything writes the baseline first. -/
theorem cut_baseline {f f' : Flash} {n : Nat} {data : List UInt8} (h : Fresh f)
    (hne : data.length ≠ 0) (hlen : data.length ≤ z80EnvSnapshotBytes)
    (hcut : Cut EnvTear n (envWriteCallback (slotData 0) emptySector) f f') :
    Cut EnvTear n (snapshotSave (fun _ => ⟨true, true⟩) data) f f' := by
  rw [snapshotSave, if_neg (Nat.not_lt.mpr hlen)]
  simp only [Prog.contents_bind]
  refine .read ?_
  rw [h.currentSlot]
  dsimp only
  rw [if_neg (by decide), if_neg (by simp), if_pos ⟨rfl, hne⟩]
  exact Cut.bind (cut_first h hcut) _

/-- The theorem at work: the power fails right after the erase of the first save. -/
theorem snapshot_crash_safe_erased :
    ∃ f, Reaches Benign ⟨f, [], some [0x41]⟩ ∧
      (snapshotLoad z80EnvSnapshotBytes f = (0, []) ∨
        snapshotLoad z80EnvSnapshotBytes f = (0, [0x41])) := by
  have hfresh : Fresh fun _ => 0xFF := ⟨fun _ _ => rfl, fun _ _ => rfl⟩
  have hcut : Cut EnvTear 1 (snapshotSave (fun _ => ⟨true, true⟩) [0x41]) (fun _ => 0xFF)
      ((eraseCall 0).apply fun _ => 0xFF) :=
    cut_baseline hfresh (by decide) (by decide) (.later (.between _ _))
  have hr : Reaches Benign ⟨(eraseCall 0).apply fun _ => 0xFF, [], some [0x41]⟩ :=
    .cut _ (.start hfresh) (by decide) hcut fun _ => Or.inl erase_blank
  refine ⟨_, hr, ?_⟩
  rcases (snapshot_crash_safe hr).1 _ (le_refl _) with h | ⟨data, hd, h⟩
  · exact Or.inl h
  · obtain ⟨rfl⟩ := hd
    exact Or.inr h

/-- The flash after the payload of the baseline, and after one header byte. -/
def beforeHeader : Flash := (payloadCall 0 emptySector).apply ((eraseCall 0).apply fun _ => 0xFF)

def oneByte : Flash := Call.apply ⟨slotData 0, 1, emptySector⟩ beforeHeader

theorem oneByte_first : oneByte (slotData 0 + 0) = 0x45 := by
  have h : overlay beforeHeader (slotData 0) 1 emptySector (slotData 0 + 0) = emptySector 0 :=
    overlay_inside (by decide)
  exact h

theorem oneByte_header {i : Nat} (h0 : 0 < i) (h : i < flashPageSize) :
    oneByte (slotData 0 + i) = 0xFF := by
  have h1 : ¬(slotData 0 ≤ slotData 0 + i ∧ slotData 0 + i < slotData 0 + 1) := by omega
  have h2 : ¬(slotData 0 + flashPageSize ≤ slotData 0 + i ∧ slotData 0 + i <
      slotData 0 + flashPageSize + (flashSectorSize - flashPageSize)) := by omega
  refine (overlay_outside h1).trans ((overlay_outside h2).trans (erase_blank i ?_))
  simp only [flashPageSize, flashSectorSize] at h ⊢
  omega

theorem oneByte_invalid : (validSlot 0 oneByte).1 = false := by
  refine invalid_of_magic ?_
  have hword : read32 oneByte (slotData 0) = 0xFFFFFF45 := by
    apply read32_of_le32
    intro i hi
    by_cases h0 : i = 0
    · rw [h0, oneByte_first]
      rfl
    · rw [oneByte_header (by omega) (by simp only [flashPageSize]; omega)]
      interval_cases i
      · exact absurd rfl h0
      · rfl
      · rfl
      · rfl
  rw [hword]
  decide

theorem oneByte_torn : EnvTear (headerCall 0 emptySector) beforeHeader oneByte := by
  have hother : Blank oneByte 1 := by
    have hb : Blank (fun _ => 0xFF) 1 := fun _ _ => rfl
    have h3 : SameSector oneByte beforeHeader 1 :=
      same_of_leave (c := ⟨slotData 0, 1, emptySector⟩) (show 0 ≠ 1 by decide) (le_refl _)
        (by simp only [flashSectorSize]; omega)
    exact hb.same (h3.trans ((payload_same (show 0 < 2 by decide)).trans
      (erase_same (show 0 < 2 by decide))))
  constructor
  · rw [if_neg (by decide)]
    exact ⟨1, by decide, rfl⟩
  · intro slot hslot hv
    obtain rfl | rfl : slot = 0 ∨ slot = 1 := by omega
    · rw [oneByte_invalid] at hv; cases hv
    · rw [hother.invalid] at hv; cases hv

theorem oneByte_cut : Cut EnvTear 2 (snapshotSave (fun _ => ⟨true, true⟩) []) (fun _ => 0xFF)
    oneByte := by
  refine cut_first ⟨fun _ _ => rfl, fun _ _ => rfl⟩ (.later (.later (.read ?_)))
  have hsame : ¬(!same beforeHeader (slotData 0 + flashPageSize) emptySector flashPageSize
      (flashSectorSize - flashPageSize)) = true := by
    rw [beforeHeader, payload_done]
    exact Bool.false_ne_true
  show Cut EnvTear 0 (if (!same beforeHeader (slotData 0 + flashPageSize) emptySector flashPageSize
      (flashSectorSize - flashPageSize)) = true then _ else _) beforeHeader oneByte
  rw [if_neg hsame]
  exact .inside oneByte_torn

/-- One header byte of the first snapshot is enough to lose the store. -/
theorem first_save_can_lose_store :
    ¬∀ s, Reaches (fun _ _ => True) s → (snapshotLoad z80EnvSnapshotBytes s.flash).1 = 0 := by
  intro h
  have hfresh : Fresh fun _ => 0xFF := ⟨fun _ _ => rfl, fun _ _ => rfl⟩
  have hzero := h ⟨oneByte, [], some []⟩
    (.cut (fun _ => ⟨true, true⟩) (.start hfresh) (Nat.zero_le _) oneByte_cut trivial)
  have hdead : Dead oneByte := by
    refine ((snapshotSave_fresh _ hfresh (Nat.zero_le _)).cut oneByte_cut).dead ?_
    rintro (hb | hs)
    · have h0 := hb 0 (by decide)
      rw [oneByte_first] at h0
      exact absurd h0 (by decide)
    · have h1 := hs 1 (by decide)
      rw [oneByte_header (by decide) (by decide)] at h1
      exact absurd h1 (by decide)
  rw [hdead.load] at hzero
  exact absurd hzero (by decide)

end Z80Sbc.Env.SnapshotSafety
