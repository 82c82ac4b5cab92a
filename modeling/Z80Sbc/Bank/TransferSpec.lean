import Mathlib.Data.BitVec
import Z80Sbc.Bank.Transfer

/-! # What a transfer does

A burst copies 16 bytes between the banks and steps three counters: the source
pointer in its bank, the destination end in IX, and the count, whose low byte shares
A with the direction. The loop is followed burst by burst, and the rest is the
bookkeeping around it. -/

namespace Z80Sbc.Bank.TransferSpec
open Z80Sbc.Z80 Z80Sbc.Bank

/-! ## One burst -/

/-- The payload goes through the registers and leaves them, but for the source pointer. -/
theorem payload_exec (s : Cpu) :
    (s.exec payload).a = s.a ∧ (s.exec payload).f = s.f ∧ (s.exec payload).ix = s.ix ∧
    (s.exec payload).i = s.i ∧ (s.exec payload).iff = s.iff ∧
    (s.exec payload).bank = s.a.getLsbD 0 ∧
    (s.exec payload).mem = patch
      (store16 s.mem s.bank 0xFFF0#16 (fetch16 s.mem s.bank 0xFFF0#16 + 16)) (s.a.getLsbD 0) (s.ix - 16)
      16 (fun o => s.mem s.bank (fetch16 s.mem s.bank 0xFFF0#16 + o)) := by
  have hwords : storeWords (store16 s.mem s.bank 0xFFF0#16 (fetch16 s.mem s.bank 0xFFF0#16 + 16))
      (s.a.getLsbD 0) (s.ix - 16) (fetchWords s.mem s.bank (fetch16 s.mem s.bank 0xFFF0#16) 8) = _ :=
    storeWords_fetchWords (by decide)
  simp only [payload, Cpu.exec_cons, Cpu.exec_nil, Instr.step, Cpu.push, Cpu.getStack,
    Cpu.putStack, Cpu.put16, Cpu.get16, Cpu.rd16, Cpu.wr16, Cpu.bc, Cpu.de, Cpu.hl, bankPort,
    if_true, true_and]
  have hbit : s.a.getLsbD 0 = s.a[0] := rfl
  rw [← hwords, hbit]
  simp only [word_hi_lo, Flags.toByte_ofByte, fetchWords, storeWords, BitVec.sub_eq_add_neg,
    BitVec.add_assoc, true_and]
  rfl

/-- How the low nibble of A becomes the bank that is selected. -/
theorem direction_bits (dir : Bool) (a : Byte) (h : a.toNat % 16 = dir.toNat) :
    a[0] = dir ∧ (a - 1#8)[0] = !dir ∧
    (a.rotateRight 1).rotateLeft 1 = a ∧ (a.rotateRight 1).msb = dir ∧
    (dir = false → (a.rotateRight 1 + 1#8)[0] = true) := by
  revert a dir
  decide +kernel

/-- Between two bursts the source bank is selected, and the carry tells the direction. -/
theorem nextBurst_spec (dir : Bool) (s : Cpu) (hbank : s.bank = false)
    (ha : s.a.toNat % 16 = dir.toNat) :
    (nextBurst s).a = s.a ∧ (nextBurst s).f.c = dir ∧ (nextBurst s).bank = !dir ∧
    (nextBurst s).ix = s.ix ∧ (nextBurst s).iff = s.iff ∧ (nextBurst s).mem = s.mem := by
  obtain ⟨h0, -, hrot, hmsb, hodd⟩ := direction_bits dir s.a ha
  cases dir with
  | true => simp [nextBurst, h0, hrot, hmsb, hbank]
  | false =>
    simp [nextBurst, h0, hrot, hmsb, hodd rfl]

/-- After the payload one more step leads a write back to bank 0. -/
theorem bank0_spec (dir : Bool) (s : Cpu) (hbank : s.bank = dir) (hc : s.f.c = dir)
    (ha : s.a.toNat % 16 = dir.toNat) (t : Cpu)
    (ht : t = if !s.f.c then s else s.exec [.dec (.r .a), .out 7, .inc (.r .a)]) :
    t.a = s.a ∧ t.bank = false ∧ t.ix = s.ix ∧ t.iff = s.iff ∧ t.mem = s.mem := by
  obtain ⟨-, h1, -⟩ := direction_bits dir s.a ha
  subst ht
  cases dir with
  | true =>
    simp [hc, h1]
  | false => simp [hc, hbank]

/-! ## The loop -/

/-- At `load_payload`, with `left` bytes to go. -/
structure Loading (dir : Bool) (src dst : Word) (left : Nat) (s : Cpu) : Prop where
  bank : s.bank = !dir
  carry : s.f.c = dir
  ix : s.ix = dst + 16
  source : fetch16 s.mem (!dir) 0xFFF0#16 = src
  direction : s.mem false 0xFFF6#16 = if dir then 1 else 0
  count : ∃ groups low, left = 256 * groups + low ∧ groups < 256 ∧ 16 ≤ low ∧ low ≤ 256 ∧
    low % 16 = 0 ∧ s.a = BitVec.ofNat 8 (low + dir.toNat) ∧
    s.mem false 0xFFF4#16 = BitVec.ofNat 8 groups

/-- The private words, which are part of the page in either bank. -/
def Private (a : Word) : Prop := 0xFFF0 ≤ a.toNat ∧ a.toNat < 0xFFFA

theorem private_of_within {x a : Word} {n : Nat} (hx : 0xFFF0 ≤ x.toNat ∧ x.toNat + n ≤ 0xFFFA)
    (h : Within x n a) : Private a := by
  rw [within_iff (by omega)] at h
  exact ⟨by omega, by omega⟩

/-- Memory after the 16 bytes of a burst. -/
def burst (dir : Bool) (src dst : Word) (m : Mem) : Mem :=
  patch (store16 m (!dir) 0xFFF0#16 (src + 16)) dir dst 16 fun o => m (!dir) (src + o)

section
variable {dir : Bool} {src dst : Word} {m : Mem}

/-- A burst below the page writes one of the private words. -/
theorem burst_private {a : Word} (hdst : dst.toNat + 16 ≤ 0xFF00) (ha : 0xFFF2 ≤ a.toNat)
    (k : Bool) : burst dir src dst m k a = m k a := by
  have hout : ¬Within dst 16 a := by rw [within_iff (by omega)]; omega
  rw [burst, patch_outside hout]
  refine store16_ne ?_ ?_
  · rintro rfl
    exact absurd ha (by decide)
  · rintro rfl
    exact absurd ha (by decide)

theorem burst_source :
    fetch16 (burst dir src dst m) (!dir) 0xFFF0#16 = src + 16 := by
  have hother : burst dir src dst m (!dir) = store16 m (!dir) 0xFFF0#16 (src + 16) (!dir) :=
    patch_bank (by simp)
  rw [fetch16, hother]
  exact fetch16_store16

theorem burst_copied {k : Bool} {a : Word} (ha : ¬Private a) :
    burst dir src dst m k a = copied m dir dst (!dir) src 16 k a := by
  have hne : a ≠ 0xFFF0#16 ∧ a ≠ 0xFFF0#16 + 1 := by
    constructor
    · rintro rfl
      exact ha (by unfold Private; decide)
    · rintro rfl
      exact ha (by unfold Private; decide)
  unfold burst copied patch
  rw [store16_ne hne.1 hne.2]

end

/-- Two copies in a row, the second from what the first did not touch. -/
theorem copied_copied {dir : Bool} {src dst : Word} {n i : Nat} {m m' : Mem}
    (hsrc : src.toNat + (n + i) ≤ 0xFF00) (hdst : dst.toNat + (n + i) ≤ 0xFF00)
    (hm : ∀ k a, ¬Private a → m' k a = copied m dir dst (!dir) src n k a) {k : Bool} {a : Word}
    (ha : ¬Private a) :
    copied m' dir (dst + BitVec.ofNat 16 n) (!dir) (src + BitVec.ofNat 16 n) i k a =
      copied m dir dst (!dir) src (n + i) k a := by
  have hpatch : copied m dir dst (!dir) src (n + i) k a =
      patch (copied m dir dst (!dir) src n) dir (dst + BitVec.ofNat 16 n) i
        (fun o => m (!dir) (src + (o + BitVec.ofNat 16 n))) k a := by
    unfold copied
    rw [patch_patch (g := fun o => m (!dir) (src + o)) (by omega)]
  rw [hpatch]
  unfold copied
  by_cases hin : k = dir ∧ Within (dst + BitVec.ofNat 16 n) i a
  · obtain ⟨rfl, hw⟩ := hin
    rw [patch_inside hw, patch_inside hw]
    have hadd : src + BitVec.ofNat 16 n + (a - (dst + BitVec.ofNat 16 n)) =
        src + (a - (dst + BitVec.ofNat 16 n) + BitVec.ofNat 16 n) := by bv_omega
    have hfrom : ¬Private (src + (a - (dst + BitVec.ofNat 16 n) + BitVec.ofNat 16 n)) := by
      unfold Within at hw
      unfold Private
      bv_omega
    rw [hadd, hm _ _ hfrom]
    exact congrFun (patch_bank (by simp)) _
  · simp only [patch, if_neg hin]
    exact hm k a ha

/-- The count, one burst on. -/
theorem count_step {a : Byte} {low : Nat} {dir : Bool} (h16 : 16 ≤ low) (h256 : low ≤ 256)
    (ha : a = BitVec.ofNat 8 (low + dir.toNat)) : (a - 16#8).toNat = low - 16 + dir.toNat := by
  have hdir := dir.toNat_lt
  subst ha
  rw [BitVec.toNat_sub, BitVec.toNat_ofNat]
  simp only [BitVec.toNat_ofNat]
  omega

/-- From `load_payload` to `advance`. -/
theorem burst_spec {dir : Bool} {src dst : Word} {left : Nat} {s : Cpu}
    (h : Loading dir src dst left s) : ∃ t : Cpu,
      (∀ n, loadPayload (n + 1) s = advance (loadPayload n) t) ∧ t.a = s.a ∧ t.bank = false ∧
      t.ix = dst + 16 ∧ t.iff = s.iff ∧ t.mem = burst dir src dst s.mem := by
  obtain ⟨groups, low, -, -, h16, h256, hmod, ha, -⟩ := h.count
  have hlow : s.a.toNat % 16 = dir.toNat := by
    have hdir := dir.toNat_lt
    rw [ha, BitVec.toNat_ofNat]
    omega
  obtain ⟨pa, pf, pix, -, piff, pbank, pmem⟩ := payload_exec s
  have h0 : s.a.getLsbD 0 = dir := (direction_bits dir s.a hlow).1
  have hpa : (s.exec payload).a.toNat % 16 = dir.toNat := by rw [pa, hlow]
  obtain ⟨ta, tbank, tix, tiff, tmem⟩ := bank0_spec dir (s.exec payload) (pbank.trans h0)
    (by rw [pf, h.carry]) hpa _ rfl
  refine ⟨_, fun n => rfl, ta.trans pa, tbank, tix.trans (pix.trans h.ix), tiff.trans piff, ?_⟩
  rw [tmem, pmem, h0, h.bank, h.source, h.ix, BitVec.add_sub_cancel]
  rfl

/-- `next_burst` leads to `load_payload`. -/
theorem Loading.next {dir : Bool} {src dst : Word} {left : Nat} {u : Cpu} (hbank : u.bank = false)
    (hix : u.ix = dst + 16) (hsource : fetch16 u.mem (!dir) 0xFFF0#16 = src)
    (hdir : u.mem false 0xFFF6#16 = if dir then 1 else 0)
    (hcount : ∃ groups low, left = 256 * groups + low ∧ groups < 256 ∧ 16 ≤ low ∧ low ≤ 256 ∧
      low % 16 = 0 ∧ u.a = BitVec.ofNat 8 (low + dir.toNat) ∧
      u.mem false 0xFFF4#16 = BitVec.ofNat 8 groups) :
    Loading dir src dst left (nextBurst u) ∧ (nextBurst u).iff = u.iff ∧
      (nextBurst u).mem = u.mem := by
  have hlow : u.a.toNat % 16 = dir.toNat := by
    obtain ⟨groups, low, -, -, -, -, hmod, ha, -⟩ := hcount
    have hd := dir.toNat_lt
    rw [ha, BitVec.toNat_ofNat]
    omega
  obtain ⟨na, ncarry, nbank, nix, niff, nmem⟩ := nextBurst_spec dir u hbank hlow
  refine ⟨⟨nbank, ncarry, nix.trans hix, ?_, ?_, ?_⟩, niff, nmem⟩
  · rw [nmem, hsource]
  · rw [nmem, hdir]
  · rw [na, nmem]
    exact hcount

/-- From `advance` to `finish`, or to `load_payload` with 16 bytes fewer to go. -/
theorem advance_spec {dir : Bool} {src dst : Word} {groups low : Nat} {t : Cpu}
    (hbank : t.bank = false) (hix : t.ix = dst + 16)
    (hsource : fetch16 t.mem (!dir) 0xFFF0#16 = src + 16)
    (hdir : t.mem false 0xFFF6#16 = if dir then 1 else 0) (hgroups : groups < 256)
    (h16 : 16 ≤ low) (h256 : low ≤ 256) (hmod : low % 16 = 0)
    (ha : t.a = BitVec.ofNat 8 (low + dir.toNat))
    (hcount : t.mem false 0xFFF4#16 = BitVec.ofNat 8 groups) :
    ∃ v : Cpu, v.iff = t.iff ∧ (∀ k a, ¬(k = false ∧ a = 0xFFF4#16) → v.mem k a = t.mem k a) ∧
      ((256 * groups + low = 16 ∧ v.bank = false ∧ ∀ next, advance next t = some (finish v)) ∨
        (16 < 256 * groups + low ∧ Loading dir (src + 16) (dst + 16) (256 * groups + low - 16) v ∧
          ∀ next, advance next t = next v)) := by
  have hcmp := count_step h16 h256 ha
  have hd := dir.toNat_lt
  obtain ⟨u, hu, ua, uc, ubank, uix, uiff, umem⟩ : ∃ u : Cpu,
      u = t.exec [.ld16 .de 16, .add16 .ix .de, .sub (.n 16), .cp (.n 16)] ∧ u.a = t.a - 16#8 ∧
      u.f.c = decide ((t.a - 16#8).toNat < 16) ∧ u.bank = false ∧ u.ix = dst + 16 + 16 ∧
      u.iff = t.iff ∧ u.mem = t.mem :=
    ⟨_, rfl, by simp, by simp, by simp [hbank], by simp [hix], by simp, by simp⟩
  by_cases hlow : low = 16
  · -- the last burst of a group
    obtain ⟨w, hw, wz, wbank, wix, wiff, wmem⟩ : ∃ w : Cpu,
        w = u.exec [.ld16 .hl 0xFFF4, .dec .hl, .ld (.r .a) .hl, .inc (.r .a)] ∧
        w.f.z = decide (BitVec.ofNat 8 groups = 0) ∧ w.bank = false ∧ w.ix = dst + 16 + 16 ∧
        w.iff = t.iff ∧ w.mem = store t.mem false 0xFFF4#16 (BitVec.ofNat 8 groups - 1) := by
      refine ⟨_, rfl, ?_, by simp [ubank], by simp [uix], by simp [uiff], ?_⟩
      · simp [umem, ubank, hcount]
      · simp [umem, ubank, hcount]
    have hother : ∀ k a, ¬(k = false ∧ a = 0xFFF4#16) → w.mem k a = t.mem k a := by
      intro k a hne
      rw [wmem]
      simp only [store, if_neg hne]
    have hc : u.f.c = true := by rw [uc, decide_eq_true_eq]; omega
    have hadvance (next : Cpu → Option Cpu) : advance next t = if w.f.z then some (finish w)
        else next (nextBurst (w.exec [.ld (.r .a) (.m 0xFFF6)])) := by
      simp only [advance]
      rw [← hu, hc, ← hw]
      rfl
    by_cases hzero : groups = 0
    · refine ⟨w, wiff, hother, Or.inl ⟨by omega, wbank, ?_⟩⟩
      intro next
      rw [hadvance, wz, hzero]
      rfl
    · have hz : w.f.z = false := by
        rw [wz, decide_eq_false_iff_not]
        bv_omega
      have hx : (w.exec [.ld (.r .a) (.m 0xFFF6)]).mem = w.mem := rfl
      have hxa : (w.exec [.ld (.r .a) (.m 0xFFF6)]).a = BitVec.ofNat 8 (256 + dir.toNat) := by
        have ha : w.mem w.bank 0xFFF6#16 = if dir then 1 else 0 := by
          rw [wbank, hother _ _ (by decide), hdir]
        simp [ha]
        cases dir <;> rfl
      have hload : Loading dir (src + 16) (dst + 16) (256 * groups + low - 16) _ ∧ _ ∧ _ :=
        Loading.next (u := w.exec [.ld (.r .a) (.m 0xFFF6)]) wbank wix
          (by rw [hx, ← hsource, fetch16, fetch16, hother _ _ (by simp), hother _ _ (by simp)])
          (by rw [hx, hother _ _ (by simp), hdir])
          ⟨groups - 1, 256, by omega, by omega, by omega, by omega, by omega, hxa, by
            rw [hx, wmem, store_same]
            bv_omega⟩
      refine ⟨_, hload.2.1.trans wiff, ?_, Or.inr ⟨by omega, hload.1, fun next => ?_⟩⟩
      · rw [hload.2.2]
        exact hother
      · rw [hadvance, hz]
        rfl
  · -- more of this group
    have hc : u.f.c = false := by rw [uc, decide_eq_false_iff_not]; omega
    have ua' : u.a = BitVec.ofNat 8 (low - 16 + dir.toNat) := by
      rw [ua]
      bv_omega
    rw [← umem] at hsource hdir hcount
    obtain ⟨hload, hiff, hm⟩ : Loading dir (src + 16) (dst + 16) (256 * groups + low - 16)
        (nextBurst u) ∧ _ ∧ _ := Loading.next ubank uix hsource hdir
      ⟨groups, low - 16, by omega, hgroups, by omega, by omega, by omega, ua', hcount⟩
    refine ⟨nextBurst u, hiff.trans uiff, fun k a _ => by rw [hm, umem], Or.inr ⟨by omega, hload, ?_⟩⟩
    intro next
    simp only [advance]
    rw [← hu, hc]
    rfl

/-- **The loop** copies what is left, and comes to `finish` in bank 0. -/
theorem loadPayload_spec {dir : Bool} {src dst : Word} {left fuel : Nat} {s : Cpu}
    (h : Loading dir src dst left s) (hsrc : src.toNat + left ≤ 0xFF00)
    (hdst : dst.toNat + left ≤ 0xFF00) (hfuel : left ≤ 16 * fuel) :
    ∃ t, loadPayload fuel s = some (finish t) ∧ t.bank = false ∧ t.iff = s.iff ∧
      (∀ k a, ¬Private a → t.mem k a = copied s.mem dir dst (!dir) src left k a) ∧
      fetch16 t.mem false 0xFFF8#16 = fetch16 s.mem false 0xFFF8#16 := by
  induction fuel generalizing src dst left s with
  | zero =>
    obtain ⟨groups, low, hleft, -, h16, -⟩ := h.count
    omega
  | succ fuel ih =>
    obtain ⟨groups, low, rfl, hgroups, h16, h256, hmod, ha, hcount⟩ := h.count
    obtain ⟨t, hstep, ta, tbank, tix, tiff, tmem⟩ := burst_spec h
    have hpriv (a : Word) (hge : 0xFFF2 ≤ a.toNat) : t.mem false a = s.mem false a := by
      rw [tmem]
      exact burst_private (by omega) hge false
    have hsource : fetch16 t.mem (!dir) 0xFFF0#16 = src + 16 := by
      rw [tmem]
      exact burst_source
    obtain ⟨v, viff, vmem, hv⟩ := advance_spec tbank tix hsource
      ((hpriv _ (by decide)).trans h.direction) hgroups h16 h256 hmod (ta.trans ha)
      ((hpriv _ (by decide)).trans hcount)
    have vcopy : ∀ k a, ¬Private a → v.mem k a = copied s.mem dir dst (!dir) src 16 k a := by
      intro k a hnp
      have hne : ¬(k = false ∧ a = 0xFFF4#16) := by
        rintro ⟨-, rfl⟩
        exact hnp (by unfold Private; decide)
      rw [vmem k a hne, tmem]
      exact burst_copied hnp
    have vsaved : fetch16 v.mem false 0xFFF8#16 = fetch16 s.mem false 0xFFF8#16 := by
      refine fetch16_congr ?_ ?_
      · rw [vmem _ _ (by simp), hpriv _ (by decide)]
      · rw [vmem _ _ (by simp), hpriv _ (by decide)]
    rcases hv with ⟨hlast, vbank, hfinish⟩ | ⟨hmore, hload, hnext⟩
    · exact ⟨v, by rw [hstep, hfinish], vbank, viff.trans tiff, by rwa [hlast], vsaved⟩
    · obtain ⟨w, hw, wbank, wiff, wmem, wsaved⟩ := ih hload (by bv_omega) (by bv_omega) (by omega)
      refine ⟨w, by rw [hstep, hnext, hw], wbank, wiff.trans (viff.trans tiff), ?_,
        wsaved.trans vsaved⟩
      intro k a hnp
      rw [wmem k a hnp]
      have hsum : 256 * groups + low = 16 + (256 * groups + low - 16) := by omega
      rw [hsum] at hsrc hdst ⊢
      rw [Nat.add_sub_cancel_left]
      exact copied_copied hsrc hdst vcopy hnp

/-! ## The caller's registers -/

/-- `finish` takes IY, IX, the interrupt enable and the return address from the stack
that was saved at FFF8h. -/
theorem finish_spec {t : Cpu} {sp : Word} (hbank : t.bank = false)
    (hsp : fetch16 t.mem false 0xFFF8#16 = sp) :
    (finish t).iy = fetch16 t.mem false sp ∧ (finish t).ix = fetch16 t.mem false (sp + 2#16) ∧
    (finish t).iff = (t.iff || (Flags.ofByte (t.mem false (sp + 4#16))).p) ∧
    (finish t).pc = fetch16 t.mem false (sp + 6#16) ∧ (finish t).sp = sp + 8#16 ∧
    (finish t).a = 0 ∧ (finish t).f.c = false ∧ (finish t).bank = false ∧
    (finish t).mem = t.mem := by
  subst hsp
  have hlo (a : Word) : lo (fetch16 t.mem false a) = t.mem false a := lo_word _ _
  cases hp : (Flags.ofByte (t.mem false (fetch16 t.mem false 0xFFF8#16 + 4#16))).p with
  | false => simp [finish, restoreInterrupts, interruptsOff, Cpu.ret, hbank, hp, hlo, BitVec.add_assoc]
  | true => simp [finish, restoreInterrupts, Cpu.ret, hbank, hp, hlo, BitVec.add_assoc]

/-- Memory after `validated` has saved the registers. -/
def savedMem (s : Cpu) : Mem :=
  store16 (store16 (store16 (store16 s.mem false (s.sp - 2) (word s.i (s.exec [.ldAI]).f.toByte))
    false (s.sp - 4) s.ix) false (s.sp - 6) s.iy) false 0xFFF8#16 (s.sp - 6)

/-- The stack a call of the page uses: the return address and the saved registers. -/
def StackOk (sp : Word) : Prop := ∀ a, Within (sp - 6) 8 a → a.toNat < 0xFF00 ∨ 0xFFFA ≤ a.toNat

theorem savedMem_outside {s : Cpu} {k : Bool} {a : Word}
    (h : ¬(k = false ∧ (Within (s.sp - 6) 6 a ∨ Within 0xFFF8#16 2 a))) :
    savedMem s k a = s.mem k a := by
  have hin {x : Word} (hx : x = s.sp - 2 ∨ x = s.sp - 4 ∨ x = s.sp - 6) :
      ¬(k = false ∧ Within x 2 a) := by
    rintro ⟨hk, hw⟩
    refine h ⟨hk, Or.inl ?_⟩
    unfold Within at hw ⊢
    rcases hx with rfl | rfl | rfl
    · bv_omega
    · bv_omega
    · bv_omega
  have h8 : ¬(k = false ∧ Within 0xFFF8#16 2 a) := fun hw => h ⟨hw.1, Or.inr hw.2⟩
  unfold savedMem
  rw [store16_outside h8, store16_outside (hin (by simp)), store16_outside (hin (by simp)),
    store16_outside (hin (by simp))]

/-- What is saved can be found again. -/
theorem savedMem_slots {s : Cpu} (h : StackOk s.sp) :
    fetch16 (savedMem s) false 0xFFF8#16 = s.sp - 6 ∧
    fetch16 (savedMem s) false (s.sp - 6) = s.iy ∧ fetch16 (savedMem s) false (s.sp - 4) = s.ix ∧
    (Flags.ofByte (savedMem s false (s.sp - 2))).p = s.iff := by
  have hfar {x : Word} (hx : Within (s.sp - 6) 8 x) : ¬Within 0xFFF8#16 2 x := by
    have hx := h x hx
    unfold Within
    bv_omega
  have hout (x y : Word) (hxy : x + 2 = y) : ¬Within x 2 y ∧ ¬Within x 2 (y + 1) := by
    unfold Within
    constructor
    · bv_omega
    · bv_omega
  have h6 : Within (s.sp - 6) 8 (s.sp - 6) ∧ Within (s.sp - 6) 8 (s.sp - 6 + 1) := by
    unfold Within
    exact ⟨by bv_omega, by bv_omega⟩
  have h4 : Within (s.sp - 6) 8 (s.sp - 4) ∧ Within (s.sp - 6) 8 (s.sp - 4 + 1) := by
    unfold Within
    exact ⟨by bv_omega, by bv_omega⟩
  have h2 : Within (s.sp - 6) 8 (s.sp - 2) := by
    unfold Within
    bv_omega
  have h64 := hout (s.sp - 6) (s.sp - 4) (by bv_omega)
  refine ⟨fetch16_store16, ?_, ?_, ?_⟩
  · unfold savedMem
    rw [fetch16_outside (hfar h6.1) (hfar h6.2), fetch16_store16]
  · unfold savedMem
    rw [fetch16_outside (hfar h4.1) (hfar h4.2), fetch16_outside h64.1 h64.2, fetch16_store16]
  · have h62 : ¬Within (s.sp - 6) 2 (s.sp - 2) := by
      unfold Within
      bv_omega
    have h42 : ¬Within (s.sp - 4) 2 (s.sp - 2) := by
      unfold Within
      bv_omega
    unfold savedMem
    rw [store16_outside fun hw => hfar h2 hw.2, store16_outside fun hw => h62 hw.2,
      store16_outside fun hw => h42 hw.2, store16_lo, lo_word]
    simp

/-- The page runs with the arguments it has checked. -/
structure Checked (dir : Bool) (base offset count : Word) (s : Cpu) : Prop where
  bank : s.bank = false
  stack : StackOk s.sp
  base : fetch16 s.mem false 0xFFF0#16 = base
  offset : fetch16 s.mem false 0xFFF2#16 = offset
  direction : s.mem false 0xFFF6#16 = if dir then 1 else 0
  bc : s.bc = count
  positive : 0 < count.toNat
  multiple : count.toNat % 16 = 0

/-- Where the bytes come from, and where they go. -/
def source (dir : Bool) (base offset : Word) : Word := if dir then base else offset

def target (dir : Bool) (base offset : Word) : Word := if dir then offset else base

theorem count_bits (dir : Bool) (c : Byte) (h : c.toNat % 16 = 0) :
    ((if dir then 1#8 else 0#8) + c)[0] = dir ∧
      (if dir then 1#8 else 0#8) + c = BitVec.ofNat 8 (c.toNat + dir.toNat) ∧
      ((if dir then 1#8 else 0#8) : Byte).toNat + c.toNat < 256 ∧ (c + 1#8)[0] = true := by
  revert c dir
  decide +kernel

/-- From `validated` to the first `load_payload`. -/
theorem validated_spec {dir : Bool} {base offset count : Word} {s : Cpu}
    (h : Checked dir base offset count s) :
    ∃ u : Cpu, validated s = loadPayload 4064 u ∧ u.iff = false ∧
      Loading dir (source dir base offset) (target dir base offset) count.toNat u ∧
      (∀ k a, ¬Within 0xFFF0#16 8 a → u.mem k a = savedMem s k a) := by
  obtain ⟨hbank, hstack, hbase, hoffset, hdir, hbc, hpos, hmul⟩ := h
  have hkeep (a : Word) (ha : Within 0xFFF0#16 8 a) : savedMem s false a = s.mem false a := by
    refine savedMem_outside ?_
    rintro ⟨-, hw | hw⟩
    · have hs := hstack a (hw.mono (by decide))
      unfold Within at ha
      bv_omega
    · unfold Within at ha hw
      bv_omega
  have hF0 : fetch16 (savedMem s) false 0xFFF0#16 = base := by
    rw [fetch16_congr (hkeep _ (by decide)) (hkeep _ (by decide)), hbase]
  have hF2 : fetch16 (savedMem s) false 0xFFF2#16 = offset := by
    rw [fetch16_congr (hkeep _ (by decide)) (hkeep _ (by decide)), hoffset]
  have hF6 : savedMem s false 0xFFF6#16 = if dir then 1#8 else 0#8 := by
    rw [hkeep _ (by decide), hdir]
    rfl
  -- the registers are saved
  obtain ⟨v, hv, vb, vc, vbank, viff, vmem⟩ : ∃ v : Cpu,
      v = s.exec [.ldAI, .di, .push .af, .push .ix, .push .iy, .stMem16 0xFFF8 .sp] ∧ v.b = s.b ∧
      v.c = s.c ∧ v.bank = false ∧ v.iff = false ∧ v.mem = savedMem s := by
    refine ⟨_, rfl, by simp, by simp, by simp [hbank], by simp, ?_⟩
    simp [savedMem, BitVec.sub_eq_add_neg, BitVec.add_assoc, hbank]
  -- the pointers, and whether they change places
  obtain ⟨u, hu, uhl, ude, ub, uc, ubank, uiff, umem⟩ : ∃ u : Cpu,
      u = (let t := v.exec [.ldMem16 .hl 0xFFF0, .ldMem16 .de 0xFFF2, .ld (.r .a) (.m 0xFFF6),
        .or (.r .a)]
        if !t.f.z then t else t.exec [.exDeHl]) ∧ u.hl = source dir base offset ∧
      u.de = target dir base offset ∧ u.b = s.b ∧ u.c = s.c ∧ u.bank = false ∧ u.iff = false ∧
      u.mem = savedMem s := by
    refine ⟨_, rfl, ?_⟩
    cases dir with
    | true =>
      rw [if_pos rfl] at hF6
      simp [vb, vc, vbank, viff, vmem, hF0, hF2, hF6, source, target]
    | false =>
      rw [if_neg Bool.false_ne_true] at hF6
      simp [vb, vc, vbank, viff, vmem, hF0, hF2, hF6, source, target]
  -- the count
  have hb : s.b.toNat * 256 + s.c.toNat = count.toNat := by rw [← hbc, Cpu.bc, toNat_word]
  have hbt := s.b.isLt
  have hct := s.c.isLt
  obtain ⟨w, hw, wb, wc, wh, wl, wix, wbank, wiff, wmem⟩ : ∃ w : Cpu,
      w = (let t := u.exec [.ld16 .ix 16, .add16 .ix .de, .ld (.r .a) (.r .c), .or (.r .a)]
        if !t.f.z then t else t.exec [.dec (.r .b)]) ∧
      w.b = BitVec.ofNat 8 ((count.toNat - 16) / 256) ∧ w.c = s.c ∧ w.h = u.h ∧ w.l = u.l ∧
      w.ix = target dir base offset + 16 ∧ w.bank = false ∧ w.iff = false ∧ w.mem = savedMem s := by
    refine ⟨_, rfl, ?_⟩
    have hix : 16#16 + word u.d u.e = target dir base offset + 16#16 := by
      rw [BitVec.add_comm]
      exact congrArg (· + 16#16) ude
    by_cases hc : s.c = 0#8
    · have hlast : s.b - 1#8 = BitVec.ofNat 8 ((count.toNat - 16) / 256) := by
        have h0 : s.c.toNat = 0 := by rw [hc]; rfl
        bv_omega
      simp [uc, ub, hc, hix, hlast, ubank, uiff, umem]
    · have hlast : s.b = BitVec.ofNat 8 ((count.toNat - 16) / 256) := by bv_omega
      simp [uc, ub, hc, hix, hlast, ubank, uiff, umem]
  have hlow : s.c.toNat % 16 = 0 := by omega
  obtain ⟨hbit, hsum, hlt, hnext⟩ := count_bits dir s.c hlow
  rw [hsum] at hbit
  obtain ⟨x, hx, xa, xz, xc, xh, xl, xix, xbank, xiff, xmem⟩ : ∃ x : Cpu,
      x = w.exec [.ld (.r .a) (.r .b), .ld (.m 0xFFF4) (.r .a), .ld (.r .a) (.m 0xFFF6),
        .add (.r .c), .bit 0 .a] ∧ x.a = BitVec.ofNat 8 (s.c.toNat + dir.toNat) ∧ x.f.z = !dir ∧
      x.f.c = false ∧ x.h = u.h ∧ x.l = u.l ∧ x.ix = target dir base offset + 16 ∧
      x.bank = false ∧ x.iff = false ∧
      x.mem = store (savedMem s) false 0xFFF4#16 (BitVec.ofNat 8 ((count.toNat - 16) / 256)) := by
    refine ⟨_, rfl, ?_⟩
    have hF6' : store (savedMem s) false 0xFFF4#16 (BitVec.ofNat 8 ((count.toNat - 16) / 256)) false
        0xFFF6#16 = if dir then 1#8 else 0#8 := by rw [store_ne (by decide), hF6]
    simp [wb, wc, wh, wl, wix, wbank, wiff, wmem, hF6', hbit, hsum]
    exact hlt
  have hstore {a : Word} (ha : a ≠ 0xFFF4#16) {k : Bool} : x.mem k a = savedMem s k a := by
    rw [xmem, store_ne ha]
  have hcount : ∃ groups low, count.toNat = 256 * groups + low ∧ groups < 256 ∧ 16 ≤ low ∧
      low ≤ 256 ∧ low % 16 = 0 ∧ x.a = BitVec.ofNat 8 (low + dir.toNat) ∧
      x.mem false 0xFFF4#16 = BitVec.ofNat 8 groups := by
    refine ⟨(count.toNat - 16) / 256, (count.toNat - 16) % 256 + 16, by omega, by omega, by omega,
      by omega, by omega, ?_, by rw [xmem, store_same]⟩
    rw [xa]
    bv_omega
  have hstart : validated s = if !x.f.z then loadPayload 4064 (nextBurst x)
      else loadPayload 4064 (x.exec [.inc (.r .a), .out 7, .dec (.r .a), .stMem16 0xFFF0 .hl]) := by
    simp only [validated]
    rw [hx, hw, hu, hv, ← Cpu.exec_append]
    rfl
  have hdir' : x.mem false 0xFFF6#16 = if dir then 1 else 0 := by
    rw [hstore (by decide), hF6]
    rfl
  have hothers : ∀ k a, ¬Within 0xFFF0#16 8 a → x.mem k a = savedMem s k a := by
    intro k a hout
    refine hstore ?_
    rintro rfl
    exact hout (by decide)
  cases dir with
  | true =>
    have hsource : fetch16 x.mem false 0xFFF0#16 = source true base offset := by
      rw [fetch16_congr (hstore (by decide)) (hstore (by decide)), hF0]
      rfl
    obtain ⟨hload, hiff, hmem⟩ : Loading true (source true base offset) (target true base offset)
        count.toNat (nextBurst x) ∧ _ ∧ _ := Loading.next xbank xix hsource hdir' hcount
    refine ⟨nextBurst x, ?_, hiff.trans xiff, hload, ?_⟩
    · rw [hstart, xz, if_pos (by decide)]
    · rw [hmem]
      exact hothers
  | false =>
    have ha : x.a = s.c := by
      rw [xa]
      bv_omega
    have hhl : x.hl = source false base offset := by
      rw [Cpu.hl, xh, xl]
      exact uhl
    refine ⟨x.exec [.inc (.r .a), .out 7, .dec (.r .a), .stMem16 0xFFF0 .hl], ?_, by simp [xiff],
      ⟨?_, ?_, ?_, ?_, ?_, ?_⟩, ?_⟩
    · rw [hstart, xz, Bool.not_false, Bool.not_true, if_neg Bool.false_ne_true]
    · simp [ha, hnext]
    · simp [xc]
    · simp [xix]
    · simp [ha, hnext]
      exact hhl
    · rw [← hdir']
      simp [ha, hnext, store16_bank]
    · obtain ⟨groups, low, hg⟩ := hcount
      refine ⟨groups, low, ?_⟩
      simp [ha, hnext, store16_bank]
      simpa [ha] using hg
    · intro k a hout
      rw [← hothers k a hout]
      have hin : ¬(k = true ∧ Within 0xFFF0#16 2 a) := fun hw => hout (hw.2.mono (by decide))
      simp [ha, hnext]
      exact store16_outside hin

/-! ## The checks -/

/-- What the page accepts. -/
def Accepts (base offset count : Word) : Prop :=
  count.toNat % 16 = 0 ∧ 0x100 ≤ base.toNat ∧ base.toNat + count.toNat ≤ 0xFF00 ∧
    offset.toNat + count.toNat ≤ 0xFF00

instance (base offset count : Word) : Decidable (Accepts base offset count) :=
  inferInstanceAs (Decidable (_ ∧ _))

/-- During the checks only the private words of bank 0 change. -/
structure Checking (s t : Cpu) : Prop where
  bank : t.bank = false
  ix : t.ix = s.ix
  iy : t.iy = s.iy
  sp : t.sp = s.sp
  iff : t.iff = s.iff
  mem : ∀ k a, ¬(k = false ∧ Private a) → t.mem k a = s.mem k a

/-- How the page returns when it has not copied anything. -/
structure Returned (s t : Cpu) : Prop where
  bank : t.bank = false
  ix : t.ix = s.ix
  iy : t.iy = s.iy
  sp : t.sp = s.sp + 2
  iff : t.iff = s.iff
  pc : t.pc = fetch16 s.mem false s.sp

theorem StackOk.private {sp : Word} (h : StackOk sp) {a : Word} (ha : Within (sp - 6) 8 a) :
    ¬Private a := by
  have hs := h a ha
  unfold Private
  omega

/-- The return address and its second byte. -/
theorem within_stack (sp : Word) : Within (sp - 6) 8 sp ∧ Within (sp - 6) 8 (sp + 1) := by
  unfold Within
  exact ⟨by bv_omega, by bv_omega⟩

theorem Checking.ret {s t : Cpu} (h : Checking s t) (hstack : StackOk s.sp) : Returned s t.ret := by
  obtain ⟨h0, h1⟩ := within_stack s.sp
  have hpc : fetch16 t.mem false s.sp = fetch16 s.mem false s.sp :=
    fetch16_congr (h.mem _ _ fun hp => hstack.private h0 hp.2)
      (h.mem _ _ fun hp => hstack.private h1 hp.2)
  refine ⟨h.bank, h.ix, h.iy, ?_, h.iff, ?_⟩
  · rw [← h.sp]
    rfl
  · rw [← hpc, ← h.sp, ← h.bank]
    rfl

/-- A rejected call. -/
structure Rejected (s t : Cpu) : Prop extends Returned s t where
  a : t.a = 2
  carry : t.f.c = true
  mem : ∀ k a, ¬(k = false ∧ Private a) → t.mem k a = s.mem k a

theorem Checking.invalid {s t : Cpu} (h : Checking s t) (hstack : StackOk s.sp) :
    Rejected s (invalid t) := by
  have h' : Checking s (t.exec [.ld (.r .a) (.n 2), .scf]) :=
    ⟨h.bank, h.ix, h.iy, h.sp, h.iff, h.mem⟩
  exact ⟨h'.ret hstack, rfl, rfl, h'.mem⟩

theorem or_zero (b c : Byte) : b ||| c = 0#8 ↔ b = 0#8 ∧ c = 0#8 := by
  constructor
  · intro h
    have hb (i : Nat) : (b ||| c).getLsbD i = false := by rw [h]; simp
    simp only [BitVec.getLsbD_or, Bool.or_eq_false_iff] at hb
    exact ⟨BitVec.eq_of_getLsbD_eq fun i _ => by simp [(hb i).1],
      BitVec.eq_of_getLsbD_eq fun i _ => by simp [(hb i).2]⟩
  · rintro ⟨rfl, rfl⟩
    rfl

theorem and_15 (c : Byte) : c &&& 15#8 = 0#8 ↔ c.toNat % 16 = 0 := by
  revert c
  decide +kernel

theorem inc_zero (b : Byte) : b + 1#8 = 0#8 ↔ b.toNat = 255 := by
  constructor
  · intro h
    bv_omega
  · intro h
    bv_omega

/-- Memory when both ranges are being checked. -/
def checkedMem (s : Cpu) : Mem :=
  store16 (store16 (store s.mem false 0xFFF6#16 s.a) false 0xFFF0#16 s.hl) false 0xFFF2#16 s.de

theorem checkedMem_outside {s : Cpu} {k : Bool} {a : Word} (h : ¬(k = false ∧ Private a)) :
    checkedMem s k a = s.mem k a := by
  have hin {x : Word} {n : Nat} (hx : 0xFFF0 ≤ x.toNat ∧ x.toNat + n ≤ 0xFFFA) :
      ¬(k = false ∧ Within x n a) := fun hw => h ⟨hw.1, private_of_within hx hw.2⟩
  have h6 : ¬(k = false ∧ a = 0xFFF6#16) := by
    rintro ⟨hk, rfl⟩
    exact h ⟨hk, by unfold Private; decide⟩
  unfold checkedMem
  rw [store16_outside (hin (by decide)), store16_outside (hin (by decide))]
  simp only [store, if_neg h6]

theorem checkedMem_words (s : Cpu) :
    fetch16 (checkedMem s) false 0xFFF0#16 = s.hl ∧ fetch16 (checkedMem s) false 0xFFF2#16 = s.de ∧
      checkedMem s false 0xFFF6#16 = s.a := by
  unfold checkedMem
  refine ⟨?_, fetch16_store16, ?_⟩
  · rw [fetch16_outside (by decide) (by decide), fetch16_store16]
  · rw [store16_outside (by decide), store16_outside (by decide), store_same]

/-- From `base_end_valid`: the end in HL is checked. -/
theorem baseEndValid_spec {s t : Cpu} {dir : Bool} {base offset count : Word} (h : Checking s t)
    (hstack : StackOk s.sp) (hc : Checked dir base offset count t) :
    (0xFF00 < t.hl.toNat ∧ ∃ u, baseEndValid t = some u ∧ Rejected s u) ∨
      (t.hl.toNat ≤ 0xFF00 ∧ ∃ u, baseEndValid t = validated u ∧ Checking s u ∧
        Checked dir base offset count u) := by
  have hhl : t.hl.toNat = t.h.toNat * 256 + t.l.toNat := toNat_word _ _
  have hlt := t.l.isLt
  have hht := t.h.isLt
  obtain ⟨u, hu, uz, ul, hu1, hu2⟩ : ∃ u : Cpu, u = t.exec [.inc (.r .h)] ∧
      u.f.z = decide (t.h + 1#8 = 0#8) ∧ u.l = t.l ∧ Checking s u ∧
      Checked dir base offset count u :=
    ⟨_, rfl, rfl, rfl, ⟨h.bank, h.ix, h.iy, h.sp, h.iff, h.mem⟩,
      ⟨hc.bank, hc.stack, hc.base, hc.offset, hc.direction, hc.bc, hc.positive, hc.multiple⟩⟩
  simp only [baseEndValid, ← hu, uz]
  by_cases hh : t.h + 1#8 = 0#8
  · obtain ⟨w, hw, wz, hw1, hw2⟩ : ∃ w : Cpu, w = u.exec [.ld (.r .a) (.r .l), .or (.r .a)] ∧
        w.f.z = decide (t.l = 0#8) ∧ Checking s w ∧ Checked dir base offset count w := by
      refine ⟨_, rfl, by simp [ul], ⟨hu1.bank, hu1.ix, hu1.iy, hu1.sp, hu1.iff, hu1.mem⟩,
        ⟨hu2.bank, hu2.stack, hu2.base, hu2.offset, hu2.direction, hu2.bc, hu2.positive,
          hu2.multiple⟩⟩
    rw [inc_zero] at hh
    simp only [← hw, wz]
    by_cases hl : t.l = 0#8
    · have h0 : t.l.toNat = 0 := by rw [hl]; rfl
      exact Or.inr ⟨by omega, w, by simp [hh, hl, inc_zero], hw1, hw2⟩
    · have h0 : t.l.toNat ≠ 0 := fun h0 => hl (BitVec.eq_of_toNat_eq h0)
      exact Or.inl ⟨by omega, _, by simp [hh, hl, inc_zero], hw1.invalid hstack⟩
  · have hne : t.h.toNat ≠ 255 := fun h255 => hh ((inc_zero _).mpr h255)
    exact Or.inr ⟨by omega, u, by simp [hh], hu1, hu2⟩

/-- What the checks lead to: the return of an empty call, a rejection, or `validated`. -/
theorem transfer_checks {dir : Bool} {s : Cpu} (hbank : s.bank = false) (hstack : StackOk s.sp)
    (ha : s.a = if dir then 1 else 0) :
    (s.bc = 0 ∧ ∃ t, transfer s = some t ∧ Returned s t ∧ t.a = 0 ∧ t.f.c = false ∧
      ∀ k a, ¬(k = false ∧ a = 0xFFF6#16) → t.mem k a = s.mem k a) ∨
    (s.bc ≠ 0 ∧ ¬Accepts s.hl s.de s.bc ∧ ∃ t, transfer s = some t ∧ Rejected s t) ∨
    (s.bc ≠ 0 ∧ Accepts s.hl s.de s.bc ∧ ∃ u, transfer s = validated u ∧ Checking s u ∧
      Checked dir s.hl s.de s.bc u) := by
  have hbc : s.bc.toNat = s.b.toNat * 256 + s.c.toNat := toNat_word _ _
  have hhl : s.hl.toNat = s.h.toNat * 256 + s.l.toNat := toNat_word _ _
  have hct := s.c.isLt
  have hlt := s.l.isLt
  have hzero : s.b ||| s.c = 0#8 ↔ s.bc = 0 := by
    rw [or_zero]
    constructor
    · rintro ⟨hb, hc⟩
      rw [Cpu.bc, hb, hc]
      rfl
    · intro h0
      have h0 : s.bc.toNat = 0 := by rw [h0]; rfl
      exact ⟨BitVec.eq_of_toNat_eq (by simp; omega), BitVec.eq_of_toNat_eq (by simp; omega)⟩
  have hwords : ∀ k a, ¬(k = false ∧ Private a) →
      store s.mem false 0xFFF6#16 s.a k a = s.mem k a := by
    intro k a hout
    have h6 : ¬(k = false ∧ a = 0xFFF6#16) := by
      rintro ⟨hk, rfl⟩
      exact hout ⟨hk, by unfold Private; decide⟩
    simp only [store, if_neg h6]
  -- the count
  obtain ⟨u, hu, uz, ua, uc, uh, uhl, ude, ubc, hu1, umem⟩ : ∃ u : Cpu,
      u = s.exec [.ld (.m 0xFFF6) (.r .a), .ld (.r .a) (.r .b), .or (.r .c)] ∧
      u.f.z = decide (s.b ||| s.c = 0#8) ∧ u.a = s.b ||| s.c ∧ u.f.c = false ∧ u.h = s.h ∧
      u.hl = s.hl ∧ u.de = s.de ∧ u.bc = s.bc ∧ Checking s u ∧
      u.mem = store s.mem false 0xFFF6#16 s.a := by
    have hmem : (s.exec [.ld (.m 0xFFF6) (.r .a), .ld (.r .a) (.r .b), .or (.r .c)]).mem =
        store s.mem false 0xFFF6#16 s.a := by simp [hbank]
    exact ⟨_, rfl, rfl, rfl, rfl, rfl, rfl, rfl, rfl, ⟨hbank, rfl, rfl, rfl, rfl, by rwa [hmem]⟩,
      hmem⟩
  by_cases hb0 : s.b ||| s.c = 0#8
  · refine Or.inl ⟨hzero.mp hb0, u.ret, ?_, hu1.ret hstack, ua.trans hb0, uc, ?_⟩
    · simp only [transfer, ← hu, uz, hb0, decide_true, if_true]
    · intro k a hout
      show u.mem k a = s.mem k a
      rw [umem]
      simp only [store, if_neg hout]
  have hne : s.bc ≠ 0 := fun h0 => hb0 (hzero.mpr h0)
  -- its low nibble
  obtain ⟨v, hv, vz, vh, vhl, vde, vbc, hv1, vmem⟩ : ∃ v : Cpu,
      v = u.exec [.ld (.r .a) (.r .c), .and (.n 15)] ∧ v.f.z = decide (u.c &&& 15#8 = 0#8) ∧
      v.h = s.h ∧ v.hl = s.hl ∧ v.de = s.de ∧ v.bc = s.bc ∧ Checking s v ∧ v.mem = u.mem :=
    ⟨_, rfl, rfl, uh, uhl, ude, ubc, ⟨hu1.bank, hu1.ix, hu1.iy, hu1.sp, hu1.iff, hu1.mem⟩, rfl⟩
  have huc : u.c = s.c := by
    have hlo := congrArg lo ubc
    rwa [Cpu.bc, Cpu.bc, lo_word, lo_word] at hlo
  by_cases hmod : s.c.toNat % 16 = 0
  swap
  · refine Or.inr (Or.inl ⟨hne, fun hacc => ?_, _, ?_, hv1.invalid hstack⟩)
    · have hcount := hacc.1
      omega
    · simp only [transfer, ← hu, uz, hb0, decide_false, Bool.false_eq_true, if_false, ← hv, vz, huc,
        and_15, hmod, Bool.not_false, if_true]
  -- the base
  obtain ⟨w, hw, wz, whl, wde, wbc, hw1, wmem⟩ : ∃ w : Cpu,
      w = v.exec [.ld (.r .a) (.r .h), .or (.r .a)] ∧ w.f.z = decide (s.h = 0#8) ∧ w.hl = s.hl ∧
      w.de = s.de ∧ w.bc = s.bc ∧ Checking s w ∧ w.mem = v.mem :=
    ⟨_, rfl, by simp [vh], vhl, vde, vbc, ⟨hv1.bank, hv1.ix, hv1.iy, hv1.sp, hv1.iff, hv1.mem⟩, rfl⟩
  by_cases hh0 : s.h = 0#8
  · refine Or.inr (Or.inl ⟨hne, fun hacc => ?_, _, ?_, hw1.invalid hstack⟩)
    · have h0 : s.h.toNat = 0 := by rw [hh0]; rfl
      have hbase := hacc.2.1
      omega
    · simp only [transfer, ← hu, uz, hb0, decide_false, Bool.false_eq_true, if_false, ← hv, vz, huc,
        and_15, hmod, decide_true, Bool.not_true, ← hw, wz, hh0, if_true]
  -- the two ends
  obtain ⟨x, hx, xc, xhl, xde, xbc, hx1, xmem⟩ : ∃ x : Cpu,
      x = w.exec [.stMem16 0xFFF0 .hl, .stMem16 0xFFF2 .de, .add16 .hl .bc] ∧
      x.f.c = decide (65536 ≤ s.hl.toNat + s.bc.toNat) ∧ x.hl = s.hl + s.bc ∧ x.de = s.de ∧
      x.bc = s.bc ∧ Checking s x ∧ x.mem = checkedMem s := by
    have hmem : (w.exec [.stMem16 0xFFF0 .hl, .stMem16 0xFFF2 .de, .add16 .hl .bc]).mem =
        checkedMem s := by
      have h1 : word w.h w.l = word s.h s.l := whl
      have h2 : word w.d w.e = word s.d s.e := wde
      simp [checkedMem, hw1.bank, wmem, vmem, umem, h1, h2]
    refine ⟨_, rfl, ?_, ?_, wde, wbc, ⟨hw1.bank, hw1.ix, hw1.iy, hw1.sp, hw1.iff, ?_⟩, hmem⟩
    · rw [← whl, ← wbc]
      rfl
    · rw [← whl, ← wbc]
      exact word_hi_lo _
    · rw [hmem]
      exact fun k a hout => checkedMem_outside hout
  obtain ⟨y, hy, yc, yhl, yd, ye, ybc, hy1, ymem⟩ : ∃ y : Cpu,
      y = x.exec [.exDeHl, .add16 .hl .bc] ∧
      y.f.c = decide (65536 ≤ s.de.toNat + s.bc.toNat) ∧ y.hl = s.de + s.bc ∧
      y.d = hi (s.hl + s.bc) ∧ y.e = lo (s.hl + s.bc) ∧ y.bc = s.bc ∧ Checking s y ∧
      y.mem = checkedMem s := by
    refine ⟨_, rfl, ?_, ?_, ?_, ?_, xbc, ⟨hx1.bank, hx1.ix, hx1.iy, hx1.sp, hx1.iff, hx1.mem⟩, xmem⟩
    · rw [← xde, ← xbc]
      rfl
    · rw [← xde, ← xbc]
      exact word_hi_lo _
    · rw [← xhl, Cpu.hl, hi_word]
      rfl
    · rw [← xhl, Cpu.hl, lo_word]
      rfl
  have htransfer : transfer s = if x.f.c then some (invalid x) else if y.f.c then some (invalid y)
      else
        let t := y.exec [.inc (.r .d)]
        if !t.f.z then baseEndValid t
        else
          let t := t.exec [.ld (.r .a) (.r .e), .or (.r .a)]
          if !t.f.z then some (invalid t) else baseEndValid t := by
    simp only [transfer, ← hu, uz, hb0, decide_false, Bool.false_eq_true, if_false, ← hv, vz, huc,
      and_15, hmod, decide_true, Bool.not_true, ← hw, wz, hh0, ← hx, ← hy]
  have hchecked {t : Cpu} (hbank : t.bank = false) (hsp : t.sp = s.sp) (hm : t.mem = checkedMem s)
      (htbc : t.bc = s.bc) : Checked dir s.hl s.de s.bc t := by
    obtain ⟨h0, h2, h6⟩ := checkedMem_words s
    refine ⟨hbank, by rwa [hsp], by rw [hm, h0], by rw [hm, h2], by rw [hm, h6, ha], htbc, ?_,
      by omega⟩
    have hpos : s.bc.toNat ≠ 0 := fun h0 => hne (BitVec.eq_of_toNat_eq h0)
    omega
  have hhw := s.hl.isLt
  have hbw := s.bc.isLt
  have hdw := s.de.isLt
  by_cases hbase : 65536 ≤ s.hl.toNat + s.bc.toNat
  · refine Or.inr (Or.inl ⟨hne, fun hacc => ?_, _, ?_, hx1.invalid hstack⟩)
    · have hend := hacc.2.2.1
      omega
    · rw [htransfer, xc, decide_eq_true hbase, if_pos rfl]
  by_cases hoff : 65536 ≤ s.de.toNat + s.bc.toNat
  · refine Or.inr (Or.inl ⟨hne, fun hacc => ?_, _, ?_, hy1.invalid hstack⟩)
    · have hend := hacc.2.2.2
      omega
    · rw [htransfer, xc, decide_eq_false hbase, if_neg Bool.false_ne_true, yc, decide_eq_true hoff,
        if_pos rfl]
  rw [xc, decide_eq_false hbase, if_neg Bool.false_ne_true, yc, decide_eq_false hoff,
    if_neg Bool.false_ne_true] at htransfer
  have hsum : (s.hl + s.bc).toNat = s.hl.toNat + s.bc.toNat := by
    rw [BitVec.toNat_add]
    omega
  have hsum' : (s.de + s.bc).toNat = s.de.toNat + s.bc.toNat := by
    rw [BitVec.toNat_add]
    omega
  have hhi : (hi (s.hl + s.bc)).toNat = (s.hl.toNat + s.bc.toNat) / 256 := by rw [toNat_hi, hsum]
  have hlo : (lo (s.hl + s.bc)).toNat = (s.hl.toNat + s.bc.toNat) % 256 := by rw [toNat_lo, hsum]
  have hhnat : s.h.toNat ≠ 0 := fun h0 => hh0 (BitVec.eq_of_toNat_eq h0)
  -- where the base end is good, the offset end decides
  have hgo {t : Cpu} (ht : transfer s = baseEndValid t) (hb : t.bank = false) (hsp : t.sp = s.sp)
      (hix : t.ix = s.ix) (hiy : t.iy = s.iy) (hiff : t.iff = s.iff) (hm : t.mem = checkedMem s)
      (hthl : t.hl = s.de + s.bc) (htbc : t.bc = s.bc)
      (hend : s.hl.toNat + s.bc.toNat ≤ 0xFF00) :
      (s.bc ≠ 0 ∧ ¬Accepts s.hl s.de s.bc ∧ ∃ t, transfer s = some t ∧ Rejected s t) ∨
        (s.bc ≠ 0 ∧ Accepts s.hl s.de s.bc ∧ ∃ u, transfer s = validated u ∧ Checking s u ∧
          Checked dir s.hl s.de s.bc u) := by
    have htc : Checking s t := ⟨hb, hix, hiy, hsp, hiff, by
      rw [hm]
      exact fun k a hout => checkedMem_outside hout⟩
    rcases baseEndValid_spec htc hstack (hchecked hb hsp hm htbc) with
      ⟨hlt, u, hu, hr⟩ | ⟨hle, u, hu, hc1, hc2⟩
    · rw [hthl, hsum'] at hlt
      exact Or.inl ⟨hne, fun hacc => absurd hacc.2.2.2 (by omega), u, ht.trans hu, hr⟩
    · rw [hthl, hsum'] at hle
      exact Or.inr ⟨hne, ⟨by omega, by omega, hend, hle⟩, u, ht.trans hu, hc1, hc2⟩
  refine Or.inr ?_
  obtain ⟨t, ht, tz, te, thl, tbc, ht1, tmem⟩ : ∃ t : Cpu, t = y.exec [.inc (.r .d)] ∧
      t.f.z = decide (y.d + 1#8 = 0#8) ∧ t.e = lo (s.hl + s.bc) ∧ t.hl = s.de + s.bc ∧
      t.bc = s.bc ∧ Checking s t ∧ t.mem = checkedMem s :=
    ⟨_, rfl, rfl, ye, yhl, ybc, ⟨hy1.bank, hy1.ix, hy1.iy, hy1.sp, hy1.iff, hy1.mem⟩, ymem⟩
  simp only [← ht, tz, yd, inc_zero, hhi] at htransfer
  by_cases hff : (s.hl.toNat + s.bc.toNat) / 256 = 255
  · obtain ⟨w, hw, wz, whl, wbc, hw1, wmem⟩ : ∃ w : Cpu,
        w = t.exec [.ld (.r .a) (.r .e), .or (.r .a)] ∧
        w.f.z = decide (lo (s.hl + s.bc) = 0#8) ∧ w.hl = s.de + s.bc ∧ w.bc = s.bc ∧
        Checking s w ∧ w.mem = checkedMem s :=
      ⟨_, rfl, (by rw [← te]; exact congrArg (fun v : Byte => decide (v = 0#8)) BitVec.or_self),
        thl, tbc, ⟨ht1.bank, ht1.ix, ht1.iy, ht1.sp, ht1.iff, ht1.mem⟩, tmem⟩
    rw [hff, decide_eq_true rfl, if_neg (by decide), ← hw, wz] at htransfer
    by_cases hl0 : lo (s.hl + s.bc) = 0#8
    · rw [decide_eq_true hl0, if_neg (by decide)] at htransfer
      have h0 : (s.hl.toNat + s.bc.toNat) % 256 = 0 := by rw [← hlo, hl0]; rfl
      exact hgo htransfer hw1.bank hw1.sp hw1.ix hw1.iy hw1.iff wmem whl wbc (by omega)
    · rw [decide_eq_false hl0, if_pos (by decide)] at htransfer
      have h0 : (s.hl.toNat + s.bc.toNat) % 256 ≠ 0 := by
        rw [← hlo]
        exact fun h0 => hl0 (BitVec.eq_of_toNat_eq h0)
      exact Or.inl ⟨hne, fun hacc => absurd hacc.2.2.1 (by omega), _, htransfer,
        hw1.invalid hstack⟩
  · rw [decide_eq_false hff, if_pos (by decide)] at htransfer
    exact hgo htransfer ht1.bank ht1.sp ht1.ix ht1.iy ht1.iff tmem thl tbc (by omega)

/-! ## The whole transfer -/

/-- How the page returns when it has copied. -/
structure Accepted (dir : Bool) (base offset count : Word) (s t : Cpu) : Prop
    extends Returned s t where
  a : t.a = 0
  carry : t.f.c = false
  mem : ∀ k a, ¬Private a → ¬(k = false ∧ Within (s.sp - 6) 6 a) → t.mem k a =
    copied s.mem dir (target dir base offset) (!dir) (source dir base offset) count.toNat k a

/-- In bank 0 the range is at the base, whatever the direction. -/
theorem accepts_ranges (dir : Bool) {base offset count : Word} (h : Accepts base offset count) :
    (source dir base offset).toNat + count.toNat ≤ 0xFF00 ∧
      (target dir base offset).toNat + count.toNat ≤ 0xFF00 := by
  obtain ⟨-, -, hbase, hoffset⟩ := h
  cases dir with
  | true => exact ⟨hbase, hoffset⟩
  | false => exact ⟨hoffset, hbase⟩

theorem validated_accepted {dir : Bool} {base offset count : Word} {s : Cpu}
    (h : Checked dir base offset count s) (hacc : Accepts base offset count)
    (hlive : ∀ a, Within (s.sp - 6) 8 a → ¬Within base count.toNat a) :
    ∃ t, validated s = some t ∧ Accepted dir base offset count s t := by
  obtain ⟨hsrc, hdst⟩ := accepts_ranges dir hacc
  obtain ⟨u, hu, uiff, hload, umem⟩ := validated_spec h
  have hfuel : count.toNat ≤ 16 * 4064 := by
    have hlow := hacc.2.1
    have hend := hacc.2.2.1
    omega
  obtain ⟨t, ht, tbank, tiff, tmem, tsaved⟩ := loadPayload_spec hload hsrc hdst hfuel
  -- the stack is not part of the target
  have hkeep (a : Word) (ha : Within (s.sp - 6) 8 a) : t.mem false a = savedMem s false a := by
    have hnp : ¬Private a := h.stack.private ha
    have hF0 : ¬Within 0xFFF0#16 8 a := fun hw => hnp (private_of_within (by decide) hw)
    have hout : ¬(false = dir ∧ Within (target dir base offset) count.toNat a) := by
      rintro ⟨rfl, hw⟩
      exact hlive a ha hw
    rw [tmem _ _ hnp, copied, patch, if_neg hout, umem _ _ hF0]
  have hword (a : Word) (h0 : Within (s.sp - 6) 8 a) (h1 : Within (s.sp - 6) 8 (a + 1)) :
      fetch16 t.mem false a = fetch16 (savedMem s) false a :=
    fetch16_congr (hkeep _ h0) (hkeep _ h1)
  have hslot (i : Word) (hi : i.toNat < 8) : Within (s.sp - 6) 8 (s.sp - 6 + i) := by
    unfold Within
    bv_omega
  obtain ⟨s8, s6, s4, s2⟩ := savedMem_slots h.stack
  have hsp : fetch16 t.mem false 0xFFF8#16 = s.sp - 6 := by
    have h8 : ∀ k, u.mem k 0xFFF8#16 = savedMem s k 0xFFF8#16 := fun k => umem k _ (by decide)
    have h9 : ∀ k, u.mem k (0xFFF8#16 + 1) = savedMem s k (0xFFF8#16 + 1) :=
      fun k => umem k _ (by decide)
    rw [tsaved, fetch16_congr (h8 _) (h9 _), s8]
  obtain ⟨fiy, fix', fiff, fpc, fsp, fa, fc, fbank, fmem⟩ := finish_spec tbank hsp
  have e4 : s.sp - 6 + 2#16 = s.sp - 4 := by bv_omega
  have e2 : s.sp - 6 + 4#16 = s.sp - 2 := by bv_omega
  have e0 : s.sp - 6 + 6#16 = s.sp := by bv_omega
  have e8 : s.sp - 6 + 8#16 = s.sp + 2 := by bv_omega
  rw [e4] at fix'
  rw [e2] at fiff
  rw [e0] at fpc
  rw [e8] at fsp
  obtain ⟨w0, w1⟩ := within_stack s.sp
  have hret (a : Word) (ha : Within (s.sp - 6) 8 a) (hlow : ¬Within (s.sp - 6) 6 a) :
      savedMem s false a = s.mem false a := by
    refine savedMem_outside ?_
    rintro ⟨-, hw | hw⟩
    · exact hlow hw
    · exact h.stack.private ha (private_of_within (by decide) hw)
  refine ⟨finish t, hu.trans ht, ⟨fbank, ?_, ?_, fsp, ?_, ?_⟩, fa, fc, ?_⟩
  · rw [fix', hword _ ?_ ?_, s4]
    · rw [← e4]
      exact hslot _ (by decide)
    · rw [← e4, BitVec.add_assoc]
      exact hslot _ (by decide)
  · rw [fiy, hword _ ?_ ?_, s6]
    · simpa using hslot 0 (by decide)
    · exact hslot 1 (by decide)
  · rw [fiff, tiff, uiff, Bool.false_or, hkeep _ ?_, s2]
    rw [← e2]
    exact hslot _ (by decide)
  · rw [fpc, hword _ w0 w1]
    refine fetch16_congr (hret _ w0 ?_) (hret _ w1 ?_)
    · unfold Within
      bv_omega
    · unfold Within
      bv_omega
  · intro k a hnp hns
    have hin (k' : Bool) (a' : Word) (hnp' : ¬Private a') (hns' : ¬(k' = false ∧ Within (s.sp - 6) 6 a')) :
        u.mem k' a' = s.mem k' a' := by
      have hF0 : ¬Within 0xFFF0#16 8 a' := fun hw => hnp' (private_of_within (by decide) hw)
      rw [umem _ _ hF0]
      refine savedMem_outside ?_
      rintro ⟨hk, hw | hw⟩
      · exact hns' ⟨hk, hw⟩
      · exact hnp' (private_of_within (by decide) hw)
    rw [fmem, tmem k a hnp]
    unfold copied patch
    by_cases hw : k = dir ∧ Within (target dir base offset) count.toNat a
    · rw [if_pos hw, if_pos hw]
      -- a source byte in bank 0 is not on the stack
      obtain ⟨x, hx⟩ : ∃ x, x = source dir base offset + (a - target dir base offset) := ⟨_, rfl⟩
      have hxin : Within (source dir base offset) count.toNat x := by
        have hwin := hw.2
        unfold Within at hwin ⊢
        rw [hx]
        bv_omega
      show u.mem (!dir) (source dir base offset + _) = s.mem (!dir) (source dir base offset + _)
      rw [← hx]
      refine hin _ _ ?_ ?_
      · rw [within_iff (by omega)] at hxin
        rintro ⟨hge, -⟩
        omega
      · rintro ⟨hdir, hs⟩
        have hdir : dir = true := by simpa using hdir
        subst hdir
        exact hlive x (hs.mono (by decide)) hxin
    · rw [if_neg hw, if_neg hw]
      exact hin k a hnp hns

/-! ## The gateway -/

/-- FF00h reads and FF03h writes. -/
def gateway (dir : Bool) : Cpu → Option Cpu := if dir then bankWrite else bankRead

/-- A call of the page comes back with the registers it keeps. -/
structure Kept (s t : Cpu) : Prop where
  bank : t.bank = false
  ix : t.ix = s.ix
  iy : t.iy = s.iy
  sp : t.sp = s.sp
  iff : t.iff = s.iff

/-- The stack below the caller's, and the page it has to keep clear of. -/
def LiveStack (sp : Word) : Prop := ∀ a, Within (sp - 8) 8 a → a.toNat < 0xFF00 ∨ 0xFFFA ≤ a.toNat

section
variable {dir : Bool} {s t u : Cpu} {ra : Word}

theorem gateway_eq (dir : Bool) (s : Cpu) (ra : Word) : ∃ v : Cpu, gateway dir (s.push ra) = transfer v ∧
    v.a = (if dir then 1 else 0) ∧ v.bank = s.bank ∧ v.hl = s.hl ∧ v.de = s.de ∧ v.bc = s.bc ∧
    v.ix = s.ix ∧ v.iy = s.iy ∧ v.sp = s.sp - 2 ∧ v.iff = s.iff ∧ v.mem = (s.push ra).mem := by
  cases dir with
  | true => exact ⟨_, rfl, rfl, rfl, rfl, rfl, rfl, rfl, rfl, rfl, rfl, rfl⟩
  | false => exact ⟨_, rfl, by simp, rfl, rfl, rfl, rfl, rfl, rfl, rfl, rfl, rfl⟩

theorem push_outside {k : Bool} {a : Word} (hbank : s.bank = false)
    (h : ¬(k = false ∧ Within (s.sp - 8) 8 a)) : (s.push ra).mem k a = s.mem k a := by
  refine store16_outside ?_
  rintro ⟨hk, hw⟩
  refine h ⟨hk.trans hbank, ?_⟩
  unfold Within at hw ⊢
  bv_omega

theorem push_word (hbank : s.bank = false) :
    fetch16 (s.push ra).mem false (s.sp - 2) = ra := by
  rw [← hbank]
  exact fetch16_store16

theorem Returned.kept {v : Cpu} (h : Returned v t) (hix : v.ix = s.ix) (hiy : v.iy = s.iy)
    (hsp : v.sp = s.sp - 2) (hiff : v.iff = s.iff) : Kept s t := by
  refine ⟨h.bank, h.ix.trans hix, h.iy.trans hiy, ?_, h.iff.trans hiff⟩
  rw [h.sp, hsp]
  bv_omega

/-- **A call of the gateway** from bank 0 returns to its caller with IX, IY, SP and the
interrupt enable as they were. An empty one succeeds and writes only the private word at
FFF6h. Any other one is accepted when `Accepts` says so, and then copies and writes nothing
but the private words and the stack below the caller's; else it is rejected with A = 2 and
carry, and writes only private words. -/
theorem gateway_transfers (dir : Bool) (s : Cpu) (ra : Word) (hbank : s.bank = false)
    (hstack : LiveStack s.sp) (hlive : s.bc ≠ 0 → Accepts s.hl s.de s.bc →
      ∀ a, Within (s.sp - 8) 8 a → ¬Within s.hl s.bc.toNat a) :
    ∃ t, s.call ra (gateway dir) = some t ∧ Kept s t ∧
      (s.bc = 0 → t.a = 0 ∧ t.f.c = false ∧
        ∀ k a, ¬(k = false ∧ a = 0xFFF6#16) → t.mem k a = (s.push ra).mem k a) ∧
      (s.bc ≠ 0 → Accepts s.hl s.de s.bc → t.a = 0 ∧ t.f.c = false ∧
        ∀ k a, ¬Private a → ¬(k = false ∧ Within (s.sp - 8) 8 a) → t.mem k a =
          copied s.mem dir (target dir s.hl s.de) (!dir) (source dir s.hl s.de) s.bc.toNat k a) ∧
      (s.bc ≠ 0 → ¬Accepts s.hl s.de s.bc → t.a = 2 ∧ t.f.c = true ∧
        ∀ k a, ¬(k = false ∧ Private a) → t.mem k a = (s.push ra).mem k a) := by
  obtain ⟨v, hv, va, vbank, vhl, vde, vbc, vix, viy, vsp, viff, vmem⟩ :=
    gateway_eq dir s ra
  have esp : v.sp - 6 = s.sp - 8 := by rw [vsp]; bv_omega
  have hok : StackOk v.sp := by
    rw [StackOk, esp]
    exact hstack
  have hpc {t : Cpu} (h : Returned v t) : t.pc = ra := by
    rw [h.pc, vmem, vsp, push_word hbank]
  rcases transfer_checks (vbank.trans hbank) hok va with
    ⟨h0, t, ht, hr, ta, tc, tmem⟩ | ⟨hne, hrej, t, ht, hr⟩ | ⟨hne, hacc, u, hu, hu1, hu2⟩
  · rw [vbc] at h0
    rw [vmem] at tmem
    exact ⟨t, Cpu.call_eq_some (hv.trans ht) (hpc hr), hr.kept vix viy vsp viff,
      fun _ => ⟨ta, tc, tmem⟩, fun hne => absurd h0 hne, fun hne => absurd h0 hne⟩
  · rw [vbc] at hne
    rw [vhl, vde, vbc] at hrej
    have tmem := hr.mem
    rw [vmem] at tmem
    exact ⟨t, Cpu.call_eq_some (hv.trans ht) (hpc hr.toReturned),
      hr.toReturned.kept vix viy vsp viff, fun h0 => absurd h0 hne,
      fun _ hacc => absurd hacc hrej, fun _ _ => ⟨hr.a, hr.carry, tmem⟩⟩
  · rw [vbc] at hne
    rw [vhl, vde, vbc] at hacc hu2
    replace hlive := hlive hne hacc
    have hlive' : ∀ a, Within (u.sp - 6) 8 a → ¬Within s.hl s.bc.toNat a := by
      rw [hu1.sp, esp]
      exact hlive
    obtain ⟨t, ht, hacpt⟩ := validated_accepted hu2 hacc hlive'
    have hum (k : Bool) (a : Word) (hp : ¬Private a) : u.mem k a = (s.push ra).mem k a := by
      rw [hu1.mem k a fun h => hp h.2, vmem]
    have hr : Returned v t := by
      obtain ⟨w0, w1⟩ := within_stack v.sp
      refine ⟨hacpt.bank, hacpt.ix.trans hu1.ix, hacpt.iy.trans hu1.iy, ?_,
        hacpt.iff.trans hu1.iff, ?_⟩
      · rw [hacpt.sp, hu1.sp]
      · rw [hacpt.pc, hu1.sp, vmem]
        exact fetch16_congr (hum _ _ (hok.private w0)) (hum _ _ (hok.private w1))
    refine ⟨t, Cpu.call_eq_some (hv.trans (hu.trans ht)) (hpc hr), hr.kept vix viy vsp viff,
      fun h0 => absurd h0 hne, fun _ _ => ⟨hacpt.a, hacpt.carry, ?_⟩,
      fun _ hrej => absurd hacc hrej⟩
    intro k a hp hout
    have hout' : ¬(k = false ∧ Within (u.sp - 6) 6 a) := by
      rw [hu1.sp, esp]
      exact fun h => hout ⟨h.1, h.2.mono (by decide)⟩
    rw [hacpt.mem k a hp hout']
    obtain ⟨hsrc, hdst⟩ := accepts_ranges dir hacc
    unfold copied patch
    by_cases hw : k = dir ∧ Within (target dir s.hl s.de) s.bc.toNat a
    · rw [if_pos hw, if_pos hw]
      obtain ⟨x, hx⟩ : ∃ x, x = source dir s.hl s.de + (a - target dir s.hl s.de) := ⟨_, rfl⟩
      have hxin : Within (source dir s.hl s.de) s.bc.toNat x := by
        have hwin := hw.2
        unfold Within at hwin ⊢
        rw [hx]
        bv_omega
      show u.mem (!dir) (source dir s.hl s.de + _) = s.mem (!dir) (source dir s.hl s.de + _)
      rw [← hx, hum _ _ ?_, push_outside hbank ?_]
      · rintro ⟨hd, hs⟩
        have hd : dir = true := by simpa using hd
        subst hd
        exact hlive x hs hxin
      · rw [within_iff (by omega)] at hxin
        rintro ⟨hge, -⟩
        omega
    · rw [if_neg hw, if_neg hw, hum k a hp, push_outside hbank hout]

end

/-- A processor about to read 32 bytes of bank 1 at C800h to 1000h. -/
def reader : Cpu where
  a := 0
  f := .ofByte 0
  b := 0
  c := 32
  d := 0xC8
  e := 0
  h := 0x10
  l := 0
  a2 := 0
  f2 := .ofByte 0
  b2 := 0
  c2 := 0
  d2 := 0
  e2 := 0
  h2 := 0
  l2 := 0
  ix := 0
  iy := 0
  sp := 0x8000
  i := 0
  iff := true
  bank := false
  mem := fun k _ => if k then 0xE5 else 0x76
  pc := 0

theorem reader_stack {a : Word} (h : Within (reader.sp - 8) 8 a) :
    0x7FF8 ≤ a.toNat ∧ a.toNat < 0x8000 := by
  rw [show reader.sp - 8 = 0x7FF8#16 from rfl, within_iff (by decide)] at h
  exact h

theorem reader_transfers : ∃ t, reader.call 0x0200 (gateway false) = some t ∧ t.a = 0 ∧
    t.mem false 0x1000#16 = 0xE5 := by
  obtain ⟨t, ht, -, -, haccepted, -⟩ := gateway_transfers false reader 0x0200 rfl
    (fun a ha => Or.inl (by have := reader_stack ha; omega)) (by
      intro _ _ a ha hw
      have hlow := reader_stack ha
      rw [within_iff (by decide), show reader.hl = 0x1000#16 from rfl,
        show reader.bc = 0x0020#16 from rfl] at hw
      simp at hw
      omega)
  obtain ⟨ta, -, tmem⟩ := haccepted (by decide) (by decide)
  refine ⟨t, ht, ta, ?_⟩
  rw [tmem _ _ (by unfold Private; decide) (by decide)]
  decide

/-- An empty read leaves its direction at FFF6h. -/
theorem empty_read_writes : ∃ t, { reader with c := 0 }.call 0x0200 (gateway false) = some t ∧
    t.a = 0 ∧ t.f.c = false ∧ t.mem false 0xFFF6#16 ≠ reader.mem false 0xFFF6#16 :=
  ⟨_, rfl, rfl, rfl, by decide⟩

end Z80Sbc.Bank.TransferSpec
