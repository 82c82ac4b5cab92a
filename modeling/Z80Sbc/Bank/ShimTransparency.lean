import Z80Sbc.Bank.Shim

/-! # When the shim is transparent

The BDOS of bank 1 is any function of what it is given, and nothing is assumed of what a function
number reads or changes. What it is given is the caller's FCB and DMA buffer where the shim copies
them in, and what an earlier call has left in the staging buffers where it does not. So a search
next sees the FCB at E480h, whichever call has left it there. -/

namespace Z80Sbc.Bank.ShimTransparency
open Z80Sbc.Z80 Z80Sbc.Bank Shim

variable {δ : Type}

/-! ## Copies -/

section
variable {k k' : Bool} {m : Mem} {src dst a : Word} {n i : Nat}

theorem ldirIn_bank (h : k' ≠ k) : ldirIn k m src dst n k' = m k' := by
  induction n generalizing m src dst with
  | zero => rfl
  | succ n ih =>
    rw [ldirIn, ih]
    exact store_bank h

theorem ldirIn_outside (hn : n ≤ 65536) (h : ¬Within dst n a) :
    ldirIn k m src dst n k' a = m k' a := by
  induction n generalizing m src dst with
  | zero => rfl
  | succ n ih =>
    rw [ldirIn, ih (by omega) (by unfold Within at h ⊢; bv_omega)]
    refine store_ne fun he => h ?_
    subst he
    unfold Within
    bv_omega

/-- LDIR copies a range that its destination does not meet. -/
theorem ldirIn_inside (hn : n ≤ 65536) (h : ∀ x, Within src n x → ¬Within dst n x) (hi : i < n) :
    ldirIn k m src dst n k (dst + BitVec.ofNat 16 i) = m k (src + BitVec.ofNat 16 i) := by
  induction n generalizing m src dst i with
  | zero => omega
  | succ n ih =>
    have hstart : Within dst (n + 1) dst := by
      unfold Within
      bv_omega
    rw [ldirIn]
    cases i with
    | zero =>
      rw [BitVec.add_zero, BitVec.add_zero, ldirIn_outside (by omega)]
      · exact store_same
      · unfold Within
        bv_omega
    | succ i =>
      have hsrc : src + BitVec.ofNat 16 (i + 1) = src + 1 + BitVec.ofNat 16 i := by bv_omega
      have hdst : dst + BitVec.ofNat 16 (i + 1) = dst + 1 + BitVec.ofNat 16 i := by bv_omega
      rw [hsrc, hdst, ih (by omega) (fun x hx hd => ?_) (by omega)]
      · refine store_ne fun he => h (src + 1 + BitVec.ofNat 16 i) ?_ (by rw [he]; exact hstart)
        rw [← hsrc]
        exact within_offset hi (by omega)
      · refine h x ?_ ?_
        · unfold Within at hx ⊢
          bv_omega
        · unfold Within at hd ⊢
          bv_omega

end

/-- The `n` bytes from `a` on. -/
def bytes (n : Nat) (m : Word → Byte) (a : Word) : Fin n → Byte := fun i =>
  m (a + BitVec.ofNat 16 i.val)

section
variable {n : Nat} {m m' : Word → Byte} {a : Word}

theorem bytes_congr (hn : n ≤ 65536) (h : ∀ x, Within a n x → m x = m' x) :
    bytes n m a = bytes n m' a := by
  funext i
  exact h _ (within_offset i.isLt hn)

end

section
variable {m : Mem} {src dst : Word} {n : Nat}

theorem bytes_ldirIn {k : Bool} (hn : n ≤ 65536) (h : ∀ x, Within src n x → ¬Within dst n x) :
    bytes n (ldirIn k m src dst n k) dst = bytes n (m k) src := by
  funext i
  exact ldirIn_inside hn h i.isLt

/-- The first bytes of a transfer. -/
theorem bytes_copied {dk sk : Bool} {l : Nat} (hn : n ≤ 65536) (hl : l ≤ n) :
    bytes l (copied m dk dst sk src n dk) dst = bytes l (m sk) src := by
  funext i
  have hin : Within dst n (dst + BitVec.ofNat 16 i.val) :=
    within_offset (Nat.lt_of_lt_of_le i.isLt hl) hn
  have hoffset : src + (dst + BitVec.ofNat 16 i.val - dst) = src + BitVec.ofNat 16 i.val := by
    bv_omega
  unfold bytes copied
  rw [patch_inside hin, hoffset]

theorem bankWrite_bank0 : bankWrite m src dst n false = m false := by
  unfold bankWrite copied
  exact patch_bank (by decide)

theorem bankWrite_outside {a : Word} (h : ¬Within dst n a) :
    bankWrite m src dst n true a = m true a := by
  unfold bankWrite copied
  exact patch_outside h

theorem bankWrite_inside {i : Nat} (hn : n ≤ 65536) (hi : i < n) :
    bankWrite m src dst n true (dst + BitVec.ofNat 16 i) = m false (src + BitVec.ofNat 16 i) :=
  congrFun (bytes_copied (m := m) (l := n) hn (Nat.le_refl n)) ⟨i, hi⟩

theorem bankRead_inside {i : Nat} (hn : n ≤ 65536) (hi : i < n) :
    bankRead m dst src n false (dst + BitVec.ofNat 16 i) = m true (src + BitVec.ofNat 16 i) :=
  congrFun (bytes_copied (m := m) (l := n) hn (Nat.le_refl n)) ⟨i, hi⟩

theorem bankRead_bank1 : bankRead m dst src n true = m true := by
  unfold bankRead copied
  exact patch_bank (by decide)

theorem bankRead_outside {a : Word} (h : ¬Within dst n a) :
    bankRead m dst src n false a = m false a := by
  unfold bankRead copied
  exact patch_outside h

end

/-! ## The BDOS -/

/-- What a BDOS call leaves in the FCB and in the DMA buffer, and what it returns. -/
structure Result where
  fcb : Fin 36 → Byte
  dma : Fin 128 → Byte
  regs : Regs

/-- A BDOS, from the function number, the FCB, the DMA buffer and DE. -/
abbrev Behaviour := Byte → (Fin 36 → Byte) → (Fin 128 → Byte) → Word → Result

/-- The `n` bytes from `a` on are those of `f`. -/
def place {n : Nat} (m : Mem) (k : Bool) (a : Word) (f : Fin n → Byte) : Mem :=
  patch m k a n fun o => if h : o.toNat < n then f ⟨o.toNat, h⟩ else 0

theorem bytes_place {n : Nat} {m : Mem} {k : Bool} {a : Word} {f : Fin n → Byte}
    (hn : n ≤ 65536) : bytes n (place m k a f k) a = f := by
  funext i
  have hi := i.isLt
  have hin : Within a n (a + BitVec.ofNat 16 i.val) := within_offset hi hn
  have hoffset : (a + BitVec.ofNat 16 i.val - a).toNat = i.val := by bv_omega
  unfold bytes place
  rw [patch_inside hin, dif_pos (by omega)]
  exact congrArg f (Fin.ext hoffset)

/-- The BDOS in bank 1. A function that takes no FCB finds the one of an earlier call. -/
def Behaviour.bdos (beh : Behaviour) : Bdos δ := fun c de s =>
  let fcb := if takesFcb c then de else stableFcb
  let dma := peek16 s.mem dmaPointer
  let out := beh c (bytes 36 (s.mem true) fcb) (bytes 128 (s.mem true) dma) de
  (out.regs, { s with mem := place (place s.mem true fcb out.fcb) true dma out.dma })

/-- The functions for which the shim copies the DMA buffer in: the writes. -/
def sendsDma (function : Byte) : Bool := [21, 34, 40].contains function.toNat

theorem isFcbFunction_eq (c : Byte) : isFcbFunction c = takesFcb c := by
  revert c
  decide

/-! ## The proxy -/

/-- Bank 0 is kept, and what is from `lo` up to `hi` in bank 1. -/
structure Keeps (lo hi : Nat) (m m' : Mem) : Prop where
  bank0 : m' false = m false
  bank1 : ∀ a : Word, lo ≤ a.toNat → a.toNat < hi → m' true a = m true a

section
variable {lo hi : Nat} {m m' m'' : Mem} {a src dst : Word} {n : Nat}

theorem Keeps.refl : Keeps lo hi m m := ⟨rfl, fun _ _ _ => rfl⟩

theorem Keeps.trans (h : Keeps lo hi m m') (h' : Keeps lo hi m' m'') : Keeps lo hi m m'' :=
  ⟨h'.bank0.trans h.bank0, fun a hl hh => (h'.bank1 a hl hh).trans (h.bank1 a hl hh)⟩

theorem Keeps.peek (h : Keeps lo hi m m') (hl : lo ≤ a.toNat) (hh : a.toNat < hi) :
    peek m' a = peek m a := h.bank1 a hl hh

theorem Keeps.peek16 (h : Keeps lo hi m m') (hl : lo ≤ a.toNat) (hh : a.toNat < hi)
    (hl' : lo ≤ (a + 1).toNat) (hh' : (a + 1).toNat < hi) : peek16 m' a = peek16 m a :=
  peek16_congr (h.bank1 a hl hh) (h.bank1 _ hl' hh')

theorem Keeps.bytes (h : Keeps lo hi m m') (hn : n ≤ 65536) (hl : lo ≤ a.toNat)
    (hh : a.toNat + n ≤ hi) (htop : a.toNat + n ≤ 65536) :
    bytes n (m' true) a = bytes n (m true) a := by
  refine bytes_congr hn fun x hx => ?_
  rw [within_iff htop] at hx
  exact h.bank1 x (by omega) (by omega)

theorem keeps_poke {v : Byte} (h : a.toNat < lo ∨ hi ≤ a.toNat) : Keeps lo hi m (poke m a v) :=
  ⟨bank0_poke, fun x hl hh => peek_poke_ne fun he => by rw [he] at hl hh; omega⟩

theorem keeps_poke16 {w : Word} (h : a.toNat < lo ∨ hi ≤ a.toNat)
    (h' : (a + 1).toNat < lo ∨ hi ≤ (a + 1).toNat) : Keeps lo hi m (poke16 m a w) := by
  refine ⟨bank0_poke16, fun x hl hh => peek_poke16_outside fun hx => ?_⟩
  have hcases : x = a ∨ x = a + 1 := by
    unfold Within at hx
    bv_omega
  rcases hcases with rfl | rfl
  · omega
  · omega

theorem keeps_ldirIn (h : dst.toNat + n ≤ lo ∨ hi ≤ dst.toNat) (hn : dst.toNat + n ≤ 65536) :
    Keeps lo hi m (ldirIn true m src dst n) := by
  refine ⟨ldirIn_bank (by decide), fun x hl hh => ldirIn_outside (by omega) fun hx => ?_⟩
  rw [within_iff hn] at hx
  omega

end

theorem keeps_restoreSearch {m : Mem} {hl : Word} :
    Keeps 0xE400 0xE4C2 m (restoreSearch m hl) := by
  unfold restoreSearch
  exact ((keeps_ldirIn (by decide) (by decide)).trans
    (keeps_ldirIn (by decide) (by decide))).trans (keeps_ldirIn (by decide) (by decide))

theorem keeps_saveSearch {m : Mem} : Keeps 0xE400 0xE4C2 m (saveSearch m searchSave) := by
  unfold saveSearch
  exact ((keeps_ldirIn (by decide) (by decide)).trans
    (keeps_ldirIn (by decide) (by decide))).trans (keeps_ldirIn (by decide) (by decide))

theorem keeps_proxySaveSearch {m : Mem} : Keeps 0xE400 0xE4C2 m (proxySaveSearch m) := by
  unfold proxySaveSearch
  split
  · exact keeps_saveSearch.trans (keeps_poke (by decide))
  · exact Keeps.refl

theorem keeps_proxyAfterSearch {m : Mem} : Keeps 0xE400 0xE4C2 m (proxyAfterSearch m) := by
  unfold proxyAfterSearch
  split
  · exact (keeps_poke (by decide)).trans (keeps_poke (by decide))
  · exact Keeps.refl

theorem keeps_useDma {s : Machine δ} {w : Word} : Keeps 0xE400 0xE4C2 s.mem (s.useDma w).mem :=
  keeps_poke16 (by decide) (by decide)

theorem proxyBefore_spec (s : Machine δ) :
    Keeps 0xE400 0xE4C0 s.mem (proxyBefore s).mem ∧
      peek16 (proxyBefore s).mem dmaPointer = dmaBuffer := by
  unfold proxyBefore
  dsimp only
  have hsaved : Keeps 0xE400 0xE4C0 s.mem (poke16 s.mem savedDma (peek16 s.mem dmaPointer)) :=
    keeps_poke16 (by decide) (by decide)
  generalize poke16 s.mem savedDma (peek16 s.mem dmaPointer) = m at hsaved ⊢
  have hset : Keeps 0xE400 0xE4C0 m ({ s with mem := m }.useDma dmaBuffer).mem :=
    keeps_poke16 (by decide) (by decide)
  have hdma : peek16 ({ s with mem := m }.useDma dmaBuffer).mem dmaPointer = dmaBuffer :=
    peek16_poke16
  generalize ({ s with mem := m } : Machine δ).useDma dmaBuffer = u at hset hdma ⊢
  split
  · have hrestore : Keeps 0xE400 0xE4C2 u.mem (restoreSearch u.mem searchSave) :=
      keeps_restoreSearch
    refine ⟨(hsaved.trans hset).trans ⟨hrestore.bank0, fun a hl hh =>
      hrestore.bank1 a hl (Nat.lt_trans hh (by decide))⟩, ?_⟩
    have hsearch : Keeps 0xFAF1 0xFAF3 u.mem (restoreSearch u.mem searchSave) := by
      unfold restoreSearch
      exact ((keeps_ldirIn (by decide) (by decide)).trans
        (keeps_ldirIn (by decide) (by decide))).trans (keeps_ldirIn (by decide) (by decide))
    exact (hsearch.peek16 (by decide) (by decide) (by decide) (by decide)).trans hdma
  · exact ⟨hsaved.trans hset, hdma⟩

/-- What the proxy is given. -/
structure Staged (c : Byte) (fcb : Fin 36 → Byte) (dma : Fin 128 → Byte) (de : Word) (m : Mem) :
    Prop where
  fcb : bytes 36 (m true) stableFcb = fcb
  dma : bytes 128 (m true) dmaBuffer = dma
  function : peek m request = c
  de : peek16 m (request + 2) = de

/-- What the proxy leaves. -/
structure Answered (out : Result) (m m' : Mem) : Prop where
  bank0 : m' false = m false
  fcb : bytes 36 (m' true) stableFcb = out.fcb
  dma : bytes 128 (m' true) dmaBuffer = out.dma
  a : peek m' (request + 6) = out.regs.a
  b : peek m' (request + 7) = out.regs.b
  hl : peek16 m' (request + 8) = out.regs.hl

theorem proxy_answers {c : Byte} {fcb : Fin 36 → Byte} {dma : Fin 128 → Byte} {de : Word}
    {s : Machine δ} (beh : Behaviour) (h : Staged c fcb dma de s.mem)
    (hde : takesFcb c = true → de = stableFcb) :
    Answered (beh c fcb dma de) s.mem (bank1BdosProxy beh.bdos s).mem := by
  obtain ⟨hkeeps, hpointer⟩ := proxyBefore_spec s
  unfold bank1BdosProxy
  dsimp only
  generalize proxyBefore s = u at hkeeps hpointer ⊢
  have hfcb : bytes 36 (u.mem true) stableFcb = fcb :=
    (hkeeps.bytes (by decide) (by decide) (by decide) (by decide)).trans h.fcb
  have hdma : bytes 128 (u.mem true) dmaBuffer = dma :=
    (hkeeps.bytes (by decide) (by decide) (by decide) (by decide)).trans h.dma
  rw [(hkeeps.peek (by decide) (by decide)).trans h.function,
    (hkeeps.peek16 (by decide) (by decide) (by decide) (by decide)).trans h.de]
  have hat : (if takesFcb c then de else stableFcb) = stableFcb := by
    split
    · exact hde ‹_›
    · rfl
  unfold Behaviour.bdos
  dsimp only
  rw [hat, hpointer, hfcb, hdma]
  generalize beh c fcb dma de = out
  -- what the BDOS has written
  have hbank0 : place (place u.mem true stableFcb out.fcb) true dmaBuffer out.dma false =
      s.mem false := by
    unfold place
    rw [patch_bank (by decide), patch_bank (by decide)]
    exact hkeeps.bank0
  have houtFcb : bytes 36 (place (place u.mem true stableFcb out.fcb) true dmaBuffer out.dma true)
      stableFcb = out.fcb := by
    have hplaced : bytes 36 (place u.mem true stableFcb out.fcb true) stableFcb = out.fcb :=
      bytes_place (by decide)
    refine Eq.trans (bytes_congr (by decide) fun x hx => ?_) hplaced
    refine patch_outside fun hd => ?_
    unfold Within stableFcb at hx
    unfold Within dmaBuffer at hd
    bv_omega
  have houtDma : bytes 128 (place (place u.mem true stableFcb out.fcb) true dmaBuffer out.dma true)
      dmaBuffer = out.dma := bytes_place (by decide)
  generalize place (place u.mem true stableFcb out.fcb) true dmaBuffer out.dma = m
    at hbank0 houtFcb houtDma ⊢
  have hresults : Keeps 0xE400 0xE4B0 m (storeResults m out.regs) :=
    ((keeps_poke (by decide)).trans (keeps_poke (by decide))).trans
      (keeps_poke16 (by decide) (by decide))
  have ha : peek (storeResults m out.regs) (request + 6) = out.regs.a :=
    (peek_poke16_outside (by decide)).trans ((peek_poke_ne (by decide)).trans peek_poke)
  have hb : peek (storeResults m out.regs) (request + 7) = out.regs.b :=
    (peek_poke16_outside (by decide)).trans peek_poke
  have hhl : Bank.peek16 (storeResults m out.regs) (request + 8) = out.regs.hl := peek16_poke16
  generalize storeResults m out.regs = m1 at hresults ha hb hhl ⊢
  have hend : Keeps 0xE400 0xE4C2 m1
      (Machine.useDma { u with mem := proxyAfterSearch (proxySaveSearch m1) }
        (peek16 (proxyAfterSearch (proxySaveSearch m1)) savedDma)).mem :=
    (keeps_proxySaveSearch.trans keeps_proxyAfterSearch).trans
      (keeps_useDma (s := { u with mem := proxyAfterSearch (proxySaveSearch m1) }))
  constructor
  · rw [hend.bank0, hresults.bank0, hbank0]
  · rw [hend.bytes (by decide) (by decide) (by decide) (by decide),
      hresults.bytes (by decide) (by decide) (by decide) (by decide), houtFcb]
  · rw [hend.bytes (by decide) (by decide) (by decide) (by decide),
      hresults.bytes (by decide) (by decide) (by decide) (by decide), houtDma]
  · rw [hend.peek (by decide) (by decide), ha]
  · rw [hend.peek (by decide) (by decide), hb]
  · rw [hend.peek16 (by decide) (by decide) (by decide) (by decide), hhl]

/-! ## The caller's buffers -/

/-- The addresses of the shim in bank 0. -/
def ShimByte (a : Word) : Prop := 0xEE00 ≤ a.toNat ∧ a.toNat < 0xFB40

/-- The FCB, the DMA buffer and the shim's own memory are disjoint. -/
structure Clear (fcb dma : Word) : Prop where
  fcbOwn : ∀ a, Within fcb 36 a → ¬ShimByte a
  dmaOwn : ∀ a, Within dma 128 a → ¬ShimByte a
  disjoint : ∀ a, Within fcb 36 a → ¬Within dma 128 a

/-- Only the shim's own memory in bank 0 is changed, and the staging buffers in bank 1. -/
structure Inward (s t : State δ) : Prop where
  functionNumber : t.functionNumber = s.functionNumber
  originalArg : t.originalArg = s.originalArg
  baseDma : t.baseDma = s.baseDma
  bank0 : ∀ a, ¬ShimByte a → t.mem false a = s.mem false a

section
variable {s t u : State δ} {fcb dma a : Word} {n : Nat}

theorem Inward.trans (h : Inward s t) (h' : Inward t u) : Inward s u :=
  ⟨h'.functionNumber.trans h.functionNumber, h'.originalArg.trans h.originalArg,
    h'.baseDma.trans h.baseDma, fun a ha => (h'.bank0 a ha).trans (h.bank0 a ha)⟩

theorem Inward.bytes (h : Inward s t) (hn : n ≤ 65536) (ha : ∀ x, Within a n x → ¬ShimByte x) :
    bytes n (t.mem false) a = bytes n (s.mem false) a :=
  bytes_congr hn fun x hx => h.bank0 x (ha x hx)

/-- A range of the shim's own. -/
theorem shimByte_within {base : Word} (h : 0xEE00 ≤ base.toNat) (h' : base.toNat + n ≤ 0xFB40)
    (ha : Within base n a) : ShimByte a := by
  rw [within_iff (by omega)] at ha
  unfold ShimByte
  omega

/-- The FCB in the staging buffer of bank 1, and its address in the response. -/
theorem fcbCopyIn_spec
    (hclear : takesFcb s.functionNumber = true → ∀ a, Within s.originalArg 36 a → ¬ShimByte a) :
    Inward s (fcbCopyInIfNeeded s) ∧
      (fcbCopyInIfNeeded s).mem false response = s.mem false response ∧
      (takesFcb s.functionNumber = true →
        bytes 36 ((fcbCopyInIfNeeded s).mem true) stableFcb = bytes 36 (s.mem false) s.originalArg ∧
          fetch16 (fcbCopyInIfNeeded s).mem false (response + 2) = stableFcb) ∧
      (takesFcb s.functionNumber = false → fcbCopyInIfNeeded s = s) ∧
      ∀ a, ¬Within stableFcb 48 a → (fcbCopyInIfNeeded s).mem true a = s.mem true a := by
  unfold fcbCopyInIfNeeded
  rw [isFcbFunction_eq]
  cases hfcb : takesFcb s.functionNumber with
  | false =>
    rw [Bool.not_false, if_pos rfl]
    exact ⟨⟨rfl, rfl, rfl, fun _ _ => rfl⟩, rfl, fun h => Bool.noConfusion h, fun _ => rfl,
      fun _ _ => rfl⟩
  | true =>
    rw [Bool.not_true, if_neg Bool.false_ne_true]
    dsimp only
    have hown : ∀ {x : Word}, Within fcbBuffer 36 x → ShimByte x :=
      fun hx => shimByte_within (by decide) (by decide) hx
    -- the FCB in the buffer of the shim
    have hbytes : bytes 36 (ldirIn false s.mem s.originalArg fcbBuffer 36 false) fcbBuffer =
        bytes 36 (s.mem false) s.originalArg :=
      bytes_ldirIn (by decide) fun x hx hb => hclear hfcb x hx (hown hb)
    have hout (a : Word) (ha : ¬Within fcbBuffer 36 a) :
        ldirIn false s.mem s.originalArg fcbBuffer 36 false a = s.mem false a :=
      ldirIn_outside (by decide) ha
    have hbank1 : ldirIn false s.mem s.originalArg fcbBuffer 36 true = s.mem true :=
      ldirIn_bank (by decide)
    generalize ldirIn false s.mem s.originalArg fcbBuffer 36 = m1 at hbytes hout hbank1 ⊢
    -- and the padding
    have hpad (a : Word) (ha : ¬Within (fcbBuffer + 36) 12 a) :
        ldirIn false (store m1 false (fcbBuffer + 36) 0) (fcbBuffer + 36) (fcbBuffer + 37) 11
          false a = m1 false a := by
      rw [ldirIn_outside (by decide) (by unfold Within fcbBuffer at ha ⊢; bv_omega)]
      refine store_ne fun he => ha ?_
      rw [he]
      decide
    have hpad1 : ldirIn false (store m1 false (fcbBuffer + 36) 0) (fcbBuffer + 36)
        (fcbBuffer + 37) 11 true = m1 true := by
      rw [ldirIn_bank (by decide)]
      exact store_bank (by decide)
    generalize ldirIn false (store m1 false (fcbBuffer + 36) 0) (fcbBuffer + 36)
      (fcbBuffer + 37) 11 = m2 at hpad hpad1 ⊢
    have hm2 : bytes 36 (m2 false) fcbBuffer = bytes 36 (s.mem false) s.originalArg := by
      refine Eq.trans (bytes_congr (by decide) fun x hx => hpad x ?_) hbytes
      unfold Within fcbBuffer at hx ⊢
      bv_omega
    have hwrite1 : bytes 36 (bankWrite m2 fcbBuffer stableFcb 48 true) stableFcb =
        bytes 36 (m2 false) fcbBuffer := bytes_copied (by decide) (by decide)
    have hwrite0 : bankWrite m2 fcbBuffer stableFcb 48 false = m2 false :=
      bankWrite_bank0
    have hwriteOut (a : Word) (ha : ¬Within stableFcb 48 a) :
        bankWrite m2 fcbBuffer stableFcb 48 true a = m2 true a := bankWrite_outside ha
    generalize bankWrite m2 fcbBuffer stableFcb 48 = m3 at hwrite1 hwrite0 hwriteOut ⊢
    refine ⟨⟨rfl, rfl, rfl, fun a ha => ?_⟩, ?_, fun _ => ⟨?_, fetch16_store16⟩,
      fun h => Bool.noConfusion h, fun a ha => ?_⟩
    · refine (store16_outside fun hw => ha (shimByte_within (by decide) (by decide) hw.2)).trans ?_
      rw [hwrite0, hpad a fun hw => ha (shimByte_within (by decide) (by decide) hw),
        hout a fun hw => ha (hown hw)]
    · refine (store16_outside (by decide)).trans ?_
      rw [hwrite0, hpad _ (by decide), hout _ (by decide)]
    · show bytes 36 (store16 m3 false (response + 2) stableFcb true) stableFcb = _
      rw [store16_bank (by decide), hwrite1, hm2]
    · show store16 m3 false (response + 2) stableFcb true a = _
      rw [store16_bank (by decide), hwriteOut a ha, hpad1, hbank1]

theorem dmaCopyIn_spec (hclear : ∀ a, Within s.baseDma 128 a → ¬ShimByte a) :
    Inward s (dmaCopyInIfNeeded s) ∧
      (∀ a, Within response 16 a → (dmaCopyInIfNeeded s).mem false a = s.mem false a) ∧
      bytes 128 ((dmaCopyInIfNeeded s).mem true) dmaBuffer =
        (if sendsDma s.functionNumber = true then bytes 128 (s.mem false) s.baseDma
          else bytes 128 (s.mem true) dmaBuffer) ∧
      ∀ a, ¬Within dmaBuffer 128 a → (dmaCopyInIfNeeded s).mem true a = s.mem true a := by
  have hsends : (s.functionNumber = 21 ∨ s.functionNumber = 34 ∨ s.functionNumber = 40) ↔
      sendsDma s.functionNumber = true := by
    generalize s.functionNumber = c
    revert c
    decide
  unfold dmaCopyInIfNeeded
  dsimp only
  by_cases h : sendsDma s.functionNumber = true
  swap
  · rw [if_neg (fun hc => h (hsends.mp hc)), if_neg h]
    exact ⟨⟨rfl, rfl, rfl, fun _ _ => rfl⟩, fun _ _ => rfl, rfl, fun _ _ => rfl⟩
  rw [if_pos (hsends.mpr h), if_pos h]
  have hown : ∀ {x : Word}, Within shimDmaBuffer 128 x → ShimByte x :=
    fun hx => shimByte_within (by decide) (by decide) hx
  have hbytes : bytes 128 (ldirIn false s.mem s.baseDma shimDmaBuffer 128 false) shimDmaBuffer =
      bytes 128 (s.mem false) s.baseDma :=
    bytes_ldirIn (by decide) fun x hx hb => hclear x hx (hown hb)
  have hout (a : Word) (ha : ¬Within shimDmaBuffer 128 a) :
      ldirIn false s.mem s.baseDma shimDmaBuffer 128 false a = s.mem false a :=
    ldirIn_outside (by decide) ha
  have hbank1 : ldirIn false s.mem s.baseDma shimDmaBuffer 128 true = s.mem true :=
    ldirIn_bank (by decide)
  generalize ldirIn false s.mem s.baseDma shimDmaBuffer 128 = m at hbytes hout hbank1 ⊢
  have hwrite : bytes 128 (bankWrite m shimDmaBuffer dmaBuffer 128 true) dmaBuffer =
      bytes 128 (m false) shimDmaBuffer := bytes_copied (by decide) (by decide)
  have hwrite0 : bankWrite m shimDmaBuffer dmaBuffer 128 false = m false := bankWrite_bank0
  have hwriteOut (a : Word) (ha : ¬Within dmaBuffer 128 a) :
      bankWrite m shimDmaBuffer dmaBuffer 128 true a = m true a := bankWrite_outside ha
  refine ⟨⟨rfl, rfl, rfl, fun a ha => ?_⟩, fun a ha => ?_, hwrite.trans hbytes, fun a ha => ?_⟩
  · exact (congrFun hwrite0 a).trans (hout a fun hw => ha (hown hw))
  · refine (congrFun hwrite0 a).trans (hout a fun hw => ?_)
    unfold Within response at ha
    unfold Within shimDmaBuffer at hw
    bv_omega
  · exact (hwriteOut a ha).trans (congrFun hbank1 a)

/-- The bytes of the caller's FCB and DMA buffer in the end. -/
theorem fcbCopyBack_spec
    (hclear : takesFcb s.functionNumber = true → ∀ a, Within s.originalArg 36 a → ¬ShimByte a) :
    (takesFcb s.functionNumber = true →
      bytes 36 ((fcbCopyBackIfNeeded s).mem false) s.originalArg =
        bytes 36 (s.mem true) stableFcb) ∧
      (∀ a, ¬ShimByte a ∨ Within response 16 a →
        ¬(takesFcb s.functionNumber = true ∧ Within s.originalArg 36 a) →
          (fcbCopyBackIfNeeded s).mem false a = s.mem false a) ∧
      (fcbCopyBackIfNeeded s).mem true = s.mem true ∧
      (fcbCopyBackIfNeeded s).functionNumber = s.functionNumber ∧
      (fcbCopyBackIfNeeded s).baseDma = s.baseDma := by
  unfold fcbCopyBackIfNeeded
  rw [isFcbFunction_eq]
  cases hfcb : takesFcb s.functionNumber with
  | false =>
    rw [Bool.not_false, if_pos rfl]
    exact ⟨fun h => Bool.noConfusion h, fun _ _ _ => rfl, rfl, rfl, rfl⟩
  | true =>
    rw [Bool.not_true, if_neg Bool.false_ne_true]
    have hread : bytes 36 (bankRead s.mem fcbBuffer stableFcb 48 false) fcbBuffer =
        bytes 36 (s.mem true) stableFcb := bytes_copied (by decide) (by decide)
    have hout (a : Word) (ha : ¬Within fcbBuffer 48 a) :
        bankRead s.mem fcbBuffer stableFcb 48 false a = s.mem false a := bankRead_outside ha
    have hbank1 : bankRead s.mem fcbBuffer stableFcb 48 true = s.mem true := bankRead_bank1
    generalize bankRead s.mem fcbBuffer stableFcb 48 = m at hread hout hbank1 ⊢
    refine ⟨fun _ => ?_, fun a ha hnot => ?_, ?_, rfl, rfl⟩
    · refine (bytes_ldirIn (by decide) fun x hx ho => ?_).trans hread
      exact hclear hfcb x ho (shimByte_within (by decide) (by decide) hx)
    · refine (ldirIn_outside (by decide) fun hw => hnot ⟨rfl, hw⟩).trans (hout a fun hw => ?_)
      rcases ha with ha | ha
      · exact ha (shimByte_within (by decide) (by decide) hw)
      · unfold Within response at ha
        unfold Within fcbBuffer at hw
        bv_omega
    · exact (ldirIn_bank (by decide)).trans hbank1

theorem dmaCopyBack_spec
    (hclear : fillsDma s.functionNumber = true → ∀ a, Within s.baseDma 128 a → ¬ShimByte a) :
    (fillsDma s.functionNumber = true →
      bytes 128 ((dmaCopyBackIfNeeded s).mem false) s.baseDma =
        bytes 128 (s.mem true) dmaBuffer) ∧
      ∀ a, ¬ShimByte a ∨ Within response 16 a →
        ¬(fillsDma s.functionNumber = true ∧ Within s.baseDma 128 a) →
          (dmaCopyBackIfNeeded s).mem false a = s.mem false a := by
  have hfills : (s.functionNumber = 17 ∨ s.functionNumber = 18 ∨ s.functionNumber = 20 ∨
      s.functionNumber = 33) ↔ fillsDma s.functionNumber = true := by
    generalize s.functionNumber = c
    revert c
    decide
  unfold dmaCopyBackIfNeeded
  dsimp only
  by_cases h : fillsDma s.functionNumber = true
  swap
  · rw [if_neg (fun hc => h (hfills.mp hc))]
    exact ⟨fun hc => absurd hc h, fun _ _ _ => rfl⟩
  rw [if_pos (hfills.mpr h)]
  have hread : bytes 128 (bankRead s.mem shimDmaBuffer dmaBuffer 128 false) shimDmaBuffer =
      bytes 128 (s.mem true) dmaBuffer := bytes_copied (by decide) (by decide)
  have hout (a : Word) (ha : ¬Within shimDmaBuffer 128 a) :
      bankRead s.mem shimDmaBuffer dmaBuffer 128 false a = s.mem false a := bankRead_outside ha
  generalize bankRead s.mem shimDmaBuffer dmaBuffer 128 = m at hread hout ⊢
  refine ⟨fun _ => ?_, fun a ha hdma => ?_⟩
  · refine (bytes_ldirIn (by decide) fun x hx hb => ?_).trans hread
    exact hclear h x hb (shimByte_within (by decide) (by decide) hx)
  · refine (ldirIn_outside (by decide) fun hw => hdma ⟨h, hw⟩).trans (hout a fun hw => ?_)
    rcases ha with ha | ha
    · exact ha (shimByte_within (by decide) (by decide) hw)
    · unfold Within response at ha
      unfold Within shimDmaBuffer at hw
      bv_omega

/-- What the BDOS makes of what the shim gives it. -/
def served (beh : Behaviour) (s : State δ) : Result :=
  let c := s.functionNumber
  beh c (if takesFcb c = true then bytes 36 (s.mem false) s.originalArg
      else bytes 36 (s.mem true) stableFcb)
    (if sendsDma c = true then bytes 128 (s.mem false) s.baseDma
      else bytes 128 (s.mem true) dmaBuffer)
    (if takesFcb c = true then stableFcb else s.originalArg)

theorem forwardRequest_spec (beh : Behaviour)
    (hfcb : takesFcb s.functionNumber = true → ∀ a, Within s.originalArg 36 a → ¬ShimByte a)
    (hdma : ∀ a, Within s.baseDma 128 a → ¬ShimByte a) :
    Inward s (forwardRequest beh.bdos s) ∧
      bytes 36 ((forwardRequest beh.bdos s).mem true) stableFcb = (served beh s).fcb ∧
      bytes 128 ((forwardRequest beh.bdos s).mem true) dmaBuffer = (served beh s).dma ∧
      (forwardRequest beh.bdos s).mem false (response + 6) = (served beh s).regs.a ∧
      (forwardRequest beh.bdos s).mem false (response + 7) = (served beh s).regs.b ∧
      fetch16 (forwardRequest beh.bdos s).mem false (response + 8) = (served beh s).regs.hl := by
  unfold forwardRequest
  dsimp only
  -- the request of the caller
  have hset : Inward s { s with
      mem := store16 (store s.mem false response s.functionNumber) false (response + 2)
        s.originalArg } := by
    refine ⟨rfl, rfl, rfl, fun a ha => ?_⟩
    refine (store16_outside fun hw => ha (shimByte_within (by decide) (by decide) hw.2)).trans ?_
    refine store_ne fun he => ha ?_
    rw [he]
    unfold ShimByte
    decide
  have hfunction : store16 (store s.mem false response s.functionNumber) false (response + 2)
      s.originalArg false response = s.functionNumber :=
    (store16_outside (by decide)).trans store_same
  have harg : fetch16 (store16 (store s.mem false response s.functionNumber) false (response + 2)
      s.originalArg) false (response + 2) = s.originalArg := fetch16_store16
  have hset1 : store16 (store s.mem false response s.functionNumber) false (response + 2)
      s.originalArg true = s.mem true := (store16_bank (by decide)).trans (store_bank (by decide))
  generalize store16 (store s.mem false response s.functionNumber) false (response + 2)
    s.originalArg = m at hset hfunction harg hset1 ⊢
  generalize hu : ({ s with mem := m } : State δ) = u at hset ⊢
  have hum : u.mem = m := by rw [← hu]
  rw [← hum] at hfunction harg hset1
  clear hu hum
  -- what is staged
  obtain ⟨hin1, hresp1, hfcb1, hnone1, hkeep1⟩ := fcbCopyIn_spec (s := u) (by
    rw [hset.functionNumber, hset.originalArg]
    exact hfcb)
  rw [hset.functionNumber, hset.originalArg] at hfcb1
  rw [hset.functionNumber] at hnone1
  generalize fcbCopyInIfNeeded u = v at hin1 hresp1 hfcb1 hnone1 hkeep1 ⊢
  have hv := hset.trans hin1
  obtain ⟨hin2, hresp2, hdma2, hkeep2⟩ := dmaCopyIn_spec (s := v) (by
    rw [hv.baseDma]
    exact hdma)
  rw [hv.functionNumber, hv.baseDma, hv.bytes (by decide) hdma] at hdma2
  generalize dmaCopyInIfNeeded v = w at hin2 hresp2 hdma2 hkeep2 ⊢
  have hw := hv.trans hin2
  have hfcbW : bytes 36 (w.mem true) stableFcb =
      if takesFcb s.functionNumber = true then bytes 36 (s.mem false) s.originalArg
        else bytes 36 (s.mem true) stableFcb := by
    have hsame : bytes 36 (w.mem true) stableFcb = bytes 36 (v.mem true) stableFcb := by
      refine bytes_congr (by decide) fun x hx => hkeep2 x fun hd => ?_
      unfold Within stableFcb at hx
      unfold Within dmaBuffer at hd
      bv_omega
    rw [hsame]
    cases htakes : takesFcb s.functionNumber with
    | true =>
      rw [if_pos rfl, (hfcb1 htakes).1]
      exact hset.bytes (by decide) (hfcb htakes)
    | false => rw [if_neg Bool.false_ne_true, hnone1 htakes, hset1]
  have hdmaW : bytes 128 (w.mem true) dmaBuffer =
      if sendsDma s.functionNumber = true then bytes 128 (s.mem false) s.baseDma
        else bytes 128 (s.mem true) dmaBuffer := by
    rw [hdma2]
    split
    · rfl
    · refine (bytes_congr (by decide) fun x hx => hkeep1 x fun hs => ?_).trans
        (by rw [hset1])
      unfold Within dmaBuffer at hx
      unfold Within stableFcb at hs
      bv_omega
  have hfunctionW : w.mem false response = s.functionNumber := by
    rw [hresp2 _ (by decide), hresp1, hfunction]
  have hargW : fetch16 w.mem false (response + 2) =
      if takesFcb s.functionNumber = true then stableFcb else s.originalArg := by
    rw [show fetch16 w.mem false (response + 2) = fetch16 v.mem false (response + 2) from
      fetch16_congr (hresp2 _ (by decide)) (hresp2 _ (by decide))]
    cases htakes : takesFcb s.functionNumber with
    | true => rw [if_pos rfl, (hfcb1 htakes).2]
    | false => rw [if_neg Bool.false_ne_true, hnone1 htakes, harg]
  -- the request in bank 1
  have hstaged : Staged s.functionNumber (bytes 36 (w.mem true) stableFcb)
      (bytes 128 (w.mem true) dmaBuffer) (fetch16 w.mem false (response + 2))
      (poke (bankWrite w.mem response request 16) serviceStatus 0) := by
    have hpoke : Keeps 0xE400 0xE4C2 (bankWrite w.mem response request 16)
        (poke (bankWrite w.mem response request 16) serviceStatus 0) := keeps_poke (by decide)
    constructor
    · rw [hpoke.bytes (by decide) (by decide) (by decide) (by decide)]
      refine bytes_congr (by decide) fun x hx => bankWrite_outside fun hr => ?_
      unfold Within stableFcb at hx
      unfold Within request at hr
      bv_omega
    · rw [hpoke.bytes (by decide) (by decide) (by decide) (by decide)]
      refine bytes_congr (by decide) fun x hx => bankWrite_outside fun hr => ?_
      unfold Within dmaBuffer at hx
      unfold Within request at hr
      bv_omega
    · rw [hpoke.peek (by decide) (by decide), ← hfunctionW]
      exact bankWrite_inside (i := 0) (by decide) (by decide)
    · rw [hpoke.peek16 (by decide) (by decide) (by decide) (by decide)]
      exact congrArg₂ word (bankWrite_inside (i := 3) (by decide) (by decide))
        (bankWrite_inside (i := 2) (by decide) (by decide))
  rw [hfcbW, hdmaW, hargW] at hstaged
  have hanswer := proxy_answers (s := {
    mem := poke (bankWrite w.mem response request 16) serviceStatus 0
    biosDma := w.biosDma, disk := w.disk }) beh hstaged fun htakes => if_pos htakes
  change Answered (served beh s) (poke (bankWrite w.mem response request 16) serviceStatus 0) _
    at hanswer
  generalize bank1BdosProxy beh.bdos _ = x at hanswer ⊢
  have hread (i : Nat) (hi : i < 16) :
      bankRead x.mem response request 16 false (response + BitVec.ofNat 16 i) =
        x.mem true (request + BitVec.ofNat 16 i) := bankRead_inside (by decide) hi
  have hread1 : bankRead x.mem response request 16 true = x.mem true := bankRead_bank1
  refine ⟨⟨hw.functionNumber, hw.originalArg, hw.baseDma, fun a ha => ?_⟩, ?_, ?_,
    (hread 6 (by decide)).trans hanswer.a, (hread 7 (by decide)).trans hanswer.b, ?_⟩
  · refine (bankRead_outside fun hr => ha (shimByte_within (by decide) (by decide) hr)).trans ?_
    rw [hanswer.bank0, bank0_poke, bankWrite_bank0]
    exact hw.bank0 a ha
  · exact (congrArg (bytes 36 · stableFcb) hread1).trans hanswer.fcb
  · exact (congrArg (bytes 128 · dmaBuffer) hread1).trans hanswer.dma
  · exact (congrArg₂ word (hread 9 (by decide)) (hread 8 (by decide))).trans hanswer.hl

/-! ## Transparency -/

/-- The functions that go to bank 1 and return no pointer. -/
def Forwarded (c : Byte) : Prop := 13 ≤ c ∧ c ≠ 26 ∧ c ≠ 27 ∧ c ≠ 31

instance (c : Byte) : Decidable (Forwarded c) := inferInstanceAs (Decidable (_ ∧ _))

/-- What a call leaves to the caller. -/
theorem bdosEntry_spec (beh : Behaviour) {b c : Byte} {de : Word} (hc : Forwarded c)
    (hde : takesFcb c = true → de = fcb) (hclear : Clear fcb s.baseDma) :
    ∃ t, bdosEntry beh.bdos b c de s =
        some ((served beh { s with functionNumber := c, originalArg := de }).regs, t) ∧
      bytes 36 (t.mem false) fcb =
        (if takesFcb c = true then (served beh { s with functionNumber := c, originalArg := de }).fcb
          else bytes 36 (s.mem false) fcb) ∧
      bytes 128 (t.mem false) s.baseDma =
        (if fillsDma c = true then (served beh { s with functionNumber := c, originalArg := de }).dma
          else bytes 128 (s.mem false) s.baseDma) := by
  obtain ⟨hlow, h26, h27, h31⟩ := hc
  unfold bdosEntry
  dsimp only
  rw [if_neg (by bv_omega), if_neg h26, if_neg h27, if_neg h31]
  have hrequest := forwardRequest_spec (s := { s with functionNumber := c, originalArg := de }) beh
    (fun htakes => by
      rw [hde htakes]
      exact hclear.fcbOwn) hclear.dmaOwn
  generalize served beh { s with functionNumber := c, originalArg := de } = out at hrequest ⊢
  generalize forwardRequest beh.bdos { s with functionNumber := c, originalArg := de } = u
    at hrequest ⊢
  obtain ⟨hin, hfcb, hdma, ha, hb, hhl⟩ := hrequest
  have hbank0 : ∀ a, ¬ShimByte a → u.mem false a = s.mem false a := hin.bank0
  have hnumber : u.functionNumber = c := hin.functionNumber
  -- a reset of the disks sets the DMA address of the caller
  generalize hv : (if u.functionNumber = 13 then { u with baseDma := 0x80 } else u) = v
  have hvmem : v.mem = u.mem := by
    rw [← hv]
    split
    · rfl
    · rfl
  have hvnumber : v.functionNumber = c := by
    rw [← hv]
    split
    · exact hnumber
    · exact hnumber
  have hvarg : v.originalArg = de := by
    rw [← hv]
    split
    · exact hin.originalArg
    · exact hin.originalArg
  have hvdma : fillsDma c = true → v.baseDma = s.baseDma := by
    intro hfills
    rw [← hv, if_neg]
    · exact hin.baseDma
    · rw [hnumber]
      rintro rfl
      cases hfills
  clear hv
  obtain ⟨hback, hkeep, hback1, hwnumber, hwdma⟩ := fcbCopyBack_spec (s := v) (by
    rw [hvnumber, hvarg]
    intro htakes
    rw [hde htakes]
    exact hclear.fcbOwn)
  rw [hvnumber, hvarg] at hback hkeep
  generalize fcbCopyBackIfNeeded v = w at hback hkeep hback1 hwnumber hwdma ⊢
  rw [hvnumber] at hwnumber
  have hwdma' : fillsDma c = true → w.baseDma = s.baseDma := fun h => hwdma.trans (hvdma h)
  obtain ⟨hout, hsame⟩ := dmaCopyBack_spec (s := w) (by
    rw [hwnumber]
    intro hfills
    rw [hwdma' hfills]
    exact hclear.dmaOwn)
  rw [hwnumber] at hout hsame
  generalize dmaCopyBackIfNeeded w = t at hout hsame ⊢
  have hresponse {a : Word} (hr : Within response 16 a) : t.mem false a = u.mem false a := by
    have hown : ShimByte a := shimByte_within (by decide) (by decide) hr
    rw [hsame a (Or.inr hr) ?_, hkeep a (Or.inr hr) ?_, hvmem]
    · rintro ⟨htakes, hin⟩
      rw [hde htakes] at hin
      exact hclear.fcbOwn a hin hown
    · rintro ⟨hfills, hin⟩
      rw [hwdma' hfills] at hin
      exact hclear.dmaOwn a hin hown
  refine ⟨t, congrArg some (Prod.ext ?_ rfl), ?_, ?_⟩
  · show (⟨t.mem false (response + 6), t.mem false (response + 7),
      word (t.mem false (response + 8 + 1)) (t.mem false (response + 8))⟩ : Regs) = out.regs
    rw [hresponse (by decide), hresponse (by decide), hresponse (by decide),
      hresponse (by decide), ha, hb]
    rw [show word (u.mem false (response + 8 + 1)) (u.mem false (response + 8)) = out.regs.hl
      from hhl]
  · have hcaller : bytes 36 (t.mem false) fcb = bytes 36 (w.mem false) fcb := by
      refine bytes_congr (by decide) fun x hx => hsame x (Or.inl (hclear.fcbOwn x hx)) ?_
      rintro ⟨hfills, hin⟩
      rw [hwdma' hfills] at hin
      exact hclear.disjoint x hx hin
    rw [hcaller]
    cases htakes : takesFcb c with
    | true =>
      have hstable := hback htakes
      rw [hde htakes] at hstable
      rw [if_pos rfl, hstable, hvmem, hfcb]
    | false =>
      rw [if_neg Bool.false_ne_true]
      refine bytes_congr (by decide) fun x hx => ?_
      rw [hkeep x (Or.inl (hclear.fcbOwn x hx)) (fun h => ?_), hvmem]
      · exact hbank0 x (hclear.fcbOwn x hx)
      · rw [htakes] at h
        exact Bool.noConfusion h.1
  · cases hfills : fillsDma c with
    | true =>
      have hstaged := hout hfills
      rw [hwdma' hfills] at hstaged
      rw [if_pos rfl, hstaged, hback1, hvmem, hdma]
    | false =>
      rw [if_neg Bool.false_ne_true]
      refine bytes_congr (by decide) fun x hx => ?_
      rw [hsame x (Or.inl (hclear.dmaOwn x hx)) (fun h => ?_),
        hkeep x (Or.inl (hclear.dmaOwn x hx)) (fun h => ?_), hvmem]
      · exact hbank0 x (hclear.dmaOwn x hx)
      · rw [hde h.1] at h
        exact hclear.disjoint x h.2 hx
      · rw [hfills] at h
        exact Bool.noConfusion h.1

end

/-- What the BDOS makes of the caller's own FCB and DMA buffer. -/
def own (beh : Behaviour) (c : Byte) (de fcb : Word) (s : State δ) : Result :=
  beh c (bytes 36 (s.mem false) fcb) (bytes 128 (s.mem false) s.baseDma) de

/-- What it makes of the staging buffers of bank 1. They hold the caller's FCB for a function that
takes one, and its DMA buffer for a write; otherwise they are as an earlier call has left them. -/
def staged (beh : Behaviour) (c : Byte) (de fcb : Word) (s : State δ) : Result :=
  beh c (if takesFcb c = true then bytes 36 (s.mem false) fcb else bytes 36 (s.mem true) stableFcb)
    (if sendsDma c = true then bytes 128 (s.mem false) s.baseDma
      else bytes 128 (s.mem true) dmaBuffer)
    (if takesFcb c = true then stableFcb else de)

/-- The caller's FCB, its DMA buffer and the results are those of the BDOS on the caller's own
FCB and DMA buffer. -/
def Transparent (beh : Behaviour) (b c : Byte) (de fcb : Word) (s : State δ) : Prop :=
  ∃ t, bdosEntry beh.bdos b c de s = some ((own beh c de fcb s).regs, t) ∧
    bytes 36 (t.mem false) fcb = (own beh c de fcb s).fcb ∧
      bytes 128 (t.mem false) s.baseDma = (own beh c de fcb s).dma

/-- What the BDOS changes is what is copied back, and it changes the staging buffers to what it
would change the caller's to. -/
structure Agrees (beh : Behaviour) (c : Byte) (de fcb : Word) (s : State δ) : Prop where
  results : (staged beh c de fcb s).regs = (own beh c de fcb s).regs
  fcbBytes : (own beh c de fcb s).fcb =
    if takesFcb c = true then (staged beh c de fcb s).fcb else bytes 36 (s.mem false) fcb
  dmaBytes : (own beh c de fcb s).dma =
    if fillsDma c = true then (staged beh c de fcb s).dma else bytes 128 (s.mem false) s.baseDma

section
variable {beh : Behaviour} {b c : Byte} {de fcb : Word} {s : State δ}

theorem served_eq (hde : takesFcb c = true → de = fcb) :
    served beh { s with functionNumber := c, originalArg := de } = staged beh c de fcb s := by
  unfold served staged
  dsimp only
  cases htakes : takesFcb c with
  | true => rw [hde htakes]
  | false => rfl

/-- The shim is transparent to a BDOS, whatever that is, exactly where it gives for the staging
buffers what it gives for the caller's own, and changes no more of them than is copied back. -/
theorem transparent_iff (hc : Forwarded c) (hde : takesFcb c = true → de = fcb)
    (hclear : Clear fcb s.baseDma) : Transparent beh b c de fcb s ↔ Agrees beh c de fcb s := by
  obtain ⟨t, hrun, hfcb, hdma⟩ := bdosEntry_spec beh (b := b) hc hde hclear
  rw [served_eq hde] at hrun hfcb hdma
  constructor
  · rintro ⟨u, hrun', hfcb', hdma'⟩
    obtain ⟨hregs, rfl⟩ := Prod.mk.inj (Option.some.inj (hrun.symm.trans hrun'))
    exact ⟨hregs, hfcb'.symm.trans hfcb, hdma'.symm.trans hdma⟩
  · intro h
    exact ⟨t, by rw [hrun, h.results], hfcb.trans h.fcbBytes.symm,
      hdma.trans h.dmaBytes.symm⟩

end

/-! ## A read behind the end of a file -/

/-- Nothing is in memory but a byte that an earlier read has left in the staging buffer. -/
def staleState : State Unit where
  mem k a := if k = true ∧ a = dmaBuffer then 0xE5 else 0
  biosDma := 0x80
  disk := ()
  functionNumber := 0
  originalArg := 0
  baseDma := 0x80

theorem clear_default : Clear 0x5C 0x80 := by
  constructor
  · intro a ha
    rw [within_iff (by decide)] at ha
    unfold ShimByte
    bv_omega
  · intro a ha
    rw [within_iff (by decide)] at ha
    unfold ShimByte
    bv_omega
  · intro a ha hd
    rw [within_iff (by decide)] at ha hd
    bv_omega

/-- A call that finds no record, or no file: it changes nothing. -/
def notFound : Behaviour := fun _ fcb dma _ => { fcb := fcb, dma := dma, regs := ⟨1, 0, 1⟩ }

/-- A sequential read that finds a record: it fills the DMA buffer and counts the record. -/
def found : Behaviour := fun _ fcb _ _ =>
  { fcb := fun i => if i = 32 then fcb i + 1 else fcb i, dma := fun _ => 0x1A, regs := ⟨0, 0, 0⟩ }

/-- A sequential read that finds no record changes the DMA buffer of the caller. -/
theorem read_overwrites_dma : ¬Transparent notFound 0 20 0x5C 0x5C staleState := by
  rintro ⟨t, hrun, -, hdma⟩
  obtain ⟨t', hrun', -, hdma'⟩ := bdosEntry_spec notFound (s := staleState) (b := 0) (c := 20)
    (by decide) (fun _ => rfl) clear_default
  rw [hrun] at hrun'
  obtain rfl : t = t' := congrArg Prod.snd (Option.some.inj hrun')
  rw [hdma] at hdma'
  exact absurd (congrFun hdma' 0) (by decide)

/-- A read that finds one is transparent, and so is a write that finds no room. -/
theorem transparent_iff_stale :
    Transparent found 0 20 0x5C 0x5C staleState ∧ Transparent notFound 0 21 0x5C 0x5C staleState ∧
      ¬Transparent notFound 0 20 0x5C 0x5C staleState := by
  refine ⟨?_, ?_, fun h => ?_⟩
  · exact (transparent_iff (by decide) (fun _ => rfl) clear_default).mpr ⟨rfl, rfl, rfl⟩
  · exact (transparent_iff (by decide) (fun _ => rfl) clear_default).mpr ⟨rfl, rfl, rfl⟩
  · have hagrees := (transparent_iff (by decide) (fun _ => rfl) clear_default).mp h
    exact absurd (congrFun hagrees.dmaBytes 0) (by decide)

end Z80Sbc.Bank.ShimTransparency
