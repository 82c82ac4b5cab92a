import Z80Sbc.Bank.ShimTransparency
import Z80Sbc.Z80.Cpu

/-! # The context hooks of bank 1

`banked_context.asm`: the DMA pointer and the search variables of the BDOS are swapped when a call
goes into the library, and back when it comes out. Each label of the source is a function here,
and its instructions are listed in its order. -/

namespace Z80Sbc.Bank.Context
open Z80Sbc.Z80 Z80Sbc.Bank Shim ShimTransparency

/-- `dma_address`, the cell of the BIOS, somewhere in its core. -/
structure DmaCell where
  address : Word
  above : 0xFC00 ≤ address.toNat
  below : address.toNat + 2 ≤ 0xFF00

/-- The BIOS entry FC24h. -/
def setDma (dma : DmaCell) (s : Cpu) : Cpu := (s.exec [.stMem16 dma.address .bc]).ret

def saveSearch (s : Cpu) : Cpu :=
  (s.exec
    [.ld16 .hl 0xFB14, .ldi,
      .ld16 .hl 0xFB18, .ld16 .bc 3, .ldir,
      .ld16 .hl 0xFB29, .ld (.r .c) (.n 3), .ldir]).ret

/-- The code before `save_search`, which it runs into. -/
def saveContext (s : Cpu) : Cpu := saveSearch (s.exec [.ld16 .hl 0xFAF1, .ldi, .ldi])

def restoreSearch (s : Cpu) : Cpu :=
  (s.exec
    [.ld16 .de 0xFB14, .ldi,
      .ld16 .de 0xFB18, .ld16 .bc 3, .ldir,
      .ld16 .de 0xFB29, .ld (.r .c) (.n 3), .ldir]).ret

def restoreContext (dma : DmaCell) (s : Cpu) : Option Cpu :=
  let s := s.exec
    [.ld (.r .c) .hl, .inc16 .hl, .ld (.r .b) .hl, .inc16 .hl, .push .hl, .stMem16 0xFAF1 .bc]
  (s.call 0xE7DD fun s => some (setDma dma s)).map fun s => restoreSearch (s.exec [.pop .hl])

/-- What both hooks do: the context is saved at `saved` and the one at `next` restored. The two
calls are followed by the addresses `ra` and `ra'`. -/
def swapContext (dma : DmaCell) (saved next ra ra' : Word) (s : Cpu) : Option Cpu := do
  let s := s.exec [.push .hl, .push .bc, .push .de, .ld16 .de saved]
  let s ← s.call ra fun s => some (saveContext s)
  let s := s.exec [.ld16 .hl next]
  let s ← s.call ra' (restoreContext dma)
  some (s.exec [.pop .de, .pop .bc, .pop .hl]).ret

/-- The snapshots. -/
def callerContext : Word := 0xDF60
def libraryContext : Word := 0xDF80

def enterContext (dma : DmaCell) : Cpu → Option Cpu :=
  swapContext dma callerContext libraryContext 0xE798 0xE79E

def leaveContext (dma : DmaCell) : Cpu → Option Cpu :=
  swapContext dma libraryContext callerContext 0xE7AB 0xE7B1

/-! ## Block moves -/

section
variable {s : Cpu} {n : Nat}

theorem moveByte_eq (s : Cpu) : s.moveByte =
    ((({ s with mem := ldirIn s.bank s.mem s.hl s.de 1 }.put16 .hl (s.hl + 1)).put16 .de
      (s.de + 1)).put16 .bc (s.bc - 1)) := rfl

theorem moveBytes_eq (n : Nat) (s : Cpu) : Cpu.moveBytes n s =
    ((({ s with mem := ldirIn s.bank s.mem s.hl s.de n }.put16 .hl
      (s.hl + BitVec.ofNat 16 n)).put16 .de (s.de + BitVec.ofNat 16 n)).put16 .bc
        (s.bc - BitVec.ofNat 16 n)) := by
  induction n generalizing s with
  | zero => simp [Cpu.moveBytes, ldirIn]
  | succ n ih =>
    have hadd (a : Word) : a + 1 + BitVec.ofNat 16 n = a + BitVec.ofNat 16 (n + 1) := by bv_omega
    have hsub : s.bc - 1 - BitVec.ofNat 16 n = s.bc - BitVec.ofNat 16 (n + 1) := by bv_omega
    rw [Cpu.moveBytes, ih, ← hadd, ← hadd, ← hsub, ldirIn]
    simp [moveByte_eq]
    rfl

end

/-- A routine that was called with the memory of `s` has returned with the memory `m`. -/
structure Returns (s t : Cpu) (m : Mem) : Prop where
  mem : t.mem = m
  bank : t.bank = s.bank
  sp : t.sp = s.sp + 2
  pc : t.pc = fetch16 m s.bank s.sp

section
variable {s t : Cpu} {ra : Word} {m : Mem} {base : Word}

theorem Returns.call (h : Returns (s.push ra) t m) (routine : Cpu → Option Cpu)
    (ht : routine (s.push ra) = some t) (hra : fetch16 m s.bank (s.sp - 2) = ra) :
    s.call ra routine = some t ∧ t.sp = s.sp := by
  refine ⟨Cpu.call_eq_some ht (h.pc.trans hra), h.sp.trans ?_⟩
  show s.sp - 2 + 2 = s.sp
  bv_omega

/-- The code before a routine that it runs into. -/
theorem Returns.runsInto {s' : Cpu} (h : Returns s' t m) (hbank : s'.bank = s.bank)
    (hsp : s'.sp = s.sp) : Returns s t m where
  mem := h.mem
  bank := h.bank.trans hbank
  sp := by rw [h.sp, hsp]
  pc := by rw [h.pc, hbank, hsp]

theorem word_hi_zero : word (hi 0#16) 3#8 = 3#16 := by decide

theorem setDma_returns (dma : DmaCell) (hbank : s.bank = true) :
    Returns s (setDma dma s) (store16 s.mem true dma.address s.bc) := by
  constructor <;> simp [setDma, Cpu.ret, hbank]

theorem saveSearch_returns (hbank : s.bank = true) :
    Returns s (saveSearch s) (Shim.saveSearch s.mem s.de) := by
  have hadd (a : Word) : a + 1#16 + 3#16 = a + 4#16 := by bv_omega
  constructor <;> simp [saveSearch, Cpu.ret, moveByte_eq, Cpu.moveFlags, hbank, moveBytes_eq,
    word_hi_zero, Shim.saveSearch, hadd]

/-- What `save_context` makes of the memory. -/
def saved (m : Mem) (base : Word) : Mem :=
  Shim.saveSearch (ldirIn true (ldirIn true m 0xFAF1 base 1) 0xFAF2 (base + 1) 1) (base + 2)

theorem saveContext_returns (hbank : s.bank = true) :
    Returns s (saveContext s) (saved s.mem s.de) := by
  obtain ⟨u, hu⟩ : ∃ u, u = s.exec [.ld16 .hl 0xFAF1, .ldi, .ldi] := ⟨_, rfl⟩
  have hadd (a : Word) : a + 1#16 + 1#16 = a + 2#16 := by bv_omega
  have ubank : u.bank = s.bank := by simp [hu, moveByte_eq, Cpu.moveFlags]
  have usp : u.sp = s.sp := by simp [hu, moveByte_eq, Cpu.moveFlags]
  have ude : u.de = s.de + 2 := by simp [hu, moveByte_eq, Cpu.moveFlags, hadd]
  have umem : u.mem = ldirIn true (ldirIn true s.mem 0xFAF1 s.de 1) 0xFAF2 (s.de + 1) 1 := by
    simp [hu, moveByte_eq, Cpu.moveFlags, hbank]
  have h := (saveSearch_returns (ubank.trans hbank)).runsInto ubank usp
  rw [umem, ude, hu] at h
  exact h

theorem restoreSearch_returns (hbank : s.bank = true) :
    Returns s (restoreSearch s) (Shim.restoreSearch s.mem s.hl) := by
  have hadd (a : Word) : a + 1#16 + 3#16 = a + 4#16 := by bv_omega
  constructor <;> simp [restoreSearch, Cpu.ret, moveByte_eq, Cpu.moveFlags, hbank, moveBytes_eq,
    word_hi_zero, Shim.restoreSearch, hadd]

end

/-! ## What the context is -/

/-- The DMA pointer of the BDOS, and its search variables. -/
def variableAt : Fin 9 → Word
  | 0 => 0xFAF1
  | 1 => 0xFAF2
  | 2 => 0xFB14
  | 3 => 0xFB18
  | 4 => 0xFB19
  | 5 => 0xFB1A
  | 6 => 0xFB29
  | 7 => 0xFB2A
  | 8 => 0xFB2B

/-- The search variables alone. -/
def SearchVariable (a : Word) : Prop := Within 0xFB14 1 a ∨ Within 0xFB18 3 a ∨ Within 0xFB29 3 a

def Variable (a : Word) : Prop := Within 0xFAF1 2 a ∨ SearchVariable a

instance (a : Word) : Decidable (SearchVariable a) := inferInstanceAs (Decidable (_ ∨ _ ∨ _))
instance (a : Word) : Decidable (Variable a) := inferInstanceAs (Decidable (_ ∨ _))

def active (m : Mem) : Fin 9 → Byte := fun i => m true (variableAt i)

def snapshot (m : Mem) (base : Word) : Fin 9 → Byte := bytes 9 (m true) base

/-- Bank 0 stays as it is, and of bank 1 what is not among `P`. -/
def Writes (P : Word → Prop) (m m' : Mem) : Prop := ∀ k a, ¬(k = true ∧ P a) → m' k a = m k a

section
variable {P Q : Word → Prop} {m m' m'' : Mem} {a base dst src : Word} {n : Nat}

theorem Writes.trans (h : Writes P m m') (h' : Writes P m' m'') : Writes P m m'' :=
  fun k a hka => (h' k a hka).trans (h k a hka)

theorem Writes.mono (h : Writes P m m') (hle : ∀ a, P a → Q a) : Writes Q m m' :=
  fun k a hka => h k a fun hp => hka ⟨hp.1, hle a hp.2⟩

theorem Writes.at (h : Writes P m m') (ha : ¬P a) : m' true a = m true a :=
  h true a fun hp => ha hp.2

theorem Writes.fetch16 (h : Writes P m m') (hP : ∀ b, Within a 2 b → ¬P b) :
    fetch16 m' true a = fetch16 m true a := by
  refine fetch16_congr (h.at (hP _ ?_)) (h.at (hP _ ?_)) <;>
  · unfold Within
    bv_omega

theorem variable_at (i : Fin 9) : Variable (variableAt i) := by
  revert i
  decide

theorem Writes.active (h : Writes P m m') (hP : ∀ a, Variable a → ¬P a) :
    active m' = active m := funext fun i => h.at (hP _ (variable_at i))

theorem Writes.snapshot (h : Writes P m m') (hP : ∀ a, Within base 9 a → ¬P a) :
    snapshot m' base = snapshot m base := bytes_congr (by decide) fun a ha => h.at (hP a ha)

theorem writes_store16 (w : Word) : Writes (Within base 2) m (store16 m true base w) :=
  fun _ _ hka => store16_outside hka

theorem writes_ldirIn (hn : n ≤ 65536) : Writes (Within dst n) m (ldirIn true m src dst n) := by
  intro k a hka
  by_cases hk : k = true
  · exact ldirIn_outside hn fun hw => hka ⟨hk, hw⟩
  · exact congrFun (ldirIn_bank hk) a

/-- One of the two snapshots. -/
def IsSnapshot (base : Word) : Prop := base = callerContext ∨ base = libraryContext

theorem saved_snapshot (hbase : IsSnapshot base) : snapshot (saved m base) base = active m := by
  funext ⟨i, hi⟩
  rcases hbase with rfl | rfl
  · interval_cases i <;>
      simp [Context.snapshot, Context.active, bytes, saved, Shim.saveSearch, ldirIn, store,
        variableAt, callerContext]
  · interval_cases i <;>
      simp [Context.snapshot, Context.active, bytes, saved, Shim.saveSearch, ldirIn, store,
        variableAt, libraryContext]

theorem saved_writes : Writes (Within base 9) m (saved m base) := by
  have hpart {m : Mem} {src : Word} (d n : Nat) (h : d + n ≤ 9) :
      Writes (Within base 9) m (ldirIn true m src (base + BitVec.ofNat 16 d) n) := by
    refine (writes_ldirIn (by omega)).mono fun a ha => ?_
    unfold Within at ha ⊢
    bv_omega
  have hfirst : Writes (Within base 9) m (ldirIn true m 0xFAF1 base 1) :=
    (writes_ldirIn (by decide)).mono fun a ha => ha.mono (by decide)
  have hadd (d : Word) : base + 2 + d = base + (2 + d) := BitVec.add_assoc base 2 d
  unfold saved Shim.saveSearch
  rw [hadd, hadd]
  exact ((hfirst.trans (hpart 1 1 (by decide))).trans (hpart 2 1 (by decide))).trans
    ((hpart 3 3 (by decide)).trans (hpart 6 3 (by decide)))

theorem restoreSearch_writes (hl : Word) :
    Writes SearchVariable m (Shim.restoreSearch m hl) := by
  have h1 : Writes SearchVariable m (ldirIn true m hl 0xFB14 1) :=
    (writes_ldirIn (by decide)).mono fun a ha => Or.inl ha
  have h2 {m : Mem} : Writes SearchVariable m (ldirIn true m (hl + 1) 0xFB18 3) :=
    (writes_ldirIn (by decide)).mono fun a ha => Or.inr (Or.inl ha)
  have h3 {m : Mem} : Writes SearchVariable m (ldirIn true m (hl + 4) 0xFB29 3) :=
    (writes_ldirIn (by decide)).mono fun a ha => Or.inr (Or.inr ha)
  exact (h1.trans h2).trans h3

theorem restoreSearch_active (hbase : IsSnapshot base) {i : Nat} (hi : 2 ≤ i) (hi' : i < 9) :
    Shim.restoreSearch m (base + 2) true (variableAt ⟨i, hi'⟩) =
      m true (base + BitVec.ofNat 16 i) := by
  rcases hbase with rfl | rfl
  · interval_cases i <;> simp [Shim.restoreSearch, ldirIn, store, variableAt, callerContext]
  · interval_cases i <;> simp [Shim.restoreSearch, ldirIn, store, variableAt, libraryContext]

end

/-! ## Where it is -/

section
variable {dma : DmaCell} {a base : Word}

theorem Variable.range (h : Variable a) : 0xFAF1 ≤ a.toNat ∧ a.toNat < 0xFB2C := by
  rcases h with h | h | h | h <;>
  · unfold Within at h
    bv_omega

theorem IsSnapshot.range (h : IsSnapshot base) (ha : Within base 9 a) :
    0xDF60 ≤ a.toNat ∧ a.toNat < 0xDF89 := by
  rcases h with rfl | rfl <;>
  · simp only [Within, callerContext, libraryContext] at ha
    bv_omega

theorem DmaCell.range (h : Within dma.address 2 a) : 0xFC00 ≤ a.toNat ∧ a.toNat < 0xFF00 := by
  have habove := dma.above
  have hbelow := dma.below
  rw [within_iff (by omega)] at h
  omega

/-- What the hooks read and write, apart from the stack. -/
def ContextByte (dma : DmaCell) (a : Word) : Prop :=
  Variable a ∨ Within callerContext 9 a ∨ Within libraryContext 9 a ∨ Within dma.address 2 a

theorem IsSnapshot.byte (h : IsSnapshot base) (ha : Within base 9 a) : ContextByte dma a := by
  rcases h with rfl | rfl
  · exact Or.inr (Or.inl ha)
  · exact Or.inr (Or.inr (Or.inl ha))

end

/-! ## What the routines do -/

/-- The memory when `restore_context` comes to `restore_search`, with `w` the DMA pointer. -/
def loaded (dma : DmaCell) (m : Mem) (sp base w : Word) : Mem :=
  store16 (store16 (store16 (store16 m true (sp - 2) (base + 2)) true 0xFAF1 w) true (sp - 4)
    0xE7DD) true dma.address w

section
variable {dma : DmaCell} {s : Cpu} {base sp w : Word} {m : Mem}

theorem loaded_writes (dma : DmaCell) (m : Mem) (sp base w : Word) :
    Writes (fun a => Within 0xFAF1 2 a ∨ Within dma.address 2 a ∨ Within (sp - 4) 4 a) m
      (loaded dma m sp base w) := by
  have hstack (x : Word) (hx : x = sp - 2 ∨ x = sp - 4) (a : Word) (ha : Within x 2 a) :
      Within (sp - 4) 4 a := by
    unfold Within at ha ⊢
    rcases hx with rfl | rfl <;> bv_omega
  refine Writes.trans ?_ ((writes_store16 w).mono fun a ha => Or.inr (Or.inl ha))
  refine Writes.trans ?_ ((writes_store16 _).mono fun a ha =>
    Or.inr (Or.inr (hstack _ (Or.inr rfl) a ha)))
  refine Writes.trans ?_ ((writes_store16 w).mono fun a ha => Or.inl ha)
  exact (writes_store16 _).mono fun a ha => Or.inr (Or.inr (hstack _ (Or.inl rfl) a ha))

theorem fetch16_apart {k k' : Bool} {a a' : Word} (h : ∀ x, Within a' 2 x → ¬Within a 2 x) :
    fetch16 (store16 m k a w) k' a' = fetch16 m k' a' := by
  refine fetch16_outside (h a' ?_) (h (a' + 1) ?_) <;>
  · unfold Within
    bv_omega

theorem fetch16_inj {m' : Mem} {k k' : Bool} {a a' : Word}
    (h : fetch16 m k a = fetch16 m' k' a') : m k a = m' k' a' ∧ m k (a + 1) = m' k' (a' + 1) := by
  unfold fetch16 at h
  constructor
  · rw [← lo_word (m k (a + 1)) (m k a), h, lo_word]
  · rw [← hi_word (m k (a + 1)) (m k a), h, hi_word]

theorem loaded_words (m : Mem) (base w : Word)
    (hclear : ∀ a, Within (sp - 4) 4 a → ¬ContextByte dma a) :
    fetch16 (loaded dma m sp base w) true (sp - 4) = 0xE7DD ∧
      fetch16 (loaded dma m sp base w) true (sp - 2) = base + 2 ∧
      fetch16 (loaded dma m sp base w) true 0xFAF1 = w ∧
      fetch16 (loaded dma m sp base w) true dma.address = w := by
  have hlow (x : Word) (hx : Within (sp - 4) 2 x) : Within (sp - 4) 4 x := hx.mono (by decide)
  have hhigh (x : Word) (hx : Within (sp - 2) 2 x) : Within (sp - 4) 4 x := by
    unfold Within at hx ⊢
    bv_omega
  have hdma (x : Word) (hx : Within (sp - 4) 4 x) : ¬Within dma.address 2 x := fun ha =>
    hclear x hx (Or.inr (Or.inr (Or.inr ha)))
  have hpointer (x : Word) (hx : Within 0xFAF1 2 x) : ¬Within (sp - 4) 4 x := fun ha =>
    hclear x ha (Or.inl (Or.inl hx))
  unfold loaded
  refine ⟨?_, ?_, ?_, fetch16_store16⟩
  · rw [fetch16_apart fun x hx => hdma x (hlow x hx), fetch16_store16]
  · rw [fetch16_apart fun x hx => hdma x (hhigh x hx), fetch16_apart, fetch16_apart,
      fetch16_store16]
    · exact fun x hx ha => hpointer x ha (hhigh x hx)
    · intro x hx ha
      unfold Within at hx ha
      bv_omega
  · rw [fetch16_apart, fetch16_apart fun x hx ha => hpointer x hx (hlow x ha), fetch16_store16]
    intro x hx ha
    have hrange := DmaCell.range ha
    have hrange' := Variable.range (Or.inl hx)
    omega

/-- `restore_context` loads the snapshot, and gives the BIOS the DMA pointer that is in it. -/
theorem restoreContext_returns (hbank : s.bank = true) (hbase : IsSnapshot base) (hhl : s.hl = base)
    (hclear : ∀ a, Within (s.sp - 4) 4 a → ¬ContextByte dma a) :
    ∃ t m, restoreContext dma s = some t ∧ Returns s t m ∧
      Writes (fun a => Variable a ∨ Within dma.address 2 a ∨ Within (s.sp - 4) 4 a) s.mem m ∧
      active m = snapshot s.mem base ∧ fetch16 m true dma.address = fetch16 s.mem true base := by
  obtain ⟨w, hw⟩ : ∃ w, w = fetch16 s.mem true base := ⟨_, rfl⟩
  obtain ⟨u, hu⟩ : ∃ u, u = s.exec
    [.ld (.r .c) .hl, .inc16 .hl, .ld (.r .b) .hl, .inc16 .hl, .push .hl, .stMem16 0xFAF1 .bc] :=
    ⟨_, rfl⟩
  have hadd : base + 1 + 1 = base + 2 := by bv_omega
  have ubank : u.bank = true := by simp [hu, hbank]
  have usp : u.sp = s.sp - 2 := by simp [hu]
  have ubc : u.bc = w := by
    rw [hw, ← hhl]
    simp [hu, hbank, fetch16]
  have umem : u.mem = store16 (store16 s.mem true (s.sp - 2) (base + 2)) true 0xFAF1 w := by
    rw [← hadd, hw, ← hhl]
    simp [hu, hbank, fetch16]
  obtain ⟨hra, hpop, hpointer, hdma⟩ := loaded_words s.mem base w hclear
  have hwrites := loaded_writes dma s.mem s.sp base w
  obtain ⟨M, hM⟩ : ∃ M, M = loaded dma s.mem s.sp base w := ⟨_, rfl⟩
  rw [← hM] at hra hpop hpointer hdma hwrites
  -- the BIOS is called with the DMA pointer
  obtain ⟨v, hv⟩ : ∃ v, v = setDma dma (u.push 0xE7DD) := ⟨_, rfl⟩
  have hset : Returns (u.push 0xE7DD) v M := by
    have hset := setDma_returns (s := u.push 0xE7DD) dma ubank
    have hsp : s.sp - 2 - 2 = s.sp - 4 := by bv_omega
    have hpush : (u.push 0xE7DD).mem = store16 u.mem u.bank (u.sp - 2) 0xE7DD := rfl
    have hbc : (u.push 0xE7DD).bc = u.bc := rfl
    rw [← hv, hpush, hbc, ubc, umem, ubank, usp, hsp] at hset
    rw [hM]
    exact hset
  have hra' : fetch16 M u.bank (u.sp - 2) = 0xE7DD := by
    have hsp : s.sp - 2 - 2 = s.sp - 4 := by bv_omega
    rw [ubank, usp, hsp]
    exact hra
  obtain ⟨hcall, vsp⟩ := hset.call (fun s => some (setDma dma s)) (congrArg some hv.symm) hra'
  have vbank : v.bank = true := hset.bank.trans ubank
  obtain ⟨x, hx⟩ : ∃ x, x = v.exec [.pop .hl] := ⟨_, rfl⟩
  have xmem : x.mem = M := by
    rw [← hset.mem]
    simp [hx]
  have xbank : x.bank = true := by simp [hx, vbank]
  have xsp : x.sp = s.sp := by
    have hsp : s.sp - 2 + 2 = s.sp := by bv_omega
    rw [← hsp, ← usp, ← vsp]
    simp [hx]
  have xhl : x.hl = base + 2 := by
    rw [← hpop, ← usp, ← vsp, ← hset.mem]
    simp [hx, vbank]
  have hrun : restoreContext dma s = some (restoreSearch x) := by
    unfold restoreContext
    rw [← hu]
    show (u.call 0xE7DD fun s => some (setDma dma s)).map _ = _
    rw [hcall, hx]
    rfl
  have hreturns := (restoreSearch_returns xbank).runsInto (xbank.trans hbank.symm) xsp
  rw [xmem, xhl] at hreturns
  have hsearch := restoreSearch_writes (m := M) (base + 2)
  refine ⟨restoreSearch x, _, hrun, hreturns, ?_, ?_, ?_⟩
  · refine (hwrites.mono fun a ha => ?_).trans (hsearch.mono fun a ha => Or.inl (Or.inr ha))
    exact ha.imp Or.inl id
  · obtain ⟨hlow, hhigh⟩ := fetch16_inj (hpointer.trans hw)
    funext k
    obtain ⟨i, hi⟩ := k
    by_cases h2 : 2 ≤ i
    · refine (restoreSearch_active hbase h2 hi).trans (hwrites.at ?_)
      have hrange := hbase.range (within_offset hi (by decide))
      rintro (ha | ha | ha)
      · have hrange' := Variable.range (Or.inl ha)
        omega
      · have hrange' := DmaCell.range ha
        omega
      · exact hclear _ ha (hbase.byte (within_offset hi (by decide)))
    · have h0 : ¬SearchVariable 0xFAF1 := by decide
      have h1 : ¬SearchVariable 0xFAF2 := by decide
      interval_cases i
      · exact (hsearch.at h0).trans (hlow.trans (congrArg _ (BitVec.add_zero base).symm))
      · exact (hsearch.at h1).trans hhigh
  · have hcell (a : Word) (ha : Within dma.address 2 a) : ¬SearchVariable a := fun hs => by
      have hrange := DmaCell.range ha
      have hrange' := Variable.range (Or.inr hs)
      omega
    exact (hsearch.fetch16 hcell).trans (hdma.trans hw)

/-- Three words pushed on the stack. -/
def pushed (m : Mem) (sp hl bc de : Word) : Mem :=
  store16 (store16 (store16 m true (sp - 2) hl) true (sp - 4) bc) true (sp - 6) de

theorem pushed_writes {hl bc de : Word} : Writes (Within (sp - 6) 6) m (pushed m sp hl bc de) := by
  have hword (x : Word) (hx : x = sp - 2 ∨ x = sp - 4 ∨ x = sp - 6) (a : Word)
      (ha : Within x 2 a) : Within (sp - 6) 6 a := by
    unfold Within at ha ⊢
    rcases hx with rfl | rfl | rfl <;> bv_omega
  refine Writes.trans ?_ ((writes_store16 de).mono (hword _ (Or.inr (Or.inr rfl))))
  refine Writes.trans ?_ ((writes_store16 bc).mono (hword _ (Or.inr (Or.inl rfl))))
  exact (writes_store16 hl).mono (hword _ (Or.inl rfl))

theorem pushed_words (m : Mem) (sp hl bc de : Word) :
    fetch16 (pushed m sp hl bc de) true (sp - 6) = de ∧
      fetch16 (pushed m sp hl bc de) true (sp - 4) = bc ∧
      fetch16 (pushed m sp hl bc de) true (sp - 2) = hl ∧
      fetch16 (pushed m sp hl bc de) true sp = fetch16 m true sp := by
  have hapart (x y : Word) (h : 2 ≤ (x - y).toNat ∧ 2 ≤ (y - x).toNat) (a : Word)
      (ha : Within x 2 a) : ¬Within y 2 a := by
    unfold Within at ha ⊢
    bv_omega
  unfold pushed
  refine ⟨fetch16_store16, ?_, ?_, ?_⟩
  · rw [fetch16_apart (hapart _ _ (by bv_omega)), fetch16_store16]
  · rw [fetch16_apart (hapart _ _ (by bv_omega)), fetch16_apart (hapart _ _ (by bv_omega)),
      fetch16_store16]
  · rw [fetch16_apart (hapart _ _ (by bv_omega)), fetch16_apart (hapart _ _ (by bv_omega)),
      fetch16_apart (hapart _ _ (by bv_omega))]

end

/-- The memory that a hook may write: the variables, the DMA address of the BIOS, the snapshot it
saves to, and the stack below the caller's. -/
def HookByte (dma : DmaCell) (base sp : Word) (a : Word) : Prop :=
  Variable a ∨ Within dma.address 2 a ∨ Within base 9 a ∨ Within (sp - 14) 14 a

/-- A hook has come back to `t`, with the registers it keeps: the context of `s` is in its
snapshot, and the other snapshot is the context. -/
structure Swapped (dma : DmaCell) (base next : Word) (s t : Cpu) : Prop where
  bank : t.bank = s.bank
  sp : t.sp = s.sp
  hl : t.hl = s.hl
  de : t.de = s.de
  bc : t.bc = s.bc
  saved : snapshot t.mem base = active s.mem
  restored : active t.mem = snapshot s.mem next
  bios : fetch16 t.mem true dma.address = fetch16 s.mem true next
  writes : Writes (HookByte dma base s.sp) s.mem t.mem

/-- Bank 1 is selected, and the stack below the caller's is clear of the context. -/
structure Ready (dma : DmaCell) (s : Cpu) : Prop where
  bank : s.bank = true
  clear : ∀ a, Within (s.sp - 14) 14 a → ¬ContextByte dma a

section
variable {dma : DmaCell} {s : Cpu} {base next ra ra' ret : Word}

theorem IsSnapshot.apart (hbase : IsSnapshot base) (hnext : IsSnapshot next) (hne : base ≠ next)
    (a : Word) (ha : Within next 9 a) : ¬Within base 9 a := by
  rcases hbase with rfl | rfl <;> rcases hnext with rfl | rfl
  · exact absurd rfl hne
  · simp only [Within, callerContext, libraryContext] at ha ⊢
    bv_omega
  · simp only [Within, callerContext, libraryContext] at ha ⊢
    bv_omega
  · exact absurd rfl hne

theorem fetch16_snapshot {m m' : Mem} (h : snapshot m next = snapshot m' next) :
    fetch16 m true next = fetch16 m' true next := by
  refine fetch16_congr ?_ (congrFun h 1)
  have h0 := congrFun h 0
  unfold snapshot bytes at h0
  rwa [show next + BitVec.ofNat 16 (0 : Fin 9).val = next from BitVec.add_zero next] at h0

/-- A range below `x` inside another. -/
theorem within_below {x a d e : Word} {n k : Nat} (h : Within (x - d) n a)
    (hle : d.toNat ≤ e.toNat) (hn : e.toNat - d.toNat + n ≤ k) : Within (x - e) k a := by
  unfold Within at h ⊢
  bv_omega

theorem not_within_below {x a d e : Word} {n k : Nat} (h : Within (x - d) n a)
    (hle : d.toNat + k ≤ e.toNat) (hn : n ≤ d.toNat + 2) (hk : e.toNat ≤ 1000) :
    ¬Within (x - e) k a := by
  intro h'
  unfold Within at h h'
  bv_omega

theorem push_writes {u : Cpu} (hbank : u.bank = true) (w : Word) :
    Writes (Within (u.sp - 2) 2) u.mem (u.push w).mem := by
  have hpush : (u.push w).mem = store16 u.mem true (u.sp - 2) w := by rw [← hbank]; rfl
  rw [hpush]
  exact writes_store16 w

/-- A return address outlives what a routine writes. -/
theorem push_kept {u : Cpu} {m : Mem} {P : Word → Prop} (hbank : u.bank = true)
    (h : Writes P (u.push ra).mem m) (hP : ∀ a, Within (u.sp - 2) 2 a → ¬P a) :
    fetch16 m u.bank (u.sp - 2) = ra := by
  have hpush : (u.push ra).mem = store16 u.mem true (u.sp - 2) ra := by rw [← hbank]; rfl
  rw [hbank, h.fetch16 hP, hpush, fetch16_store16]

/-- A call of `save_context`. -/
theorem saveContext_call (dma : DmaCell) (ra : Word) {u : Cpu} (hbank : u.bank = true)
    (hbase : IsSnapshot u.de) (hclear : ∀ a, Within (u.sp - 2) 2 a → ¬ContextByte dma a) :
    ∃ v, u.call ra (fun s => some (saveContext s)) = some v ∧ v.bank = true ∧ v.sp = u.sp ∧
      Writes (fun a => Within u.de 9 a ∨ Within (u.sp - 2) 2 a) u.mem v.mem ∧
      snapshot v.mem u.de = active u.mem := by
  have hsave : Returns (u.push ra) (saveContext (u.push ra)) (saved (u.push ra).mem u.de) :=
    saveContext_returns (s := u.push ra) hbank
  obtain ⟨hcall, hsp⟩ := hsave.call (fun s => some (saveContext s)) rfl
    (push_kept hbank saved_writes fun a ha hb => hclear a ha (hbase.byte hb))
  have hpush := push_writes hbank ra
  refine ⟨_, hcall, hsave.bank.trans hbank, hsp, ?_, ?_⟩
  · rw [hsave.mem]
    exact (hpush.mono fun a ha => Or.inr ha).trans (saved_writes.mono fun a ha => Or.inl ha)
  · rw [hsave.mem, saved_snapshot hbase]
    exact hpush.active fun a ha h => hclear a h (Or.inl ha)

/-- A call of `restore_context`. -/
theorem restoreContext_call (ra : Word) {x : Cpu} (hbank : x.bank = true) (hnext : IsSnapshot x.hl)
    (hclear : ∀ a, Within (x.sp - 6) 6 a → ¬ContextByte dma a) :
    ∃ y, x.call ra (restoreContext dma) = some y ∧ y.bank = true ∧ y.sp = x.sp ∧
      Writes (fun a => Variable a ∨ Within dma.address 2 a ∨ Within (x.sp - 6) 6 a) x.mem y.mem ∧
      active y.mem = snapshot x.mem x.hl ∧
      fetch16 y.mem true dma.address = fetch16 x.mem true x.hl := by
  have hpush := push_writes hbank ra
  have hsub : (x.push ra).sp - 4 = x.sp - 6 := BitVec.sub_sub ..
  have hlow (a : Word) (ha : Within (x.sp - 6) 4 a) : Within (x.sp - 6) 6 a := ha.mono (by decide)
  have hhigh (a : Word) (ha : Within (x.sp - 2) 2 a) : Within (x.sp - 6) 6 a :=
    within_below ha (by decide) (by decide)
  obtain ⟨y, m, hrestore, hy, hwrites, hactive, hdma⟩ :=
    restoreContext_returns (s := x.push ra) hbank hnext rfl fun a ha => by
      rw [hsub] at ha
      exact hclear a (hlow a ha)
  rw [hsub] at hwrites
  have hra : fetch16 m x.bank (x.sp - 2) = ra := by
    refine push_kept hbank hwrites fun a ha => ?_
    have hno := hclear a (hhigh a ha)
    rintro (h | h | h)
    · exact hno (Or.inl h)
    · exact hno (Or.inr (Or.inr (Or.inr h)))
    · exact not_within_below ha (by decide) (by decide) (by decide) h
  obtain ⟨hcall, hsp⟩ := hy.call _ hrestore hra
  have hsnapshot : snapshot (x.push ra).mem x.hl = snapshot x.mem x.hl :=
    hpush.snapshot fun a ha h => hclear a (hhigh a h) (hnext.byte ha)
  refine ⟨y, hcall, hy.bank.trans hbank, hsp, ?_, ?_, ?_⟩
  · rw [hy.mem]
    refine (hpush.mono fun a ha => Or.inr (Or.inr (hhigh a ha))).trans (hwrites.mono fun a ha => ?_)
    exact ha.imp_right (Or.imp_right (hlow a))
  · rw [hy.mem, hactive, hsnapshot]
  · rw [hy.mem, hdma, fetch16_snapshot hsnapshot]

/-- What a hook does to the memory: it is called with `m0`, and has `m1` when the context is saved,
`m2` after that, and `m` when the other one is restored. -/
theorem swapped_memory {m0 m1 m2 m : Mem} {Stack : Word → Prop} (hbase : IsSnapshot base)
    (hnext : IsSnapshot next) (hne : base ≠ next) (hclear : ∀ a, Stack a → ¬ContextByte dma a)
    (h01 : Writes Stack m0 m1) (h12 : Writes (fun a => Within base 9 a ∨ Stack a) m1 m2)
    (h23 : Writes (fun a => Variable a ∨ Within dma.address 2 a ∨ Stack a) m2 m)
    (hsave : snapshot m2 base = active m1) :
    snapshot m base = active m0 ∧ snapshot m2 next = snapshot m0 next := by
  have hstack {x : Word} (hx : IsSnapshot x) (a : Word) (ha : Within x 9 a) : ¬Stack a := fun h =>
    hclear a h (hx.byte ha)
  constructor
  · rw [h23.snapshot, hsave, h01.active]
    · exact fun a ha h => hclear a h (Or.inl ha)
    · intro a ha h
      have hrange := hbase.range ha
      rcases h with h | h | h
      · have hrange' := h.range
        omega
      · have hrange' := DmaCell.range h
        omega
      · exact hstack hbase a ha h
  · rw [h12.snapshot, h01.snapshot (hstack hnext)]
    exact fun a ha h => h.elim (hbase.apart hnext hne a ha) (hstack hnext a ha)

/-- The last instructions of a hook, with three words on the stack. -/
theorem popped {r y z : Cpu} (hr : r.bank = true) (hbank : y.bank = true) (hsp : y.sp = r.sp - 6)
    (hz : z = (y.exec [.pop .de, .pop .bc, .pop .hl]).ret) :
    z.de = fetch16 y.mem true (r.sp - 6) ∧ z.bc = fetch16 y.mem true (r.sp - 4) ∧
      z.hl = fetch16 y.mem true (r.sp - 2) ∧ Returns r z y.mem := by
  have h4 : r.sp - 6#16 + 2#16 = r.sp - 4#16 := by bv_omega
  have h2 : r.sp - 4#16 + 2#16 = r.sp - 2#16 := by bv_omega
  have h0 : r.sp - 2#16 + 2#16 = r.sp := by bv_omega
  subst hz
  refine ⟨?_, ?_, ?_, ?_, ?_, ?_, ?_⟩ <;> simp [Cpu.ret, hr, hbank, hsp, h4, h2, h0]

/-- The first instructions of a hook. -/
theorem hook_pushed {r u : Cpu} (hbank : s.bank = true) (hr : r = s.push ret)
    (hu : u = r.exec [.push .hl, .push .bc, .push .de, .ld16 .de base]) :
    r.sp = s.sp - 2 ∧ u.bank = true ∧ u.sp = r.sp - 6 ∧ u.de = base ∧
      u.mem = pushed r.mem r.sp s.hl s.bc s.de := by
  have rbank : r.bank = true := by simp [hr, hbank]
  have hsub (a b : Word) : r.sp - a - b = r.sp - (a + b) := BitVec.sub_sub ..
  refine ⟨by simp [hr], by simp [hu, rbank], ?_, by simp [hu], ?_⟩
  · simp only [hu, Cpu.exec_cons, Cpu.exec_nil, Instr.step, Cpu.push, Cpu.put16, hsub]
    rfl
  · have rhl : r.hl = s.hl := by rw [hr]; rfl
    have rbc : r.bc = s.bc := by rw [hr]; rfl
    have rde : r.de = s.de := by rw [hr]; rfl
    rw [hu]
    show store16 (store16 (store16 r.mem r.bank (r.sp - 2) r.hl) r.bank (r.sp - 2 - 2) r.bc) r.bank
      (r.sp - 2 - 2 - 2) r.de = _
    rw [hsub, hsub, rbank, rhl, rbc, rde]
    rfl

/-- A hook always comes back. -/
theorem swapContext_swaps (hs : Ready dma s) (hbase : IsSnapshot base) (hnext : IsSnapshot next)
    (hne : base ≠ next) :
    ∃ t, s.call ret (swapContext dma base next ra ra') = some t ∧ Swapped dma base next s t := by
  obtain ⟨r, hr⟩ : ∃ r, r = s.push ret := ⟨_, rfl⟩
  obtain ⟨u, hu⟩ : ∃ u, u = r.exec [.push .hl, .push .bc, .push .de, .ld16 .de base] := ⟨_, rfl⟩
  have hbank := hs.bank
  have rbank : r.bank = true := by simp [hr, hbank]
  have hsub (a b : Word) : r.sp - a - b = r.sp - (a + b) := BitVec.sub_sub ..
  obtain ⟨rsp, ubank, usp, ude, umem⟩ := hook_pushed hbank hr hu
  have hclear (a : Word) (ha : Within (r.sp - 12) 14 a) : ¬ContextByte dma a := by
    rw [rsp, BitVec.sub_sub] at ha
    exact hs.clear a (within_below ha (by decide) (by decide))
  -- the context is saved
  obtain ⟨v, hsave, vbank, vsp, hsaved, vsnapshot⟩ := saveContext_call dma ra ubank
    (ude ▸ hbase) fun a ha => by
      rw [usp, hsub] at ha
      exact hclear a (within_below ha (by decide) (by decide))
  -- and the other one restored
  obtain ⟨x, hx⟩ : ∃ x, x = v.exec [.ld16 .hl next] := ⟨_, rfl⟩
  have xbank : x.bank = true := by simp [hx, vbank]
  have xsp : x.sp = r.sp - 6 := by
    rw [← usp, ← vsp]
    simp [hx]
  have xmem : x.mem = v.mem := by simp [hx]
  have xhl : x.hl = next := by simp [hx]
  obtain ⟨y, hrestore, ybank, ysp, hrestored, yactive, ybios⟩ := restoreContext_call ra' xbank
    (xhl ▸ hnext) fun a ha => by
      rw [xsp, hsub] at ha
      exact hclear a (within_below ha (by decide) (by decide))
  rw [xmem, xhl] at yactive ybios
  rw [xmem, xsp, hsub] at hrestored
  rw [ude, usp, hsub] at hsaved
  rw [ude] at vsnapshot
  obtain ⟨z, hz⟩ : ∃ z, z = (y.exec [.pop .de, .pop .bc, .pop .hl]).ret := ⟨_, rfl⟩
  have hrun : swapContext dma base next ra ra' r = some z := by
    unfold swapContext
    rw [← hu]
    show (u.call ra fun s => some (saveContext s)).bind _ = _
    rw [hsave]
    show ((v.exec [.ld16 .hl next]).call ra' (restoreContext dma)).bind _ = _
    rw [← hx, hrestore, hz]
    rfl
  -- what the hook pops was not written
  have hstack (a : Word) (ha : Within (r.sp - 6) 8 a) :
      ¬(ContextByte dma a ∨ Within (r.sp - 12) 6 a) := by
    rintro (h | h)
    · exact hclear a (within_below ha (by decide) (by decide)) h
    · exact not_within_below ha (by decide) (by decide) (by decide) h
  have hkept : Writes (fun a => ContextByte dma a ∨ Within (r.sp - 12) 6 a) u.mem y.mem := by
    refine (hsaved.mono fun a ha => ?_).trans (hrestored.mono fun a ha => ?_)
    · exact ha.imp hbase.byte fun h => within_below h (by decide) (by decide)
    · rcases ha with ha | ha | ha
      · exact Or.inl (Or.inl ha)
      · exact Or.inl (Or.inr (Or.inr (Or.inr ha)))
      · exact Or.inr ha
  have hword (d : Word) (hd : d.toNat ≤ 6) :
      fetch16 y.mem true (r.sp - d) = fetch16 u.mem true (r.sp - d) := by
    have h6 : (6 : Word).toNat = 6 := rfl
    exact hkept.fetch16 fun b hb => hstack b (within_below hb hd (by omega))
  obtain ⟨hde, hbc, hhl, hret⟩ := pushed_words r.mem r.sp s.hl s.bc s.de
  rw [← umem] at hde hbc hhl hret
  obtain ⟨zde, zbc, zhl, hreturns⟩ := popped rbank ybank (ysp.trans xsp) hz
  have hra : fetch16 y.mem s.bank (s.sp - 2) = ret := by
    have h : fetch16 y.mem true r.sp = fetch16 u.mem true r.sp := by
      have h := hword 0 (by decide)
      have hzero : r.sp - 0 = r.sp := BitVec.sub_zero _
      rwa [hzero] at h
    rw [hbank, ← rsp, h, hret, rsp, hr, ← hbank]
    exact fetch16_store16
  obtain ⟨hcalled, zsp⟩ := Returns.call (hr ▸ hreturns) _ (hr ▸ hrun) hra
  -- the memory that the caller sees
  have hbelow {d : Word} {n : Nat} {a : Word} (ha : Within (r.sp - d) n a) :
      Within (s.sp - (2 + d)) n a := by
    rwa [rsp, BitVec.sub_sub] at ha
  have hpush := push_writes hbank ret
  rw [← hr] at hpush
  have hbegin : Writes (Within (s.sp - 14) 14) s.mem u.mem := by
    rw [umem]
    refine (hpush.mono fun a ha => ?_).trans (pushed_writes.mono fun a ha => ?_)
    · exact within_below ha (by decide) (by decide)
    · exact within_below (hbelow ha) (by decide) (by decide)
  have hsaved' : Writes (fun a => Within base 9 a ∨ Within (s.sp - 14) 14 a) u.mem v.mem :=
    hsaved.mono fun a ha => ha.imp_right fun h => within_below (hbelow h) (by decide) (by decide)
  have hrestored' : Writes (fun a => Variable a ∨ Within dma.address 2 a ∨ Within (s.sp - 14) 14 a)
      v.mem y.mem :=
    hrestored.mono fun a ha => ha.imp_right <| Or.imp_right fun h =>
      within_below (hbelow h) (by decide) (by decide)
  obtain ⟨hsnapshot, hnextsnapshot⟩ :=
    swapped_memory hbase hnext hne hs.clear hbegin hsaved' hrestored' vsnapshot
  refine ⟨z, hcalled, ?_⟩
  have zbank := hreturns.bank.trans (rbank.trans hbank.symm)
  refine ⟨zbank, zsp, zhl.trans ((hword 2 (by decide)).trans hhl),
    zde.trans ((hword 6 (by decide)).trans hde), zbc.trans ((hword 4 (by decide)).trans hbc),
    ?_, ?_, ?_, ?_⟩ <;> rw [hreturns.mem]
  · exact hsnapshot
  · exact yactive.trans hnextsnapshot
  · exact ybios.trans (fetch16_snapshot hnextsnapshot)
  · refine (hbegin.mono fun a ha => Or.inr (Or.inr (Or.inr ha))).trans
      ((hsaved'.mono fun a ha => Or.inr (Or.inr ha)).trans (hrestored'.mono fun a ha => ?_))
    exact ha.imp_right (Or.imp_right Or.inr)

theorem enterContext_swaps (ret : Word) (hs : Ready dma s) :
    ∃ t, s.call ret (enterContext dma) = some t ∧ Swapped dma callerContext libraryContext s t :=
  swapContext_swaps hs (Or.inl rfl) (Or.inr rfl) (by decide)

theorem leaveContext_swaps (ret : Word) (hs : Ready dma s) :
    ∃ t, s.call ret (leaveContext dma) = some t ∧ Swapped dma libraryContext callerContext s t :=
  swapContext_swaps hs (Or.inr rfl) (Or.inl rfl) (by decide)

end

/-! ## Calls of the library -/

/-- The BIOS has the DMA pointer of the BDOS. -/
def InStep (dma : DmaCell) (m : Mem) : Prop :=
  fetch16 m true dma.address = fetch16 m true dmaPointer

/-- A stack between the snapshots and the variables, as the private stacks of the services are. -/
theorem Ready.of_stack {dma : DmaCell} {s : Cpu} (hbank : s.bank = true)
    (hlow : 0xDF97 ≤ s.sp.toNat) (hhigh : s.sp.toNat ≤ 0xFAF1) : Ready dma s := by
  refine ⟨hbank, fun a ha h => ?_⟩
  have hrange : 0xDF89 ≤ a.toNat ∧ a.toNat < 0xFAF1 := by
    unfold Within at ha
    bv_omega
  rcases h with h | h | h | h
  · have hrange' := h.range
    omega
  · have hrange' := IsSnapshot.range (Or.inl rfl) h
    omega
  · have hrange' := IsSnapshot.range (Or.inr rfl) h
    omega
  · have hrange' := DmaCell.range h
    omega

/-- One call of the library: what the caller runs up to `enter_context`, and what the library runs
up to `leave_context`. Both may change anything but the other's snapshot, and call the hooks in
bank 1 with a stack that is clear of the context. -/
structure Visit (dma : DmaCell) where
  caller : Cpu → Cpu
  callerRet : Word
  callerReady : ∀ s, Ready dma s → Ready dma (caller s)
  callerKeeps : ∀ s, snapshot (caller s).mem libraryContext = snapshot s.mem libraryContext
  body : Cpu → Cpu
  bodyRet : Word
  bodyReady : ∀ s, Ready dma s → Ready dma (body s)
  bodyKeeps : ∀ s, snapshot (body s).mem callerContext = snapshot s.mem callerContext

/-- The processor before and after the two hooks. -/
structure Trace where
  before : Cpu
  inside : Cpu
  left : Cpu
  after : Cpu

def Visit.trace {dma : DmaCell} (v : Visit dma) (s : Cpu) : Option Trace := do
  let before := v.caller s
  let inside ← before.call v.callerRet (enterContext dma)
  let left := v.body inside
  let after ← left.call v.bodyRet (leaveContext dma)
  some ⟨before, inside, left, after⟩

def traces {dma : DmaCell} : List (Visit dma) → Cpu → Option (List Trace)
  | [], _ => some []
  | v :: vs, s => do
    let t ← v.trace s
    let ts ← traces vs t.after
    some (t :: ts)

/-- The caller has back its DMA pointer and search variables, and the BIOS its DMA address; each
hook keeps HL, DE and BC. -/
structure Restored (dma : DmaCell) (t : Trace) : Prop where
  context : active t.after.mem = active t.before.mem
  bios : fetch16 t.after.mem true dma.address = fetch16 t.before.mem true dmaPointer
  biosKept : InStep dma t.before.mem →
    fetch16 t.after.mem true dma.address = fetch16 t.before.mem true dma.address
  inStep : InStep dma t.inside.mem
  enter : t.inside.hl = t.before.hl ∧ t.inside.de = t.before.de ∧ t.inside.bc = t.before.bc
  leave : t.after.hl = t.left.hl ∧ t.after.de = t.left.de ∧ t.after.bc = t.left.bc

/-- The library goes on from `saved`, and each time from what it has left. -/
def Continues : (Fin 9 → Byte) → List Trace → Prop
  | _, [] => True
  | saved, t :: ts => active t.inside.mem = saved ∧ Continues (active t.left.mem) ts

section
variable {dma : DmaCell} {s t : Cpu} {base next : Word}

theorem pointer_eq (m : Mem) : fetch16 m true dmaPointer = word (active m 1) (active m 0) := by
  have hnext : dmaPointer + 1 = 0xFAF2 := by decide
  unfold fetch16
  rw [hnext]
  rfl

theorem pointer_of_active {m m' : Mem} (h : active m = snapshot m' next) :
    fetch16 m true dmaPointer = fetch16 m' true next := by
  have hzero : next + BitVec.ofNat 16 0 = next := BitVec.add_zero next
  rw [pointer_eq, h]
  exact congrArg (fun a => word (m' true (next + 1)) (m' true a)) hzero

theorem Swapped.inStep (h : Swapped dma base next s t) : InStep dma t.mem :=
  h.bios.trans (pointer_of_active h.restored).symm

theorem Swapped.ready (h : Swapped dma base next s t) (hs : Ready dma s) : Ready dma t where
  bank := h.bank.trans hs.bank
  clear := by
    rw [h.sp]
    exact hs.clear

/-- One call. -/
theorem Visit.trace_restored (v : Visit dma) (hs : Ready dma s) :
    ∃ t, v.trace s = some t ∧ Restored dma t ∧ Ready dma t.after ∧
      active t.inside.mem = snapshot s.mem libraryContext ∧
      snapshot t.after.mem libraryContext = active t.left.mem := by
  have hbefore := v.callerReady s hs
  obtain ⟨inside, henter, hin⟩ := enterContext_swaps v.callerRet hbefore
  have hleft := v.bodyReady inside (hin.ready hbefore)
  obtain ⟨after, hleave, hout⟩ := leaveContext_swaps v.bodyRet hleft
  have hcontext : active after.mem = active (v.caller s).mem :=
    hout.restored.trans ((v.bodyKeeps inside).trans hin.saved)
  have hpointer : fetch16 after.mem true dmaPointer = fetch16 (v.caller s).mem true dmaPointer := by
    rw [pointer_eq, pointer_eq, hcontext]
  have hbios := hout.inStep.trans hpointer
  refine ⟨⟨v.caller s, inside, v.body inside, after⟩, ?_, ?_, hout.ready hleft, ?_, hout.saved⟩
  · simp only [Visit.trace, henter, hleave, Option.bind_eq_bind, Option.bind_some]
  · exact ⟨hcontext, hbios, fun h => hbios.trans h.symm, hin.inStep, ⟨hin.hl, hin.de, hin.bc⟩,
      ⟨hout.hl, hout.de, hout.bc⟩⟩
  · exact hin.restored.trans (v.callerKeeps s)

/-- **Any number of calls** of the library swap the context back and forth. -/
theorem traces_restored (vs : List (Visit dma)) (hs : Ready dma s) :
    ∃ ts, traces vs s = some ts ∧ (∀ t ∈ ts, Restored dma t) ∧
      Continues (snapshot s.mem libraryContext) ts := by
  induction vs generalizing s with
  | nil => exact ⟨[], rfl, fun t ht => absurd ht List.not_mem_nil, trivial⟩
  | cons v vs ih =>
    obtain ⟨t, htrace, hrestored, hready, hinside, hsaved⟩ := v.trace_restored hs
    obtain ⟨ts, htraces, hall, hcontinues⟩ := ih hready
    refine ⟨t :: ts, ?_, ?_, hinside, ?_⟩
    · simp only [traces, htrace, htraces, Option.bind_eq_bind, Option.bind_some]
    · intro t' ht
      rcases List.mem_cons.mp ht with rfl | ht
      · exact hrestored
      · exact hall t' ht
    · rwa [← hsaved]

end

/-- A library that sets its DMA pointer, and uses BC. -/
def sampleVisit (dma : DmaCell) : Visit dma where
  caller := id
  callerRet := 0xEC90
  callerReady := fun _ h => h
  callerKeeps := fun _ => rfl
  body := fun s => { s with mem := store16 s.mem true 0xFAF1 0x2000, b := 0, c := 7 }
  bodyRet := 0xEC97
  bodyReady := fun _ h => ⟨h.bank, h.clear⟩
  bodyKeeps := fun s => by
    refine (writes_store16 (m := s.mem) (0x2000 : Word)).snapshot fun a ha h => ?_
    have hrange := IsSnapshot.range (Or.inl rfl) ha
    have hrange' := Variable.range (Or.inl h)
    omega

def sampleCell : DmaCell := ⟨0xFE00, by decide, by decide⟩

def sampleCpu : Cpu where
  a := 0
  f := Flags.ofByte 0
  b := 1
  c := 2
  d := 3
  e := 4
  h := 5
  l := 6
  a2 := 0
  f2 := Flags.ofByte 0
  b2 := 0
  c2 := 0
  d2 := 0
  e2 := 0
  h2 := 0
  l2 := 0
  ix := 0
  iy := 0
  sp := 0xE5B8
  i := 0
  iff := false
  bank := true
  mem := fun _ a => lo a
  pc := 0

theorem traces_restored_sample :
    ∃ ts, traces [sampleVisit sampleCell, sampleVisit sampleCell] sampleCpu = some ts ∧
      (∀ t ∈ ts, Restored sampleCell t) ∧
      Continues (snapshot sampleCpu.mem libraryContext) ts :=
  traces_restored _ (Ready.of_stack rfl (by decide) (by decide))

end Z80Sbc.Bank.Context
