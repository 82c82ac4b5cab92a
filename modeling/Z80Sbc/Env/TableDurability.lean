import Z80Sbc.Concurrent.Run
import Z80Sbc.Env.Driver
import Z80Sbc.Env.SnapshotSafety

/-! # The table is what the flash holds

Every command changes the table first and the flash afterwards, and the flash may
do anything with its calls. Whatever the outcome, the table ends as what
`env_load_file` builds from the flash. -/

namespace Z80Sbc.Env.TableDurability
open Z80Sbc.Storage Z80Sbc.Flash Z80Sbc.Env Z80Sbc.Env.SnapshotSafety

/-! ## Saves -/

/-- The sector write reports success only when the sector reads back as written. -/
theorem envWriteCallback_robust {slot : Nat} (hslot : slot < 2) (f : Flash) (g : Nat → UInt8) :
    (envWriteCallback (slotData slot) g).Robust
      (fun ok f' => SameSector f' f (1 - slot) ∧ (ok = true → SectorIs f' slot g)) f := by
  unfold envWriteCallback
  simp only [Prog.erase_bind, Prog.program_bind, Prog.contents_bind]
  intro h₁ h₂
  have h1 : SameSector ((eraseCall slot).leave f h₁) f (1 - slot) := erase_same hslot
  have h2 := (payload_same (g := g) (h := h₂) (f := (eraseCall slot).leave f h₁) hslot).trans h1
  refine Prog.robust_read.mpr (Prog.robust_ite (fun _ => ?_) fun _ => ?_)
  · exact ⟨h2, fun h => absurd h Bool.false_ne_true⟩
  intro h₃
  refine Prog.robust_read.mpr ⟨(header_same (g := g) hslot).trans h2, fun hsame i hi => ?_⟩
  have hread := same_iff.mp hsame i hi
  rwa [Nat.zero_add] at hread

theorem envWrite_robust (bus : BusOutcome) {slot : Nat} (hslot : slot < 2) (f : Flash)
    (g : Nat → UInt8) : (envWrite bus slot g).Robust
      (fun ok f' => SameSector f' f (1 - slot) ∧ (ok = true → SectorIs f' slot g)) f := by
  unfold envWrite
  rw [if_neg (by omega)]
  refine Prog.robust_ite (fun _ => ?_) fun _ => Prog.Robust.bind ?_
  · exact ⟨fun _ _ => rfl, fun h => absurd h Bool.false_ne_true⟩
  refine (envWriteCallback_robust hslot f g).mono fun ok f' hpost => ⟨hpost.1, fun hok => ?_⟩
  rw [Bool.and_eq_true] at hok
  exact hpost.2 hok.2

/-- The slot that `current_slot` leaves to be written, and the one it keeps. -/
theorem currentSlot_other {f : Flash} {slot : Int} {previous : EnvHeader}
    (h : currentSlot f = (slot, previous)) (hne : slot ≠ -2) :
    ∃ w < 2, (if slot = 0 then 1 else 0) = w ∧ ((validSlot (1 - w) f).1 = true →
      (validSlot (1 - w) f).2.sequence = previous.sequence) := by
  unfold currentSlot at h
  cases h0 : (validSlot 0 f).1 with
  | false =>
    cases h1 : (validSlot 1 f).1 with
    | false =>
      have hslot : slot ≠ 0 := by
        simp only [h0, h1, Bool.not_false, Bool.and_self, if_true] at h
        split at h
        · rw [← (Prod.mk.inj h).1]; decide
        · exact absurd (Prod.mk.inj h).1.symm hne
      exact ⟨0, by decide, if_neg hslot, fun hv => by rw [h1] at hv; cases hv⟩
    | true =>
      simp only [h0, h1] at h
      obtain ⟨rfl, rfl⟩ := Prod.mk.inj h
      exact ⟨0, by decide, rfl, fun _ => rfl⟩
  | true =>
    cases h1 : (validSlot 1 f).1 with
    | false =>
      simp only [h0, h1] at h
      obtain ⟨rfl, rfl⟩ := Prod.mk.inj h
      exact ⟨1, by decide, rfl, fun _ => rfl⟩
    | true =>
      simp only [h0, h1, Bool.not_true, Bool.false_and, Bool.false_eq_true, if_false] at h
      split at h
      · obtain ⟨rfl, rfl⟩ := Prod.mk.inj h
        exact ⟨0, by decide, rfl, fun _ => rfl⟩
      · obtain ⟨rfl, rfl⟩ := Prod.mk.inj h
        exact ⟨1, by decide, rfl, fun _ => rfl⟩

/-- A save that returns 0 has written the newest snapshot. -/
theorem writeSnapshot_robust (bus : BusOutcome) {f : Flash} {slot : Int} {previous : EnvHeader}
    {data : List UInt8} (h : currentSlot f = (slot, previous)) (hne : slot ≠ -2)
    (hlen : data.length ≤ z80EnvSnapshotBytes) :
    (writeSnapshot bus slot previous data).Robust
      (fun status f' => status = 0 → snapshotLoad z80EnvSnapshotBytes f' = (0, data)) f := by
  obtain ⟨w, hw, hwrite, hkept⟩ := currentSlot_other h hne
  unfold writeSnapshot
  rw [hwrite]
  refine Prog.Robust.bind ?_
  refine (envWrite_robust bus hw f _).mono fun ok f' hpost => ?_
  obtain ⟨hsame, himage⟩ := hpost
  intro hstatus
  have hok : ok = true := by
    cases ok with
    | true => rfl
    | false => exact absurd hstatus (by decide)
  have hcur : Current f' w (previous.sequence + 1) data := by
    refine ⟨hw, (himage hok).holds hlen, fun hv => ?_⟩
    rw [validSlot_congr hsame] at hv ⊢
    rw [hkept hv]
  have hdurable : Durable f' data := Or.inr ⟨w, _, hcur⟩
  exact hdurable.load (le_refl _)

theorem snapshotSave_robust (bus : Nat → BusOutcome) (f : Flash) {data : List UInt8}
    (hlen : data.length ≤ z80EnvSnapshotBytes) :
    (snapshotSave bus data).Robust
      (fun status f' => status = 0 → snapshotLoad z80EnvSnapshotBytes f' = (0, data)) f := by
  rw [snapshotSave, if_neg (by omega)]
  simp only [Prog.contents_bind]
  refine Prog.robust_read.mpr ?_
  rcases hcur : currentSlot f with ⟨slot, previous⟩
  dsimp only
  refine Prog.robust_ite (fun _ h0 => by cases h0) fun hne => ?_
  refine Prog.robust_ite (fun hsame _ => ?_) fun _ => ?_
  · obtain ⟨-, hl, hw⟩ := hsame
    simp only [snapshotLoad, hcur]
    rw [if_neg hne, hl, if_neg (by omega), hw]
  refine Prog.robust_ite (fun _ => Prog.Robust.bind ?_) fun _ => writeSnapshot_robust _ hcur hne hlen
  -- whatever the save of the baseline left, the slots are looked at again
  refine Prog.Robust.of_forall (fun status f => ?_) f
  refine Prog.robust_ite (fun hstatus h0 => absurd h0 hstatus) fun _ => Prog.robust_read.mpr ?_
  rcases hcur : currentSlot f with ⟨slot, previous⟩
  refine Prog.robust_ite (fun _ h0 => by cases h0) fun hslot => writeSnapshot_robust _ hcur ?_ hlen
  rintro rfl
  exact hslot (show (-2 : Int) < 0 by decide)

/-! ## Commits -/

theorem loadFile_wellFormed (f : Flash) : WellFormed (loadFile f).2 := by
  unfold loadFile
  dsimp only
  split
  · exact .nil
  · exact decode_wellFormed .nil

/-- `env_load_file` accepts what `env_save_file` wrote, and rebuilds the table. -/
theorem saveFile_robust (bus : Nat → BusOutcome) {entries : List Entry} (h : WellFormed entries)
    (f : Flash) : (saveFile bus entries).Robust
      (fun status f' => status = envStatusOk → loadFile f' = (envStatusOk, entries)) f := by
  unfold saveFile
  cases hsnap : encode [] entries with
  | none => exact nofun
  | some snapshot =>
    obtain ⟨hp, hlen⟩ := encode_eq hsnap (Nat.zero_le _)
    rw [List.nil_append] at hp
    refine (snapshotSave_robust bus f hlen).mono fun status f' hpost hstatus => ?_
    unfold loadFile
    rw [hpost hstatus]
    dsimp only
    rw [if_neg (by decide), hp]
    exact decode_flatMap h

/-- A status and a table, and the flash they leave. -/
structure Settled (r : Int × List Entry) (f : Flash) : Prop where
  table : r.2 = (loadFile f).2
  loaded : r.1 = envStatusOk → (loadFile f).1 = envStatusOk

theorem Settled.refused {f : Flash} {status : Int} {entries : List Entry}
    (h : entries = (loadFile f).2) (hne : status ≠ envStatusOk) : Settled (status, entries) f :=
  ⟨h, fun h0 => absurd h0 hne⟩

theorem Settled.reloaded (f : Flash) (status : Int) :
    Settled (if (loadFile f).1 ≠ envStatusOk then envStatusRead else status, (loadFile f).2) f := by
  refine ⟨rfl, fun h => ?_⟩
  by_contra hload
  rw [if_pos hload] at h
  exact absurd h (show envStatusRead ≠ envStatusOk by decide)

/-- After a commit the table is the one in the flash, saved or reloaded. -/
theorem commit_robust (bus : Nat → BusOutcome) {entries : List Entry} (h : WellFormed entries)
    (f : Flash) : (commit bus entries).Robust Settled f := by
  unfold commit
  refine Prog.Robust.bind ((saveFile_robust bus h f).mono fun status f' hpost => ?_)
  refine Prog.robust_ite (fun _ => Prog.robust_read.mpr (Settled.reloaded f' status))
    fun hstatus => ?_
  have hload := hpost (not_not.mp hstatus)
  exact ⟨by rw [hload], fun _ => by rw [hload]⟩

/-! ## Keys and values -/

theorem cstr_nul (text : List UInt8) : 0 ∉ cstr text := by
  intro h
  have h0 := List.mem_takeWhile_imp h
  exact absurd h0 (by decide)

/-- What is copied is a value. -/
theorem copyText_valid (text : List UInt8) :
    (copyText envValueSize text).length < envValueSize ∧ 0 ∉ copyText envValueSize text := by
  refine ⟨?_, fun h => cstr_nul text (List.mem_of_mem_take h)⟩
  have hlen := List.length_take_le (envValueSize - 1) (cstr text)
  simp only [copyText, envValueSize] at hlen ⊢
  omega

theorem normalizeKey_nul (key : List UInt8) : 0 ∉ normalizeKey key := by
  intro h
  obtain ⟨c, hc, h0⟩ := List.mem_map.mp h
  have hne : c ≠ 0 := fun he => cstr_nul key (he ▸ List.mem_of_mem_take hc)
  unfold toupper at h0
  split at h0
  · rename_i hrange
    obtain ⟨hlo, hhi⟩ := hrange
    have hc : c = 0x20 := by grind
    rw [hc] at hlo
    exact absurd hlo (by decide)
  · exact hne h0

theorem keyValid_iff {key : List UInt8} :
    keyValid key = true ↔ key ≠ [] ∧ key.length < envKeySize := by
  simp [keyValid]

section
variable {f : Flash} {entries : List Entry} {key value : List UInt8} (bus : Nat → BusOutcome)

theorem setValue_robust (h : entries = (loadFile f).2) (hnul : 0 ∉ key) :
    (setValue bus entries key value).Robust Settled f := by
  have hw : WellFormed entries := h ▸ loadFile_wellFormed f
  unfold setValue
  refine Prog.robust_ite (fun _ => Settled.refused h (by decide)) fun hkey => ?_
  rw [Bool.not_eq_true', Bool.not_eq_false, keyValid_iff] at hkey
  dsimp only
  cases hi : findIndex entries key with
  | some i => exact commit_robust bus (hw.modify i (copyText_valid value)) f
  | none =>
    refine Prog.robust_ite (fun _ => Settled.refused h (by decide)) fun hroom => ?_
    have hvalid : Entry.Valid ⟨key, copyText envValueSize value⟩ :=
      ⟨⟨hkey.1, hkey.2, hnul⟩, copyText_valid value⟩
    exact commit_robust bus (hw.append (by omega) hi hvalid) f

theorem deleteValue_robust (h : entries = (loadFile f).2) :
    (deleteValue bus entries key).Robust Settled f := by
  have hw : WellFormed entries := h ▸ loadFile_wellFormed f
  unfold deleteValue
  refine Prog.robust_ite (fun _ => Settled.refused h (by decide)) fun hkey => ?_
  cases hi : findIndex entries key with
  | none => exact Settled.refused h (by decide)
  | some i => exact commit_robust bus (hw.sublist (entries.eraseIdx_sublist i)) f

end

/-! ## Commands -/

theorem parseAssignment_nul {name rest name' key value : List UInt8}
    (h : parseAssignment name rest = (some (key, value), name')) : 0 ∉ key := by
  have hguard {typed value' : List UInt8} (hk : (if normalizeKey typed ≠ [] then
      some (normalizeKey typed, value') else none) = some (key, value)) : 0 ∉ key := by
    split at hk
    · rw [← (Prod.mk.inj (Option.some.inj hk)).1]
      exact normalizeKey_nul typed
    · cases hk
  unfold parseAssignment at h
  split at h
  · exact hguard (Prod.mk.inj h).1
  · dsimp only at h
    split at h
    · cases (Prod.mk.inj h).1
    · exact hguard (Prod.mk.inj h).1

theorem parseDelta_nul {name rest key delta : List UInt8}
    (h : parseDelta name rest = some (key, delta)) : 0 ∉ key := by
  have hguard {typed delta' : List UInt8} {c : Prop} [Decidable c]
      (hk : (if c then some (normalizeKey typed, delta') else none) = some (key, delta)) :
      0 ∉ key := by
    split at hk
    · rw [← (Prod.mk.inj (Option.some.inj hk)).1]
      exact normalizeKey_nul typed
    · cases hk
  unfold parseDelta at h
  split at h
  · rw [← (Prod.mk.inj (Option.some.inj h)).1]
    exact normalizeKey_nul _
  · dsimp only at h
    split at h
    · exact hguard h
    · split at h
      · exact hguard h
      · exact hguard h

/-- The driver after a command: its table is the one in the flash, and it is as
initialised as before. -/
def Follows (d : Driver) (x : Driver × Response) (f : Flash) : Prop :=
  x.1.entries = (loadFile f).2 ∧ x.1.initialized = d.initialized

section
variable {f : Flash} {d : Driver} {key value : List UInt8} {io : Io}
  (h : d.entries = (loadFile f).2)
include h

theorem setAndReport_robust (hnul : 0 ∉ key) :
    (setAndReport io d key value).Robust (Follows d) f :=
  Prog.Robust.bind ((setValue_robust io.bus h hnul).mono fun _ _ hr => ⟨hr.table, rfl⟩)

theorem deleteAndReport_robust : (deleteAndReport io d key).Robust (Follows d) f :=
  Prog.Robust.bind ((deleteValue_robust io.bus h).mono fun _ _ hr => ⟨hr.table, rfl⟩)

theorem executeDelta_robust (hnul : 0 ∉ key) :
    (executeDelta io d key value).Robust (Follows d) f := by
  have hsame (status : Int) (r : Response) :
      (Prog.done (d.answer status d.entries r)).Robust (Follows d) f := ⟨h, rfl⟩
  unfold executeDelta
  dsimp only
  split
  · exact hsame _ _
  split
  · split
    · exact hsame _ _
    · exact setAndReport_robust h hnul
  refine Prog.robust_ite (fun _ => hsame _ _) fun _ => ?_
  split
  · exact hsame _ _
  split
  · exact hsame _ _
  · exact setAndReport_robust h hnul

theorem executeCli_robust : (executeCli io d).Robust (Follows d) f := by
  have hsame (status : Int) (r : Response) :
      (Prog.done (d.answer status d.entries r)).Robust (Follows d) f := ⟨h, rfl⟩
  unfold executeCli
  dsimp only
  refine Prog.robust_ite (fun _ => hsame _ _) fun _ => ?_
  refine Prog.robust_ite (fun _ => hsame _ _) fun _ => ?_
  refine Prog.robust_ite (fun _ => hsame _ _) fun _ => ?_
  refine Prog.robust_ite (fun _ => Prog.robust_ite (fun _ => hsame _ _) fun _ =>
    deleteAndReport_robust h) fun _ => ?_
  refine Prog.robust_ite (fun _ => ?_) fun _ => ?_
  · -- ENV -I
    split
    · exact hsame _ _
    · rename_i key value name hparse
      split
      · exact hsame _ _
      · exact setAndReport_robust h (parseAssignment_nul hparse)
  · split
    · rename_i key value name hparse
      have hnul := parseAssignment_nul hparse
      split
      · exact hsame _ _
      · exact setAndReport_robust h hnul
      · exact setAndReport_robust h hnul
    · split
      · rename_i key delta hparse
        exact executeDelta_robust h (parseDelta_nul hparse)
      · refine Prog.robust_ite (fun _ => hsame _ _) fun _ => ?_
        split
        · exact hsame _ _
        · exact hsame _ _

/-- Whether a command is SET, DELETE or CLEAR: its status 0 means a commit. -/
def Writes (command : Nat) : Prop := command = 3 ∨ command = 4 ∨ command = 7

theorem commandSwitch_robust (command : Nat) : (commandSwitch io d command).Robust
    (fun x f' => x.1.entries = (loadFile f').2 ∧ x.1.initialized = d.initialized ∧
      (Writes command → x.2.1 = envStatusOk → (loadFile f').1 = envStatusOk)) f := by
  have hother {P : Prop} (hne : ¬Writes command) (hw : Writes command) : P := absurd hw hne
  have hkey := normalizeKey_nul d.request
  unfold commandSwitch
  dsimp only
  split
  · exact ⟨rfl, rfl, hother (by simp [Writes])⟩
  · split
    · exact ⟨h, rfl, hother (by simp [Writes])⟩
    · exact ⟨h, rfl, hother (by simp [Writes])⟩
  · exact Prog.Robust.bind ((setValue_robust io.bus h hkey).mono fun _ _ hr =>
      ⟨hr.table, rfl, fun _ => hr.loaded⟩)
  · exact Prog.Robust.bind ((deleteValue_robust io.bus h).mono fun _ _ hr =>
      ⟨hr.table, rfl, fun _ => hr.loaded⟩)
  · exact ⟨h, rfl, hother (by simp [Writes])⟩
  · exact ⟨h, rfl, hother (by simp [Writes])⟩
  · exact Prog.Robust.bind ((commit_robust io.bus .nil f).mono fun _ _ hr =>
      ⟨hr.table, rfl, fun _ => hr.loaded⟩)
  · split
    · exact ⟨h, rfl, hother (by simp [Writes])⟩
    · exact ⟨h, rfl, hother (by simp [Writes])⟩
  · exact Prog.Robust.bind ((executeCli_robust h).mono fun _ _ hr =>
      ⟨hr.1, hr.2, hother (by simp [Writes])⟩)
  · rename_i h3 h4 _ _ h7 _ _
    refine ⟨h, rfl, hother ?_⟩
    rintro (rfl | rfl | rfl)
    · exact h3 rfl
    · exact h4 rfl
    · exact h7 rfl

theorem executeCommand_robust (command : Nat) : (executeCommand io d command).Robust
    (fun x f' => Follows d x f' ∧
      (Writes command → x.1.status = envStatusOk → (loadFile f').1 = envStatusOk)) f := by
  unfold executeCommand
  refine Prog.Robust.bind ((commandSwitch_robust h command).mono fun x f' hx => ?_)
  obtain ⟨htable, hinit, hloaded⟩ := hx
  refine ⟨⟨htable, hinit⟩, fun hw hstatus => hloaded hw ?_⟩
  change (if x.2.2.overflow then envStatusFull else x.2.1) = envStatusOk at hstatus
  split at hstatus
  · exact absurd hstatus (by decide)
  · exact hstatus

end

/-! ## Runs -/

structure System where
  driver : Driver
  flash : Flash

inductive Event where
  /-- A byte to one of the ports; call `n` of the flash leaves `faults n` in its range. -/
  | output (io : Io) (faults : Nat → Option (Nat → UInt8)) (port : Nat) (data : UInt8)
  | get (key : List UInt8) (size : Nat)
  | close

def step (s : System) : Event → System
  | .output io faults port data =>
    let ((driver, _), flash) := (environmentOutput io port data s.driver).runWith faults s.flash
    { driver, flash }
  | .get key size =>
    let ((driver, _), flash) := (environmentIoGet key size s.driver).run s.flash
    { driver, flash }
  | .close => { s with driver := .closed }

/-- An open driver holds the table that is in the flash, a closed one holds none. -/
def Inv (s : System) : Prop :=
  if s.driver.initialized then s.driver.entries = (loadFile s.flash).2 else s.driver.entries = []

theorem Inv.opened {s : System} (h : Inv s) (hi : s.driver.initialized = true) :
    s.driver.entries = (loadFile s.flash).2 := by
  rwa [Inv, if_pos hi] at h

theorem Inv.of_opened {s : System} (hi : s.driver.initialized = true)
    (he : s.driver.entries = (loadFile s.flash).2) : Inv s := by
  rwa [Inv, if_pos hi]

theorem Inv.wellFormed {s : System} (h : Inv s) : WellFormed s.driver.entries := by
  unfold Inv at h
  split at h
  · rw [h]
    exact loadFile_wellFormed s.flash
  · rw [h]
    exact .nil

/-- Opening the driver reads the table. -/
theorem environmentIoInit_robust {d : Driver} {f : Flash} (h : Inv ⟨d, f⟩) :
    (environmentIoInit d).Robust
      (fun d' f' => f' = f ∧ d'.initialized = true ∧ d'.entries = (loadFile f').2) f := by
  unfold environmentIoInit
  exact Prog.robust_ite (fun hi => ⟨rfl, hi, h.opened hi⟩) fun _ => Prog.robust_read.mpr
    ⟨rfl, rfl, rfl⟩

/-- What one byte to a port does to the table and the flash. -/
theorem environmentOutput_robust {d : Driver} {f : Flash} (h : Inv ⟨d, f⟩) (io : Io) (port : Nat)
    (data : UInt8) : (environmentOutput io port data d).Robust
      (fun x f' => x.1.initialized = true ∧ x.1.entries = (loadFile f').2 ∧
        (port = environmentPortCommand → Writes data.toNat → x.1.status = envStatusOk →
          (loadFile f').1 = envStatusOk)) f := by
  unfold environmentOutput
  refine Prog.Robust.bind ((environmentIoInit_robust h).mono fun d' f' hd => ?_)
  obtain ⟨-, hi, he⟩ := hd
  refine Prog.robust_ite (fun hport => ?_) fun _ => Prog.robust_ite (fun _ => ?_) fun hport => ?_
  · have happend : (appendByte d' data).initialized = d'.initialized ∧
        (appendByte d' data).entries = d'.entries := by
      unfold appendByte
      split
      · exact ⟨rfl, rfl⟩
      · exact ⟨rfl, rfl⟩
    refine ⟨happend.1.trans hi, happend.2.trans he, fun hp => ?_⟩
    rw [hport] at hp
    exact absurd hp (by decide)
  · refine Prog.robust_ite (fun hzero => ⟨hi, he, fun _ hw => ?_⟩) fun _ => ?_
    · rw [hzero] at hw
      exact absurd hw (by simp [Writes])
    · refine (executeCommand_robust he data.toNat).mono fun x f'' hx => ?_
      exact ⟨hx.1.2.trans hi, hx.1.1, fun _ => hx.2⟩
  · exact ⟨hi, he, fun hp => absurd hp hport⟩

theorem Inv.step (s : System) (e : Event) (h : Inv s) : Inv (step s e) := by
  cases e with
  | output io faults port data =>
    have hpost := (environmentOutput_robust h io port data).runWith faults
    exact .of_opened hpost.1 hpost.2.1
  | get key size =>
    have hpost : (environmentIoGet key size s.driver).Robust
        (fun x f' => x.1.initialized = true ∧ x.1.entries = (loadFile f').2) s.flash :=
      Prog.Robust.bind ((environmentIoInit_robust h).mono fun _ _ hd => hd.2)
    have hrun := hpost.runWith fun _ => none
    exact .of_opened hrun.1 hrun.2
  | close => exact rfl

/-- What the newest valid snapshot in the flash decodes to, if there is one and it does. -/
def newestTable (f : Flash) : Option (List Entry) :=
  match snapshotLoad z80EnvSnapshotBytes f with
  | (status, snapshot) =>
    if status ≠ envStatusOk then none
    else
      match decode [] snapshot with
      | (status, entries) => if status ≠ envStatusOk then none else some entries

theorem newestTable_iff {f : Flash} {entries : List Entry} :
    newestTable f = some entries ↔ loadFile f = (envStatusOk, entries) := by
  unfold newestTable loadFile
  dsimp only
  split
  · rename_i hstatus
    simp [hstatus]
  · split
    · rename_i hstatus
      simp only [reduceCtorEq, false_iff]
      intro h
      rw [h] at hstatus
      exact hstatus rfl
    · rename_i hstatus
      rw [not_not] at hstatus
      rw [Option.some.injEq, Prod.ext_iff]
      simp [hstatus]

/-- **The table is what the flash holds.** In every run, whatever the flash does with
the calls it gets: the table is well formed, and that of an open driver is the one
`env_load_file` builds from the flash. After every byte sent the table is the one of the
newest snapshot, if that decodes, and it does when SET, DELETE or CLEAR end with status
0. What `env_save_file` produces from a well-formed table decodes to that table, also
when it is read back from the flash. -/
theorem table_durable (f : Flash) (events : List Event) :
    let s := Concurrent.run step ⟨.closed, f⟩ events
    WellFormed s.driver.entries ∧
    (s.driver.initialized = true → s.driver.entries = (loadFile s.flash).2) ∧
    (∀ io faults port data,
      let s' := step s (.output io faults port data)
      s'.driver.entries = (loadFile s'.flash).2 ∧
      (∀ table, newestTable s'.flash = some table → s'.driver.entries = table) ∧
      (port = environmentPortCommand → Writes data.toNat → s'.driver.status = envStatusOk →
        newestTable s'.flash = some s'.driver.entries)) ∧
    (∀ entries snapshot, WellFormed entries → encode [] entries = some snapshot →
      decode [] snapshot = (envStatusOk, entries)) ∧
    (∀ bus faults entries f f', WellFormed entries →
      (saveFile bus entries).runWith faults f = (envStatusOk, f') →
      loadFile f' = (envStatusOk, entries)) := by
  have hopen : Inv ⟨.closed, f⟩ := rfl
  have hinv := Concurrent.run_invariant Inv.step hopen events
  refine ⟨hinv.wellFormed, hinv.opened, fun io faults port data => ?_,
    fun entries snapshot hw hs => ?_, fun bus faults entries f f' hw hrun => ?_⟩
  · obtain ⟨-, htable, hloaded⟩ := (environmentOutput_robust hinv io port data).runWith faults
    refine ⟨htable, fun table hnew => ?_, fun hport hwrites hstatus => ?_⟩
    · rw [newestTable_iff] at hnew
      exact htable.trans (congrArg Prod.snd hnew)
    · exact newestTable_iff.mpr (Prod.ext (hloaded hport hwrites hstatus) htable.symm)
  · obtain ⟨rfl, -⟩ := encode_eq hs (Nat.zero_le _)
    exact decode_flatMap hw
  · have hpost := (saveFile_robust bus hw f).runWith faults
    rw [hrun] at hpost
    exact hpost rfl

end Z80Sbc.Env.TableDurability
