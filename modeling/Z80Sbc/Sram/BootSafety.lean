import Z80Sbc.Sram.Boot

/-! # What the boot may rely on

From any state of the pins in which nobody clashes: the loader's accesses are those of its
steps, a loaded image is one that reads back, a memory that passes the march test has none
of its faults, and the second bank is made available only with its whole image in it. -/

namespace Z80Sbc.Sram
open Z80Sbc.Z80 (Byte Word word lo hi)
open Z80Sbc.Storage.March

/-! ## From the pins to the first instruction -/

/-- Nobody clashes, and the Z80 does not read and write at one time. -/
def Board.Quiet {σ : Type} (b : Board σ) : Prop := b.contended = false ∧ (b.rdN || b.wrN) = true

section
variable {σ : Type} (ram : Ram σ Place Byte) (floating : Byte) {b : Board σ}

theorem quiet_safeStartup (memory : σ) : (safeStartup memory).Quiet := ⟨rfl, rfl⟩

theorem pulseClock_reset {n : Nat} (h : b.resetN = false) : pulseClock ram floating n b = b := by
  induction n with
  | zero => rfl
  | succ n ih => rw [pulseClock, Board.clock, h, Bool.not_false, if_pos rfl, ih]

/-- The board with the buses isolated and the Z80 held in reset. -/
def Board.held (b : Board σ) : Board σ :=
  { b with
    dataUpOeN := true, dataDownOeN := true, resetN := false, pc := 0, hl := 0, accumulator := 0,
    machine := .fetch, tState := 0, rdN := true, wrN := true, bootReadDisable := true }

theorem isolateBuses_quiet (h : b.Quiet) :
    b.isolateBuses = { b with dataUpOeN := true, dataDownOeN := true } := by
  obtain ⟨hc, hrw⟩ := h
  cases b
  rename_i resetN inhibit up down bank latch output machine tState exitTail rdN wrN pc hl instr low
    imm acc memory clash available failures
  cases rdN <;> cases wrN <;> cases up <;> cases down <;> cases output <;> cases inhibit <;>
    simp_all [Board.contended, Board.u9, Board.u10, Board.sramOut, Board.cpuOut,
      Board.isolateBuses, Board.settle]

theorem cpuFailClosed_quiet (h : b.Quiet) : cpuFailClosed b = b.held := by
  rw [cpuFailClosed, isolateBuses_quiet h]
  cases b
  simp [Board.putResetN, Board.putBootReadDisable, Board.settle, Board.contended, Board.u9,
    Board.u10, Board.sramOut, Board.cpuOut, Board.held]

theorem prepareLoader_quiet (h : b.Quiet) :
    Board.Leaves { b with memoryBank := false } b.memory (prepareLoader ram floating b) := by
  have hpins : (b.isolateBuses.putBootReadDisable true).putResetN false = b.held := by
    rw [isolateBuses_quiet h]
    obtain ⟨hc, hrw⟩ := h
    cases b
    simp_all [Board.putResetN, Board.putBootReadDisable, Board.settle, Board.contended, Board.u9,
      Board.u10, Board.sramOut, Board.cpuOut, Board.held]
  rw [prepareLoader, resetWithClockCycles, hpins, pulseClock_reset ram floating (b := b.held) rfl]
  constructor <;> simp [Board.held, Board.memoryBankSelect, Board.putResetN, pulseClock, Board.clock]
  exact ⟨⟨rfl, rfl, rfl, rfl, rfl, rfl, rfl, rfl⟩, rfl⟩

theorem prepareLoader_startup (memory : σ) :
    (safeStartup memory).Leaves memory (prepareLoader ram floating (safeStartup memory)) :=
  prepareLoader_quiet ram floating (quiet_safeStartup memory)

/-- A loop right after power-on. -/
theorem steps_startup (list : List (Word × Op Byte)) (memory : σ) :
    (safeStartup memory).Ran ram list (ram.run (list.map (place false)) memory)
      (steps ram floating list (prepareLoader ram floating (safeStartup memory))) := by
  have hstart := prepareLoader_startup ram floating memory
  have hran := steps_ran ram floating list hstart.idle
  rw [hstart.memoryBank, hstart.memory] at hran
  exact hstart.ran ram [] rfl hran

/-- The report is about the first read of the loop that finds another byte than it expects, and
gives that byte; `m` is the memory at that moment. -/
def Reports (list : List (Word × Op Byte)) (memory : σ) (report : Report) (m : σ) : Prop :=
  ram.Stops (list.map (place false)) memory (false, report.address) report.expected m ∧
    report.actual = ram.read m (false, report.address)

/-- From power-on, the loader makes the accesses of its steps to the first bank, up to the first
byte that differs, which it reports, and no others; no two drivers meet. -/
theorem loader_accesses (list : List (Word × Op Byte)) (memory : σ) :
    let result := steps ram floating list (prepareLoader ram floating (safeStartup memory))
    (match ram.run (list.map (place false)) memory with
      | some m => result.1 = none ∧ result.2.memory = m
      | none => ∃ report, result.1 = some report ∧ Reports ram list memory report result.2.memory) ∧
    result.2.clash = false := by
  intro result
  have hran : (safeStartup memory).Ran ram list _ result := steps_startup ram floating list memory
  clear_value result
  revert hran
  generalize ram.run (list.map (place false)) memory = r
  intro hran
  cases hran with
  | passed leaves => exact ⟨⟨rfl, leaves.memory⟩, leaves.clash⟩
  | stopped stops leaves =>
    refine ⟨⟨_, rfl, ?_, ?_⟩, leaves.clash⟩
    · rw [leaves.memory]
      exact stops
    · rw [leaves.memory]
      rfl

/-! ## The march test -/

theorem addresses_nodup : addresses.Nodup := by
  refine List.Nodup.map_on (fun x hx y hy hxy => ?_) List.nodup_range
  have hx' := List.mem_range.1 hx
  have hy' := List.mem_range.1 hy
  have hnat := congrArg BitVec.toNat hxy
  simpa [BitVec.toNat_ofNat, Nat.mod_eq_of_lt hx', Nat.mod_eq_of_lt hy'] using hnat

/-- The places of one bank. -/
def places (bank : Bool) : List Place := addresses.map (bank, ·)

theorem places_nodup (bank : Bool) : (places bank).Nodup :=
  addresses_nodup.map fun _ _ h => (Prod.mk.inj h).2

theorem map_place_march (bank : Bool) (test : List (Sweep Byte)) :
    (march addresses test).map (place bank) = march (places bank) test := by
  have hsweep (s : Sweep Byte) : (s.steps addresses).map (place bank) = s.steps (places bank) := by
    cases hd : s.down <;>
      simp [Sweep.steps, hd, places, place, List.map_flatMap, List.flatMap_map, ← List.map_reverse,
        Function.comp_def]
  simp [march, List.map_flatMap, hsweep]

theorem Board.Ready.quiet (h : b.Ready) : b.Quiet :=
  ⟨by simp [Board.contended, Board.u9, Board.u10, Board.sramOut, Board.cpuOut, h.rdN, h.wrN,
    h.dataDownOeN], by simp [h.rdN]⟩

theorem quiet_isolateBuses (h : b.Quiet) : b.isolateBuses.Quiet ∧ b.isolateBuses.clash = b.clash := by
  rw [isolateBuses_quiet h]
  refine ⟨⟨?_, h.2⟩, rfl⟩
  obtain ⟨hc, hrw⟩ := h
  cases hr : b.rdN <;> cases hw : b.wrN <;>
    simp_all [Board.contended, Board.u9, Board.u10, Board.sramOut, Board.cpuOut]

/-- How a loop that ended so concludes. -/
theorem Board.Ran.concluded {list : List (Word × Op Byte)} {r : Option σ}
    {result : Option Report × Board σ} (h : b.Ran ram list r result) :
    (concluded result).1 = r.isSome ∧
    (r.isNone = true → ∃ address expected m,
      ram.Stops (list.map (place b.memoryBank)) b.memory (b.memoryBank, address) expected m ∧
      (concluded result).2.failures =
        b.failures ++ [⟨address, expected, ram.read m (b.memoryBank, address)⟩] ∧
      (concluded result).2.memory = m) ∧
    (∀ m, r = some m → b.Leaves m (concluded result).2) ∧
    (concluded result).2.Quiet ∧ (concluded result).2.clash = b.clash := by
  cases h with
  | passed leaves =>
    obtain ⟨hquiet, hclash⟩ := quiet_isolateBuses leaves.idle.quiet
    refine ⟨rfl, by simp, fun m hm => ?_, hquiet, hclash.trans leaves.clash⟩
    rw [Sram.concluded, isolateBuses_quiet leaves.idle.quiet]
    obtain rfl := Option.some.inj hm
    obtain ⟨⟨⟨h1, h2, h3, h4, h5, h6, h7, h8⟩, hm'⟩, hmem, hbank, hclash, havail, hfail⟩ := leaves
    exact ⟨⟨⟨h1, h2, rfl, rfl, h5, h6, h7, h8⟩, hm'⟩, hmem, hbank, hclash, havail, hfail⟩
  | stopped stops leaves =>
    rename_i address expected m b'
    have hq : Board.Quiet { b' with
        failures := b'.failures ++ [⟨address, expected, ram.read m (b.memoryBank, address)⟩] } :=
      leaves.idle.quiet
    obtain ⟨hquiet, hclash⟩ := quiet_isolateBuses hq
    refine ⟨rfl, fun _ => ⟨address, expected, m, stops, ?_, ?_⟩, by simp, hquiet,
      hclash.trans leaves.clash⟩
    · simp [Sram.concluded, Board.isolateBuses, Board.settle, leaves.failures]
    · simp [Sram.concluded, Board.isolateBuses, Board.settle, leaves.memory]

/-- The march test right after power-on. -/
def poweredMarchTest {σ : Type} (ram : Ram σ Place Byte) (floating : Byte) (memory : σ) :
    Bool × Board σ :=
  marchTest ram floating (prepareLoader ram floating (safeStartup memory))

/-- The accesses of the march test to one bank. -/
def marchSteps : List (Word × Op Byte) := march addresses (marchCMinus 0x00 0xFF)

/-- The march test passes on a memory without a fault, leaves it zero and says nothing; with a
fault of the bank it fails and reports the first byte that differs. -/
theorem marchTest_finds_faults (m : Place → Byte) :
    ((poweredMarchTest plain floating m).1 = true ∧
      (poweredMarchTest plain floating m).2.memory = filled m (places false) 0 ∧
      (poweredMarchTest plain floating m).2.failures = [] ∧
      (poweredMarchTest plain floating m).2.clash = false) ∧
    ∀ f : Fault Place 8, f.On (places false) →
      (poweredMarchTest (faulty f) floating m).1 = false ∧
      ∃ report, (poweredMarchTest (faulty f) floating m).2.failures = [report] ∧
        Reports (faulty f) marchSteps m report
          (poweredMarchTest (faulty f) floating m).2.memory := by
  simp only [poweredMarchTest, marchTest]
  constructor
  · have hran := steps_startup plain floating
      (march addresses (marchCMinus 0x00 0xFF)) m
    rw [map_place_march, marchCMinus_passes (places_nodup _)] at hran
    obtain ⟨hpass, -, hleaves, -⟩ := hran.concluded
    have hend := hleaves _ rfl
    exact ⟨hpass, hend.memory, hend.failures, hend.clash⟩
  · intro f hf
    have hran := steps_startup (faulty f) floating
      (march addresses (marchCMinus 0x00 0xFF)) m
    have hnone := marchCMinus_detects (places_nodup false) hf m
    have hones : BitVec.allOnes 8 = 0xFF := rfl
    rw [hones] at hnone
    rw [map_place_march, hnone] at hran
    obtain ⟨hpass, hreport, -, -⟩ := hran.concluded
    obtain ⟨address, expected, m', hstops, hfail, hmem⟩ := hreport rfl
    refine ⟨hpass, _, hfail, ?_, ?_⟩
    · rw [hmem]
      exact hstops
    · rw [hmem]
      rfl

/-! ## Loading -/

/-- The memory after the bytes were written one by one to a bank. -/
def stored (ram : Ram σ Place Byte) (bank : Bool) (bytes : List (Word × Byte)) (s : σ) : σ :=
  bytes.foldl (fun s x => ram.write s (bank, x.1) x.2) s

/-- The bytes read back. -/
def ReadsBack (ram : Ram σ Place Byte) (bank : Bool) (bytes : List (Word × Byte)) (s : σ) : Prop :=
  ∀ x ∈ bytes, ram.read s (bank, x.1) = x.2

instance (bank : Bool) (bytes : List (Word × Byte)) (s : σ) :
    Decidable (ReadsBack ram bank bytes s) :=
  inferInstanceAs (Decidable (∀ x ∈ bytes, ram.read s (bank, x.1) = x.2))

theorem run_writes {bank : Bool} {bytes : List (Word × Byte)} {s : σ} :
    ram.run ((writes bytes).map (place bank)) s = some (stored ram bank bytes s) := by
  induction bytes generalizing s with
  | nil => rfl
  | cons x bytes ih => exact ih

theorem run_reads {bank : Bool} {bytes : List (Word × Byte)} {s : σ} :
    ram.run ((reads bytes).map (place bank)) s =
      if ReadsBack ram bank bytes s then some s else none := by
  induction bytes with
  | nil => simp [reads, ReadsBack]
  | cons x bytes ih =>
    have hcons : (reads (x :: bytes)).map (place bank) =
        ((bank, x.1), .read x.2) :: (reads bytes).map (place bank) := rfl
    rw [hcons, run_read, ih]
    by_cases hx : ram.read s (bank, x.1) = x.2
    · simp [ReadsBack, hx]
    · simp [ReadsBack, hx]

theorem run_writes_reads {bank : Bool} {bytes : List (Word × Byte)} {s : σ} :
    ram.run ((writes bytes ++ reads bytes).map (place bank)) s =
      if ReadsBack ram bank bytes (stored ram bank bytes s) then some (stored ram bank bytes s)
      else none := by
  rw [List.map_append, run_append, run_writes, Option.bind_some, run_reads]

/-- The Z80 is held in reset, with the buses isolated and the SRAM held off. -/
def Board.Held (b : Board σ) : Prop :=
  b.resetN = false ∧ b.dataUpOeN = true ∧ b.dataDownOeN = true ∧ b.bootReadDisable = true

theorem quiet_held : b.held.Quiet := ⟨by simp [Board.contended, Board.u9, Board.u10,
  Board.sramOut, Board.cpuOut, Board.held], rfl⟩

theorem cpuFailClosed_held (h : b.Quiet) : (cpuFailClosed b).Held ∧
    (cpuFailClosed b).memory = b.memory ∧ (cpuFailClosed b).clash = b.clash := by
  rw [cpuFailClosed_quiet h]
  exact ⟨⟨rfl, rfl, rfl, rfl⟩, rfl, rfl⟩

/-- The preparation holds the Z80 in reset or leaves it ready for the loader's first
instruction, with the memory untouched. -/
theorem cpuPrepareLoader_quiet (busackN iorqN : Bool) (h : b.Quiet) :
    let result := cpuPrepareLoader ram floating busackN iorqN b
    result.1 = (busackN && iorqN) ∧
      (if result.1 then
        Board.Leaves { b with memoryBank := false, available := false } b.memory result.2
      else result.2.Held ∧ result.2.memory = b.memory ∧ result.2.clash = b.clash) := by
  have hq : Board.Quiet { b with available := false } := h
  have hheld : resetWithClockCycles ram floating 3 (cpuFailClosed { b with available := false }) =
      Board.held { b with available := false } := by
    rw [cpuFailClosed_quiet hq, resetWithClockCycles]
    have hreset : (Board.held { b with available := false }).putResetN false =
        Board.held { b with available := false } := by
      simp [Board.putResetN, Board.settle, Board.held, Board.contended, Board.u9, Board.u10,
        Board.sramOut, Board.cpuOut]
    rw [hreset, pulseClock_reset ram floating rfl]
  intro result
  have hresult : result = if busackN && iorqN then
      (true, prepareLoader ram floating (Board.held { b with available := false }))
      else (false, Board.held { b with available := false }) := by
    simp only [result, cpuPrepareLoader, hheld]
    simp [Board.held]
  cases hio : busackN && iorqN with
  | true =>
    rw [hio, if_pos rfl] at hresult
    rw [hresult]
    refine ⟨rfl, ?_⟩
    have hleaves := prepareLoader_quiet ram floating
      (quiet_held (b := { b with available := false }))
    obtain ⟨hidle, hmem, hbank, hclash, havail, hfail⟩ := hleaves
    exact ⟨hidle, hmem, hbank, hclash, havail, hfail⟩
  | false =>
    rw [hio] at hresult
    rw [hresult]
    exact ⟨rfl, ⟨rfl, rfl, rfl, rfl⟩, rfl, rfl⟩

theorem sramLoad_idle (data : List Byte) (h : b.Idle) (hlength : data.length ≤ 65536) :
    (sramLoad ram floating 0 data b).1 = true ∧
      b.Leaves (stored ram b.memoryBank (image 0 data) b.memory)
        (sramLoad ram floating 0 data b).2 := by
  have hran := steps_ran ram floating (writes (image 0 data)) h
  rw [run_writes] at hran
  obtain ⟨hpass, -, hleaves, -⟩ := hran.concluded
  rw [sramLoad, if_neg (by simpa using hlength)]
  exact ⟨hpass, hleaves _ rfl⟩

theorem sramVerify_idle (data : List Byte) (h : b.Idle) (hlength : data.length ≤ 65536) :
    (sramVerify ram floating 0 data b).1 =
      decide (ReadsBack ram b.memoryBank (image 0 data) b.memory) ∧
    ((sramVerify ram floating 0 data b).1 = true →
      b.Leaves b.memory (sramVerify ram floating 0 data b).2) ∧
    (sramVerify ram floating 0 data b).2.Quiet ∧
    (sramVerify ram floating 0 data b).2.clash = b.clash := by
  have hran := steps_ran ram floating (reads (image 0 data)) h
  rw [run_reads] at hran
  rw [sramVerify, if_neg (by simpa using hlength)]
  obtain ⟨hpass, -, hleaves, hquiet, hclash⟩ := hran.concluded
  by_cases hback : ReadsBack ram b.memoryBank (image 0 data) b.memory
  · rw [if_pos hback] at hpass
    refine ⟨?_, fun _ => hleaves _ (if_pos hback), hquiet, hclash⟩
    rw [hpass, decide_eq_true hback]
    rfl
  · rw [if_neg hback] at hpass
    refine ⟨?_, fun htrue => ?_, hquiet, hclash⟩
    · rw [hpass, decide_eq_false hback]
      rfl
    · rw [hpass] at htrue
      cases htrue

/-- An image is accepted exactly when the bus is free and the whole image reads back from the
memory it was written to; otherwise the Z80 stays in reset. -/
theorem cpuLoadAndVerify_quiet (busackN iorqN : Bool) (data : List Byte) (h : b.Quiet)
    (hlength : 0 < data.length ∧ data.length ≤ 65536) :
    let result := cpuLoadAndVerify ram floating busackN iorqN data b
    (result.1 = true ↔ busackN = true ∧ iorqN = true ∧
      ReadsBack ram false (image 0 data) (stored ram false (image 0 data) b.memory)) ∧
    (result.1 = true → result.2.Idle ∧
      result.2.memory = stored ram false (image 0 data) b.memory) ∧
    (result.1 = false → result.2.Held) ∧ result.2.clash = b.clash := by
  intro result
  have hdata : ¬(data.length = 0 ∨ data.length > 65536) := by omega
  obtain ⟨hio, hprep⟩ := cpuPrepareLoader_quiet ram floating
    busackN iorqN h
  simp only [result, cpuLoadAndVerify, if_neg hdata]
  cases hp : cpuPrepareLoader ram floating busackN iorqN b with
  | mk ready b₁ =>
    rw [hp] at hio hprep
    cases ready with
    | false =>
      obtain ⟨hheld, -, hclash⟩ := hprep
      refine ⟨?_, by simp, fun _ => hheld, hclash⟩
      cases busackN <;> simp_all
    | true =>
      simp only [if_true] at hprep
      have hready : busackN = true ∧ iorqN = true := by simpa using hio.symm
      obtain ⟨hloaded, hload⟩ := sramLoad_idle ram floating data hprep.idle hlength.2
      rw [hprep.memoryBank, hprep.memory] at hload
      cases hl : sramLoad ram floating 0 data b₁ with
      | mk loaded b₂ =>
        rw [hl] at hloaded hload
        simp only at hloaded
        subst hloaded
        obtain ⟨hv, hkeep, hquiet, hclash⟩ := sramVerify_idle ram floating data hload.idle
          hlength.2
        have hclash' := hclash.trans (hload.clash.trans hprep.clash)
        rw [hload.memoryBank, hload.memory, hprep.memoryBank] at hv
        cases hr : sramVerify ram floating 0 data b₂ with
        | mk verified b₃ =>
          rw [hr] at hv hkeep hquiet hclash'
          simp only at hv hclash'
          cases verified with
          | false =>
            obtain ⟨hheld, -, hcf⟩ := cpuFailClosed_held hquiet
            simp only [hl, hr]
            exact ⟨by simpa [hready] using hv, by simp, fun _ => hheld, hcf.trans hclash'⟩
          | true =>
            have hend := hkeep rfl
            simp only [hl, hr]
            exact ⟨by simpa [hready] using hv, fun _ => ⟨hend.idle, hend.memory.trans hload.memory⟩,
              by simp, hclash'⟩

theorem cpuLoadAndVerify_reset_vector :
    (cpuLoadAndVerify plain 0 true true [0xC3, 0x00, 0xFA] (safeStartup fun _ => 0)).1 = true :=
  (cpuLoadAndVerify_quiet plain 0 true true [0xC3, 0x00, 0xFA] (quiet_safeStartup _)
    (by decide)).1.2 ⟨rfl, rfl, by simp [ReadsBack, image, stored, plain]⟩

/-! ## The second bank -/

/-- The memory after the probe wrote to both banks, and after it restored the first. -/
def probed (ram : Ram σ Place Byte) (s : σ) : σ :=
  ram.write (ram.write s (false, 0) 0x5A) (true, 0) 0xA5

def restored (ram : Ram σ Place Byte) (s : σ) : σ :=
  ram.write (probed ram s) (false, 0) (ram.read s (false, 0))

/-- The board in the first bank, with the second one off. -/
def Board.single (b : Board σ) : Board σ := { b with available := false, memoryBank := false }

theorem Board.Idle.select (bank : Bool) (h : b.Idle) : (b.memoryBankSelect bank).Idle := by
  obtain ⟨⟨h1, h2, h3, h4, h5, h6, h7, h8⟩, hm⟩ := h
  exact ⟨⟨h1, h2, h3, h4, h5, h6, h7, h8⟩, hm⟩

/-- After a selection of a bank. -/
theorem Board.Leaves.select {m : σ} {b' : Board σ} (bank : Bool) (h : b.Leaves m b') :
    Board.Leaves (b.memoryBankSelect bank) m (b'.memoryBankSelect bank) :=
  ⟨h.idle.select bank, h.memory, rfl, h.clash, h.available, h.failures⟩

theorem single_idle (h : b.Idle) : b.single.Idle := by
  obtain ⟨⟨h1, h2, h3, h4, h5, h6, h7, h8⟩, hm⟩ := h
  exact ⟨⟨h1, h2, h3, h4, h5, h6, h7, h8⟩, hm⟩

theorem Board.Leaves.write {m : σ} {b' : Board σ} (h : b.Leaves m b') (address : Word)
    (value : Byte) : b.Leaves (ram.write m (b.memoryBank, address) value)
      (writeByte ram floating address value b') := by
  have hw := writeByte_idle ram floating address
    value h.idle
  rw [h.memory, h.memoryBank] at hw
  exact h.trans hw

theorem Board.Leaves.read {m : σ} {b' : Board σ} (h : b.Leaves m b') (address : Word) :
    (readByte ram floating address b').1 = ram.read m (b.memoryBank, address) ∧
      b.Leaves m (readByte ram floating address b').2 := by
  obtain ⟨hvalue, hr⟩ := readByte_idle ram floating address
    h.idle
  rw [h.memory] at hvalue hr
  rw [h.memoryBank] at hvalue
  exact ⟨hvalue, h.trans hr⟩

/-- The probe, and what is done after it. -/
theorem prepareBankedMemory_probe (code : Residents) (base : Nat → Byte) (h : b.Idle) :
    ∃ b', b.single.Leaves (restored ram b.memory) b' ∧
      prepareBankedMemory ram floating code (some base) b =
        if ram.read (restored ram b.memory) (false, 0) ≠ ram.read b.memory (false, 0) then b'
        else if ¬ram.read (probed ram b.memory) (false, 0) = 0x5A then b'
        else finishBank ram floating (bankImage code base) b' := by
  have hstart : b.single.Leaves b.memory b.single :=
    ⟨single_idle h, rfl, rfl, rfl, rfl, rfl⟩
  have hselect : Board.memoryBankSelect { b with available := false } false = b.single := rfl
  obtain ⟨horiginal, h1⟩ := hstart.read ram floating 0
  rcases e1 : readByte ram floating 0 b.single with ⟨original, b1⟩
  rw [e1] at horiginal h1
  have h2 := (h1.write ram floating 0 0x5A).select true
  have h3 : b.single.Leaves (probed ram b.memory) _ :=
    (h2.write ram floating 0 0xA5).select false
  obtain ⟨hactual, h4⟩ := h3.read ram floating 0
  rcases e4 : readByte ram floating 0 _ with ⟨actual, b4⟩
  rw [e4] at hactual h4
  have h5 := h4.write ram floating 0 original
  obtain ⟨hback, h6⟩ := h5.read ram floating 0
  rcases e6 : readByte ram floating 0 (writeByte ram floating 0 original b4) with ⟨back, b6⟩
  rw [e6] at hback h6
  simp only at horiginal hactual hback
  subst horiginal hactual hback
  exact ⟨b6, h6, by simp only [prepareBankedMemory, hselect, e1, e4, e6]; rfl⟩

theorem finishBank_idle (bytes : List (Word × Byte)) (h : b.Idle) :
    let result := finishBank ram floating bytes b
    (result.available = true ↔ ReadsBack ram true bytes (stored ram true bytes b.memory)) ∧
    (result.available = true → result.memory = stored ram true bytes b.memory) ∧
    result.Idle ∧ result.memoryBank = false ∧ result.clash = b.clash := by
  intro result
  have hran := steps_ran ram floating (writes bytes ++ reads bytes)
    (h.select true)
  have hbank : (b.memoryBankSelect true).memoryBank = true := rfl
  rw [hbank, run_writes_reads] at hran
  have hresult : result = { Board.memoryBankSelect
      (steps ram floating (writes bytes ++ reads bytes) (b.memoryBankSelect true)).2 false with
        available := (steps ram floating (writes bytes ++ reads bytes)
          (b.memoryBankSelect true)).1.isNone } := rfl
  rw [hresult]
  generalize steps ram floating (writes bytes ++ reads bytes) (b.memoryBankSelect true) = ended
    at hran
  by_cases hback : ReadsBack ram true bytes (stored ram true bytes b.memory)
  · have hback' : ReadsBack ram true bytes
        (stored ram true bytes (b.memoryBankSelect true).memory) := hback
    rw [if_pos hback'] at hran
    cases hran with
    | passed leaves =>
      obtain ⟨⟨h1, h2, h3, h4, h5, h6, h7, h8⟩, hm⟩ := leaves.idle
      exact ⟨by simp [hback], fun _ => leaves.memory, ⟨⟨h1, h2, h3, h4, h5, h6, h7, h8⟩, hm⟩, rfl,
        leaves.clash⟩
  · have hback' : ¬ReadsBack ram true bytes
        (stored ram true bytes (b.memoryBankSelect true).memory) := hback
    rw [if_neg hback'] at hran
    cases hran with
    | stopped stops leaves =>
      obtain ⟨⟨h1, h2, h3, h4, h5, h6, h7, h8⟩, hm⟩ := leaves.idle
      exact ⟨by simp [hback], by simp, ⟨⟨h1, h2, h3, h4, h5, h6, h7, h8⟩, hm⟩, rfl, leaves.clash⟩

/-- Whatever the memory does, the first bank is selected in the end, nothing clashed, and the
second one is available only with the whole image in it and apart from the first. -/
theorem prepareBankedMemory_verified (code : Residents) (base : Option (Nat → Byte)) (h : b.Idle) :
    let result := prepareBankedMemory ram floating code base b
    result.Idle ∧ result.memoryBank = false ∧ result.clash = b.clash ∧
    (result.available = true → ∃ image, base = some image ∧
      ReadsBack ram true (bankImage code image) result.memory ∧
      ram.read (probed ram b.memory) (false, 0) = 0x5A ∧
      ram.read (restored ram b.memory) (false, 0) = ram.read b.memory (false, 0)) := by
  intro result
  cases base with
  | none =>
    have hsingle : result = b.single := rfl
    rw [hsingle]
    exact ⟨single_idle h, rfl, rfl, by simp [Board.single]⟩
  | some image =>
    obtain ⟨b', hleaves, hresult⟩ := prepareBankedMemory_probe ram floating
      code image h
    have hoff : b'.available = true → False := fun hon => by
      have hfalse := hleaves.available
      simp [hon, Board.single] at hfalse
    simp only [result, hresult]
    split
    · exact ⟨hleaves.idle, hleaves.memoryBank, hleaves.clash, fun hon => (hoff hon).elim⟩
    · rename_i hback
      split
      · exact ⟨hleaves.idle, hleaves.memoryBank, hleaves.clash, fun hon => (hoff hon).elim⟩
      · rename_i hisolated
        obtain ⟨hiff, hmem, hidle, hbank, hclash⟩ := finishBank_idle ram
          floating (bankImage code image) hleaves.idle
        refine ⟨hidle, hbank, hclash.trans hleaves.clash, fun hon => ⟨image, rfl, ?_,
          not_not.1 hisolated, not_not.1 hback⟩⟩
        rw [hmem hon]
        exact hiff.1 hon

theorem prepareBankedMemory_first_bank :
    let code : Residents := ⟨fun _ => 0, fun _ => 0, fun _ => 0⟩
    let start := prepareLoader plain 0 (safeStartup fun _ => 0)
    let result := prepareBankedMemory plain 0 code (some fun _ => 0) start
    result.Idle ∧ result.memoryBank = false ∧ result.clash = false ∧
    (result.available = true → ReadsBack plain true (bankImage code fun _ => 0) result.memory) := by
  intro code start result
  have hstart := prepareLoader_startup plain 0 fun _ => 0
  obtain ⟨hidle, hbank, hclash, hverified⟩ :=
    prepareBankedMemory_verified plain 0 code (some fun _ => 0) hstart.idle
  refine ⟨hidle, hbank, hclash.trans hstart.clash, fun hon => ?_⟩
  obtain ⟨image, himage, hback, -⟩ := hverified hon
  obtain rfl := Option.some.inj himage
  exact hback

/-! The SRAM without a fault, with A16 wired to it or not. -/

def bankedRam (wired : Bool) : Ram (Place → Byte) Place Byte where
  read m p := m (p.1 && wired, p.2)
  write m p v := Function.update m (p.1 && wired, p.2) v

theorem toNat_bankLoadAddress {i : Nat} (hi : i < bankLoadBytes) :
    (bankLoadAddress i).toNat = if i < bankRuntimeBytes then i else 0xDD00 + i := by
  have hbytes : bankLoadBytes = 8960 := rfl
  have hruntime : bankRuntimeBytes = 256 := rfl
  rw [hbytes] at hi
  rw [bankLoadAddress, hruntime]
  split
  · rw [BitVec.toNat_ofNat]
    omega
  · rw [BitVec.toNat_ofNat]
    omega

theorem bankLoadAddress_inj {i j : Nat} (hi : i < bankLoadBytes) (hj : j < bankLoadBytes)
    (h : bankLoadAddress i = bankLoadAddress j) : i = j := by
  have hnat := congrArg BitVec.toNat h
  have hruntime : bankRuntimeBytes = 256 := rfl
  rw [toNat_bankLoadAddress hi, toNat_bankLoadAddress hj, hruntime] at hnat
  split at hnat <;> split at hnat <;> omega

theorem bankImage_nodup (code : Residents) (base : Nat → Byte) :
    ((bankImage code base).map Prod.fst).Nodup := by
  rw [bankImage, List.map_map]
  refine List.Nodup.map_on (fun i hi j hj hij => ?_) List.nodup_range
  simp only [List.mem_range, Function.comp_apply] at hi hj hij
  exact bankLoadAddress_inj hi hj hij

theorem stored_outside (bank : Bool) (bytes : List (Word × Byte)) {m : Place → Byte} {p : Place}
    (hp : p.1 ≠ bank ∨ p.2 ∉ bytes.map Prod.fst) :
    stored (bankedRam true) bank bytes m p = m p := by
  induction bytes generalizing m with
  | nil => rfl
  | cons x bytes ih =>
    have hne : p ≠ (bank, x.1) := by
      rintro rfl
      simp at hp
    have hrest := ih (m := (bankedRam true).write m (bank, x.1) x.2)
      (hp.imp id fun hmem hx => hmem (List.mem_cons_of_mem _ hx))
    rw [stored, List.foldl_cons, ← stored, hrest]
    simp [bankedRam, Function.update_of_ne hne]

theorem stored_inside (bank : Bool) (bytes : List (Word × Byte)) (m : Place → Byte)
    (hnodup : (bytes.map Prod.fst).Nodup) :
    ReadsBack (bankedRam true) bank bytes (stored (bankedRam true) bank bytes m) := by
  induction bytes generalizing m with
  | nil => simp [ReadsBack]
  | cons x bytes ih =>
    obtain ⟨hx, hrest⟩ := List.nodup_cons.1 hnodup
    intro y hy
    rcases List.mem_cons.1 hy with hyx | hy
    · subst hyx
      have hlast := stored_outside bank bytes
        (m := (bankedRam true).write m (bank, y.1) y.2) (p := (bank, y.1)) (.inr hx)
      rw [stored, List.foldl_cons, ← stored]
      simp only [bankedRam, Bool.and_true] at hlast ⊢
      simp [hlast]
    · exact ih _ hrest y hy

/-- On a memory without a fault the second bank is available exactly when A16 is wired; then it
holds the image and is otherwise as it was, and the first bank is as it was in any case. -/
theorem prepareBankedMemory_wired (wired : Bool) {b : Board (Place → Byte)} (code : Residents)
    (image : Nat → Byte) (h : b.Idle) :
    let result := prepareBankedMemory (bankedRam wired) floating code (some image) b
    result.available = wired ∧
    (∀ a, result.memory (false, a) = b.memory (false, a)) ∧
    (wired = true → ReadsBack (bankedRam true) true (bankImage code image) result.memory ∧
      ∀ a ∉ (bankImage code image).map Prod.fst, result.memory (true, a) = b.memory (true, a)) ∧
    (wired = false → result.memory = b.memory) := by
  intro result
  obtain ⟨b', hleaves, hresult⟩ := prepareBankedMemory_probe (bankedRam wired)
    floating code image h
  have hrestored : restored (bankedRam wired) b.memory =
      if wired then Function.update b.memory (true, 0) 0xA5 else b.memory := by
    funext p
    cases wired
    · by_cases hp : p = (false, 0)
      · simp [restored, probed, bankedRam, hp]
      · simp [restored, probed, bankedRam]
    · by_cases hp : p = (false, 0)
      · simp [restored, probed, bankedRam, hp]
      · by_cases hp' : p = (true, 0)
        · simp [restored, probed, bankedRam, hp']
        · simp only [restored, probed, bankedRam, Bool.and_true, if_true,
            Function.update_of_ne hp, Function.update_of_ne hp']
  have hback : (bankedRam wired).read (restored (bankedRam wired) b.memory) (false, 0) =
      (bankedRam wired).read b.memory (false, 0) := by
    rw [hrestored]
    cases wired <;> simp [bankedRam]
  have hisolated : (bankedRam wired).read (probed (bankedRam wired) b.memory) (false, 0) = 0x5A ↔
      wired = true := by
    cases wired <;> simp [probed, bankedRam]
  simp only [result, hresult, hback, hisolated]
  cases wired with
  | false =>
    have hmem : b'.memory = b.memory := hleaves.memory.trans hrestored
    have hoff : b'.available = false := hleaves.available
    simp [hmem, hoff]
  | true =>
    obtain ⟨hiff, hmem, -⟩ := finishBank_idle (bankedRam true) floating
      (bankImage code image) hleaves.idle
    have hin := stored_inside true _ b'.memory (bankImage_nodup code image)
    have hon := hiff.2 hin
    simp only [ne_eq, not_true_eq_false, if_false]
    rw [hmem hon]
    have hkeep (p : Place) (hp : p.1 ≠ true ∨ p.2 ∉ (bankImage code image).map Prod.fst)
        (hp' : p ≠ (true, 0)) :
        stored (bankedRam true) true (bankImage code image) b'.memory p = b.memory p := by
      rw [stored_outside _ _ hp, hleaves.memory, hrestored, if_pos rfl, Function.update_of_ne hp']
    refine ⟨hon, fun a => hkeep _ (.inl (by simp)) (by simp), fun _ => ⟨hin, fun a ha => ?_⟩,
      by simp⟩
    refine hkeep _ (.inr ha) fun h0 => ha ?_
    obtain rfl : a = 0 := (Prod.mk.inj h0).2
    exact List.mem_map.2 ⟨_, List.mem_map.2 ⟨0, List.mem_range.2 (by decide), rfl⟩, rfl⟩

theorem prepareBankedMemory_unwired :
    (prepareBankedMemory (bankedRam false) 0 ⟨fun _ => 0, fun _ => 0, fun _ => 0⟩ (some fun _ => 0)
      (prepareLoader (bankedRam false) 0 (safeStartup fun _ => 0))).available = false :=
  (prepareBankedMemory_wired 0 false _ _
    (prepareLoader_startup (bankedRam false) 0 fun _ => 0).idle).1

end

end Z80Sbc.Sram
