import Z80Sbc.Bank.ControlCells
import Z80Sbc.Concurrent.Run

/-! # A stale handle of the library

The ready flag, the generation and the epoch move apart: a LOAD advances the generation and clears
the flag before it can fail, an INVALIDATE ignores that the generation is exhausted, and a reset of
the pool only changes the epoch. What holds them together is that the flag is only set while the
generation is the one that the last successful LOAD has given. -/

namespace Z80Sbc.Bank.LibraryHandle
open Z80Sbc.Z80 Z80Sbc.Bank Allocator Extensions ControlCells Concurrent

variable {δ : Type}

/-! ## Runs -/

/-- The bank and what an application has been given: the generation of its last successful LOAD. -/
structure System (δ : Type) extends Machine δ where
  given : Option Word

/-- The code of a library: its result and what it leaves, of which the control cells are none. -/
structure Code (δ : Type) where
  run : Word → Machine δ → Word × Machine δ
  keeps : ∀ entry s, KeepsControl s.mem (run entry s).2.mem

/-- What an application can write through the gateway: requests, and the extents of the pool. -/
def Writable (a : Word) : Prop :=
  0xDF20 ≤ a.toNat ∧ a.toNat < 0xDF40 ∨ 0xC800 ≤ a.toNat ∧ a.toNat < 0xDE00

instance (a : Word) : Decidable (Writable a) := inferInstanceAs (Decidable (_ ∨ _))

inductive Event (δ : Type) where
  | put (a : Word) (v : Byte)
  | heap (e : Byte) (hl : Word) (fuel : Nat)
  | library (hl : Word) (fuel : Nat) (code : Code δ)

/-- `bank_service_entry` with E=8, up to where the request returns or the code runs. -/
def request (bdos : Bdos δ) (fuel : Nat) (hl : Word) (s : Machine δ) : Option (Answer δ) :=
  libraryControl bdos fuel hl { s with mem := poke s.mem status 0 }

def reply (s : System δ) (hl : Word) (code : Code δ) : Answer δ → System δ
  | .done hl' t =>
    { toMachine := t
      given :=
        if Asks s.mem hl 0 ∧ hl' = 0 then some (peek16 t.mem requestGeneration) else s.given }
  | .runs entry t =>
    let out := code.run entry t
    { toMachine := (stackReturn out.1 out.2).2, given := s.given }

def step (bdos : Bdos δ) (s : System δ) : Event δ → System δ
  | .put a v => if Writable a then { s with mem := poke s.mem a v } else s
  | .heap e hl fuel =>
    if 4 < e then s
    else ((heapCall fuel e hl (poke s.mem status 0)).map fun p => { s with mem := p.2 }).getD s
  | .library hl fuel code => ((request bdos fuel hl s.toMachine).map (reply s hl code)).getD s

/-- How a step moves the control cells. -/
inductive Moves (s t : System δ) : Prop
  | same (keeps : KeepsControl s.mem t.mem) (given : t.given = s.given)
  | renewed (ready : peek t.mem ready = peek s.mem ready)
      (generation : peek16 t.mem generation = peek16 s.mem generation)
      (left : peek16 s.mem epoch ≠ 0xFFFF) (epoch : peek16 t.mem epoch = peek16 s.mem epoch + 1)
      (given : t.given = s.given)
  | cleared (ready : peek t.mem ready = 0) (epoch : peek16 t.mem epoch = peek16 s.mem epoch)
      (generation : peek16 t.mem generation = peek16 s.mem generation ∨
        peek16 s.mem generation ≠ 0xFFFF ∧
          peek16 t.mem generation = peek16 s.mem generation + 1)
      (given : t.given = s.given)
  | loaded (left : peek16 s.mem generation ≠ 0xFFFF)
      (generation : peek16 t.mem generation = peek16 s.mem generation + 1)
      (epoch : peek16 t.mem epoch = peek16 s.mem epoch)
      (given : t.given = some (peek16 t.mem Extensions.generation))

section
variable {bdos : Bdos δ} {s t u : System δ} {m : Mem} {hl : Word} {action e : Byte} {fuel : Nat}

theorem asks_status : Asks (poke m status 0) hl action ↔ Asks m hl action := by
  unfold Asks
  rw [peek16_poke_ne (by decide) (by decide), peek16_poke_ne (by decide) (by decide),
    peek_poke_ne (by decide), peek_poke_ne (by decide)]

theorem heap_moves (he : ¬4 < e) (p : Word × Mem)
    (h : heapCall fuel e hl (poke s.mem status 0) = some p) :
    Moves s { s with mem := p.2 } := by
  have hstatus : KeepsControl s.mem (poke s.mem status 0) := keeps_poke (by decide)
  by_cases h4 : e = 4
  · subst h4
    cases h
    rcases reset_moves (m := poke s.mem status 0) with ⟨hkeeps, -⟩ | ⟨hleft, hepoch, hready, hgen⟩
    · exact .same (hstatus.trans hkeeps) rfl
    · rw [hstatus.epoch] at hleft hepoch
      exact .renewed (hready.trans hstatus.ready) (hgen.trans hstatus.generation) hleft hepoch rfl
  · exact .same (hstatus.trans (keeps_heapCall h4 h)) rfl

theorem invalidate_moves : peek (invalidate m) ready = 0 ∧
    peek16 (invalidate m) epoch = peek16 m epoch ∧
      (peek16 m generation = 0xFFFF ∧ peek16 (invalidate m) generation = peek16 m generation ∨
        peek16 m generation ≠ 0xFFFF ∧
          peek16 (invalidate m) generation = peek16 m generation + 1) := by
  have hend : ∀ u : Mem, KeepsControl u (describeLibrary (resetLibraryContext u)) :=
    fun u => keeps_resetLibraryContext.trans keeps_describeLibrary
  have hbegin : ∀ a : Word, a ≠ ready → a ≠ exportCount →
      peek (poke (poke m ready 0) exportCount 0) a = peek m a := fun a h h' =>
    (peek_poke_ne h').trans (peek_poke_ne h)
  have hready : peek (poke (poke m ready 0) exportCount 0) ready = 0 :=
    (peek_poke_ne (by decide)).trans peek_poke
  have hgen : peek16 (poke (poke m ready 0) exportCount 0) generation = peek16 m generation :=
    peek16_congr (hbegin _ (by decide) (by decide)) (hbegin _ (by decide) (by decide))
  have hep : peek16 (poke (poke m ready 0) exportCount 0) epoch = peek16 m epoch :=
    peek16_congr (hbegin _ (by decide) (by decide)) (hbegin _ (by decide) (by decide))
  unfold invalidate
  dsimp only
  rcases advanceGeneration_moves (m := poke (poke m ready 0) exportCount 0) with
    ⟨hadvance, hfull⟩ | ⟨m', hadvance, hnot, hnext, hkept, hsame⟩
  · rw [hadvance, (hend _).ready, (hend _).epoch, (hend _).generation]
    exact ⟨hready, hep, Or.inl ⟨hgen ▸ hfull, hgen⟩⟩
  · rw [hadvance, (hend _).ready, (hend _).epoch, (hend _).generation]
    rw [hgen] at hnot hnext
    exact ⟨hkept.trans hready, hsame.trans hep, Or.inr ⟨hnot, hnext⟩⟩

theorem reply_done {t : Machine δ} {code : Code δ} {hl' : Word} :
    reply s hl code (.done hl' t) =
      { toMachine := t
        given :=
          if Asks s.mem hl 0 ∧ hl' = 0 then some (peek16 t.mem requestGeneration) else s.given } :=
  rfl

/-- A return that is not that of a LOAD, or of one that is refused. -/
theorem reply_same {t : Machine δ} {code : Code δ} {hl' : Word} (hkeeps : KeepsControl s.mem t.mem)
    (hnot : ¬(Asks s.mem hl 0 ∧ hl' = 0)) : Moves s (reply s hl code (.done hl' t)) := by
  rw [reply_done, if_neg hnot]
  exact .same hkeeps rfl

theorem asks_other (h : Asks m hl action) (hne : action ≠ 0) : ¬Asks m hl 0 :=
  fun h0 => hne (h.2.2.2.2.symm.trans h0.2.2.2.2)

theorem stackReturn_keeps (hl : Word) (s : Machine δ) :
    KeepsControl s.mem (stackReturn hl s).2.mem :=
  ((keeps_swapContext (Or.inr rfl)).trans keeps_completeControl).trans keeps_leave

/-- The reply to an INVOKE, run or refused. -/
theorem invoke_moves {code : Code δ} {v : Machine δ} (hkeeps : KeepsControl s.mem v.mem)
    (hnot : ¬Asks s.mem hl 0) : Moves s (reply s hl code (invoke v)) := by
  rcases invoke_cases v with ⟨a, -, hinvoke⟩ | ⟨-, ix, hinvoke⟩
  · rw [hinvoke]
    exact reply_same (hkeeps.trans keeps_finished) fun h => hnot h.1
  · rw [hinvoke]
    obtain ⟨t, hcall, ⟨hl', -, hdone⟩ | ⟨entry, hruns⟩⟩ := call_cases ix v
    · rw [hdone]
      exact reply_same (hkeeps.trans hcall) fun h => hnot h.1
    · rw [hruns]
      exact .same ((hkeeps.trans hcall).trans
        ((code.keeps entry t).trans (stackReturn_keeps _ _))) rfl

theorem library_moves (h : KeepsMemory bdos) (hreset : ResetsDma bdos) {code : Code δ}
    {x : Answer δ} (hrun : request bdos fuel hl s.toMachine = some x) :
    Moves s (reply s hl code x) := by
  have hstatus : KeepsControl s.mem (poke s.mem status 0) := keeps_poke (by decide)
  rcases control_requested hrun with ⟨hasks, hload⟩ | ⟨hasks, rfl⟩ | ⟨hasks, rfl⟩ | ⟨hasks, rfl⟩ |
    ⟨rfl, hasks⟩
  · rcases load_moves h hreset hload with
      ⟨rfl, -⟩ | ⟨rfl, -⟩ | ⟨hl', t, rfl, hleft, hgen, hep, hout⟩
    · exact reply_same (hstatus.trans keeps_finished) fun h => absurd h.2 (by decide)
    · exact reply_same (hstatus.trans keeps_finished) fun h => absurd h.2 (by decide)
    · rw [show peek16 _ generation = _ from hstatus.generation] at hleft hgen
      rw [show peek16 _ epoch = _ from hstatus.epoch] at hep
      rcases hout with ⟨rfl, hready, hgiven⟩ | ⟨hne, hready⟩
      · refine .loaded hleft hgen hep ?_
        rw [reply_done, if_pos ⟨asks_status.mp hasks, rfl⟩, hgiven]
      · rw [reply_done, if_neg fun h => hne h.2]
        exact .cleared hready hep (Or.inr ⟨hleft, hgen⟩) rfl
  · obtain ⟨hready, hep, hgen⟩ := invalidate_moves (m := poke s.mem status 0)
    rw [hstatus.epoch] at hep
    rw [hstatus.generation] at hgen
    have hend := fun u : Mem => keeps_finished (m := u) (a := 0)
    rw [finish, reply_done, if_neg fun h => asks_other (asks_status.mp hasks) (by decide) h.1]
    refine .cleared ?_ ?_ ?_ rfl
    · rw [(hend _).ready]
      exact hready
    · rw [(hend _).epoch]
      exact hep
    · rw [(hend _).generation]
      exact hgen.imp_left And.right
  · exact reply_same ((hstatus.trans keeps_describeLibrary).trans keeps_finished)
      fun h => asks_other (asks_status.mp hasks) (by decide) h.1
  · exact invoke_moves hstatus (asks_other (asks_status.mp hasks) (by decide))
  · exact reply_same (hstatus.trans keeps_finished) fun h => absurd h.2 (by decide)

/-- One event. -/
theorem step_moves (h : KeepsMemory bdos) (hreset : ResetsDma bdos) (s : System δ) (e : Event δ) :
    Moves s (step bdos s e) := by
  cases e with
  | put a v =>
    unfold step
    dsimp only
    split
    · refine .same (keeps_poke fun hc => ?_) rfl
      have hrange := hc.range
      unfold Writable at *
      omega
    · exact .same KeepsControl.refl rfl
  | heap e hl fuel =>
    unfold step
    dsimp only
    split
    · exact .same KeepsControl.refl rfl
    · cases hrun : heapCall fuel e hl (poke s.mem status 0) with
      | none => exact .same KeepsControl.refl rfl
      | some p => exact heap_moves ‹_› p hrun
  | library hl fuel code =>
    unfold step
    dsimp only
    cases hrun : request bdos fuel hl s.toMachine with
    | none => exact .same KeepsControl.refl rfl
    | some x => exact library_moves h hreset hrun

/-! ## Invariants -/

/-- The library is ready only with the generation that has been given. -/
def Held (s : System δ) : Prop :=
  peek s.mem ready ≠ 0 → s.given = some (peek16 s.mem generation)

/-- The counters have not gone back. -/
def Advanced (s t : System δ) : Prop :=
  (peek16 s.mem generation).toNat ≤ (peek16 t.mem generation).toNat ∧
    (peek16 s.mem epoch).toNat ≤ (peek16 t.mem epoch).toNat

theorem Moves.held (h : Moves s t) (hs : Held s) : Held t := by
  intro hready
  cases h with
  | same keeps given =>
    rw [given, keeps.generation]
    exact hs (keeps.ready ▸ hready)
  | renewed ready generation left epoch given =>
    rw [given, generation]
    exact hs (ready ▸ hready)
  | cleared ready epoch generation given => exact absurd ready hready
  | loaded left generation epoch given => exact given

theorem toNat_next {w w' : Word} (h : w ≠ 0xFFFF) (h' : w' = w + 1) : w.toNat ≤ w'.toNat := by
  bv_omega

theorem Moves.advanced (h : Moves s t) : Advanced s t := by
  cases h with
  | same keeps given =>
    unfold Advanced
    rw [keeps.generation, keeps.epoch]
    exact ⟨Nat.le_refl _, Nat.le_refl _⟩
  | renewed ready generation left epoch given =>
    exact ⟨Nat.le_of_eq (by rw [generation]), toNat_next left epoch⟩
  | cleared ready epoch generation given =>
    refine ⟨?_, Nat.le_of_eq (by rw [epoch])⟩
    rcases generation with generation | ⟨left, generation⟩
    · rw [generation]
    · exact toNat_next left generation
  | loaded left generation epoch given =>
    exact ⟨toNat_next left generation, Nat.le_of_eq (by rw [epoch])⟩

theorem held_run (h : KeepsMemory bdos) (hreset : ResetsDma bdos) (hs : Held s)
    (es : List (Event δ)) : Held (run (step bdos) s es) :=
  run_invariant (fun s e hs => (step_moves h hreset s e).held hs) hs es

theorem advanced_run (h : KeepsMemory bdos) (hreset : ResetsDma bdos) (s : System δ)
    (es : List (Event δ)) : Advanced s (run (step bdos) s es) := by
  refine run_invariant (I := Advanced s) (fun t e ht => ?_) ⟨Nat.le_refl _, Nat.le_refl _⟩ es
  have hstep := (step_moves h hreset t e).advanced
  exact ⟨Nat.le_trans ht.1 hstep.1, Nat.le_trans ht.2 hstep.2⟩

end

/-! ## One application -/

/-- The state that an application starts in. -/
def started (s : Machine δ) : System δ :=
  { toMachine := { s with mem := (applicationStart s.mem).2 }, given := none }

/-- What holds of a request with HL in `u`, after which the counters were those of `t`. -/
structure Guarded (bdos : Bdos δ) (t u : System δ) (hl : Word) (fuel : Nat) : Prop where
  /-- Code only runs for an INVOKE with the handle of the last successful LOAD. -/
  current : ∀ entry v, request bdos fuel hl u.toMachine = some (.runs entry v) →
    Asks u.mem hl 3 ∧ Accepted u.mem ∧ u.given = some (peek16 u.mem requestGeneration)
  /-- An INVOKE that runs no code returns an error. -/
  refused : Asks u.mem hl 3 → (∃ entry v, request bdos fuel hl u.toMachine = some (.runs entry v)) ∨
    ∃ hl' v, request bdos fuel hl u.toMachine = some (.done hl' v) ∧ hl' ≠ 0
  /-- A handle from before a counter has moved is not accepted. -/
  superseded : ∀ entry v, request bdos fuel hl u.toMachine = some (.runs entry v) →
    (peek16 t.mem generation).toNat ≤ (peek16 u.mem requestGeneration).toNat ∧
      (peek16 t.mem epoch).toNat ≤ (peek16 u.mem requestEpoch).toNat
  /-- A LOAD with the last generation writes no more than a status. -/
  exhausted : Asks u.mem hl 0 → peek16 u.mem generation = 0xFFFF →
    request bdos fuel hl u.toMachine =
      some (finish (if hi (poolSize u.mem (peek16 u.mem requestFrame)) = 0 then 3 else 10)
        { u.toMachine with mem := poke u.mem status 0 })
  /-- Nor does a reset of the pool with the last epoch. -/
  reset : peek16 u.mem epoch = 0xFFFF →
    heapCall fuel 4 hl (poke u.mem status 0) = some (error 10 (poke u.mem status 0))

section
variable {bdos : Bdos δ} {s t : System δ} {m : Mem} {hl : Word} {fuel : Nat}

theorem applicationStart_ready : peek (applicationStart m).2 ready = 0 := by
  have hreset : ∀ u : Mem, peek (Allocator.reset u).2 ready = peek u ready := by
    intro u
    rcases reset_moves (m := u) with ⟨hkeeps, -⟩ | ⟨-, -, hready, -⟩
    · exact hkeeps.ready
    · exact hready
  have hcontext : ∀ u : Mem, peek (resetLibraryContext u) ready = peek u ready :=
    fun u => keeps_resetLibraryContext.ready
  have hcleared : peek (poke (poke16 (poke (poke m ready 0) exportCount 0) 0xE4D6 0) 0xDFA0 0)
      ready = 0 := by
    rw [peek_poke_ne (by decide), peek_poke16_outside (by decide), peek_poke_ne (by decide),
      peek_poke]
  have hfilled : ∀ u : Mem, peek (ldir u 0xDFA0 0xDFA1 7) ready = peek u ready :=
    fun u => ldir_outside (by omega) (by decide)
  unfold applicationStart
  exact (hreset _).trans ((peek_poke_ne (by decide)).trans ((hcontext _).trans
    ((hfilled _).trans hcleared)))

theorem held_started (s : Machine δ) : Held (started s) := by
  unfold Held started
  dsimp only
  exact fun hready => absurd applicationStart_ready hready

theorem table_ne_status (l : Byte) : word 0xE7 l ≠ status := by
  intro he
  have hhi := congrArg hi he
  rw [hi_word] at hhi
  exact absurd hhi (by decide)

theorem livePool_of_status {h : Word} {n : Byte} (hlive : LivePool (poke m status 0) h n) :
    LivePool m h n := by
  obtain ⟨hlo, hlow, hhigh, hlength, hnext⟩ := hlive
  refine ⟨hlo, hlow, hhigh, ?_, ?_⟩
  · rw [← hlength]
    exact (peek_poke_ne (table_ne_status _)).symm
  · rw [← hnext]
    exact (peek_poke_ne (table_ne_status _)).symm

theorem accepted_of_status (h : Accepted (poke m status 0)) : Accepted m := by
  have hword {a : Word} (h0 : a ≠ status) (h1 : a + 1 ≠ status) :
      peek16 (poke m status 0) a = peek16 m a := peek16_poke_ne h0 h1
  have hframe := h.frame
  have hsize := h.size
  have hpointer : peek16 (poke m status 0) requestFrame = peek16 m requestFrame :=
    hword (by decide) (by decide)
  rw [hpointer] at hframe hsize
  obtain ⟨n, hn, hlive⟩ := hframe
  have hlo := hlive.1
  rw [hword] at hsize
  · constructor
    · have hready := h.ready
      rwa [peek_poke_ne (by decide)] at hready
    · have hgeneration := h.generation
      rwa [hword (by decide) (by decide), hword (by decide) (by decide)] at hgeneration
    · have hepoch := h.epoch
      rwa [hword (by decide) (by decide), hword (by decide) (by decide)] at hepoch
    · exact ⟨n, hn, livePool_of_status hlive⟩
    · exact hsize
    · have hindex := h.index
      rwa [hword (by decide) (by decide), peek_poke_ne (by decide)] at hindex
  · intro he
    rw [he] at hlo
    exact absurd hlo (by decide)
  · intro he
    have hframe : peek16 m requestFrame = 0xDFA1 := by
      unfold status at he
      bv_omega
    rw [hframe] at hlo
    exact absurd hlo (by decide)

/-- An INVOKE that runs code was accepted in the memory of the caller. -/
theorem request_runs {entry : Word} {v : Machine δ}
    (h : request bdos fuel hl s.toMachine = some (.runs entry v)) :
    Asks s.mem hl 3 ∧ Accepted s.mem := by
  rcases control_requested h with ⟨-, hload⟩ | ⟨-, hrun⟩ | ⟨-, hrun⟩ | ⟨hasks, hrun⟩ | ⟨hrun, -⟩
  · unfold load at hload
    dsimp only at hload
    split at hload
    · cases hload
    split at hload
    · cases hload
    · unfold loadLibrary at hload
      obtain ⟨p, -, hx⟩ := Option.map_eq_some_iff.mp hload
      dsimp only at hx
      split at hx
      · cases hx
      split at hx
      · cases hx
      · cases hx
  · cases hrun
  · cases hrun
  · refine ⟨asks_status.mp hasks, ?_⟩
    rcases invoke_cases { s.toMachine with mem := poke s.mem status 0 } with
      ⟨a, -, hinvoke⟩ | ⟨haccepted, -⟩
    · rw [hinvoke] at hrun
      cases hrun
    · exact accepted_of_status haccepted
  · cases hrun

theorem request_refused (hasks : Asks s.mem hl 3) :
    (∃ entry v, request bdos fuel hl s.toMachine = some (.runs entry v)) ∨
      ∃ hl' v, request bdos fuel hl s.toMachine = some (.done hl' v) ∧ hl' ≠ 0 := by
  obtain ⟨rfl, hsize, hversion, hflags, haction⟩ := asks_status.mpr hasks
  have hinvoke : request bdos fuel 0xDF20 s.toMachine =
      some (invoke { s.toMachine with mem := poke s.mem status 0 }) := by
    unfold request libraryControl
    dsimp only
    rw [if_neg (not_not.mpr rfl), if_neg (not_not.mpr hsize), if_neg (not_not.mpr hversion),
      if_neg (not_not.mpr hflags), haction, if_neg (by decide), if_neg (by decide),
      if_neg (by decide), if_pos rfl]
  rw [hinvoke]
  rcases invoke_cases { s.toMachine with mem := poke s.mem status 0 } with
    ⟨a, ha, hfinish⟩ | ⟨-, ix, hcall⟩
  · rw [hfinish]
    refine Or.inr ⟨_, _, rfl, ?_⟩
    rcases ha with rfl | rfl | rfl
    · decide
    · decide
    · decide
  · rw [hcall]
    obtain ⟨v, -, ⟨hl', hne, hdone⟩ | ⟨entry, hruns⟩⟩ := call_cases ix
      { s.toMachine with mem := poke s.mem status 0 }
    · rw [hdone]
      exact Or.inr ⟨hl', v, rfl, hne⟩
    · rw [hruns]
      exact Or.inl ⟨entry, v, rfl⟩

theorem poolSize_status : poolSize (poke m status 0) (peek16 (poke m status 0) requestFrame) =
    poolSize m (peek16 m requestFrame) := by
  have hpointer : peek16 (poke m status 0) requestFrame = peek16 m requestFrame :=
    peek16_poke_ne (by decide) (by decide)
  unfold poolSize
  dsimp only
  rw [hpointer, peek_poke_ne (table_ne_status _), peek_poke_ne (table_ne_status _)]

theorem request_exhausted (hasks : Asks s.mem hl 0) (hfull : peek16 s.mem generation = 0xFFFF) :
    request bdos fuel hl s.toMachine =
      some (finish (if hi (poolSize s.mem (peek16 s.mem requestFrame)) = 0 then 3 else 10)
        { s.toMachine with mem := poke s.mem status 0 }) := by
  obtain ⟨rfl, hsize, hversion, hflags, haction⟩ := asks_status.mpr hasks
  have hload : request bdos fuel 0xDF20 s.toMachine =
      load bdos fuel { s.toMachine with mem := poke s.mem status 0 } := by
    unfold request libraryControl
    dsimp only
    rw [if_neg (not_not.mpr rfl), if_neg (not_not.mpr hsize), if_neg (not_not.mpr hversion),
      if_neg (not_not.mpr hflags), haction, if_pos rfl]
  have hgeneration : peek16 (poke s.mem status 0) generation = 0xFFFF :=
    (peek16_poke_ne (by decide) (by decide)).trans hfull
  rw [hload]
  unfold load
  dsimp only
  rw [poolSize_status]
  by_cases hpool : hi (poolSize s.mem (peek16 s.mem requestFrame)) = 0
  · rw [if_pos hpool, if_pos hpool]
  · rw [if_neg hpool, if_neg hpool]
    rcases advanceGeneration_moves (m := poke s.mem status 0) with ⟨hadvance, -⟩ | ⟨m', -, hnot, -⟩
    · rw [hadvance, if_pos rfl]
    · exact absurd hgeneration hnot

theorem reset_exhausted (hfull : peek16 s.mem epoch = 0xFFFF) :
    heapCall fuel 4 hl (poke s.mem status 0) = some (error 10 (poke s.mem status 0)) := by
  have hstatus : peek16 (poke s.mem status 0) epoch = 0xFFFF :=
    (peek16_poke_ne (by decide) (by decide)).trans hfull
  show some (reset (poke s.mem status 0)) = _
  unfold reset
  dsimp only
  rw [hstatus, if_pos (by decide)]

/-- **A stale handle** of the library is never invoked. -/
theorem stale_never_invoked (h : KeepsMemory bdos) (hreset : ResetsDma bdos) (s : Machine δ)
    (es es' : List (Event δ)) (hl : Word) (fuel : Nat) :
    Guarded bdos (run (step bdos) (started s) es) (run (step bdos) (started s) (es ++ es')) hl
      fuel := by
  rw [run_append]
  have hadvanced := advanced_run h hreset (run (step bdos) (started s) es) es'
  have hheld := held_run h hreset (held_run h hreset (held_started s) es) es'
  generalize run (step bdos) (run (step bdos) (started s) es) es' = u at hadvanced hheld ⊢
  constructor
  · intro entry v hrun
    obtain ⟨hasks, haccepted⟩ := request_runs hrun
    refine ⟨hasks, haccepted, ?_⟩
    rw [hheld haccepted.ready, haccepted.generation]
  · exact request_refused
  · intro entry v hrun
    obtain ⟨-, haccepted⟩ := request_runs hrun
    rw [haccepted.generation, haccepted.epoch]
    exact hadvanced
  · exact request_exhausted
  · exact reset_exhausted

end

/-! ## An exhausted generation -/

/-- The fields of a request that a description does not write. -/
def HeaderByte (a : Word) : Prop :=
  0xDF20 ≤ a.toNat ∧ a.toNat < 0xDF26 ∨ 0xDF2A ≤ a.toNat ∧ a.toNat < 0xDF30

instance (a : Word) : Decidable (HeaderByte a) := inferInstanceAs (Decidable (_ ∨ _))

section
variable {m : Mem} {a : Word} {n : Nat}

theorem header_poke {b : Word} {v : Byte} (ha : HeaderByte a) (hb : ¬HeaderByte b) :
    peek (poke m b v) a = peek m a := peek_poke_ne fun he => hb (he ▸ ha)

theorem header_poke16 {b w : Word} (ha : HeaderByte a) (hb : ¬HeaderByte b)
    (hb' : ¬HeaderByte (b + 1)) : peek (poke16 m b w) a = peek m a := by
  refine peek_poke16_outside fun hw => ?_
  have hcases : a = b ∨ a = b + 1 := by
    unfold Within at hw
    bv_omega
  rcases hcases with rfl | rfl
  · exact hb ha
  · exact hb' ha

theorem asks_header {m' : Mem} {hl : Word} {action : Byte}
    (h : ∀ a, HeaderByte a → peek m' a = peek m a) : Asks m' hl action ↔ Asks m hl action := by
  unfold Asks
  rw [peek16_congr (h 0xDF20 (by decide)) (h _ (by decide)),
    peek16_congr (h 0xDF22 (by decide)) (h _ (by decide)), h 0xDF25 (by decide),
    h requestAction (by decide)]

theorem header_describe (ha : HeaderByte a) : peek (describeLibrary m) a = peek m a := by
  unfold describeLibrary
  dsimp only
  rw [header_poke16 ha (by decide) (by decide), header_poke16 ha (by decide) (by decide),
    header_poke16 ha (by decide) (by decide), header_poke16 ha (by decide) (by decide),
    header_poke16 ha (by decide) (by decide), header_poke ha (by decide),
    header_poke ha (by decide), header_poke ha (by decide),
    header_poke16 ha (by decide) (by decide), header_poke ha (by decide),
    header_poke ha (by decide), header_poke ha (by decide)]

theorem header_invalidate (ha : HeaderByte a) :
    peek (finished 0 (invalidate (poke m status 0))) a = peek m a := by
  have hcontext : ∀ u : Mem, peek (resetLibraryContext u) a = peek u a := by
    intro u
    unfold resetLibraryContext
    rw [header_poke ha (by decide), ldir_outside (by omega), header_poke ha (by decide)]
    intro hw
    unfold HeaderByte at ha
    unfold Within at hw
    bv_omega
  have hadvance : ∀ u : Mem, peek (advanceGeneration u).2 a = peek u a := by
    intro u
    unfold advanceGeneration
    dsimp only
    split
    · rfl
    · exact header_poke16 ha (by decide) (by decide)
  unfold finished invalidate
  dsimp only
  rw [header_poke ha (by decide), header_poke ha (by decide), header_poke ha (by decide),
    header_describe ha, hcontext, hadvance, header_poke ha (by decide), header_poke ha (by decide),
    header_poke ha (by decide)]

end

/-- A BDOS that only resets its DMA address. -/
def plain : Bdos Unit := fun c _ s =>
  ({ a := 0, b := 0, hl := 0 }, if c = 13 then s.useDma 0x80 else s)

theorem plain_keeps : KeepsMemory plain where
  bank0 c de s := by
    unfold plain
    dsimp only
    split
    · exact bank0_poke16 (m := s.mem) (a := dmaPointer) (w := 0x80)
    · rfl
  bank1 c de s a ha _ _ := by
    unfold plain
    dsimp only
    split
    · refine peek_poke16_outside fun hw => ha ?_
      unfold Within dmaPointer at hw
      unfold SystemByte
      bv_omega
    · rfl
  dma c de s hc := by
    unfold plain
    dsimp only
    split
    · rename_i h13
      rw [h13] at hc
      exact absurd hc (by decide)
    · rfl

theorem plain_resetsDma : ResetsDma plain := fun _ _ => peek16_poke16

def idle : Code Unit := ⟨fun _ s => (1, s), fun _ _ => KeepsControl.refl⟩

/-- A request to invalidate is at DF20h, with no frame. -/
def bare : Machine Unit where
  mem := fun _ a => if a = 0xDF20 then 32 else if a = 0xDF22 ∨ a = 0xDF24 then 1 else 0
  biosDma := 0x80
  disk := ()

/-- A LOAD, and after it an INVOKE and another one behind an INVALIDATE. -/
theorem stale_never_invoked_bare :
    let load : List (Event Unit) := [.heap 0 300 9, .put requestAction 0, .library 0xDF20 9 idle]
    let invoke : List (Event Unit) := [.put requestAction 3, .library 0xDF20 9 idle]
    let invalidate : List (Event Unit) := [.put requestAction 1, .library 0xDF20 9 idle]
    Guarded plain (run (step plain) (started bare) load)
      (run (step plain) (started bare) (load ++ (invoke ++ invalidate ++ invoke))) 0xDF20 9 :=
  stale_never_invoked plain_keeps plain_resetsDma bare _ _ _ _

theorem invalidate_step {s : System Unit} (hasks : Asks s.mem 0xDF20 1) :
    (step plain s (.library 0xDF20 1 idle)).mem =
      finished 0 (invalidate (poke s.mem status 0)) := by
  obtain ⟨-, hsize, hversion, hflags, haction⟩ := asks_status.mpr hasks
  have hrequest : request plain 1 0xDF20 s.toMachine =
      some (finish 0 { s.toMachine with mem := invalidate (poke s.mem status 0) }) := by
    unfold request libraryControl
    dsimp only
    rw [if_neg (not_not.mpr rfl), if_neg (not_not.mpr hsize), if_neg (not_not.mpr hversion),
      if_neg (not_not.mpr hflags), haction, if_neg (by decide), if_pos rfl]
  unfold step
  dsimp only
  rw [hrequest]
  rfl

/-- Each INVALIDATE advances the generation. -/
theorem invalidated {s : System Unit} (n : Nat) (hasks : Asks s.mem 0xDF20 1)
    (hn : (peek16 s.mem generation).toNat + n ≤ 0xFFFF) :
    (peek16 (run (step plain) s (List.replicate n (.library 0xDF20 1 idle))).mem
        generation).toNat = (peek16 s.mem generation).toNat + n ∧
      ∀ a, HeaderByte a →
        peek (run (step plain) s (List.replicate n (.library 0xDF20 1 idle))).mem a =
          peek s.mem a := by
  induction n generalizing s with
  | zero => exact ⟨rfl, fun _ _ => rfl⟩
  | succ n ih =>
    rw [List.replicate_succ, run_cons]
    have hmem := invalidate_step hasks
    generalize step plain s (.library 0xDF20 1 idle) = t at hmem ⊢
    have hheader : ∀ a, HeaderByte a → peek t.mem a = peek s.mem a := by
      intro a ha
      rw [hmem, header_invalidate ha]
    have hgeneration : (peek16 t.mem generation).toNat = (peek16 s.mem generation).toNat + 1 := by
      have hstatus : peek16 (poke s.mem status 0) generation = peek16 s.mem generation :=
        peek16_poke_ne (by decide) (by decide)
      rw [hmem, keeps_finished.generation]
      obtain ⟨-, -, ⟨hfull, -⟩ | ⟨-, hnext⟩⟩ := invalidate_moves (m := poke s.mem status 0)
      · rw [← hstatus, hfull] at hn
        have hlast : (0xFFFF : Word).toNat = 65535 := rfl
        omega
      · rw [hnext, hstatus]
        bv_omega
    obtain ⟨hrun, hkept⟩ := ih ((asks_header hheader).mpr hasks) (by omega)
    exact ⟨by omega, fun a ha => (hkept a ha).trans (hheader a ha)⟩

/-- A run to the last generation, and a LOAD that has no frame. -/
theorem exhausted_load {s : System Unit} (n : Nat) (hasks : Asks s.mem 0xDF20 1)
    (hn : (peek16 s.mem generation).toNat + n = 0xFFFF) (hframe : peek16 s.mem requestFrame = 0)
    {u : System Unit} (hu : u = run (step plain) s
      (List.replicate n (.library 0xDF20 1 idle) ++ [.put 0xDF24 0])) :
    peek16 u.mem generation = 0xFFFF ∧ Asks u.mem 0xDF20 0 ∧
      ∃ v, request plain 1 0xDF20 u.toMachine = some (.done 3 v) := by
  obtain ⟨hgeneration, hheader⟩ := invalidated n hasks (Nat.le_of_eq hn)
  rw [run_append, run_cons, run_nil] at hu
  generalize run (step plain) s (List.replicate n (.library 0xDF20 1 idle)) = t
    at hgeneration hheader hu
  have hput : u = { t with mem := poke t.mem 0xDF24 0 } := by
    rw [hu]
    unfold step
    exact if_pos (by decide)
  have hmem : u.mem = poke t.mem 0xDF24 0 := by rw [hput]
  have hlast : peek16 u.mem generation = 0xFFFF := by
    rw [hmem, peek16_poke_ne (by decide) (by decide)]
    exact BitVec.eq_of_toNat_eq (hgeneration.trans hn)
  have hload : Asks u.mem 0xDF20 0 := by
    obtain ⟨hhl, hsize, hversion, hflags, -⟩ := (asks_header hheader).mpr hasks
    rw [hmem]
    exact ⟨hhl, (peek16_poke_ne (by decide) (by decide)).trans hsize,
      (peek16_poke_ne (by decide) (by decide)).trans hversion,
      (peek_poke_ne (by decide)).trans hflags, peek_poke⟩
  have hpool : hi (poolSize u.mem (peek16 u.mem requestFrame)) = 0 := by
    have hpointer : peek16 u.mem requestFrame = 0 := by
      rw [hmem, peek16_poke_ne (by decide) (by decide),
        peek16_congr (hheader requestFrame (by decide)) (hheader _ (by decide))]
      exact hframe
    unfold poolSize
    rw [hpointer, if_neg (by decide), if_pos (by decide)]
    rfl
  refine ⟨hlast, hload, ?_⟩
  rw [request_exhausted hload hlast, if_pos hpool]
  exact ⟨_, rfl⟩

theorem started_bare : Asks (started bare).mem 0xDF20 1 ∧
    peek16 (started bare).mem generation = 0 ∧ peek16 (started bare).mem requestFrame = 0 := by
  decide +kernel

/-- The LOAD reports its handle, and not that the generation is exhausted. -/
theorem load_reports_handle : ∃ u : System Unit,
    u = run (step plain) (started bare)
      (List.replicate 65535 (.library 0xDF20 1 idle) ++ [.put 0xDF24 0]) ∧
      peek16 u.mem generation = 0xFFFF ∧ Asks u.mem 0xDF20 0 ∧
        ∃ v, request plain 1 0xDF20 u.toMachine = some (.done 3 v) := by
  obtain ⟨hasks, hzero, hframe⟩ := started_bare
  exact ⟨_, rfl, exhausted_load 65535 hasks (by rw [hzero]; rfl) hframe rfl⟩

end Z80Sbc.Bank.LibraryHandle
