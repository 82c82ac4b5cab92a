import Z80Sbc.Setup.Shell

/-! # The setup shell never reveals a secret

Two runs that differ in the contents of secret fields alone print the same bytes. The invariant
relates the texts of both: those of a public field are equal, those of a secret one have the same
length and validity and stand in the same relation to the store. -/

namespace Z80Sbc.Setup.Secrecy
open Z80Sbc.Setup
open Z80Sbc.Env (ascii)
open Z80Sbc.Weather (Floats)

variable {floats : Floats}

/-! ## Texts that cannot be told apart -/

/-- Of a secret, the length and the validity are seen. -/
structure TextsAlike (floats : Floats) (field : Field) (a b : Text) : Prop where
  length : a.bytes.length = b.bytes.length
  valid : validValue floats field a.bytes = validValue floats field b.bytes
  same : field.secret = false → a = b

structure StoredAlike (floats : Floats) (field : Field) (a b : Option Text) : Prop where
  found : a.isSome = b.isSome
  texts : TextsAlike floats field (stored a) (stored b)

theorem TextsAlike.refl (field : Field) (a : Text) : TextsAlike floats field a a :=
  ⟨rfl, rfl, fun _ => rfl⟩

theorem TextsAlike.nil {field : Field} {a b : Text} (h : TextsAlike floats field a b) :
    a.bytes = [] ↔ b.bytes = [] := by
  rw [← List.length_eq_zero_iff, ← List.length_eq_zero_iff, h.length]

theorem TextsAlike.shown {field : Field} {a b : Text} (h : TextsAlike floats field a b)
    (unset hidden : List UInt8) : shown field a unset hidden = shown field b unset hidden := by
  unfold Setup.shown
  by_cases hnil : a.bytes = []
  · rw [if_pos hnil, if_pos (h.nil.mp hnil)]
  · rw [if_neg hnil, if_neg fun hb => hnil (h.nil.mpr hb)]
    cases hsecret : field.secret with
    | true => rfl
    | false => rw [h.same hsecret]

theorem StoredAlike.same {field : Field} {a b : Option Text} (h : StoredAlike floats field a b)
    (hpublic : field.secret = false) : a = b := by
  have htexts := h.texts.same hpublic
  have hfound := h.found
  cases a with
  | none =>
    cases b with
    | none => rfl
    | some b => cases hfound
  | some a =>
    cases b with
    | none => cases hfound
    | some b => exact congrArg some htexts

theorem StoredAlike.unchanged_empty {field : Field} {a b : Option Text}
    (h : StoredAlike floats field a b) : unchanged .empty a = unchanged .empty b := by
  have hnil := h.texts.nil
  have hfound := h.found
  cases a with
  | none =>
    cases b with
    | none => rfl
    | some b => cases hfound
  | some a =>
    cases b with
    | none => cases hfound
    | some b => exact decide_eq_decide.mpr hnil

theorem unchanged_stored (o : Option Text) : unchanged (stored o) o = true := by
  cases o with
  | none => rfl
  | some t => exact decide_eq_true (rfl : t.bytes = t.bytes)

/-! ## The invariant -/

/-- The texts of two runs over their common control. -/
structure Alike (floats : Floats) (c : Control) (t₁ t₂ : Texts) : Prop where
  values : ∀ field, TextsAlike floats field (t₁.values field) (t₂.values field)
  editing : ∀ i, TextsAlike floats (c.editFields i) (t₁.editing i) (t₂.editing i)
  env : ∀ field, StoredAlike floats field (t₁.env field) (t₂.env field)
  distinct : ∀ i j, i < c.editCount → j < c.editCount → c.editFields i = c.editFields j → i = j

/-- Values and edits that are what is stored are so in both runs. -/
structure Kept (c : Control) (t₁ t₂ : Texts) : Prop where
  values : ∀ field, unchanged (t₁.values field) (t₁.env field) =
    unchanged (t₂.values field) (t₂.env field)
  editing : ∀ i, unchanged (t₁.editing i) (t₁.env (c.editFields i)) =
    unchanged (t₂.editing i) (t₂.env (c.editFields i))

/-- The line, as far as it is printed. -/
structure LineAlike (field : Field) (a b : Text) : Prop where
  length : a.bytes.length = b.bytes.length
  same : field.secret = false → a = b

structure Matched (floats : Floats) (c : Control) (t₁ t₂ : Texts) : Prop
    extends Alike floats c t₁ t₂ where
  kept : Kept c t₁ t₂

structure Related (floats : Floats) (c : Control) (t₁ t₂ : Texts) : Prop
    extends Matched floats c t₁ t₂ where
  line : c.step = .editing → LineAlike c.field t₁.line t₂.line

/-- Two results that print the same and go on alike. -/
structure Agree (floats : Floats) (a b : Shell × Printed) : Prop where
  printed : a.2 = b.2
  control : a.1.toControl = b.1.toControl
  related : Related floats a.1.toControl a.1.toTexts b.1.toTexts

theorem Agree.ite {p : Prop} [Decidable p] {a b a' b' : Shell × Printed}
    (ha : p → Agree floats a a') (hb : ¬p → Agree floats b b') :
    Agree floats (if p then a else b) (if p then a' else b') := by
  by_cases h : p
  · rw [if_pos h, if_pos h]
    exact ha h
  · rw [if_neg h, if_neg h]
    exact hb h

theorem Agree.before {a b : Shell × Printed} (h : Agree floats a b) (out : Printed) :
    Agree floats (a.1, out ++ a.2) (b.1, out ++ b.2) :=
  ⟨congrArg (out ++ ·) h.printed, h.control, h.related⟩

/-- A pair of states over one control. -/
theorem Agree.split {a b : Shell × Printed} (h : Agree floats a b) :
    ∃ c t₁ t₂ out, a = (⟨c, t₁⟩, out) ∧ b = (⟨c, t₂⟩, out) ∧ Related floats c t₁ t₂ := by
  obtain ⟨⟨c, t₁⟩, out⟩ := a
  obtain ⟨⟨c', t₂⟩, out'⟩ := b
  obtain ⟨hprinted, hcontrol, hrelated⟩ := h
  dsimp only at hprinted hcontrol hrelated
  subst hprinted
  subst hcontrol
  exact ⟨_, _, _, _, rfl, rfl, hrelated⟩

section
variable {c c' : Control} {t₁ t₂ : Texts}

theorem Matched.control (h : Matched floats c t₁ t₂) (hfields : c'.editFields = c.editFields)
    (hcount : c'.editCount = c.editCount) : Matched floats c' t₁ t₂ := by
  refine ⟨⟨h.values, ?_, h.env, ?_⟩, h.kept.values, ?_⟩
  · rw [hfields]
    exact h.editing
  · rw [hfields, hcount]
    exact h.distinct
  · rw [hfields]
    exact h.kept.editing

/-- A change of the control that stays in the field or leaves the editing. -/
theorem Related.control (h : Related floats c t₁ t₂) (hfields : c'.editFields = c.editFields)
    (hcount : c'.editCount = c.editCount)
    (hstep : c'.step = .editing → c.step = .editing ∧ c'.editPosition = c.editPosition) :
    Related floats c' t₁ t₂ := by
  refine ⟨h.toMatched.control hfields hcount, fun hediting => ?_⟩
  obtain ⟨hbefore, hposition⟩ := hstep hediting
  have hfield : c'.field = c.field := by
    unfold Control.field
    rw [hfields, hposition]
  rw [hfield]
  exact h.line hbefore

/-- Printed bytes that do not depend on the texts. -/
theorem Related.agree (h : Related floats c t₁ t₂) (out : Printed) :
    Agree floats (⟨c, t₁⟩, out) (⟨c, t₂⟩, out) := ⟨rfl, rfl, h⟩

/-! ## Clearing -/

theorem Alike.clear (h : Alike floats c t₁ t₂) (hvalues : ∀ field,
    unchanged (t₁.values field) (t₁.env field) = unchanged (t₂.values field) (t₂.env field)) :
    Related floats (clearEdit ⟨c, t₁⟩).toControl (clearEdit ⟨c, t₁⟩).toTexts
      (clearEdit ⟨c, t₂⟩).toTexts :=
  ⟨⟨⟨h.values, fun _ => .refl _ _, h.env, h.distinct⟩, hvalues,
    fun i => (h.env (c.editFields i)).unchanged_empty⟩, fun _ => ⟨rfl, fun _ => rfl⟩⟩

theorem Matched.clear (h : Matched floats c t₁ t₂) :
    Related floats (clearEdit ⟨c, t₁⟩).toControl (clearEdit ⟨c, t₁⟩).toTexts
      (clearEdit ⟨c, t₂⟩).toTexts := h.toAlike.clear h.kept.values

theorem Related.forget (h : Related floats c t₁ t₂) :
    Related floats c (forgetValues ⟨c, t₁⟩).toTexts (forgetValues ⟨c, t₂⟩).toTexts :=
  ⟨⟨⟨fun _ => .refl _ _, h.editing, h.env, h.distinct⟩,
    fun field => (h.env field).unchanged_empty, h.kept.editing⟩, h.line⟩

/-! ## Menus and prompts -/

theorem Related.menu (h : Related floats c t₁ t₂) (out : Printed) :
    Agree floats (⟨c, t₁⟩, out ++ printMenu ⟨c, t₁⟩) (⟨c, t₂⟩, out ++ printMenu ⟨c, t₂⟩) :=
  ⟨rfl, rfl, h⟩

theorem Alike.showSettings (h : Alike floats c t₁ t₂) :
    showSettings ⟨c, t₁⟩ = showSettings ⟨c, t₂⟩ := by
  unfold Setup.showSettings
  refine congrArg (ascii "\n" ++ ·) (List.flatMap_congr fun field _ => ?_)
  dsimp only
  rw [(h.values field).shown]

/-- A prompt begins a new line. -/
theorem Matched.prompt (h : Matched floats c t₁ t₂) :
    Agree floats (prompt ⟨c, t₁⟩) (prompt ⟨c, t₂⟩) := by
  refine ⟨?_, rfl, ⟨⟨h.values, h.editing, h.env, h.distinct⟩, h.kept.values, h.kept.editing⟩,
    fun _ => ⟨rfl, fun _ => rfl⟩⟩
  show ascii "\n" ++ c.field.label ++ ascii " [" ++ shown c.field (t₁.values c.field) _ _ ++ _ =
    ascii "\n" ++ c.field.label ++ ascii " [" ++ shown c.field (t₂.values c.field) _ _ ++ _
  rw [(h.values c.field).shown]

/-! ## Requests -/

theorem Related.submit (h : Related floats c t₁ t₂) (request : Request) {state : Step}
    (hstate : state ≠ .editing) :
    Agree floats (submit request state ⟨c, t₁⟩).2 (submit request state ⟨c, t₂⟩).2 := by
  unfold Setup.submit
  dsimp only
  by_cases hbusy : c.requests.isSome = true
  · rw [if_pos hbusy, if_pos hbusy]
    exact h.agree _
  · rw [if_neg hbusy, if_neg hbusy]
    exact ⟨rfl, rfl, h.control rfl rfl fun hediting => absurd hediting hstate⟩

theorem Related.request (h : Related floats c t₁ t₂) :
    Agree floats (networkSetupRequest ⟨c, t₁⟩) (networkSetupRequest ⟨c, t₂⟩) := by
  unfold networkSetupRequest
  refine Agree.ite (fun _ => h.agree _) fun _ => ?_
  have hclear : Related floats { (clearEdit ⟨c, t₁⟩).toControl with
      previousCr := false, autoPrompted := true, settingsLoaded := false, menu := .main }
      (clearEdit ⟨c, t₁⟩).toTexts (clearEdit ⟨c, t₂⟩).toTexts :=
    h.toMatched.clear.control rfl rfl fun hediting => ⟨hediting, rfl⟩
  have hloading : Step.loading ≠ .editing := by decide
  exact (hclear.submit .load hloading).before _

/-- Back to the menu, where no line is shown. -/
theorem Matched.leave (h : Matched floats c t₁ t₂) :
    Related floats { c with step := .menu } t₁ t₂ :=
  ⟨h.control rfl rfl, fun hediting => by cases hediting⟩

theorem Matched.save (h : Matched floats c t₁ t₂) :
    Agree floats (saveEdits ⟨c, t₁⟩) (saveEdits ⟨c, t₂⟩) := by
  unfold saveEdits Setup.submit
  dsimp only
  by_cases hbusy : c.requests.isSome = true
  · rw [if_pos hbusy, if_pos hbusy]
    exact h.clear.toMatched.leave.menu _
  · rw [if_neg hbusy, if_neg hbusy]
    have hsaving : Related floats
        { c with requests := some .save, step := .saving, savePending := true } t₁ t₂ :=
      ⟨h.control rfl rfl, fun hediting => by cases hediting⟩
    exact hsaving.agree _

/-! ## The terminal -/

theorem Related.result (h : Related floats c t₁ t₂) (connected running : Bool) :
    Agree floats (takeResult connected running ⟨c, t₁⟩) (takeResult connected running ⟨c, t₂⟩) := by
  unfold takeResult
  dsimp only
  cases hresults : c.results with
  | none => exact h.agree _
  | some result =>
    dsimp only
    have hclear : Related floats { (clearEdit ⟨{ c with results := none }, t₁⟩).toControl with
        step := .menu, settingsLoaded := decide (result = 0) }
        (clearEdit ⟨{ c with results := none }, t₁⟩).toTexts
        (clearEdit ⟨{ c with results := none }, t₂⟩).toTexts :=
      (h.toMatched.control rfl rfl).clear.control rfl rfl fun hediting => by cases hediting
    exact hclear.agree _

theorem Agree.unprompted {a b : Shell × Printed} (connected : Bool) (h : Agree floats a b) :
    Agree floats (if connected then a.1 else { a.1 with autoPrompted := false }, a.2)
      (if connected then b.1 else { b.1 with autoPrompted := false }, b.2) := by
  obtain ⟨c, t₁, t₂, out, rfl, rfl, hr⟩ := h.split
  cases connected with
  | true => exact hr.agree _
  | false =>
    have hgone : Related floats { c with autoPrompted := false } t₁ t₂ :=
      hr.control rfl rfl fun hediting => ⟨hediting, rfl⟩
    exact hgone.agree _

theorem Related.usb (h : Related floats c t₁ t₂) (connected running : Bool) :
    Agree floats (networkSetupUsbService connected running ⟨c, t₁⟩)
      (networkSetupUsbService connected running ⟨c, t₂⟩) := by
  obtain ⟨c, t₁, t₂, out, h₁, h₂, hr⟩ := (h.result connected running).split
  unfold networkSetupUsbService
  rw [h₁, h₂]
  dsimp only
  refine Agree.ite (fun _ => hr.agree _) fun _ => Agree.ite (fun _ => ?_) fun _ => ?_
  · refine Agree.unprompted connected ?_
    refine Agree.ite (fun _ => ?_) fun _ => hr.agree _
    have hidle : Related floats { c with step := .idle } t₁ t₂ :=
      hr.control rfl rfl fun hediting => by cases hediting
    exact hidle.toMatched.clear.forget.agree _
  · refine Agree.ite (fun _ => ?_) fun _ => hr.agree _
    have hprompted : Related floats { c with autoPrompted := true } t₁ t₂ :=
      hr.control rfl rfl fun hediting => ⟨hediting, rfl⟩
    refine Agree.ite (fun _ => hprompted.request.before _) fun _ =>
      Agree.ite (fun _ => hprompted.agree _) fun _ => hprompted.agree _

/-! ## Editing -/

theorem Matched.begin (h : Matched floats c t₁ t₂) (first : Field) (count position : Nat)
    (hdistinct : ∀ i j, i < count → j < count → first.after i = first.after j → i = j) :
    Agree floats (beginEdit first count position ⟨c, t₁⟩)
      (beginEdit first count position ⟨c, t₂⟩) := by
  have hstart : Matched floats { (clearEdit ⟨c, t₁⟩).toControl with
      editCount := count, editPosition := position, step := .editing
      editFields := fun i => if i < count then first.after i else c.editFields i }
      { (clearEdit ⟨c, t₁⟩).toTexts with
        editing := fun i => if i < count then t₁.values (first.after i) else .empty }
      { (clearEdit ⟨c, t₂⟩).toTexts with
        editing := fun i => if i < count then t₂.values (first.after i) else .empty } := by
    refine ⟨⟨h.values, fun i => ?_, h.env, fun i j hi hj hsame => ?_⟩, h.kept.values, fun i => ?_⟩
    · dsimp only
      by_cases hi : i < count
      · rw [if_pos hi, if_pos hi, if_pos hi]
        exact h.values _
      · rw [if_neg hi, if_neg hi, if_neg hi]
        exact .refl _ _
    · dsimp only at hi hj hsame
      rw [if_pos hi, if_pos hj] at hsame
      exact hdistinct i j hi hj hsame
    · dsimp only
      by_cases hi : i < count
      · rw [if_pos hi, if_pos hi, if_pos hi]
        exact h.kept.values _
      · rw [if_neg hi, if_neg hi, if_neg hi]
        exact (h.env _).unchanged_empty
  exact hstart.prompt.before _

/-- A text that replaces an edit. -/
theorem Related.set (h : Related floats c t₁ t₂) {i : Nat} {a b : Text}
    (halike : TextsAlike floats (c.editFields i) a b)
    (hkept : unchanged a (t₁.env (c.editFields i)) = unchanged b (t₂.env (c.editFields i))) :
    Related floats c (setEditing i a ⟨c, t₁⟩).toTexts (setEditing i b ⟨c, t₂⟩).toTexts := by
  unfold setEditing
  refine ⟨⟨⟨h.values, fun j => ?_, h.env, h.distinct⟩, h.kept.values, fun j => ?_⟩, h.line⟩
  · dsimp only
    by_cases hj : j = i
    · subst hj
      rw [Function.update_self, Function.update_self]
      exact halike
    · rw [Function.update_of_ne hj, Function.update_of_ne hj]
      exact h.editing j
  · dsimp only
    by_cases hj : j = i
    · subst hj
      rw [Function.update_self, Function.update_self]
      exact hkept
    · rw [Function.update_of_ne hj, Function.update_of_ne hj]
      exact h.kept.editing j

/-- The same text for a public field, or no text. -/
theorem Related.set_public (h : Related floats c t₁ t₂) {i : Nat} (a : Text)
    (hpublic : (c.editFields i).secret = false ∨ a = .empty) :
    Related floats c (setEditing i a ⟨c, t₁⟩).toTexts (setEditing i a ⟨c, t₂⟩).toTexts := by
  refine h.set (.refl _ _) ?_
  rcases hpublic with hpublic | rfl
  · rw [(h.env _).same hpublic]
  · exact (h.env _).unchanged_empty

theorem Related.quit (h : Related floats c t₁ t₂) :
    Agree floats (quit ⟨c, t₁⟩) (quit ⟨c, t₂⟩) := by
  unfold Setup.quit
  refine Agree.ite (fun _ => ?_) fun _ => ?_
  · have hreboot : Related floats { c with step := .reboot, rebootRequested := true } t₁ t₂ :=
      h.control rfl rfl fun hediting => by cases hediting
    exact hreboot.toMatched.clear.forget.agree _
  · have hidle : Related floats { c with step := .idle } t₁ t₂ :=
      h.control rfl rfl fun hediting => by cases hediting
    exact hidle.toMatched.clear.forget.agree _

theorem Related.unset (h : Related floats c t₁ t₂) :
    Related floats c { t₁ with editing := fun _ => .empty }
      { t₂ with editing := fun _ => .empty } :=
  ⟨⟨⟨h.values, fun _ => .refl _ _, h.env, h.distinct⟩, h.kept.values,
    fun i => (h.env (c.editFields i)).unchanged_empty⟩, h.line⟩

theorem distinct_after {first : Field} {count : Nat} (hcount : count ≤ 3)
    (h : ∀ i < 3, ∀ j < 3, i < count → j < count → first.after i = first.after j → i = j) :
    ∀ i j, i < count → j < count → first.after i = first.after j → i = j :=
  fun i j hi hj => h i (by omega) j (by omega) hi hj

theorem Related.clear (h : Related floats c t₁ t₂) :
    Agree floats (clearSettings ⟨c, t₁⟩) (clearSettings ⟨c, t₂⟩) := by
  have hbegin : Agree floats
      (if c.menu = .wifi then beginEdit .ssid 2 0 ⟨c, t₁⟩ else beginEdit .server 1 0 ⟨c, t₁⟩)
      (if c.menu = .wifi then beginEdit .ssid 2 0 ⟨c, t₂⟩ else beginEdit .server 1 0 ⟨c, t₂⟩) :=
    Agree.ite (fun _ => h.toMatched.begin _ _ 0 (distinct_after (by decide) (by decide)))
      fun _ => h.toMatched.begin _ _ 0 (distinct_after (by decide) (by decide))
  obtain ⟨c', t₁', t₂', out, h₁, h₂, hr⟩ := hbegin.split
  unfold clearSettings
  dsimp only
  rw [h₁, h₂]
  exact hr.unset.toMatched.save.before _

theorem Related.provider (h : Related floats c t₁ t₂) (command : UInt8) :
    Agree floats (configureProvider command ⟨c, t₁⟩) (configureProvider command ⟨c, t₂⟩) := by
  unfold configureProvider
  refine Agree.ite (fun _ => ?_) fun _ => ?_
  · have hbegin := h.toMatched.begin .provider 3 2
      (distinct_after (by decide) (by decide))
    exact ⟨hbegin.printed, hbegin.control,
      (hbegin.related.set_public openai (Or.inl rfl)).set_public .empty (Or.inr rfl)⟩
  · have hbegin := h.toMatched.begin .provider 2 1
      (distinct_after (by decide) (by decide))
    exact ⟨hbegin.printed, hbegin.control, hbegin.related.set_public _ (Or.inl rfl)⟩

theorem Related.command (h : Related floats c t₁ t₂) (command : UInt8) :
    Agree floats (menuCommand command ⟨c, t₁⟩) (menuCommand command ⟨c, t₂⟩) := by
  have hmenu (menu : Menu) : Related floats { c with menu } t₁ t₂ :=
    h.control rfl rfl fun hediting => ⟨hediting, rfl⟩
  have hbegin {first : Field} {count : Nat} (hcount : count ≤ 3)
      (hfirst : ∀ i < 3, ∀ j < 3, i < count → j < count → first.after i = first.after j → i = j) :
      Agree floats (beginEdit first count 0 ⟨c, t₁⟩) (beginEdit first count 0 ⟨c, t₂⟩) :=
    h.toMatched.begin _ _ 0 (distinct_after hcount hfirst)
  unfold menuCommand
  refine Agree.ite (fun _ => Agree.ite (fun _ => h.quit) fun _ => (hmenu .main).agree _) fun _ => ?_
  refine Agree.ite (fun _ => h.menu _) fun _ => ?_
  refine Agree.ite (fun _ => ?_) fun _ => ?_
  · rw [h.showSettings]
    exact h.menu _
  refine Agree.ite (fun _ => (hmenu _).agree _) fun _ => ?_
  refine Agree.ite (fun _ => hbegin (by decide) (by decide)) fun _ => ?_
  refine Agree.ite (fun _ => h.clear) fun _ => ?_
  refine Agree.ite (fun _ => hbegin (by decide) (by decide)) fun _ => ?_
  refine Agree.ite (fun _ => h.provider _) fun _ => ?_
  refine Agree.ite (fun _ => hbegin (by decide) fun i _ j _ hi hj _ => by omega) fun _ => ?_
  refine Agree.ite (fun _ => hbegin (by decide) (by decide)) fun _ => ?_
  refine Agree.ite (fun _ => hbegin (by decide) (by decide)) fun _ => ?_
  exact Agree.ite (fun _ => h.menu _) fun _ => h.agree _

/-! ## Lines -/

end

/-- What the texts that are submitted for a secret have in common: both or neither is the `-`
that clears, both or neither is valid, both or neither is what is stored. -/
structure Counterparts (floats : Floats) (s₁ s₂ : Shell) : Prop where
  clears : s₁.line.bytes = ascii "-" ↔ s₂.line.bytes = ascii "-"
  valid : validValue floats s₁.field s₁.line.bytes = validValue floats s₁.field s₂.line.bytes
  stored : s₁.env s₁.field = some s₁.line ↔ s₂.env s₁.field = some s₂.line

section
variable {c : Control} {t₁ t₂ : Texts}

theorem unchanged_line {a : Text} (h : a.bytes ≠ []) (o : Option Text) :
    unchanged a o = true ↔ o = some a := by
  cases o with
  | none =>
    unfold unchanged
    rw [decide_eq_true_eq]
    exact ⟨fun hnil => absurd hnil h, fun hnone => by cases hnone⟩
  | some t =>
    unfold unchanged
    rw [decide_eq_true_eq, Option.some.injEq]
    refine ⟨fun hbytes => ?_, fun heq => by rw [heq]⟩
    obtain ⟨bytes, _, _⟩ := t
    obtain ⟨bytes', _, _⟩ := a
    dsimp only at hbytes
    subst hbytes
    rfl

/-- The candidate goes on as alike as the texts before it. -/
theorem Related.candidate (h : Related floats c t₁ t₂) (hediting : c.step = .editing)
    (hsubmit : c.field.secret = true → t₁.line.bytes ≠ [] →
      Counterparts floats ⟨c, t₁⟩ ⟨c, t₂⟩) :
    TextsAlike floats c.field (candidate ⟨c, t₁⟩) (candidate ⟨c, t₂⟩) ∧
      unchanged (candidate ⟨c, t₁⟩) (t₁.env c.field) =
        unchanged (candidate ⟨c, t₂⟩) (t₂.env c.field) := by
  have hline := h.line hediting
  have hnil : t₁.line.bytes = [] ↔ t₂.line.bytes = [] := by
    rw [← List.length_eq_zero_iff, ← List.length_eq_zero_iff, hline.length]
  unfold Setup.candidate
  dsimp only
  by_cases hempty : t₁.line.bytes = []
  · rw [if_pos hempty, if_pos (hnil.mp hempty)]
    exact ⟨h.editing _, h.kept.editing _⟩
  rw [if_neg hempty, if_neg fun h => hempty (hnil.mpr h)]
  cases hsecret : c.field.secret with
  | false =>
    rw [hline.same hsecret, (h.env c.field).same hsecret]
    exact ⟨.refl _ _, rfl⟩
  | true =>
    obtain ⟨hclears, hvalid, hstored⟩ := hsubmit hsecret hempty
    by_cases hclear : t₁.line.bytes = ascii "-"
    · rw [if_pos hclear, if_pos (hclears.mp hclear)]
      exact ⟨.refl _ _, (h.env _).unchanged_empty⟩
    · rw [if_neg hclear, if_neg fun h => hclear (hclears.mpr h)]
      refine ⟨⟨hline.length, hvalid, fun hpublic => ?_⟩, ?_⟩
      · rw [hsecret] at hpublic
        cases hpublic
      · rw [Bool.eq_iff_iff, unchanged_line hempty, unchanged_line fun h => hempty (hnil.mpr h)]
        exact hstored

theorem Matched.next (h : Matched floats c t₁ t₂) :
    Agree floats (nextField ⟨c, t₁⟩) (nextField ⟨c, t₂⟩) := by
  have hnext : Matched floats { c with editPosition := c.editPosition + 1 } t₁ t₂ :=
    h.control rfl rfl
  have hurl : (c.editFields 0 = .provider ∧ (t₁.editing 0).bytes ≠ ascii "openai" ∧
      (t₁.editing 1).bytes = []) = (c.editFields 0 = .provider ∧
      (t₂.editing 0).bytes ≠ ascii "openai" ∧ (t₂.editing 1).bytes = []) := by
    refine propext (and_congr_right fun hprovider => ?_)
    have hsame := (h.editing 0).same (by rw [hprovider]; rfl)
    rw [hsame, (h.editing 1).nil]
  unfold nextField
  dsimp only
  refine Agree.ite (fun _ => ?_) fun _ => hnext.prompt
  simp only [hurl]
  refine Agree.ite (fun _ => ?_) fun _ => hnext.save
  have hback : Matched floats { c with editPosition := 1 } t₁ t₂ := h.control rfl rfl
  exact hback.prompt.before _

theorem Related.submitLine (h : Related floats c t₁ t₂) (hediting : c.step = .editing)
    (hsubmit : c.field.secret = true → t₁.line.bytes ≠ [] →
      Counterparts floats ⟨c, t₁⟩ ⟨c, t₂⟩) :
    Agree floats (submitLine floats ⟨c, t₁⟩) (submitLine floats ⟨c, t₂⟩) := by
  obtain ⟨halike, hkept⟩ := h.candidate hediting hsubmit
  have hnil : t₁.line.bytes = [] ↔ t₂.line.bytes = [] := by
    rw [← List.length_eq_zero_iff, ← List.length_eq_zero_iff, (h.line hediting).length]
  unfold Setup.submitLine
  dsimp only
  rw [halike.valid]
  refine Agree.ite (fun _ => h.toMatched.prompt.before _) fun _ => ?_
  by_cases hempty : t₁.line.bytes = []
  · rw [if_neg fun hne => hne hempty, if_neg fun hne => hne (hnil.mp hempty)]
    exact h.toMatched.next
  · rw [if_pos hempty, if_pos fun h => hempty (hnil.mpr h)]
    exact (h.set halike hkept).toMatched.next

theorem Related.backspace (h : Related floats c t₁ t₂) (hediting : c.step = .editing) :
    Agree floats (backspace ⟨c, t₁⟩) (backspace ⟨c, t₂⟩) := by
  have hline := h.line hediting
  have hnil : t₁.line.bytes = [] ↔ t₂.line.bytes = [] := by
    rw [← List.length_eq_zero_iff, ← List.length_eq_zero_iff, hline.length]
  unfold Setup.backspace
  dsimp only
  by_cases hempty : t₁.line.bytes = []
  · rw [if_neg fun hne => hne hempty, if_neg fun hne => hne (hnil.mp hempty)]
    exact h.agree _
  · rw [if_pos hempty, if_pos fun h => hempty (hnil.mpr h)]
    refine ⟨rfl, rfl, ⟨⟨h.values, h.editing, h.env, h.distinct⟩, h.kept.values, h.kept.editing⟩,
      fun _ => ⟨?_, fun hpublic => ?_⟩⟩
    · show t₁.line.bytes.dropLast.length = t₂.line.bytes.dropLast.length
      rw [List.length_dropLast, List.length_dropLast, hline.length]
    · exact congrArg Text.dropLast (hline.same hpublic)

theorem push_congr {s t : Text} {value : UInt8} (h : s = t) (hv : printable value)
    (hs : s.bytes.length < 255) (ht : t.bytes.length < 255) :
    s.push value hv hs = t.push value hv ht := by
  subst h
  rfl

/-- Bytes that may differ only when they are typed for a secret. -/
theorem Related.type (h : Related floats c t₁ t₂) (hediting : c.step = .editing) {a b : UInt8}
    (ha : printable a) (hb : printable b) (hsame : c.field.secret = false → a = b) :
    Agree floats (typeByte a ha ⟨c, t₁⟩) (typeByte b hb ⟨c, t₂⟩) := by
  have hline := h.line hediting
  unfold typeByte
  dsimp only
  by_cases hroom : t₁.line.bytes.length < 255
  · rw [dif_pos hroom, dif_pos (hline.length ▸ hroom)]
    refine ⟨?_, rfl, ⟨⟨h.values, h.editing, h.env, h.distinct⟩, h.kept.values, h.kept.editing⟩,
      fun _ => ⟨?_, fun hpublic => ?_⟩⟩
    · dsimp only
      cases hsecret : c.field.secret with
      | true => rfl
      | false => rw [hsame hsecret]
    · show (t₁.line.bytes ++ [a]).length = (t₂.line.bytes ++ [b]).length
      rw [List.length_append, List.length_append, hline.length]
      rfl
    · have hbyte := hsame hpublic
      subst hbyte
      exact push_congr (hline.same hpublic) ha hroom (hline.length ▸ hroom)
  · rw [dif_neg hroom, dif_neg fun h => hroom (hline.length ▸ h)]
    exact ⟨rfl, rfl, h.control rfl rfl fun _ => ⟨hediting, rfl⟩⟩

/-- The end of a line that is submitted for a secret. -/
def Submits (s : Shell) (value : UInt8) : Prop :=
  s.step = .editing ∧ s.field.secret = true ∧ s.line.bytes ≠ [] ∧
    (value = '\r'.toUInt8 ∨ value = '\n'.toUInt8)

theorem input_printable {s : Shell} {value : UInt8} (hv : printable value)
    (hediting : s.step = .editing) :
    networkSetupInput floats value s = typeByte value hv { s with previousCr := false } := by
  have hbyte {x : UInt8} (hx : x.toNat < 32 ∨ x.toNat = 127) : value ≠ x := by
    rintro rfl
    rcases hx with hx | hx
    · exact absurd hv.1 (Nat.not_le.mpr hx)
    · exact hv.2 hx
  have hcr : decide (value = '\r'.toUInt8) = false :=
    decide_eq_false (hbyte (Or.inl (by decide)))
  unfold networkSetupInput
  rw [if_neg (by rw [hediting]; decide), if_neg fun h => hbyte (Or.inl (by decide)) h.1]
  dsimp only
  rw [if_neg (hbyte (Or.inl (by decide))), if_neg (by rw [hediting]; decide),
    if_neg fun h => h.elim (hbyte (Or.inl (by decide))) (hbyte (Or.inl (by decide))),
    if_neg fun h => h.elim (hbyte (Or.inl (by decide))) (hbyte (Or.inr (by decide))),
    dif_pos hv, hcr]

theorem Related.input (h : Related floats c t₁ t₂) {a b : UInt8}
    (hbytes : a = b ∨ printable a ∧ printable b ∧ c.step = .editing ∧ c.field.secret = true)
    (hsubmit : Submits ⟨c, t₁⟩ a → Counterparts floats ⟨c, t₁⟩ ⟨c, t₂⟩) :
    Agree floats (networkSetupInput floats a ⟨c, t₁⟩) (networkSetupInput floats b ⟨c, t₂⟩) := by
  have hcr (cr : Bool) : Related floats { c with previousCr := cr } t₁ t₂ :=
    h.control rfl rfl fun hediting => ⟨hediting, rfl⟩
  rcases hbytes with rfl | ⟨ha, hb, hediting, hsecret⟩
  swap
  · rw [input_printable ha hediting, input_printable hb hediting]
    refine (hcr false).type hediting ha hb fun hpublic => ?_
    rw [show c.field.secret = false from hpublic] at hsecret
    cases hsecret
  unfold networkSetupInput
  refine Agree.ite (fun _ => h.agree _) fun hopen => ?_
  refine Agree.ite (fun _ => (hcr false).agree _) fun _ => ?_
  dsimp only at hopen ⊢
  have hr := hcr (decide (a = '\r'.toUInt8))
  refine Agree.ite (fun _ => ?_) fun _ => ?_
  · exact (hr.toMatched.clear.toMatched.leave).menu _
  refine Agree.ite (fun _ => Agree.ite (fun _ => hr.command a) fun _ => hr.agree _) fun hmenu => ?_
  have hediting : c.step = .editing := by
    cases hstep : c.step with
    | editing => rfl
    | menu => exact absurd hstep hmenu
    | idle => exact absurd (Or.inl hstep) hopen
    | saving => exact absurd (Or.inr (Or.inl hstep)) hopen
    | loading => exact absurd (Or.inr (Or.inr (Or.inl hstep))) hopen
    | reboot => exact absurd (Or.inr (Or.inr (Or.inr hstep))) hopen
  refine Agree.ite (fun hend => ?_) fun _ => ?_
  · refine hr.submitLine hediting fun hsecret hne => ?_
    have hsame := hsubmit ⟨hediting, hsecret, hne, hend⟩
    exact ⟨hsame.clears, hsame.valid, hsame.stored⟩
  refine Agree.ite (fun _ => hr.backspace hediting) fun _ => ?_
  by_cases hprintable : printable a
  · rw [dif_pos hprintable, dif_pos hprintable]
    exact hr.type hediting hprintable hprintable fun _ => rfl
  · rw [dif_neg hprintable, dif_neg hprintable]
    exact hr.agree _

/-! ## Core 1 -/

/-- A password that fits and is valid. -/
theorem TextsAlike.password {a b : Text} (h : TextsAlike floats .password a b) :
    (validPassword a.bytes = true ∧ a.bytes.length < 65) =
      (validPassword b.bytes = true ∧ b.bytes.length < 65) := by
  have hlength := h.length
  by_cases hfits : a.bytes.length < 65
  · have hvalue {t : Text} (ht : t.bytes.length < 65) :
        validValue floats .password t.bytes = validPassword t.bytes := by
      unfold validValue
      rw [if_neg (show ¬Field.password.limit < t.bytes.length from
        Nat.not_lt.mpr (Nat.lt_succ_iff.mp ht))]
      by_cases hnil : t.bytes = []
      · rw [if_pos hnil, hnil]
        rfl
      · rw [if_neg hnil]
    rw [← hvalue hfits, ← hvalue (hlength ▸ hfits), h.valid, hlength]
  · exact propext ⟨fun h => absurd h.2 hfits, fun h => absurd (hlength ▸ h.2) hfits⟩

/-- A reload leaves the texts but the configuration, and ends alike. -/
theorem Alike.reload (h : Alike floats c t₁ t₂) (status : Int) :
    ∃ state config₁ config₂,
      reloadConfig status ⟨c, t₁⟩ =
        ⟨{ c with settingsState := state }, { t₁ with config := config₁ }⟩ ∧
      reloadConfig status ⟨c, t₂⟩ =
        ⟨{ c with settingsState := state }, { t₂ with config := config₂ }⟩ := by
  unfold reloadConfig
  by_cases hstatus : status = 0
  · rw [if_pos hstatus, if_pos hstatus]
    dsimp only
    have hssid := (h.env .ssid).same rfl
    have hpassword := (h.env .password).texts.password
    simp only [hssid, hpassword]
    exact ⟨_, _, _, rfl, rfl⟩
  · rw [if_neg hstatus, if_neg hstatus]
    exact ⟨_, _, _, rfl, rfl⟩

theorem Alike.reloaded (h : Alike floats c t₁ t₂) (state : SettingsState) (config₁ config₂ : Config) :
    Alike floats { c with settingsState := state } { t₁ with config := config₁ }
      { t₂ with config := config₂ } := ⟨h.values, h.editing, h.env, h.distinct⟩

/-- A change of the store. -/
theorem Alike.store (h : Alike floats c t₁ t₂) {field : Field} {a b : Option Text}
    (halike : StoredAlike floats field a b) :
    Alike floats c { t₁ with env := Function.update t₁.env field a }
      { t₂ with env := Function.update t₂.env field b } := by
  refine ⟨h.values, h.editing, fun other => ?_, h.distinct⟩
  dsimp only
  by_cases hother : other = field
  · subst hother
    rw [Function.update_self, Function.update_self]
    exact halike
  · rw [Function.update_of_ne hother, Function.update_of_ne hother]
    exact h.env other

/-- Texts that another field's save leaves as they are. -/
structure Beside (field : Field) (t t' : Texts) : Prop where
  editing : t'.editing = t.editing
  env : ∀ other, other ≠ field → t'.env other = t.env other

theorem Beside.refl (field : Field) (t : Texts) : Beside field t t := ⟨rfl, fun _ _ => rfl⟩

theorem Beside.store (field : Field) (t : Texts) (o : Option Text) :
    Beside field t { t with env := Function.update t.env field o } :=
  ⟨rfl, fun _ hother => Function.update_of_ne hother _ _⟩

theorem Alike.saveField (h : Alike floats c t₁ t₂) (outcome : Int × Bool) {field : Field}
    {a b : Text} (halike : TextsAlike floats field a b) :
    ∃ status t₁' t₂', saveField outcome field a ⟨c, t₁⟩ = (status, ⟨c, t₁'⟩) ∧
      saveField outcome field b ⟨c, t₂⟩ = (status, ⟨c, t₂'⟩) ∧
      Alike floats c t₁' t₂' ∧ Beside field t₁ t₁' ∧ Beside field t₂ t₂' := by
  have hsave : (a.bytes ≠ [] ∨ field = .password) = (b.bytes ≠ [] ∨ field = .password) := by
    rw [ne_eq, ne_eq, propext halike.nil]
  have hnone : (t₁.env field).isNone = (t₂.env field).isNone := by
    rw [← Option.not_isSome, ← Option.not_isSome, (h.env field).found]
  unfold Setup.saveField
  simp only [hsave, hnone]
  by_cases hvalue : b.bytes ≠ [] ∨ field = .password
  · rw [if_pos hvalue, if_pos hvalue]
    by_cases hdone : outcome.1 = 0 ∨ outcome.2 = true
    · rw [if_pos hdone, if_pos hdone]
      exact ⟨_, _, _, rfl, rfl, h.store ⟨rfl, halike⟩, .store _ _ _, .store _ _ _⟩
    · rw [if_neg hdone, if_neg hdone]
      exact ⟨_, _, _, rfl, rfl, h, .refl _ _, .refl _ _⟩
  · rw [if_neg hvalue, if_neg hvalue]
    by_cases hmissing : (t₂.env field).isNone = true
    · rw [if_pos hmissing, if_pos hmissing]
      exact ⟨_, _, _, rfl, rfl, h, .refl _ _, .refl _ _⟩
    · rw [if_neg hmissing, if_neg hmissing]
      by_cases hdone : outcome.1 = 0 ∨ outcome.2 = true
      · rw [if_pos hdone, if_pos hdone]
        exact ⟨_, _, _, rfl, rfl, h.store ⟨rfl, .refl _ _⟩, .store _ _ _, .store _ _ _⟩
      · rw [if_neg hdone, if_neg hdone]
        exact ⟨_, _, _, rfl, rfl, h, .refl _ _, .refl _ _⟩

end

/-- **The save of the edits** ends alike; the induction carries the edits that are still to do. -/
theorem Alike.saveFrom (outcome : Outcome) (edits : List Nat) :
    ∀ {c : Control} {t₁ t₂ : Texts}, Alike floats c t₁ t₂ → edits.Nodup →
      (∀ i ∈ edits, i < c.editCount) →
      (∀ i ∈ edits, unchanged (t₁.editing i) (t₁.env (c.editFields i)) =
        unchanged (t₂.editing i) (t₂.env (c.editFields i))) →
      ∃ status c' t₁' t₂', saveFrom outcome edits ⟨c, t₁⟩ = (status, ⟨c', t₁'⟩) ∧
        saveFrom outcome edits ⟨c, t₂⟩ = (status, ⟨c', t₂'⟩) ∧ Alike floats c' t₁' t₂' := by
  induction edits with
  | nil => exact fun h _ _ _ => ⟨0, _, _, _, rfl, rfl, h⟩
  | cons i rest ih =>
    intro c t₁ t₂ h hnodup hcount hkept
    obtain ⟨hi, hnodup⟩ := List.nodup_cons.mp hnodup
    have hcount' : ∀ j ∈ rest, j < c.editCount := fun j hj => hcount j (List.mem_cons_of_mem _ hj)
    unfold Setup.saveFrom
    dsimp only
    rw [hkept i List.mem_cons_self]
    by_cases hsame : unchanged (t₂.editing i) (t₂.env (c.editFields i)) = true
    · rw [if_pos hsame, if_pos hsame]
      exact ih h hnodup hcount' fun j hj => hkept j (List.mem_cons_of_mem _ hj)
    rw [if_neg hsame, if_neg hsame]
    obtain ⟨status, t₁', t₂', h₁, h₂, halike, hbeside₁, hbeside₂⟩ :=
      h.saveField (outcome.save i) (h.editing i)
    rw [h₁, h₂]
    dsimp only
    by_cases hok : status = 0
    swap
    · rw [if_neg hok, if_neg hok]
      exact ⟨status, _, _, _, rfl, rfl, halike⟩
    rw [if_pos hok, if_pos hok]
    have hchanged : Alike floats { c with changed := true } t₁' t₂' :=
      ⟨halike.values, halike.editing, halike.env, halike.distinct⟩
    refine ih hchanged hnodup hcount' fun j hj => ?_
    have hother : c.editFields j ≠ c.editFields i := by
      intro hfield
      have heq := h.distinct j i (hcount' j hj) (hcount i List.mem_cons_self) hfield
      rw [heq] at hj
      exact hi hj
    dsimp only
    rw [hbeside₁.editing, hbeside₂.editing, hbeside₁.env _ hother, hbeside₂.env _ hother]
    exact hkept j (List.mem_cons_of_mem _ hj)

section
variable {c : Control} {t₁ t₂ : Texts}

theorem Matched.serve (h : Matched floats c t₁ t₂) (outcome : Outcome) (request : Request) :
    ∃ status c' t₁' t₂', serveRequest outcome request ⟨c, t₁⟩ = (status, ⟨c', t₁'⟩) ∧
      serveRequest outcome request ⟨c, t₂⟩ = (status, ⟨c', t₂'⟩) ∧ Alike floats c' t₁' t₂' := by
  obtain ⟨state, config₁, config₂, h₁, h₂⟩ := h.toAlike.reload (outcome.reload 1)
  have hloaded := h.toAlike.reloaded state config₁ config₂
  unfold serveRequest
  dsimp only
  rw [h₁, h₂]
  by_cases hsave : request = .save ∧ outcome.reload 1 = 0
  swap
  · rw [if_neg hsave, if_neg hsave]
    exact ⟨_, _, _, _, rfl, rfl, hloaded⟩
  rw [if_pos hsave, if_pos hsave]
  obtain ⟨status, c', t₁', t₂', hs₁, hs₂, halike⟩ :=
    Alike.saveFrom outcome (List.range c.editCount) hloaded List.nodup_range
      (fun i hi => List.mem_range.mp hi) fun i _ => h.kept.editing i
  rw [hs₁, hs₂]
  dsimp only
  obtain ⟨state', config₁', config₂', hr₁, hr₂⟩ := halike.reload (outcome.reload 2)
  rw [hr₁, hr₂]
  exact ⟨_, _, _, _, rfl, rfl, halike.reloaded state' config₁' config₂'⟩

theorem Alike.report (h : Alike floats c t₁ t₂) (status : Int) :
    Agree floats (reportStatus status ⟨c, t₁⟩) (reportStatus status ⟨c, t₂⟩) := by
  have hvalues : Alike floats c
      { t₁ with values := fun field => if status = 0 then stored (t₁.env field) else .empty }
      { t₂ with values := fun field => if status = 0 then stored (t₂.env field) else .empty } := by
    refine ⟨fun field => ?_, h.editing, h.env, h.distinct⟩
    dsimp only
    by_cases hstatus : status = 0
    · rw [if_pos hstatus, if_pos hstatus]
      exact (h.env field).texts
    · rw [if_neg hstatus, if_neg hstatus]
      exact .refl _ _
  have hclear := hvalues.clear fun field => by
    dsimp only
    by_cases hstatus : status = 0
    · rw [if_pos hstatus, if_pos hstatus, unchanged_stored, unchanged_stored]
    · rw [if_neg hstatus, if_neg hstatus]
      exact (h.env field).unchanged_empty
  unfold reportStatus
  refine Agree.ite (fun _ => ?_) fun _ => ?_
  · exact ⟨rfl, rfl, hclear.control rfl rfl fun hediting => ⟨hediting, rfl⟩⟩
  · exact ⟨rfl, rfl, hclear.control rfl rfl fun hediting => ⟨hediting, rfl⟩⟩

theorem Related.first (h : Related floats c t₁ t₂) (outcome : Outcome) :
    Agree floats (firstLoad outcome ⟨c, t₁⟩) (firstLoad outcome ⟨c, t₂⟩) := by
  obtain ⟨state, config₁, config₂, h₁, h₂⟩ := h.toAlike.reload (outcome.reload 0)
  unfold firstLoad
  refine Agree.ite (fun _ => ?_) fun _ => h.agree _
  rw [h₁, h₂]
  exact ⟨rfl, rfl, ⟨h.toAlike.reloaded state config₁ config₂, h.kept.values, h.kept.editing⟩, h.line⟩

theorem Related.core1 (h : Related floats c t₁ t₂) (outcome : Outcome) :
    Agree floats (networkSetupCore1Service outcome ⟨c, t₁⟩)
      (networkSetupCore1Service outcome ⟨c, t₂⟩) := by
  obtain ⟨c, t₁, t₂, out, h₁, h₂, hr⟩ := (h.first outcome).split
  unfold networkSetupCore1Service
  rw [h₁, h₂]
  dsimp only
  cases hrequest : c.requests with
  | none => exact hr.agree _
  | some request =>
    dsimp only
    have htaken : Matched floats { c with requests := none } t₁ t₂ := hr.toMatched.control rfl rfl
    obtain ⟨status, c', t₁', t₂', hs₁, hs₂, halike⟩ := htaken.serve outcome request
    rw [hs₁, hs₂]
    exact (halike.report status).before _

end

/-! ## Runs -/

/-- An event and its counterpart: the same one, or another byte that is typed for a secret. -/
inductive Twin (floats : Floats) (s₁ s₂ : Shell) : Event → Event → Prop where
  | same (e : Event)
      (h : ∀ value, e = .input value → Submits s₁ value → Counterparts floats s₁ s₂) :
      Twin floats s₁ s₂ e e
  | typed (a b : UInt8) (hediting : s₁.step = .editing) (hsecret : s₁.field.secret = true)
      (ha : printable a) (hb : printable b) : Twin floats s₁ s₂ (.input a) (.input b)

inductive Twins (floats : Floats) : Shell → Shell → List Event → List Event → Prop where
  | nil (s₁ s₂ : Shell) : Twins floats s₁ s₂ [] []
  | cons {s₁ s₂ : Shell} {e₁ e₂ : Event} {rest₁ rest₂ : List Event} (head : Twin floats s₁ s₂ e₁ e₂)
      (tail : Twins floats (e₁.step floats s₁).1 (e₂.step floats s₂).1 rest₁ rest₂) :
      Twins floats s₁ s₂ (e₁ :: rest₁) (e₂ :: rest₂)

theorem Related.step {c : Control} {t₁ t₂ : Texts} (h : Related floats c t₁ t₂) {e₁ e₂ : Event}
    (htwin : Twin floats ⟨c, t₁⟩ ⟨c, t₂⟩ e₁ e₂) :
    Agree floats (e₁.step floats ⟨c, t₁⟩) (e₂.step floats ⟨c, t₂⟩) := by
  cases htwin with
  | same _ hsubmit =>
    cases e₁ with
    | request => exact h.request
    | usb connected running => exact h.usb connected running
    | input value => exact h.input (Or.inl rfl) (hsubmit value rfl)
    | core1 outcome => exact h.core1 outcome
    | rebootQueued =>
      exact ⟨rfl, rfl, h.control rfl rfl fun hediting => ⟨hediting, rfl⟩⟩
  | typed a b hediting hsecret ha hb =>
    refine h.input (Or.inr ⟨ha, hb, hediting, hsecret⟩) fun hsubmits => ?_
    have hcr : a ≠ '\r'.toUInt8 := by
      rintro rfl
      exact absurd ha.1 (by decide)
    have hlf : a ≠ '\n'.toUInt8 := by
      rintro rfl
      exact absurd ha.1 (by decide)
    exact (hsubmits.2.2.2.elim hcr hlf).elim

theorem Twins.printed {s₁ s₂ : Shell} {events₁ events₂ : List Event}
    (h : Twins floats s₁ s₂ events₁ events₂) (hcontrol : s₁.toControl = s₂.toControl)
    (hrelated : Related floats s₁.toControl s₁.toTexts s₂.toTexts) :
    run floats events₁ s₁ = run floats events₂ s₂ := by
  induction h with
  | nil => rfl
  | @cons s₁ s₂ e₁ e₂ rest₁ rest₂ head _ ih =>
    obtain ⟨c, t₁⟩ := s₁
    obtain ⟨c', t₂⟩ := s₂
    dsimp only at hcontrol
    subst hcontrol
    have hstep := hrelated.step head
    unfold run
    rw [hstep.printed, ih hstep.control hstep.related]

theorem init_related {env₁ env₂ : Field → Option Text}
    (h : ∀ field, StoredAlike floats field (env₁ field) (env₂ field)) :
    Related floats (networkSetupInit env₁).toControl (networkSetupInit env₁).toTexts
      (networkSetupInit env₂).toTexts :=
  ⟨⟨⟨fun _ => .refl _ _, fun _ => .refl _ _, h, fun i _ hi => absurd hi (Nat.not_lt_zero i)⟩,
    fun field => (h field).unchanged_empty, fun _ => (h _).unchanged_empty⟩,
    fun _ => ⟨rfl, fun _ => rfl⟩⟩

/-- **The shell never reveals a secret**: two runs that differ in the contents of secret fields
alone print the same bytes. -/
theorem secrets_hidden {env₁ env₂ : Field → Option Text} {events₁ events₂ : List Event}
    (henv : ∀ field, StoredAlike floats field (env₁ field) (env₂ field))
    (h : Twins floats (networkSetupInit env₁) (networkSetupInit env₂) events₁ events₂) :
    run floats events₁ (networkSetupInit env₁) = run floats events₂ (networkSetupInit env₂) :=
  h.printed rfl (init_related henv)

theorem Twin.closed {s₁ s₂ : Shell} (e : Event) (h : s₁.step ≠ .editing) : Twin floats s₁ s₂ e e :=
  .same e fun _ _ hsubmits => absurd hsubmits.1 h

/-- Numbers without a fraction. -/
def wholeNumbers : Floats :=
  { Double := Int
    strtod := fun text => (decimalDigits (text.takeWhile Env.isdigit),
      (text.takeWhile Env.isdigit).length, false)
    isfinite := fun _ => true
    within := fun min max value => decide (min ≤ value) && decide (value ≤ max)
    fitsInt := fun _ => true
    round := id }

def storedKey (key : Text) : Field → Option Text :=
  Function.update (fun _ => none) .weatherKey (some key)

def keyA : Text := ⟨ascii "aaa", by decide, by decide⟩
def keyB : Text := ⟨ascii "bbb", by decide, by decide⟩

/-- A key is stored, and the operator types another one. -/
def newKey (value : UInt8) : List Event :=
  [.request, .core1 ⟨fun _ => 0, fun _ => (0, true)⟩, .usb true true, .input '4'.toUInt8,
    .input 'C'.toUInt8, .input value, .input '\r'.toUInt8]

theorem storedKey_alike (field : Field) :
    StoredAlike wholeNumbers field (storedKey keyA field) (storedKey keyB field) := by
  unfold storedKey
  by_cases hfield : field = .weatherKey
  · subst hfield
    rw [Function.update_self, Function.update_self]
    exact ⟨rfl, rfl, by decide, fun h => by cases h⟩
  · rw [Function.update_of_ne hfield, Function.update_of_ne hfield]
    exact ⟨rfl, .refl _ _⟩

theorem secrets_hidden_key :
    run wholeNumbers (newKey 'k'.toUInt8) (networkSetupInit (storedKey keyA)) =
      run wholeNumbers (newKey 'x'.toUInt8) (networkSetupInit (storedKey keyB)) := by
  refine secrets_hidden storedKey_alike ?_
  refine .cons (.closed _ (by decide)) ?_
  refine .cons (.closed _ (by decide)) ?_
  refine .cons (.closed _ (by decide)) ?_
  refine .cons (.closed _ (by decide)) ?_
  refine .cons (.closed _ (by decide)) ?_
  refine .cons (.typed _ _ rfl rfl (by decide) (by decide)) ?_
  refine .cons (.same _ fun _ _ _ => ?_) (.nil _ _)
  exact ⟨by decide, by decide, by decide⟩

end Z80Sbc.Setup.Secrecy
