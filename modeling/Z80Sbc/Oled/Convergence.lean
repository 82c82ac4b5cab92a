import Z80Sbc.Concurrent.Run
import Z80Sbc.Oled.Display
import Mathlib.Tactic.Common

/-! # The panel converges to the picture

A page that is valid has its confirmed bytes on the panel. While pages are sent, a page that is not
dirty is valid and confirmed as it is in the picture; rendering keeps this since what it draws
outside the pages that it flags is what was there. -/

namespace Z80Sbc.Oled.Convergence
open Z80Sbc.Oled Z80Sbc.Concurrent

/-! ## Bits of pages -/

section
variable {pages : Byte} {p q : Nat}

theorem getLsbD_bit (hp : p < 8) : ((1 : Byte) <<< p).getLsbD q = decide (p = q) := by
  have hbit : (1 : Byte) <<< p = BitVec.twoPow 8 p := rfl
  rw [hbit, BitVec.getLsbD_twoPow, decide_eq_true hp, Bool.true_and]

theorem getLsbD_set (hp : p < 8) :
    (pages ||| ((1 : Byte) <<< p)).getLsbD q = (pages.getLsbD q || decide (p = q)) := by
  rw [BitVec.getLsbD_or, getLsbD_bit hp]

theorem getLsbD_clear (hp : p < 8) (hq : q < 8) :
    (pages &&& ~~~((1 : Byte) <<< p)).getLsbD q = (pages.getLsbD q && !decide (p = q)) := by
  rw [BitVec.getLsbD_and, BitVec.getLsbD_not, getLsbD_bit hp, decide_eq_true hq, Bool.true_and]

theorem getLsbD_collect {f : Nat → Bool} {n : Nat} (hn : n ≤ 8) :
    ((List.range n).foldl (fun s p => if f p then s ||| ((1 : Byte) <<< p) else s) 0).getLsbD q =
      (decide (q < n) && f q) := by
  induction n with
  | zero => simp
  | succ n ih =>
    rw [List.range_succ, List.foldl_append, List.foldl_cons, List.foldl_nil]
    have ih := ih (by omega)
    by_cases hf : f n = true
    · rw [if_pos hf, getLsbD_set (by omega), ih]
      by_cases hq : n = q
      · subst hq
        simp [hf]
      · have hlt : decide (q < n + 1) = decide (q < n) := by
          congr 1
          exact propext (by omega)
        rw [hlt, decide_eq_false hq, Bool.or_false]
    · rw [if_neg hf, ih]
      by_cases hq : n = q
      · subst hq
        simp [hf]
      · have hlt : decide (q < n + 1) = decide (q < n) := by
          congr 1
          exact propext (by omega)
        rw [hlt]

theorem allPages (hp : p < PAGES) : ALL_PAGES.getLsbD p = true := by
  have hall : ∀ p : Fin 4, ALL_PAGES.getLsbD p.val = true := by decide
  exact hall ⟨p, hp⟩

theorem exists_page (h : pages ≠ 0) : ∃ p < 8, pages.getLsbD p = true := by
  by_cases hnone : ∃ p < 8, pages.getLsbD p = true
  · exact hnone
  · refine absurd (BitVec.eq_of_getLsbD_eq fun i hi => ?_) h
    rw [BitVec.ofNat_eq_ofNat, BitVec.getLsbD_zero]
    exact Bool.eq_false_iff.mpr fun hset => hnone ⟨i, hi, hset⟩

end

/-! ## Dots -/

def dots (f : Picture) (heartbeat web : Bool) : Picture :=
  setDot (setDot f HEARTBEAT_COLUMN heartbeat) WEB_DOT_COLUMN web

theorem setDot_apply (f : Picture) (column : Nat) (on : Bool) (k : Nat) :
    setDot f column on k =
      if k = 3 * WIDTH + column ∨ k = 3 * WIDTH + column + 1 then
        if on then f k ||| HEARTBEAT_BITS else f k &&& ~~~HEARTBEAT_BITS
      else f k := by
  have hrange : List.range 2 = [0, 1] := rfl
  unfold setDot
  rw [hrange]
  simp only [List.foldl_cons, List.foldl_nil, Nat.add_zero, ← Nat.add_assoc]
  generalize 3 * WIDTH + column = first
  by_cases hfirst : k = first
  · rw [if_neg (by omega), if_pos hfirst, if_pos (Or.inl hfirst)]
  · by_cases hsecond : k = first + 1
    · rw [if_pos hsecond, if_neg hfirst, if_pos (Or.inr hsecond)]
    · rw [if_neg hsecond, if_neg hfirst, if_neg fun h => h.elim hfirst hsecond]

theorem dots_apply (f : Picture) (heartbeat web : Bool) (k : Nat) :
    dots f heartbeat web k =
      if k = 510 ∨ k = 511 then
        if heartbeat then f k ||| HEARTBEAT_BITS else f k &&& ~~~HEARTBEAT_BITS
      else if k = 506 ∨ k = 507 then
        if web then f k ||| HEARTBEAT_BITS else f k &&& ~~~HEARTBEAT_BITS
      else f k := by
  have hheartbeat : 3 * WIDTH + HEARTBEAT_COLUMN = 510 := rfl
  have hweb : 3 * WIDTH + WEB_DOT_COLUMN = 506 := rfl
  unfold dots
  rw [setDot_apply, setDot_apply, hheartbeat, hweb]
  by_cases hfirst : k = 510 ∨ k = 511
  · rw [if_neg (by omega), if_pos hfirst, if_pos hfirst]
  · rw [if_neg hfirst, if_neg hfirst]

theorem dots_congr {f g : Picture} {heartbeat web : Bool} {k : Nat} (h : f k = g k) :
    dots f heartbeat web k = dots g heartbeat web k := by
  rw [dots_apply, dots_apply, h]

theorem dots_dots (f : Picture) (heartbeat web : Bool) :
    dots (dots f heartbeat web) heartbeat web = dots f heartbeat web := by
  have hset (b : Byte) : b ||| HEARTBEAT_BITS ||| HEARTBEAT_BITS = b ||| HEARTBEAT_BITS := by
    rw [BitVec.or_assoc, BitVec.or_self]
  have hclear (b : Byte) : b &&& ~~~HEARTBEAT_BITS &&& ~~~HEARTBEAT_BITS =
      b &&& ~~~HEARTBEAT_BITS := by
    rw [BitVec.and_assoc, BitVec.and_self]
  funext k
  rw [dots_apply (dots f heartbeat web), dots_apply f]
  by_cases hfirst : k = 510 ∨ k = 511
  · rw [if_pos hfirst, if_pos hfirst]
    cases heartbeat with
    | true => exact hset _
    | false => exact hclear _
  · rw [if_neg hfirst, if_neg hfirst]
    by_cases hsecond : k = 506 ∨ k = 507
    · rw [if_pos hsecond, if_pos hsecond]
      cases web with
      | true => exact hset _
      | false => exact hclear _
    · rw [if_neg hsecond, if_neg hsecond]

/-- The dots of the picture are those of the state. -/
def Dotted (d : Display) : Prop := dots d.framebuffer d.heartbeat d.webDot = d.framebuffer

/-! ## Rendering -/

/-- What rendering does not touch. -/
structure Kept (d d' : Display) : Prop where
  state : d'.state = d.state
  transferActive : d'.transferActive = d.transferActive
  enabled : d'.enabled = d.enabled
  confirmed : d'.confirmed = d.confirmed
  validPages : d'.validPages = d.validPages

/-- A drawing that flags the pages it draws on. -/
structure Drawn (d d' : Display) (changed changed' : Byte) : Prop extends Kept d d' where
  grows : ∀ p, changed.getLsbD p = true → changed'.getLsbD p = true
  same : ∀ p < PAGES, changed'.getLsbD p = false → ∀ c < WIDTH,
    d'.framebuffer (p * WIDTH + c) = d.framebuffer (p * WIDTH + c)

theorem Drawn.refl (d : Display) (changed : Byte) : Drawn d d changed changed :=
  ⟨⟨rfl, rfl, rfl, rfl, rfl⟩, fun _ h => h, fun _ _ _ _ _ => rfl⟩

theorem Drawn.trans {d d' d'' : Display} {a b c : Byte} (h : Drawn d d' a b)
    (h' : Drawn d' d'' b c) : Drawn d d'' a c where
  state := h'.state.trans h.state
  transferActive := h'.transferActive.trans h.transferActive
  enabled := h'.enabled.trans h.enabled
  confirmed := h'.confirmed.trans h.confirmed
  validPages := h'.validPages.trans h.validPages
  grows p hp := h'.grows p (h.grows p hp)
  same p hp hno k hk := by
    rw [h'.same p hp hno k hk]
    refine h.same p hp (Bool.eq_false_iff.mpr fun hyes => ?_) k hk
    rw [h'.grows p hyes] at hno
    cases hno

theorem page_of {p c : Nat} (hc : c < WIDTH) : (p * WIDTH + c) / WIDTH = p := by
  unfold WIDTH at *
  omega

/-- The IP line is on the first two pages. -/
theorem not_inField_ip {p c : Nat} (hc : c < WIDTH) (hp : 2 ≤ p) : ¬InField IP_Y (p * WIDTH + c) := by
  rintro ⟨row, hrow, hpage⟩
  rw [page_of hc] at hpage
  unfold FIELD_ROWS at hrow
  unfold IP_Y at hpage
  omega

/-- The uptime is on the last two. -/
theorem not_inField_uptime {p c : Nat} (hc : c < WIDTH) (hp : p < 2) :
    ¬InField UPTIME_Y (p * WIDTH + c) := by
  rintro ⟨row, hrow, hpage⟩
  rw [page_of hc] at hpage
  unfold FIELD_ROWS at hrow
  unfold UPTIME_Y at hpage
  omega

theorem flagged {changed flags : Byte} {p : Nat} (h : (changed ||| flags).getLsbD p = false) :
    flags.getLsbD p = false := by
  rw [BitVec.getLsbD_or, Bool.or_eq_false_iff] at h
  exact h.2

theorem flags_grow {changed flags : Byte} {p : Nat} (h : changed.getLsbD p = true) :
    (changed ||| flags).getLsbD p = true := by
  rw [BitVec.getLsbD_or, h, Bool.true_or]

theorem ipLine_fits (i : Input) (ipText : List Char)
    (h : ipText = "ERROR".toList ∨ ipText = "OFFLINE".toList ∨
      ipText = (getNetworkAddress i.networkAddress).1) :
    0 + advance (("IP: ".toList ++ ipText).take 23) ≤ WIDTH + SCALE := by
  have hlabel : advance "IP: ".toList = 22 := by decide
  have htext : advance ipText ≤ 108 := by
    rcases h with rfl | rfl | rfl
    · decide
    · decide
    · exact Nat.le_trans (advance_take_le _ 15) (addressText_fits _)
  have htake := advance_take_le ("IP: ".toList ++ ipText) 23
  rw [advance_append, hlabel] at htake
  unfold WIDTH SCALE
  omega

theorem renderAddress_drawn (i : Input) (d : Display) (changed : Byte) :
    Drawn d (renderAddress i d changed).1 changed (renderAddress i d changed).2 ∧
      (renderAddress i d changed).1.heartbeat = d.heartbeat ∧
      (renderAddress i d changed).1.webDot = d.webDot := by
  unfold renderAddress
  by_cases hread : (!d.ipValid || decide (i.generation ≠ d.seenAddressGeneration)) = true
  swap
  · rw [if_neg hread]
    exact ⟨Drawn.refl d changed, rfl, rfl⟩
  rw [if_pos hread]
  obtain ⟨ip, hip⟩ : ∃ ip, (getNetworkAddress i.networkAddress).1 = ip := ⟨_, rfl⟩
  obtain ⟨error, herror⟩ : ∃ error : Bool,
    (decide ((getNetworkAddress i.networkAddress).2 = 0) && decide (ip ≠ [])) = error := ⟨_, rfl⟩
  obtain ⟨ipText, htext⟩ : ∃ ipText, (if error = true then "ERROR".toList
    else if (getNetworkAddress i.networkAddress).2 ≠ 0 then ip else "OFFLINE".toList) = ipText :=
      ⟨_, rfl⟩
  have hfits := ipLine_fits i ipText (by
    rw [← htext, hip]
    split
    · exact Or.inl rfl
    · split
      · exact Or.inr (Or.inr rfl)
      · exact Or.inr (Or.inl rfl))
  simp only [hip, herror, htext]
  split
  swap
  · exact ⟨⟨⟨rfl, rfl, rfl, rfl, rfl⟩, fun _ h => h, fun _ _ _ _ _ => rfl⟩, rfl, rfl⟩
  refine ⟨⟨⟨rfl, rfl, rfl, rfl, rfl⟩, fun p => flags_grow, fun p hp hno c hc => ?_⟩, rfl, rfl⟩
  have hpage : 2 ≤ p := by
    have hflags : ∀ p : Fin 4, (0x03 : Byte).getLsbD p.val = false → 2 ≤ p.val := by decide
    exact hflags ⟨p, hp⟩ (flagged hno)
  have houtside := not_inField_ip hc hpage
  dsimp only
  rw [text_outside hfits houtside, clearField_outside houtside]

theorem renderUptime_drawn {seconds : Nat} (d : Display) (changed : Byte)
    (hseconds : seconds ≤ 2 ^ 64 / 1000000) :
    Drawn d (renderUptime seconds d changed).1 changed (renderUptime seconds d changed).2 ∧
      (renderUptime seconds d changed).1.heartbeat = d.heartbeat ∧
      (renderUptime seconds d changed).1.webDot = d.webDot := by
  unfold renderUptime
  split
  swap
  · exact ⟨Drawn.refl d changed, rfl, rfl⟩
  refine ⟨⟨⟨rfl, rfl, rfl, rfl, rfl⟩, fun p => flags_grow, fun p hp hno c hc => ?_⟩, rfl, rfl⟩
  have hpage : p < 2 := by
    have hflags : ∀ p : Fin 4, (0x0c : Byte).getLsbD p.val = false → p.val < 2 := by decide
    exact hflags ⟨p, hp⟩ (flagged hno)
  have houtside := not_inField_uptime hc hpage
  dsimp only
  rw [text_outside (uptimeText_fits hseconds) houtside, clearField_outside houtside]
  split
  · exact drawPort_outside (by unfold WIDTH at *; omega)
  · rfl

theorem renderDots_drawn (i : Input) (seconds : Nat) (d : Display) (changed : Byte)
    (hdots : changed.getLsbD 3 = false → ∀ c < WIDTH,
      dots d.framebuffer d.heartbeat d.webDot (3 * WIDTH + c) = d.framebuffer (3 * WIDTH + c)) :
    Drawn d (renderDots i seconds d changed).1 changed (renderDots i seconds d changed).2 ∧
      Dotted (renderDots i seconds d changed).1 := by
  have hlow (f : Picture) (heartbeat web : Bool) {p c : Nat} (hp : p < 3) (hc : c < WIDTH) :
      dots f heartbeat web (p * WIDTH + c) = f (p * WIDTH + c) := by
    have hk : p * WIDTH + c < 3 * WIDTH := by
      unfold WIDTH at *
      omega
    unfold dots
    rw [setDot_outside hk, setDot_outside hk]
  unfold renderDots
  dsimp only
  obtain ⟨dot, hdot⟩ : ∃ dot, decide (seconds % 2 = 1) = dot := ⟨_, rfl⟩
  obtain ⟨web, hweb⟩ : ∃ web, (dot && i.browserConnected) = web := ⟨_, rfl⟩
  rw [hdot, hweb]
  cases (dot != d.heartbeat || web != d.webDot) with
  | true =>
    refine ⟨⟨⟨rfl, rfl, rfl, rfl, rfl⟩, fun p => flags_grow, fun p hp hno c hc => ?_⟩,
      dots_dots _ _ _⟩
    have hpage : p < 3 := by
      have hflags : ∀ p : Fin 4, (0x08 : Byte).getLsbD p.val = false → p.val < 3 := by decide
      exact hflags ⟨p, hp⟩ (flagged hno)
    exact hlow _ _ _ hpage hc
  | false =>
    refine ⟨⟨⟨rfl, rfl, rfl, rfl, rfl⟩, fun _ h => h, fun p hp hno c hc => ?_⟩, dots_dots _ _ _⟩
    by_cases hpage : p < 3
    · exact hlow _ _ _ hpage hc
    · obtain rfl : p = 3 := by
        unfold PAGES at hp
        omega
      exact hdots hno c hc

theorem pageDiffers_false {d : Display} {p c : Nat} (h : pageDiffers d p = false) (hc : c < WIDTH) :
    d.framebuffer (p * WIDTH + c) = d.confirmed (p * WIDTH + c) := by
  unfold pageDiffers at h
  rw [List.any_eq_false] at h
  have hsame := h c (List.mem_range.mpr hc)
  rw [bne_iff_ne, Decidable.not_not] at hsame
  exact hsame

/-- What holds while pages are sent: a page that is not to be sent is valid and confirmed as it is in
the picture, and one that is to be sent again differs. -/
structure Sending (d : Display) : Prop where
  low : ∀ p, d.dirtyPages.getLsbD p = true → p < PAGES
  synced : ∀ p < PAGES, d.dirtyPages.getLsbD p = false →
    d.validPages.getLsbD p = true ∧ ∀ c < WIDTH,
      d.framebuffer (p * WIDTH + c) = d.confirmed (p * WIDTH + c)
  differs : ∀ p < PAGES, d.dirtyPages.getLsbD p = true → d.validPages.getLsbD p = true →
    ∃ c < WIDTH, d.framebuffer (p * WIDTH + c) ≠ d.confirmed (p * WIDTH + c)

theorem pageDiffers_true {d : Display} {p : Nat} (h : pageDiffers d p = true) :
    ∃ c < WIDTH, d.framebuffer (p * WIDTH + c) ≠ d.confirmed (p * WIDTH + c) := by
  unfold pageDiffers at h
  rw [List.any_eq_true] at h
  obtain ⟨c, hc, hne⟩ := h
  exact ⟨c, List.mem_range.mp hc, bne_iff_ne.mp hne⟩

/-- Before rendering either every page is sent again or the panel is up to date. -/
theorem render_spec (i : Input) {d : Display} (hdotted : Dotted d)
    (hsynced : d.validPages = ALL_PAGES → ∀ p < PAGES, ∀ c < WIDTH,
      d.framebuffer (p * WIDTH + c) = d.confirmed (p * WIDTH + c)) :
    Kept d (render i d) ∧ Dotted (render i d) ∧ Sending (render i d) := by
  obtain ⟨changed, hchanged⟩ :
    ∃ changed, (if d.validPages = ALL_PAGES then (0 : Byte) else ALL_PAGES) = changed := ⟨_, rfl⟩
  have hseconds : i.time.toNat / 1000000 ≤ 2 ^ 64 / 1000000 :=
    Nat.div_le_div_right (Nat.le_of_lt i.time.isLt)
  unfold render
  rw [hchanged]
  dsimp only
  obtain ⟨haddress, hheartbeat, hweb⟩ := renderAddress_drawn i d changed
  generalize renderAddress i d changed = address at haddress hheartbeat hweb
  obtain ⟨huptime, hheartbeat', hweb'⟩ := renderUptime_drawn address.1 address.2 hseconds
  generalize renderUptime _ address.1 address.2 = uptime at huptime hheartbeat' hweb'
  have hboth := haddress.trans huptime
  obtain ⟨hdots, hdotted'⟩ := renderDots_drawn i (i.time.toNat / 1000000) uptime.1 uptime.2
    fun hno c hc => by
      have hsame := hboth.same 3 (by decide) hno c hc
      rw [dots_congr hsame, hheartbeat', hweb', hheartbeat, hweb, hsame]
      exact congrFun hdotted _
  generalize renderDots i (i.time.toNat / 1000000) uptime.1 uptime.2 = dotted at hdots hdotted'
  have hall := hboth.trans hdots
  have hdirty (p : Nat) : (setDirty dotted.1 dotted.2).dirtyPages.getLsbD p =
      (decide (p < PAGES) && (dotted.2.getLsbD p &&
        (!dotted.1.validPages.getLsbD p || pageDiffers dotted.1 p))) :=
    getLsbD_collect (f := fun p => dotted.2.getLsbD p &&
      (!dotted.1.validPages.getLsbD p || pageDiffers dotted.1 p)) (by decide)
  refine ⟨⟨hall.state, hall.transferActive, hall.enabled, hall.confirmed, hall.validPages⟩, hdotted',
    fun p hp => ?_, fun p hp hclean => ?_, fun p hp hset hvalid => ?_⟩
  · rw [hdirty, Bool.and_eq_true, decide_eq_true_iff] at hp
    exact hp.1
  · rw [hdirty, decide_eq_true hp, Bool.true_and] at hclean
    show dotted.1.validPages.getLsbD p = true ∧ ∀ c < WIDTH,
      dotted.1.framebuffer (p * WIDTH + c) = dotted.1.confirmed (p * WIDTH + c)
    by_cases hflagged : dotted.2.getLsbD p = true
    · rw [hflagged, Bool.true_and, Bool.or_eq_false_iff, Bool.not_eq_false'] at hclean
      exact ⟨hclean.1, fun c hc => pageDiffers_false hclean.2 hc⟩
    · -- a page that is not flagged was up to date and is as it was
      rw [Bool.not_eq_true] at hflagged
      have hvalid : d.validPages = ALL_PAGES := by
        by_cases hvalid : d.validPages = ALL_PAGES
        · exact hvalid
        · rw [if_neg hvalid] at hchanged
          have hyes := hall.grows p (by rw [← hchanged]; exact allPages hp)
          rw [hflagged] at hyes
          cases hyes
      refine ⟨by rw [hall.validPages, hvalid]; exact allPages hp, fun c hc => ?_⟩
      rw [hall.same p hp hflagged c hc, hall.confirmed]
      exact hsynced hvalid p hp c hc
  · rw [hdirty, decide_eq_true hp, Bool.true_and, Bool.and_eq_true, Bool.or_eq_true] at hset
    refine pageDiffers_true (hset.2.resolve_left fun hno => ?_)
    have hyes : dotted.1.validPages.getLsbD p = true := hvalid
    rw [hyes] at hno
    cases hno

/-! ## Scans -/

section
variable {stops : Nat → Bool}

theorem scanUp_spec {fuel column : Nat}
    (h : ∃ j, column ≤ j ∧ j < column + fuel ∧ stops j = true) :
    ∃ r, scanUp stops fuel column = some r ∧ column ≤ r ∧ r < column + fuel ∧ stops r = true ∧
      ∀ j, column ≤ j → j < r → stops j = false := by
  induction fuel generalizing column with
  | zero =>
    obtain ⟨j, hlow, hhigh, -⟩ := h
    omega
  | succ fuel ih =>
    rw [scanUp]
    by_cases hstop : stops column = true
    · exact ⟨column, by rw [if_pos hstop], Nat.le_refl _, by omega, hstop, by intros; omega⟩
    · obtain ⟨j, hlow, hhigh, hj⟩ := h
      have hne : j ≠ column := by
        rintro rfl
        exact hstop hj
      obtain ⟨r, hscan, hr, hr', hstop', hbefore⟩ :=
        ih ⟨j, show column + 1 ≤ j by omega, by omega, hj⟩
      refine ⟨r, by rw [if_neg hstop]; exact hscan, by omega, by omega, hstop', fun k hk hkr => ?_⟩
      by_cases heq : k = column
      · rw [heq]
        exact Bool.eq_false_iff.mpr hstop
      · exact hbefore k (by omega) hkr

theorem scanDown_spec {column : Nat} (h : ∃ j < column, stops j = true) :
    ∃ r, scanDown stops column = some r ∧ r < column ∧ stops r = true ∧
      ∀ j, r < j → j < column → stops j = false := by
  induction column with
  | zero =>
    obtain ⟨j, hj, -⟩ := h
    omega
  | succ column ih =>
    rw [scanDown]
    by_cases hstop : stops column = true
    · exact ⟨column, by rw [if_pos hstop], Nat.lt_succ_self _, hstop, by intros; omega⟩
    · obtain ⟨j, hlt, hj⟩ := h
      have hne : j ≠ column := by
        rintro rfl
        exact hstop hj
      obtain ⟨r, hscan, hr, hstop', hafter⟩ := ih ⟨j, by omega, hj⟩
      refine ⟨r, by rw [if_neg hstop]; exact hscan, by omega, hstop', fun k hk hkc => ?_⟩
      by_cases heq : k = column
      · rw [heq]
        exact Bool.eq_false_iff.mpr hstop
      · exact hafter k hk (by omega)

end

/-- The window of the page that is sent: outside it the page is valid and up to date. -/
structure Window (d : Display) : Prop where
  page : d.page < PAGES
  dirty : d.dirtyPages.getLsbD d.page = true
  pos : 0 < d.columnCount
  inside : d.firstColumn + d.columnCount ≤ WIDTH
  outside : ∀ c < WIDTH, c < d.firstColumn ∨ d.firstColumn + d.columnCount ≤ c →
    d.validPages.getLsbD d.page = true ∧
      d.framebuffer (d.page * WIDTH + c) = d.confirmed (d.page * WIDTH + c)

theorem Sending.active {d : Display} (h : Sending d) (active : Bool) :
    Sending { d with transferActive := active } := ⟨h.low, h.synced, h.differs⟩

theorem Window.active {d : Display} (h : Window d) (active : Bool) :
    Window { d with transferActive := active } := ⟨h.page, h.dirty, h.pos, h.inside, h.outside⟩

theorem columns_spec {d : Display} {page : Nat} (h : Sending d) (hpage : page < PAGES)
    (hdirty : d.dirtyPages.getLsbD page = true) :
    ∃ first last, columns d page = some (first, last) ∧ first ≤ last ∧ last < WIDTH ∧
      ∀ c < WIDTH, c < first ∨ last < c → d.validPages.getLsbD page = true ∧
        d.framebuffer (page * WIDTH + c) = d.confirmed (page * WIDTH + c) := by
  unfold columns
  by_cases hvalid : d.validPages.getLsbD page = true
  · rw [if_pos hvalid]
    obtain ⟨c, hc, hne⟩ := h.differs page hpage hdirty hvalid
    obtain ⟨differs, hdiffers⟩ : ∃ differs : Nat → Bool,
      (fun c => d.framebuffer (page * WIDTH + c) != d.confirmed (page * WIDTH + c)) = differs :=
        ⟨_, rfl⟩
    have hc' : differs c = true := by
      rw [← hdiffers]
      exact bne_iff_ne.mpr hne
    have hsame (k : Nat) (hk : differs k = false) :
        d.framebuffer (page * WIDTH + k) = d.confirmed (page * WIDTH + k) := by
      rw [← hdiffers] at hk
      exact bne_eq_false_iff_eq.mp hk
    obtain ⟨first, hup, -, hfirst, hstop, hbefore⟩ :=
      @scanUp_spec differs WIDTH 0 ⟨c, Nat.zero_le _, by omega, hc'⟩
    obtain ⟨last, hdown, hlast, hstop', hafter⟩ := @scanDown_spec differs WIDTH ⟨c, hc, hc'⟩
    refine ⟨first, last, by rw [hdiffers, hup, hdown]; rfl, ?_, hlast,
      fun k hk hout => ⟨hvalid, hsame k ?_⟩⟩
    · by_cases hle : first ≤ last
      · exact hle
      · have hno := hbefore last (Nat.zero_le _) (by omega)
        rw [hstop'] at hno
        cases hno
    · rcases hout with hlow | hhigh
      · exact hbefore k (Nat.zero_le _) hlow
      · exact hafter k hhigh hk
  · rw [if_neg hvalid]
    exact ⟨0, WIDTH - 1, rfl, Nat.zero_le _, by decide, fun c hc hout => by omega⟩

theorem nextPage_spec {d : Display} (h : Sending d) :
    ∃ d', nextPage d = some d' ∧
      (d.dirtyPages = 0 ∧ d' = { d with state := if d.enabled then .ready else .enable } ∨
        ∃ page first count, d' = { d with
          page := page, firstColumn := first, columnCount := count, state := .page } ∧ Window d') := by
  unfold nextPage
  by_cases hzero : d.dirtyPages = 0
  · exact ⟨_, by rw [if_pos hzero], Or.inl ⟨hzero, rfl⟩⟩
  rw [if_neg hzero]
  obtain ⟨p, hp, hset⟩ := exists_page hzero
  obtain ⟨page, hscan, -, -, hdirty, -⟩ :=
    @scanUp_spec d.dirtyPages.getLsbD 8 0 ⟨p, Nat.zero_le _, by omega, hset⟩
  have hpage := h.low page hdirty
  obtain ⟨first, last, hcolumns, hle, hlast, hout⟩ := columns_spec h hpage hdirty
  refine ⟨_, by rw [hscan, Option.bind_some, hcolumns]; rfl, Or.inr ⟨_, _, _, rfl, ?_⟩⟩
  exact ⟨hpage, hdirty, Nat.succ_pos _, by dsimp only; omega,
    fun c hc hoc => hout c hc (by dsimp only at hoc; omega)⟩

/-! ## The display -/

/-- The invariant of the display. -/
structure Good (d : Display) : Prop where
  dotted : Dotted d
  early : d.state = .uninitialized ∨ d.state = .scanning ∨ d.state = .initializing →
    d.enabled = false ∧ d.validPages = 0 ∧ d.dirtyPages = 0
  ready : d.state = .ready → d.transferActive = false ∧ d.dirtyPages = 0 ∧
    (d.enabled = false → d.validPages = 0) ∧ (d.enabled = true → Sending d)
  page : d.state = .page → Sending d ∧ Window d
  enable : d.state = .enable → Sending d ∧ d.dirtyPages = 0
  active : d.transferActive = true →
    d.state = .scanning ∨ d.state = .initializing ∨ d.state = .page ∨ d.state = .enable

/-- A page that is valid has its confirmed bytes on the panel. -/
def Shown (d : Display) (panel : Panel) : Prop :=
  ∀ p < PAGES, d.validPages.getLsbD p = true → ∀ c < WIDTH,
    panel (p * WIDTH + c) = some (d.confirmed (p * WIDTH + c))

theorem Sending.shown {d : Display} {panel : Panel} (h : Sending d) (hclean : d.dirtyPages = 0)
    (hshown : Shown d panel) {k : Nat} (hk : k < PAGES * WIDTH) :
    panel k = some (d.framebuffer k) := by
  have hpage : k / WIDTH < PAGES := Nat.div_lt_of_lt_mul (by rw [Nat.mul_comm]; exact hk)
  have hcolumn : k % WIDTH < WIDTH := Nat.mod_lt k (by decide)
  have hindex : k / WIDTH * WIDTH + k % WIDTH = k := Nat.div_add_mod' k WIDTH
  obtain ⟨hvalid, hsame⟩ := h.synced _ hpage (by rw [hclean]; exact BitVec.getLsbD_zero)
  have hpanel := hshown _ hpage hvalid _ hcolumn
  rw [← hsame _ hcolumn, hindex] at hpanel
  exact hpanel

/-- A failed display sends nothing more. -/
theorem Good.failed {d : Display} (hdotted : Dotted d) (hstate : d.state = .failed)
    (hidle : d.transferActive = false) : Good d := by
  refine ⟨hdotted, fun h => ?_, fun h => ?_, fun h => ?_, fun h => ?_, fun h => ?_⟩
  · rw [hstate] at h
    rcases h with h | h | h <;> cases h
  · rw [hstate] at h
    cases h
  · rw [hstate] at h
    cases h
  · rw [hstate] at h
    cases h
  · rw [hidle] at h
    cases h

/-- The state that `nextPage` leads to. -/
theorem Good.next {d d' : Display} (h : Sending d) (hdotted : Dotted d)
    (hidle : d.transferActive = false) (hnext : nextPage d = some d') :
    Good d' ∧ d'.transferActive = false ∧ d'.framebuffer = d.framebuffer ∧
      d'.validPages = d.validPages ∧ d'.confirmed = d.confirmed := by
  obtain ⟨e, he, ⟨hclean, rfl⟩ | ⟨page, first, count, rfl, hwindow⟩⟩ := nextPage_spec h
  · obtain rfl := Option.some.inj (he.symm.trans hnext)
    refine ⟨?_, hidle, rfl, rfl, rfl⟩
    cases henabled : d.enabled with
    | true =>
      refine ⟨hdotted, fun h => ?_, fun _ =>
        ⟨hidle, hclean, fun h => ?_, fun _ => ⟨h.low, h.synced, h.differs⟩⟩, fun h => ?_, fun h => ?_, fun h => ?_⟩
      · rcases h with h | h | h <;> cases h
      · cases h
      · cases h
      · cases h
      · exact absurd (hidle.symm.trans h) (by decide)
    | false =>
      refine ⟨hdotted, fun h => ?_, fun h => ?_, fun h => ?_, fun _ =>
        ⟨⟨h.low, h.synced, h.differs⟩, hclean⟩, fun h => ?_⟩
      · rcases h with h | h | h <;> cases h
      · cases h
      · cases h
      · exact absurd (hidle.symm.trans h) (by decide)
  · obtain rfl := Option.some.inj (he.symm.trans hnext)
    refine ⟨⟨hdotted, fun h => ?_, fun h => ?_, fun _ => ⟨⟨h.low, h.synced, h.differs⟩, hwindow⟩,
      fun h => ?_, fun h => ?_⟩, hidle, rfl, rfl, rfl⟩
    · rcases h with h | h | h <;> cases h
    · cases h
    · cases h
    · exact absurd (hidle.symm.trans h) (by decide)

/-! ## Transfers -/

theorem receive_pageData {d : Display} {panel : Panel} (hpage : d.page < PAGES)
    (hinside : d.firstColumn < WIDTH) (k : Nat) :
    receive (pageData d) panel k =
      if d.page * WIDTH + d.firstColumn ≤ k ∧ k < d.page * WIDTH + d.firstColumn + d.columnCount then
        some (d.framebuffer k)
      else panel k := by
  have hp : ((0xb0 ||| BitVec.ofNat 8 d.page : Byte) &&& 7).toNat = d.page := by
    have hall : ∀ p : Fin 4, ((0xb0 ||| BitVec.ofNat 8 p.val : Byte) &&& 7).toNat = p.val := by
      decide
    exact hall ⟨d.page, hpage⟩
  have hc : ((0x10 ||| (BitVec.ofNat 8 d.firstColumn >>> 4) : Byte) &&& 0xf).toNat * 16 +
      ((BitVec.ofNat 8 d.firstColumn &&& 0xf : Byte) &&& 0xf).toNat = d.firstColumn := by
    have hall : ∀ c : Fin 128, ((0x10 ||| (BitVec.ofNat 8 c.val >>> 4) : Byte) &&& 0xf).toNat * 16 +
        ((BitVec.ofNat 8 c.val &&& 0xf : Byte) &&& 0xf).toNat = c.val := by decide
    exact hall ⟨d.firstColumn, hinside⟩
  unfold pageData receive
  dsimp only
  rw [if_pos (show (0x80 : Byte) = 0x80 ∧ (0x80 : Byte) = 0x80 ∧ (0x80 : Byte) = 0x80 ∧
    (0x40 : Byte) = 0x40 from ⟨rfl, rfl, rfl, rfl⟩)]
  rw [hp, hc, List.length_map, List.length_range]
  by_cases hin : d.page * WIDTH + d.firstColumn ≤ k ∧
    k < d.page * WIDTH + d.firstColumn + d.columnCount
  · rw [if_pos hin, if_pos hin, List.getElem?_map, List.getElem?_range (by omega), Option.map_some,
      Nat.add_sub_cancel' hin.1]
  · rw [if_neg hin, if_neg hin]

/-- Other transfers are commands only. -/
theorem receive_command {d : Display} {data : List Byte} (h : transfer d = some data)
    (hpage : d.state ≠ .page) (panel : Panel) : receive data panel = panel := by
  unfold transfer at h
  cases hstate : d.state with
  | scanning =>
    rw [hstate] at h
    obtain rfl := Option.some.inj h
    rfl
  | initializing =>
    rw [hstate] at h
    obtain rfl := Option.some.inj h
    rfl
  | enable =>
    rw [hstate] at h
    obtain rfl := Option.some.inj h
    rfl
  | page => exact absurd hstate hpage
  | uninitialized => rw [hstate] at h; cases h
  | ready => rw [hstate] at h; cases h
  | failed => rw [hstate] at h; cases h

/-- What a transfer's result leaves. -/
structure Settled (d m : Display) (panel panel' : Panel) : Prop where
  good : Good m
  idle : m.transferActive = false
  framebuffer : m.framebuffer = d.framebuffer
  shown : Shown d panel → Shown m panel'

/-- An acknowledged page: its window of the panel, and of the confirmed bytes, is the picture's. -/
theorem settle_page {d : Display} {panel : Panel} (hgood : Good d) (hpage : d.state = .page) :
    ∃ m, settle .complete d = some m ∧ Settled d m panel (receive (pageData d) panel) := by
  obtain ⟨hsending, hwindow⟩ := hgood.page hpage
  obtain ⟨e, he⟩ : ∃ e, ({ d with
    transferActive := false
    confirmed := copyBytes d.confirmed (d.page * WIDTH + d.firstColumn) d.framebuffer
      (d.page * WIDTH + d.firstColumn) d.columnCount
    validPages := d.validPages ||| ((1 : Byte) <<< d.page)
    dirtyPages := d.dirtyPages &&& ~~~((1 : Byte) <<< d.page) } : Display) = e := ⟨_, rfl⟩
  have hsettle : settle .complete d = nextPage e := by
    unfold settle
    dsimp only
    rw [if_neg (by decide), hpage, if_neg (by decide), if_neg (by decide), if_neg (by decide),
      if_pos rfl, ← he, hpage]
  have hbyte := hwindow.page
  have hinside := hwindow.inside
  have hpos := hwindow.pos
  have hpages : PAGES = 4 := rfl
  -- other pages have no byte in the window
  have hother {p c : Nat} (hp : p ≠ d.page) (hc : c < WIDTH) :
      ¬(d.page * WIDTH + d.firstColumn ≤ p * WIDTH + c ∧
        p * WIDTH + c < d.page * WIDTH + d.firstColumn + d.columnCount) := by
    unfold WIDTH at *
    omega
  have hconfirmed (k : Nat) : e.confirmed k =
      if d.page * WIDTH + d.firstColumn ≤ k ∧
        k < d.page * WIDTH + d.firstColumn + d.columnCount then d.framebuffer k
      else d.confirmed k := by
    rw [← he]
    show copyBytes _ _ _ _ _ k = _
    unfold copyBytes
    split
    next hin =>
      rw [Nat.sub_add_cancel hin.1]
    · rfl
  have hframe : e.framebuffer = d.framebuffer := by rw [← he]
  have hdirty {p : Nat} (hp : p < 8) :
      e.dirtyPages.getLsbD p = (d.dirtyPages.getLsbD p && !decide (d.page = p)) := by
    rw [← he]
    exact getLsbD_clear (by omega) hp
  have hvalid (p : Nat) :
      e.validPages.getLsbD p = (d.validPages.getLsbD p || decide (d.page = p)) := by
    rw [← he]
    exact getLsbD_set (by omega)
  have hsame {p c : Nat} (hp : p ≠ d.page) (hc : c < WIDTH) :
      e.confirmed (p * WIDTH + c) = d.confirmed (p * WIDTH + c) := by
    rw [hconfirmed, if_neg (hother hp hc)]
  have hown {c : Nat} (hc : c < WIDTH) :
      e.confirmed (d.page * WIDTH + c) = d.framebuffer (d.page * WIDTH + c) := by
    rw [hconfirmed]
    split
    · rfl
    next hout => exact (hwindow.outside c hc (by omega)).2.symm
  have hsending' : Sending e := by
    refine ⟨fun p hp => ?_, fun p hp hclean => ?_, fun p hp hset hvalid' => ?_⟩
    · by_cases h8 : p < 8
      · rw [hdirty h8, Bool.and_eq_true] at hp
        exact hsending.low p hp.1
      · rw [BitVec.getLsbD_of_ge _ _ (by omega)] at hp
        cases hp
    · by_cases heq : p = d.page
      · subst heq
        exact ⟨by rw [hvalid, decide_eq_true rfl, Bool.or_true],
          fun c hc => by rw [hframe, hown hc]⟩
      · rw [hdirty (by omega), decide_eq_false (Ne.symm heq), Bool.not_false, Bool.and_true] at hclean
        obtain ⟨hv, hs⟩ := hsending.synced p hp hclean
        exact ⟨by rw [hvalid, hv, Bool.true_or], fun c hc => by rw [hframe, hsame heq hc, hs c hc]⟩
    · have hset' := hset
      rw [hdirty (by omega), Bool.and_eq_true, Bool.not_eq_true', decide_eq_false_iff_not] at hset'
      rw [hvalid, decide_eq_false hset'.2, Bool.or_false] at hvalid'
      obtain ⟨c, hc, hne⟩ := hsending.differs p hp hset'.1 hvalid'
      exact ⟨c, hc, by rw [hframe, hsame (Ne.symm hset'.2) hc]; exact hne⟩
  have hdotted : Dotted e := by
    rw [← he]
    exact hgood.dotted
  have hidle : e.transferActive = false := by rw [← he]
  obtain ⟨m, hm, -⟩ := nextPage_spec hsending'
  obtain ⟨hgood', hidle', hframe', hvalid', hconfirmed'⟩ := Good.next hsending' hdotted hidle hm
  refine ⟨m, hsettle.trans hm, hgood', hidle', hframe'.trans hframe, fun hshown p hp hset c hc => ?_⟩
  rw [hconfirmed', receive_pageData hwindow.page (by omega), hconfirmed]
  split
  · rfl
  next hout =>
    rw [hvalid', hvalid, Bool.or_eq_true, decide_eq_true_iff] at hset
    refine hshown p hp (hset.elim id fun heq => ?_) c hc
    subst heq
    exact (hwindow.outside c hc (by omega)).1

theorem settle_spec {d : Display} {data : List Byte} {panel : Panel} {result : Result}
    (hgood : Good d) (hactive : d.transferActive = true) (hsent : transfer d = some data)
    (hresult : result ≠ .pending) :
    ∃ m, settle result d = some m ∧
      Settled d m panel (if result = .complete then receive data panel else panel) := by
  by_cases hfailed : result = .failed
  · subst hfailed
    exact ⟨_, rfl, Good.failed hgood.dotted rfl rfl, rfl, rfl, fun hshown => hshown⟩
  have hcommand (h : d.state ≠ .page) :
      (if result = .complete then receive data panel else panel) = panel := by
    rw [receive_command hsent h, ite_self]
  rcases hgood.active hactive with hstate | hstate | hstate | hstate
  · have hearly := hgood.early (Or.inr (Or.inl hstate))
    rw [hcommand (by rw [hstate]; decide)]
    unfold settle
    dsimp only
    rw [if_neg hfailed, if_pos hstate]
    split
    · refine ⟨_, rfl, ⟨hgood.dotted, fun _ => hearly, ?_, ?_, ?_, ?_⟩, rfl, rfl, fun hshown => hshown⟩
        <;> (intro h; cases h)
    · split
      · refine ⟨_, rfl, ⟨hgood.dotted, fun _ => hearly, ?_, ?_, ?_, ?_⟩, rfl, rfl,
          fun hshown => hshown⟩ <;> (intro h; simp only [hstate] at h; cases h)
      · exact ⟨_, rfl, Good.failed hgood.dotted rfl rfl, rfl, rfl, fun hshown => hshown⟩
  · have hearly := hgood.early (Or.inr (Or.inr hstate))
    rw [hcommand (by rw [hstate]; decide)]
    unfold settle
    dsimp only
    rw [if_neg hfailed, hstate, if_neg (by decide)]
    split
    · exact ⟨_, rfl, Good.failed hgood.dotted rfl rfl, rfl, rfl, fun hshown => hshown⟩
    · rw [if_pos rfl]
      refine ⟨_, rfl, ⟨hgood.dotted, ?_, fun _ => ⟨rfl, hearly.2.2, fun _ => hearly.2.1, ?_⟩, ?_, ?_,
        ?_⟩, rfl, rfl, fun hshown => hshown⟩
      · rintro (h | h | h) <;> cases h
      · intro h
        exact absurd (hearly.1.symm.trans h) (by decide)
      · intro h; cases h
      · intro h; cases h
      · intro h; cases h
  · have hdata : pageData d = data := by
      unfold transfer at hsent
      rw [hstate] at hsent
      exact Option.some.inj hsent
    cases result with
    | pending => exact absurd rfl hresult
    | failed => exact absurd rfl hfailed
    | nack =>
      unfold settle
      dsimp only
      rw [if_neg hfailed, hstate, if_neg (by decide), if_pos rfl]
      exact ⟨_, rfl, Good.failed hgood.dotted rfl rfl, rfl, rfl, fun hshown => hshown⟩
    | complete =>
      rw [if_pos rfl, ← hdata]
      exact settle_page hgood hstate
  · obtain ⟨hsending, hclean⟩ := hgood.enable hstate
    rw [hcommand (by rw [hstate]; decide)]
    unfold settle
    dsimp only
    rw [if_neg hfailed, hstate, if_neg (by decide)]
    split
    · exact ⟨_, rfl, Good.failed hgood.dotted rfl rfl, rfl, rfl, fun hshown => hshown⟩
    · rw [if_neg (by decide), if_neg (by decide)]
      refine ⟨_, rfl, ⟨hgood.dotted, ?_, fun _ => ⟨rfl, hclean, ?_,
        fun _ => ⟨hsending.low, hsending.synced, hsending.differs⟩⟩, ?_, ?_, ?_⟩, rfl, rfl,
        fun hshown => hshown⟩
      · rintro (h | h | h) <;> cases h
      · intro h; cases h
      · intro h; cases h
      · intro h; cases h
      · intro h; cases h

/-! ## What follows -/

/-- What `start` and `proceed` lead to; `sent` is the transfer that they have begun. -/
structure Proceeded (d e : Display) (sent : Option (List Byte)) : Prop where
  good : Good e
  validPages : e.validPages = d.validPages
  confirmed : e.confirmed = d.confirmed
  sending : e.transferActive = true → sent.isSome = true ∧ sent = transfer e
  enabling : sent = some enableCommand → e.state = .enable

theorem Good.start {i : Input} {d : Display} (h : Good d) :
    Proceeded d (start i d).1 (start i d).2 ∧ (start i d).1.framebuffer = d.framebuffer := by
  unfold Oled.start
  have htransfer (active : Bool) : transfer { d with transferActive := active } = transfer d := rfl
  dsimp only
  cases hactive : ((transfer d).isSome && i.accepted) with
  | true =>
    rw [Bool.and_eq_true] at hactive
    rw [Bool.not_true, Bool.false_and, if_neg Bool.false_ne_true, if_pos rfl, htransfer]
    refine ⟨⟨⟨h.dotted, h.early, fun hready => ?_, fun hpage => ?_,
      fun henable => ⟨(h.enable henable).1.active true, (h.enable henable).2⟩, fun _ => ?_⟩, rfl, rfl,
      fun _ => ⟨hactive.1, htransfer true⟩, fun henable => ?_⟩, rfl⟩
    · have hnone : transfer d = none := by
        unfold transfer
        rw [show d.state = .ready from hready]
      rw [hnone] at hactive
      cases hactive.1
    · exact ⟨(h.page hpage).1.active true, (h.page hpage).2.active true⟩
    · have hsome := hactive.1
      unfold transfer at hsome
      cases hstate : d.state with
      | scanning => exact Or.inl rfl
      | initializing => exact Or.inr (Or.inl rfl)
      | page => exact Or.inr (Or.inr (Or.inl rfl))
      | enable => exact Or.inr (Or.inr (Or.inr rfl))
      | uninitialized => rw [hstate] at hsome; cases hsome
      | ready => rw [hstate] at hsome; cases hsome
      | failed => rw [hstate] at hsome; cases hsome
    · show d.state = .enable
      unfold transfer at henable
      cases hstate : d.state with
      | enable => rfl
      | scanning =>
        rw [hstate] at henable
        exact absurd (Option.some.inj henable) (by decide)
      | initializing =>
        rw [hstate] at henable
        exact absurd (Option.some.inj henable) (by decide)
      | page =>
        rw [hstate] at henable
        exact absurd (List.cons.inj (Option.some.inj henable)).1 (by decide)
      | uninitialized => rw [hstate] at henable; cases henable
      | ready => rw [hstate] at henable; cases henable
      | failed => rw [hstate] at henable; cases henable
  | false =>
    by_cases hready : d.state = .ready
    · rw [if_neg (by rw [hready]; decide), if_neg (by decide)]
      obtain ⟨-, hclean, hfresh, hsending⟩ := h.ready hready
      refine ⟨⟨⟨h.dotted, h.early,
        fun _ => ⟨rfl, hclean, hfresh, fun henabled => (hsending henabled).active false⟩,
        fun hpage => ⟨(h.page hpage).1.active false, (h.page hpage).2.active false⟩,
        fun henable => ⟨(h.enable henable).1.active false, (h.enable henable).2⟩,
        fun h => ?_⟩, rfl, rfl, fun h => ?_, fun h => ?_⟩, rfl⟩
      · cases h
      · cases h
      · cases h
    · rw [if_pos (by rw [decide_eq_true hready]; rfl)]
      refine ⟨⟨Good.failed h.dotted rfl rfl, rfl, rfl, fun h => ?_, fun h => ?_⟩, rfl⟩
      · cases h
      · cases h

theorem Sending.ticked {d : Display} (h : Sending d) (hdotted : Dotted d)
    (hidle : d.transferActive = false) (tick : BitVec 64) :
    ∃ m, nextPage { d with nextTickUs := tick } = some m ∧ Good m ∧ m.validPages = d.validPages ∧
      m.confirmed = d.confirmed := by
  obtain ⟨r, hr⟩ : ∃ r, ({ d with nextTickUs := tick } : Display) = r := ⟨_, rfl⟩
  have hsending : Sending r := by
    rw [← hr]
    exact ⟨h.low, h.synced, h.differs⟩
  have hdotted' : Dotted r := by
    rw [← hr]
    exact hdotted
  have hidle' : r.transferActive = false := by
    rw [← hr]
    exact hidle
  obtain ⟨m, hm, -⟩ := nextPage_spec hsending
  obtain ⟨hgood, -, -, hvalid, hconfirmed⟩ := Good.next hsending hdotted' hidle' hm
  rw [← hr] at hvalid hconfirmed
  exact ⟨m, by rw [hr, hm], hgood, hvalid, hconfirmed⟩

theorem Good.proceed {i : Input} {d : Display} (h : Good d) (hidle : d.transferActive = false) :
    ∃ e sent, proceed i d = some (e, sent) ∧ Proceeded d e sent ∧
      (d.dirtyPages ≠ 0 → e.framebuffer = d.framebuffer) := by
  unfold Oled.proceed
  by_cases hallowed : i.updatesAllowed = true
  swap
  · rw [Bool.not_eq_true] at hallowed
    rw [hallowed, Bool.not_false, if_pos rfl]
    refine ⟨d, none, rfl, ⟨h, rfl, rfl, fun hactive => ?_, fun hno => ?_⟩, fun _ => rfl⟩
    · rw [hidle] at hactive
      cases hactive
    · cases hno
  rw [hallowed, Bool.not_true, if_neg Bool.false_ne_true]
  dsimp only
  by_cases hstate : d.state = .uninitialized
  · rw [if_pos hstate, if_neg (show State.scanning ≠ State.ready by decide)]
    have hgood : Good { d with state := .scanning } := by
      refine ⟨h.dotted, fun _ => h.early (Or.inl hstate), ?_, ?_, ?_, fun _ => Or.inl rfl⟩ <;>
        (intro h; cases h)
    obtain ⟨hproceeded, hframe⟩ := @Good.start i _ hgood
    exact ⟨_, _, rfl, ⟨hproceeded.good, hproceeded.validPages, hproceeded.confirmed,
      hproceeded.sending, hproceeded.enabling⟩, fun _ => hframe⟩
  rw [if_neg hstate]
  by_cases hready : d.state = .ready
  swap
  · rw [if_neg hready]
    obtain ⟨hproceeded, hframe⟩ := @Good.start i d h
    exact ⟨_, _, rfl, hproceeded, fun _ => hframe⟩
  rw [if_pos hready]
  obtain ⟨-, hclean, hfresh, hsending⟩ := h.ready hready
  split
  · refine ⟨d, none, rfl, ⟨h, rfl, rfl, fun hactive => ?_, fun hno => ?_⟩, fun _ => rfl⟩
    · rw [hidle] at hactive
      cases hactive
    · cases hno
  obtain ⟨hkept, hdotted, hrendered⟩ := render_spec i h.dotted fun hall p hp => by
    cases henabled : d.enabled with
    | true => exact ((hsending henabled).synced p hp (by rw [hclean]; exact BitVec.getLsbD_zero)).2
    | false =>
      rw [hfresh henabled] at hall
      exact absurd hall (by decide)
  generalize render i d = drawn at hkept hdotted hrendered
  obtain ⟨m, hm, hgood, hvalid, hconfirmed⟩ := hrendered.ticked hdotted
    (hkept.transferActive.trans hidle) (BitVec.ofNat 64 ((i.time.toNat / 1000000 + 1) * 1000000))
  obtain ⟨hproceeded, -⟩ := @Good.start i m hgood
  refine ⟨_, _, by rw [hm]; rfl, ⟨hproceeded.good, ?_, ?_, hproceeded.sending, hproceeded.enabling⟩,
    fun hdirty => absurd hclean hdirty⟩
  · rw [hproceeded.validPages, hvalid, hkept.validPages]
  · rw [hproceeded.confirmed, hconfirmed, hkept.confirmed]

/-! ## Runs -/

structure Inv (s : System) : Prop where
  good : Good s.display
  shown : Shown s.display s.panel
  inFlight : s.display.transferActive = true → transfer s.display = some s.inFlight

theorem inv_initial : Inv System.initial := by
  refine ⟨⟨?_, fun _ => ⟨rfl, rfl, rfl⟩, ?_, ?_, ?_, ?_⟩, fun p _ hvalid => ?_, ?_⟩
  · funext k
    have hoff : (if false = true then (0 : Byte) ||| HEARTBEAT_BITS else 0 &&& ~~~HEARTBEAT_BITS) =
        0 := by decide
    rw [dots_apply]
    split
    · exact hoff
    · split
      · exact hoff
      · rfl
  · intro h; cases h
  · intro h; cases h
  · intro h; cases h
  · intro h; cases h
  · rw [show System.initial.display.validPages = 0#8 from rfl, BitVec.getLsbD_zero] at hvalid
    cases hvalid
  · intro h; cases h

/-- What holds after every call: a valid page has its confirmed bytes on the panel, an enabled panel
at rest shows the picture, and the window of a page lies inside it. -/
structure Converged (s : System) : Prop where
  confirmed : ∀ p < PAGES, s.display.validPages.getLsbD p = true → ∀ c < WIDTH,
    s.panel (p * WIDTH + c) = some (s.display.confirmed (p * WIDTH + c))
  framebuffer : s.display.state = .ready → s.display.enabled = true → ∀ k < PAGES * WIDTH,
    s.panel k = some (s.display.framebuffer k)
  window : s.display.state = .page → s.display.page < PAGES ∧ 0 < s.display.columnCount ∧
    s.display.firstColumn + s.display.columnCount ≤ WIDTH

/-- What one call must not do: draw while a page is still to be sent once the result of the transfer
is taken, and enable the panel before every byte of it is written. -/
structure Careful (i : Input) (s t : System) : Prop where
  unsent : s.display.framebuffer ≠ t.display.framebuffer →
    ∃ m, (if settles i s.display then settle i.result s.display else some s.display) = some m ∧
      m.dirtyPages = 0
  enabled : t.sent = some enableCommand → ∀ k < PAGES * WIDTH,
    t.panel k = some (t.display.framebuffer k)

theorem Inv.converged {s : System} (h : Inv s) : Converged s where
  confirmed := h.shown
  framebuffer hready henabled _ hk :=
    ((h.good.ready hready).2.2.2 henabled).shown (h.good.ready hready).2.1 h.shown hk
  window hpage :=
    have hwindow := (h.good.page hpage).2
    ⟨hwindow.page, hwindow.pos, hwindow.inside⟩

/-- The status word is none of the invariant's fields. -/
theorem publishStatus_kept (i : Input) (d : Display) :
    ∃ last published, publishStatus i d =
      { d with lastPublishedStatus := last, publishedStatus := published } := by
  unfold publishStatus
  dsimp only
  split
  · exact ⟨_, _, rfl⟩
  · exact ⟨d.lastPublishedStatus, d.publishedStatus, rfl⟩

theorem Good.status {d : Display} (h : Good d) (last published : BitVec 32) :
    Good { d with lastPublishedStatus := last, publishedStatus := published } where
  dotted := h.dotted
  early := h.early
  ready hready :=
    have hd := h.ready hready
    ⟨hd.1, hd.2.1, hd.2.2.1, fun henabled =>
      have hsending := hd.2.2.2 henabled
      ⟨hsending.low, hsending.synced, hsending.differs⟩⟩
  page hpage :=
    have hsending := (h.page hpage).1
    have hwindow := (h.page hpage).2
    ⟨⟨hsending.low, hsending.synced, hsending.differs⟩,
      ⟨hwindow.page, hwindow.dirty, hwindow.pos, hwindow.inside, hwindow.outside⟩⟩
  enable henable :=
    have hsending := (h.enable henable).1
    ⟨⟨hsending.low, hsending.synced, hsending.differs⟩, (h.enable henable).2⟩
  active := h.active

/-- The end of a call that is not idle. -/
theorem finish {i : Input} {s : System} {m e : Display} {sent : Option (List Byte)} {panel : Panel}
    (hservice : service i s.display = some (e, sent)) (hidle : idle i s.display = false)
    (hpanel : (if settles i s.display && decide (i.result = .complete) then receive s.inFlight s.panel
      else s.panel) = panel)
    (hgood : Good e) (hshown : Shown e panel)
    (hsending : e.transferActive = true → transfer e = some (sent.getD s.inFlight))
    (henabling : sent = some enableCommand → e.state = .enable)
    (hsettled : (if settles i s.display then settle i.result s.display else some s.display) = some m)
    (hframe : m.dirtyPages ≠ 0 → e.framebuffer = s.display.framebuffer) :
    ∃ t, step i s = some t ∧ Inv t ∧ Careful i s t := by
  obtain ⟨last, published, hstatus⟩ := publishStatus_kept i e
  refine ⟨⟨publishStatus i e, panel, sent.getD s.inFlight, sent⟩, ?_, ⟨?_, ?_, ?_⟩, ?_, ?_⟩
  · unfold step publish
    rw [hidle, if_neg Bool.false_ne_true, hservice, Option.map_some, Option.map_some, hpanel]
  · show Good (publishStatus i e)
    rw [hstatus]
    exact hgood.status last published
  · show Shown (publishStatus i e) panel
    rw [hstatus]
    exact hshown
  · show (publishStatus i e).transferActive = true →
      transfer (publishStatus i e) = some (sent.getD s.inFlight)
    rw [hstatus]
    exact hsending
  · intro hne
    refine ⟨m, hsettled, Decidable.byContradiction fun hdirty => hne ?_⟩
    show s.display.framebuffer = (publishStatus i e).framebuffer
    rw [hstatus]
    exact (hframe hdirty).symm
  · intro henable k hk
    show panel k = some ((publishStatus i e).framebuffer k)
    rw [hstatus]
    obtain ⟨hall, hclean⟩ := hgood.enable (henabling henable)
    exact hall.shown hclean hshown hk

theorem step_spec (i : Input) {s : System} (h : Inv s) :
    ∃ t, step i s = some t ∧ Inv t ∧ Careful i s t := by
  cases hidle : idle i s.display with
  | true =>
    have hsettles : settles i s.display = false := by
      unfold settles
      rw [hidle, Bool.not_true, Bool.false_and, Bool.false_and]
    refine ⟨{ s with sent := none }, ?_, ⟨h.good, h.shown, h.inFlight⟩, fun hne => absurd rfl hne,
      fun hno => ?_⟩
    · unfold step publish
      rw [hidle, if_pos rfl, hsettles, Bool.false_and, if_neg Bool.false_ne_true]
      rfl
    · cases hno
  | false =>
    cases hactive : s.display.transferActive with
    | false =>
      have hsettles : settles i s.display = false := by
        unfold settles
        rw [hactive, Bool.and_false, Bool.false_and]
      obtain ⟨e, sent, he, hproceeded, hframe⟩ := @Good.proceed i _ h.good hactive
      refine @finish i s s.display e sent s.panel ?_ hidle ?_
        hproceeded.good ?_ ?_ hproceeded.enabling ?_ hframe
      · unfold service
        rw [hactive, if_neg Bool.false_ne_true, he]
      · rw [hsettles, Bool.false_and, if_neg Bool.false_ne_true]
      · intro p hp hvalid c hc
        rw [hproceeded.validPages] at hvalid
        rw [hproceeded.confirmed]
        exact h.shown p hp hvalid c hc
      · intro hsend
        obtain ⟨hsome, heq⟩ := hproceeded.sending hsend
        rw [← heq]
        obtain ⟨data, hdata⟩ := Option.isSome_iff_exists.mp hsome
        rw [hdata]
        rfl
      · rw [hsettles, if_neg Bool.false_ne_true]
    | true =>
      by_cases hpending : i.result = .pending
      · have hsettles : settles i s.display = false := by
          unfold settles
          rw [hpending]
          exact Bool.and_false _
        refine @finish i s s.display s.display none s.panel ?_ hidle ?_
          h.good h.shown (fun hsend => h.inFlight hsend) (fun hno => ?_) ?_ fun _ => rfl
        · unfold service
          rw [hactive, if_pos rfl, if_pos hpending]
        · rw [hsettles, Bool.false_and, if_neg Bool.false_ne_true]
        · cases hno
        · rw [hsettles, if_neg Bool.false_ne_true]
      · have hsettles : settles i s.display = true := by
          unfold settles
          rw [hidle, hactive, decide_eq_true hpending]
          rfl
        obtain ⟨m, hm, hsettled⟩ := @settle_spec s.display s.inFlight s.panel i.result h.good
          hactive (h.inFlight hactive) hpending
        have hpanel : (if settles i s.display && decide (i.result = .complete) then
            receive s.inFlight s.panel else s.panel) =
              (if i.result = .complete then receive s.inFlight s.panel else s.panel) := by
          rw [hsettles, Bool.true_and]
          simp only [decide_eq_true_iff]
        have hshown := hsettled.shown h.shown
        by_cases hfailed : m.state = .failed
        · refine @finish i s m m none _ ?_ hidle hpanel hsettled.good hshown
            (fun hsend => ?_) (fun hno => ?_) ?_ fun _ => hsettled.framebuffer
          · unfold service
            rw [hactive, if_pos rfl, if_neg hpending, hm, Option.bind_some, if_pos hfailed]
          · rw [hsettled.idle] at hsend
            cases hsend
          · cases hno
          · rw [hsettles, if_pos rfl, hm]
        · obtain ⟨e, sent, he, hproceeded, hframe⟩ := @Good.proceed i _ hsettled.good hsettled.idle
          refine @finish i s m e sent _ ?_ hidle hpanel hproceeded.good ?_ ?_
            hproceeded.enabling ?_ fun hdirty => (hframe hdirty).trans hsettled.framebuffer
          · unfold service
            rw [hactive, if_pos rfl, if_neg hpending, hm, Option.bind_some, if_neg hfailed, he]
          · intro p hp hvalid c hc
            rw [hproceeded.validPages] at hvalid
            rw [hproceeded.confirmed]
            exact hshown p hp hvalid c hc
          · intro hsend
            obtain ⟨hsome, heq⟩ := hproceeded.sending hsend
            rw [← heq]
            obtain ⟨data, hdata⟩ := Option.isSome_iff_exists.mp hsome
            rw [hdata]
            rfl
          · rw [hsettles, if_pos rfl, hm]

/-- A run of calls; it has no result if a scan has left its page. -/
def calls (inputs : List Input) : Option System :=
  run (fun s i => s.bind (step i)) (some System.initial) inputs

theorem calls_inv (inputs : List Input) : ∃ s, calls inputs = some s ∧ Inv s := by
  refine run_invariant (I := fun o => ∃ s, o = some s ∧ Inv s) ?_ ⟨_, rfl, inv_initial⟩ inputs
  rintro o i ⟨s, rfl, hs⟩
  obtain ⟨t, ht, hinv, -⟩ := step_spec i hs
  exact ⟨t, ht, hinv⟩

/-- Whatever the clock, the network and the bus do, no scan leaves its page, the panel follows the
picture, and the panel is enabled only when all of it is written. -/
theorem delta_updates_converge (inputs : List Input) (i : Input) :
    ∃ s t, calls inputs = some s ∧ calls (inputs ++ [i]) = some t ∧ Converged s ∧ Converged t ∧
      Careful i s t := by
  obtain ⟨s, hs, hinv⟩ := calls_inv inputs
  obtain ⟨t, ht, hinv', hcareful⟩ := step_spec i hinv
  refine ⟨s, t, hs, ?_, hinv.converged, hinv'.converged, hcareful⟩
  unfold calls at hs ⊢
  rw [run_append, hs]
  exact ht

end Z80Sbc.Oled.Convergence
