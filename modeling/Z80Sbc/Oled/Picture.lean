import Mathlib.Algebra.Group.Nat.Defs

/-! # The picture of the status display

Four pages of 128 columns; a byte holds eight rows of its column, the lowest bit the topmost.
The text is drawn with glyphs of three columns and five rows at twice their size. -/

namespace Z80Sbc.Oled

abbrev Byte := BitVec 8

/-- A bitmap by the index of the byte. -/
abbrev Picture := Nat → Byte

def WIDTH : Nat := 128
def PAGES : Nat := 4
def IP_Y : Nat := 2
def UPTIME_Y : Nat := 20
def FIELD_ROWS : Nat := 10
def SCALE : Nat := 2
def HEARTBEAT_COLUMN : Nat := WIDTH - 2
def WEB_DOT_COLUMN : Nat := HEARTBEAT_COLUMN - 4
def HEARTBEAT_BITS : Byte := 0xc0
def Z80_WEB_TERMINAL_PORT : Nat := 8088

/-! ## Glyphs -/

def glyph (a b c d e : BitVec 16) : BitVec 16 :=
  (a <<< 12) ||| (b <<< 9) ||| (c <<< 6) ||| (d <<< 3) ||| e

/-- A character that is not supported fails an assertion in the source. -/
def character (c : Char) : BitVec 16 :=
  match c with
  | '0' => glyph 7 5 5 5 7
  | '1' => glyph 2 6 2 2 7
  | '2' => glyph 7 1 7 4 7
  | '3' => glyph 7 1 7 1 7
  | '4' => glyph 5 5 7 1 1
  | '5' => glyph 7 4 7 1 7
  | '6' => glyph 7 4 7 5 7
  | '7' => glyph 7 1 1 2 2
  | '8' => glyph 7 5 7 5 7
  | '9' => glyph 7 5 7 1 7
  | 'E' => glyph 7 4 6 4 7
  | 'F' => glyph 7 4 6 4 4
  | 'I' => glyph 7 2 2 2 7
  | 'L' => glyph 4 4 4 4 7
  | 'N' => glyph 5 7 7 7 5
  | 'O' => glyph 7 5 5 5 7
  | 'P' => glyph 7 5 7 4 4
  | 'R' => glyph 6 5 6 5 5
  | 'U' => glyph 5 5 5 5 7
  | 'd' => glyph 1 1 7 5 7
  | ':' => glyph 0 2 0 2 0
  | '.' => glyph 0 0 0 0 2
  | _ => 0

def glyphColumns (c : Char) : Nat :=
  if c = '.' ∨ c = ':' then 1 else if c = ' ' then 0 else 3

/-- How far a text moves the pen. -/
def advance (value : List Char) : Nat :=
  value.foldr (fun c n => (glyphColumns c + 1) * SCALE + n) 0

/-- `advance` without the last gap. -/
def textWidth (value : List Char) : Nat := advance value - SCALE

/-! ## Drawing -/

def setPixel (pixels : Picture) (stride x y : Nat) : Picture := fun i =>
  if i = y / 8 * stride + x then pixels i ||| ((1 : Byte) <<< (y % 8)) else pixels i

/-- One glyph of `columns` columns, from the column `first` of its pixels on. -/
def drawGlyph (pixels : Picture) (stride x y columns first : Nat) (glyphPixels : BitVec 16) :
    Picture :=
  (List.range 5).foldl (fun pixels row =>
    (List.range columns).foldl (fun pixels col =>
      if glyphPixels.getLsbD (14 - row * 3 - first - col) then
        (List.range SCALE).foldl (fun pixels dy =>
          (List.range SCALE).foldl (fun pixels dx =>
            setPixel pixels stride (x + col * SCALE + dx) (y + row * SCALE + dy)) pixels) pixels
      else pixels) pixels) pixels

def drawText (pixels : Picture) (stride x y : Nat) : List Char → Picture
  | [] => pixels
  | c :: value =>
    let columns := glyphColumns c
    let first := if columns = 1 then 1 else 0
    drawText (drawGlyph pixels stride x y columns first (character c)) stride
      (x + (columns + 1) * SCALE) y value

def text (framebuffer : Picture) (y : Nat) (value : List Char) (x : Nat) : Picture :=
  drawText framebuffer WIDTH x y value

def clearField (framebuffer : Picture) (y firstX : Nat) : Picture :=
  (List.range FIELD_ROWS).foldl (fun framebuffer row =>
    (List.range (WIDTH - firstX)).foldl (fun framebuffer x => fun i =>
      if i = (y + row) / 8 * WIDTH + (firstX + x) then
        framebuffer i &&& ~~~((1 : Byte) <<< ((y + row) % 8))
      else framebuffer i) framebuffer) framebuffer

def decimal (n : Nat) : List Char := Nat.toDigits 10 n

def portLabel : List Char := "P:".toList ++ decimal Z80_WEB_TERMINAL_PORT
def PORT_COLUMNS : Nat := textWidth portLabel
def UPTIME_X : Nat := PORT_COLUMNS + 2 * SCALE
def UPTIME_PAGE : Nat := UPTIME_Y / 8

def portBitmap : Picture :=
  drawText (fun _ => 0) PORT_COLUMNS 0 (UPTIME_Y - UPTIME_PAGE * 8) portLabel

/-- `memcpy` of `length` bytes. -/
def copyBytes (target : Picture) (offset : Nat) (source : Picture) (start length : Nat) : Picture :=
  fun i => if offset ≤ i ∧ i < offset + length then source (i - offset + start) else target i

def drawPort (framebuffer : Picture) : Picture :=
  (List.range 2).foldl (fun framebuffer p =>
    copyBytes framebuffer ((UPTIME_PAGE + p) * WIDTH) portBitmap (p * PORT_COLUMNS) PORT_COLUMNS)
    framebuffer

/-- Sets or clears a dot of two columns in the last two rows. -/
def setDot (framebuffer : Picture) (column : Nat) (on : Bool) : Picture :=
  (List.range 2).foldl (fun framebuffer x => fun i =>
    if i = 3 * WIDTH + (column + x) then
      if on then framebuffer i ||| HEARTBEAT_BITS else framebuffer i &&& ~~~HEARTBEAT_BITS
    else framebuffer i) framebuffer

/-! ## Texts -/

/-- `%02u` -/
def twoDigits (n : Nat) : List Char := if n < 10 then '0' :: decimal n else decimal n

/-- The clock, with the days after the first day. From 1000 days on the label is dropped, then the
clock. -/
def uptimeText (seconds : Nat) : List Char :=
  let hours := seconds / 3600
  let minutes := seconds / 60 % 60
  if hours < 24 then "U: ".toList ++ twoDigits hours ++ ":".toList ++ twoDigits minutes
  else
    let days := hours / 24
    let hour := hours % 24
    let uptime := "U: ".toList ++ decimal days ++ "d ".toList ++ twoDigits hour ++ ":".toList ++
      twoDigits minutes
    let uptime :=
      if UPTIME_X + textWidth uptime > WIDTH then
        decimal days ++ "d ".toList ++ twoDigits hour ++ ":".toList ++ twoDigits minutes
      else uptime
    if UPTIME_X + textWidth uptime > WIDTH then decimal days ++ "d".toList else uptime

/-- An IPv4 address as the network publishes it; none before there is one. -/
abbrev Address := Option (Byte × Byte × Byte × Byte)

def addressText : Address → List Char
  | none => []
  | some (a, b, c, d) =>
    decimal a.toNat ++ ".".toList ++ decimal b.toNat ++ ".".toList ++ decimal c.toNat ++
      ".".toList ++ decimal d.toNat

/-- The text as `z80_io_ports_get_network_address` cuts it to 16 bytes, and what it returns. -/
def getNetworkAddress (address : Address) : List Char × Nat :=
  let length := (addressText address).length
  ((addressText address).take 15, if length < 16 then length else 0)

/-! ## Where the drawing stays -/

section
variable {P : Picture → Prop} {pixels : Picture}

theorem foldl_range_keeps {f : Picture → Nat → Picture} {n : Nat}
    (hstep : ∀ j < n, ∀ s, P s → P (f s j)) (h : P pixels) : P ((List.range n).foldl f pixels) := by
  have hall : ∀ l : List Nat, (∀ j ∈ l, j < n) → ∀ s, P s → P (l.foldl f s) := by
    intro l
    induction l with
    | nil => exact fun _ _ hs => hs
    | cons j l ih =>
      intro hl s hs
      exact ih (fun k hk => hl k (List.mem_cons_of_mem _ hk)) _
        (hstep j (hl j List.mem_cons_self) s hs)
  exact hall _ (fun j hj => List.mem_range.mp hj) _ h

end

/-- The byte is in one of the pages that ten rows from `y` on meet. -/
def InField (y i : Nat) : Prop := ∃ row < FIELD_ROWS, i / WIDTH = (y + row) / 8

theorem inField_of {y row x : Nat} (hrow : row < FIELD_ROWS) (hx : x < WIDTH) :
    InField y ((y + row) / 8 * WIDTH + x) := by
  refine ⟨row, hrow, ?_⟩
  unfold WIDTH at hx ⊢
  omega

theorem drawGlyph_outside {pixels : Picture} {x y columns first i : Nat} {glyphPixels : BitVec 16}
    (hfits : x + columns * SCALE ≤ WIDTH) (hi : ¬InField y i) :
    drawGlyph pixels WIDTH x y columns first glyphPixels i = pixels i := by
  refine foldl_range_keeps (P := fun s => s i = pixels i) (fun row hrow s hs => ?_) rfl
  refine foldl_range_keeps (P := fun s => s i = pixels i) (fun col hcol s hs => ?_) hs
  split
  · refine foldl_range_keeps (P := fun s => s i = pixels i) (fun dy hdy s hs => ?_) hs
    refine foldl_range_keeps (P := fun s => s i = pixels i) (fun dx hdx s hs => ?_) hs
    unfold setPixel
    rw [if_neg]
    · exact hs
    · intro heq
      refine hi ?_
      rw [heq, Nat.add_assoc y]
      unfold SCALE at *
      exact inField_of (by unfold FIELD_ROWS; omega) (by omega)
  · exact hs

theorem text_outside {framebuffer : Picture} {y x i : Nat} {value : List Char}
    (hfits : x + advance value ≤ WIDTH + SCALE) (hi : ¬InField y i) :
    text framebuffer y value x i = framebuffer i := by
  unfold text
  induction value generalizing framebuffer x with
  | nil => rfl
  | cons c value ih =>
    have hadvance : advance (c :: value) = (glyphColumns c + 1) * SCALE + advance value := rfl
    rw [hadvance] at hfits
    rw [drawText, ih (by omega), drawGlyph_outside (by unfold SCALE WIDTH at *; omega) hi]

theorem clearField_outside {framebuffer : Picture} {y firstX i : Nat} (hi : ¬InField y i) :
    clearField framebuffer y firstX i = framebuffer i := by
  refine foldl_range_keeps (P := fun s => s i = framebuffer i) (fun row hrow s hs => ?_) rfl
  refine foldl_range_keeps (P := fun s => s i = framebuffer i) (fun x hx s hs => ?_) hs
  rw [if_neg]
  · exact hs
  · intro heq
    refine hi ?_
    rw [heq]
    exact inField_of hrow (by omega)

theorem drawPort_outside {framebuffer : Picture} {i : Nat} (hi : i < 2 * WIDTH) :
    drawPort framebuffer i = framebuffer i := by
  refine foldl_range_keeps (P := fun s => s i = framebuffer i) (fun p hp s hs => ?_) rfl
  unfold copyBytes
  rw [if_neg]
  · exact hs
  · have hpage : UPTIME_PAGE = 2 := rfl
    rw [hpage]
    unfold WIDTH at *
    omega

theorem setDot_outside {framebuffer : Picture} {column i : Nat} {on : Bool}
    (hi : i < 3 * WIDTH) : setDot framebuffer column on i = framebuffer i := by
  refine foldl_range_keeps (P := fun s => s i = framebuffer i) (fun x hx s hs => ?_) rfl
  rw [if_neg (by omega)]
  exact hs

/-! ## Every line fits -/

theorem advance_append (a b : List Char) : advance (a ++ b) = advance a + advance b := by
  induction a with
  | nil => exact (Nat.zero_add _).symm
  | cons c a ih =>
    have hadvance (value : List Char) :
        advance (c :: value) = (glyphColumns c + 1) * SCALE + advance value := rfl
    rw [List.cons_append, hadvance, hadvance, ih, Nat.add_assoc]

theorem advance_take_le (value : List Char) (n : Nat) : advance (value.take n) ≤ advance value := by
  have h := advance_append (value.take n) (value.drop n)
  rw [List.take_append_drop] at h
  omega

theorem advance_le (value : List Char) : advance value ≤ 8 * value.length := by
  induction value with
  | nil => exact Nat.le_refl 0
  | cons c value ih =>
    have hcolumns : glyphColumns c ≤ 3 := by
      unfold glyphColumns
      split
      · decide
      · split
        · decide
        · decide
    have hadvance : advance (c :: value) = (glyphColumns c + 1) * SCALE + advance value := rfl
    rw [hadvance, List.length_cons]
    unfold SCALE
    omega

theorem decimal_length {n k : Nat} (hk : 0 < k) (h : n < 10 ^ k) : (decimal n).length ≤ k :=
  (Nat.length_toDigits_le_iff (by decide) hk).mpr h

theorem addressText_fits (address : Address) : advance (addressText address) ≤ 108 := by
  have hbyte (b : Byte) : advance (decimal b.toNat) ≤ 24 := by
    have hlength := decimal_length (n := b.toNat) (k := 3) (by decide) (by have := b.isLt; omega)
    have hle := advance_le (decimal b.toNat)
    omega
  have hdot : advance ".".toList = 4 := by decide
  cases address with
  | none => exact Nat.zero_le _
  | some quad =>
    obtain ⟨a, b, c, d⟩ := quad
    rw [addressText]
    simp only [advance_append, hdot]
    have ha := hbyte a
    have hb := hbyte b
    have hc := hbyte c
    have hd := hbyte d
    omega

theorem fallback_fits {x : Nat} {line short : List Char}
    (h : x + advance short ≤ WIDTH + SCALE) :
    x + advance (if x + textWidth line > WIDTH then short else line) ≤ WIDTH + SCALE := by
  split
  · exact h
  next hfits =>
    unfold textWidth at hfits
    omega

/-- 2^64 microseconds are fewer than 10^9 days. -/
theorem uptimeText_fits {seconds : Nat} (h : seconds ≤ 2 ^ 64 / 1000000) :
    UPTIME_X + advance (uptimeText seconds) ≤ WIDTH + SCALE := by
  have hx : UPTIME_X = 46 := by decide
  have htwo (n : Nat) (hn : n < 100) : advance (twoDigits n) ≤ 16 := by
    have hlength : (twoDigits n).length ≤ 2 := by
      unfold twoDigits
      split
      next hone =>
        have := decimal_length (n := n) (k := 1) (by decide) (by omega)
        rw [List.length_cons]
        omega
      · exact decimal_length (by decide) (by omega)
    have hle := advance_le (twoDigits n)
    omega
  have hu : advance "U: ".toList = 14 := by decide
  have hcolon : advance ":".toList = 4 := by decide
  unfold uptimeText
  dsimp only
  split
  next hday =>
    have hhours := htwo (seconds / 3600) (by omega)
    have hminutes := htwo (seconds / 60 % 60) (by omega)
    simp only [advance_append, hu, hcolon, hx]
    unfold WIDTH SCALE
    omega
  · have hdays := decimal_length (n := seconds / 3600 / 24) (k := 9) (by decide) (by omega)
    have hle := advance_le (decimal (seconds / 3600 / 24))
    have hd : advance "d".toList = 8 := by decide
    refine fallback_fits ?_
    rw [advance_append, hd, hx]
    unfold WIDTH SCALE
    omega

end Z80Sbc.Oled
