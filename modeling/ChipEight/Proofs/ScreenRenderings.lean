import ChipEight.Proofs.Drawing
import ChipEight.Proofs.ListingLines
import ChipEight.View.Tables

/-!
# Two pictures of one screen

A screen is shown in two ways: as text with a mark for each pixel, and in half blocks,
where a character stands for one pixel above another. The text is read off the pixels in
the order in which they are stored, cut into rows; the half blocks ask for each pixel by
its position. Both show every pixel, each in the place where it belongs, so either
picture determines the screen.

Both are tables of characters (`glyph?_table`). For the text this needs that a row of
stored pixels is a row of the screen (`rows_eq`).
-/

namespace ChipEight

open View

/-- The character in a column of a line. -/
def glyph? (lines : List String) (column line : Nat) : Option Char :=
  lines[line]?.bind (·.toList[column]?)

/-- The line of a table, so many characters wide. -/
def tableLine (width : Nat) (f : Nat → Char) : String :=
  String.ofList ((List.range width).map f)

/-- In a table of characters each stands in its place. -/
theorem glyph?_table {width height c r : Nat} (f : Nat → Nat → Char) (hc : c < width)
    (hr : r < height) :
    glyph? ((List.range height).map fun r => tableLine width fun c => f c r) c r =
      some (f c r) := by
  simp [glyph?, tableLine, hc, hr]

theorem length_tableLine (width : Nat) (f : Nat → Char) : (tableLine width f).length = width := by
  rw [tableLine, String.length_ofList, List.length_map, List.length_range]

namespace Screen

/-! ## Rows of pixels -/

/-- The stored pixels from the start of a row on. -/
theorem take_drop_pixels (s : Screen) {y : Nat} (hy : y < height) :
    (s.pixels.toList.drop (width * y)).take width =
      (List.range width).map fun x => s.pixel x y := by
  have hrow : width * y + width ≤ 2048 := by
    simp only [width, height] at hy ⊢
    omega
  apply List.ext_getElem
  · simp only [List.length_take, List.length_drop, Vector.length_toList, List.length_map,
      List.length_range]
    omega
  · intro x hx hx'
    rw [List.length_map, List.length_range] at hx'
    have hplace : width * y + x < 2048 := by omega
    simp [pixel, Within, hx', hy, hplace]

/-- **A row of stored pixels is a row of the screen.** -/
theorem rows_eq (s : Screen) :
    s.rows = (List.range height).map fun y => (List.range width).map fun x => s.pixel x y := by
  apply List.ext_getElem?
  intro y
  rw [rows, getElem?_chunks (by decide), Vector.length_toList, List.getElem?_map]
  have hstored : width * y < 2048 ↔ y < height := by
    simp only [width, height]
    omega
  by_cases hy : y < height
  · rw [if_pos (hstored.mpr hy), List.getElem?_range hy, s.take_drop_pixels hy]
    rfl
  · rw [if_neg (mt hstored.mp hy), List.getElem?_eq_none (by simpa using hy)]
    rfl

/-! ## Both pictures as tables -/

/-- The mark of a pixel in text. -/
def mark (lit : Bool) : Char :=
  if lit then '#' else '.'

/-- The lines of the screen in text. -/
def markLines (s : Screen) : List String :=
  (List.range height).map fun y => tableLine width fun x => mark (s.pixel x y)

theorem oneLine_of_mem_markLines {s : Screen} {l : String} (h : l ∈ s.markLines) : OneLine l := by
  obtain ⟨y, -, rfl⟩ := List.mem_map.mp h
  rw [OneLine, tableLine, String.toList_ofList]
  intro hmem
  obtain ⟨x, -, hx⟩ := List.mem_map.mp hmem
  cases hp : s.pixel x y <;> rw [hp] at hx <;> cases hx

/-- The screen in text is its lines, each ended. -/
theorem textLines_text (s : Screen) : textLines s.text = s.markLines ++ [""] := by
  have htext : s.text = String.join (s.markLines.map (· ++ "\n")) := by
    rw [text, rows_eq, List.map_map, markLines, List.map_map]
    refine congrArg String.join (List.map_congr_left fun y _ => ?_)
    rw [Function.comp_apply, Function.comp_apply, List.map_map, tableLine]
    rfl
  rw [htext, textLines_join fun l => oneLine_of_mem_markLines]

end Screen

namespace View

/-- The screen in half blocks is a table of them. -/
theorem screenLines_eq (s : Screen) :
    screenLines s = (List.range 16).map fun r =>
      tableLine 64 fun c => halfBlock (s.pixel c (2 * r)) (s.pixel c (2 * r + 1)) :=
  rfl

/-! ## Pictures read back -/

/-- The pixel that a mark stands for. -/
def pixelOf? : Char → Option Bool
  | '#' => some true
  | '.' => some false
  | _ => none

/-- The upper and the lower pixel that a half block stands for. -/
def pixelsOf? : Char → Option (Bool × Bool)
  | '█' => some (true, true)
  | '▀' => some (true, false)
  | '▄' => some (false, true)
  | ' ' => some (false, false)
  | _ => none

theorem pixelOf?_mark (lit : Bool) : pixelOf? (Screen.mark lit) = some lit := by
  cases lit <;> rfl

theorem pixelsOf?_halfBlock (upper lower : Bool) :
    pixelsOf? (halfBlock upper lower) = some (upper, lower) := by
  cases upper <;> cases lower <;> rfl

/-- A pixel read off the text. -/
theorem pixelOf?_glyph? (s : Screen) {x y : Nat} (hx : x < 64) (hy : y < 32) :
    (glyph? s.markLines x y).bind pixelOf? = some (s.pixel x y) := by
  have hmark : glyph? s.markLines x y = some (Screen.mark (s.pixel x y)) :=
    glyph?_table (fun x y => Screen.mark (s.pixel x y)) hx hy
  rw [hmark, Option.bind_some, pixelOf?_mark]

/-- A pixel and the one below it, read off the half blocks. -/
theorem pixelsOf?_glyph? (s : Screen) {c r : Nat} (hc : c < 64) (hr : r < 16) :
    (glyph? (screenLines s) c r).bind pixelsOf? =
      some (s.pixel c (2 * r), s.pixel c (2 * r + 1)) := by
  have hblock : glyph? (screenLines s) c r =
      some (halfBlock (s.pixel c (2 * r)) (s.pixel c (2 * r + 1))) :=
    glyph?_table (fun c r => halfBlock (s.pixel c (2 * r)) (s.pixel c (2 * r + 1))) hc hr
  rw [hblock, Option.bind_some, pixelsOf?_halfBlock]

end View

namespace Screen

variable {s s' : Screen}

/-- Screens that agree wherever there is a pixel have the same pixels. -/
theorem pixels_eq_of_within (h : ∀ x < 64, ∀ y < 32, s.pixel x y = s'.pixel x y) :
    s.pixels = s'.pixels := by
  refine pixels_ext fun x y => ?_
  by_cases hw : Within x y
  · exact h x hw.1 y hw.2
  · rw [pixel_eq_false_of_not_within s hw, pixel_eq_false_of_not_within s' hw]

theorem pixels_eq_of_text_eq (h : s.text = s'.text) : s.pixels = s'.pixels := by
  have hlines : s.markLines = s'.markLines := by
    have hcut := congrArg textLines h
    rw [textLines_text, textLines_text] at hcut
    exact List.append_cancel_right hcut
  refine pixels_eq_of_within fun x hx y hy => ?_
  have hread := pixelOf?_glyph? s hx hy
  rw [hlines, pixelOf?_glyph? s' hx hy] at hread
  exact (Option.some.inj hread).symm

theorem pixels_eq_of_screenLines_eq (h : screenLines s = screenLines s') :
    s.pixels = s'.pixels := by
  refine pixels_eq_of_within fun x hx y hy => ?_
  have hread := pixelsOf?_glyph? s hx (r := y / 2) (by omega)
  rw [h, pixelsOf?_glyph? s' hx (by omega)] at hread
  obtain ⟨hupper, hlower⟩ := Prod.mk.inj (Option.some.inj hread)
  -- the pixel is the upper or the lower one of its block
  rcases Nat.mod_two_eq_zero_or_one y with hy' | hy'
  · have heven : 2 * (y / 2) = y := by omega
    rw [heven] at hupper
    exact hupper.symm
  · have hodd : 2 * (y / 2) + 1 = y := by omega
    rw [hodd] at hlower
    exact hlower.symm

end Screen

/-- **Both pictures of a screen show every pixel in its place.** The text has 32 lines of 64 marks
and the half blocks are 16 lines of 64. The block in column `c` of line `r` stands for the two
pixels whose marks are in column `c` of lines `2 * r` and `2 * r + 1` of the text, and these are the
pixels of the screen there. So each of the pictures determines the pixels. -/
theorem renderings_agree :
    (∀ s : Screen, ∃ marks : List String,
      textLines s.text = marks ++ [""] ∧
      marks.length = 32 ∧ (∀ l ∈ marks, l.length = 64) ∧
      (screenLines s).length = 16 ∧ (∀ l ∈ screenLines s, l.length = 64) ∧
      ∀ c < 64, ∀ r < 16, ∃ upper lower block : Char,
        glyph? marks c (2 * r) = some upper ∧ glyph? marks c (2 * r + 1) = some lower ∧
        glyph? (screenLines s) c r = some block ∧
        pixelOf? upper = some (s.pixel c (2 * r)) ∧
        pixelOf? lower = some (s.pixel c (2 * r + 1)) ∧
        pixelsOf? block = some (s.pixel c (2 * r), s.pixel c (2 * r + 1))) ∧
    (∀ s s' : Screen, screenLines s = screenLines s' → s.pixels = s'.pixels) ∧
    ∀ s s' : Screen, s.text = s'.text → s.pixels = s'.pixels := by
  refine ⟨fun s => ⟨s.markLines, s.textLines_text, ?_, ?_, ?_, ?_, ?_⟩,
    fun _ _ => Screen.pixels_eq_of_screenLines_eq, fun _ _ => Screen.pixels_eq_of_text_eq⟩
  · rw [Screen.markLines, List.length_map, List.length_range]
    rfl
  · intro l hl
    obtain ⟨y, -, rfl⟩ := List.mem_map.mp hl
    exact length_tableLine 64 _
  · rw [screenLines_eq, List.length_map, List.length_range]
  · intro l hl
    rw [screenLines_eq] at hl
    obtain ⟨r, -, rfl⟩ := List.mem_map.mp hl
    exact length_tableLine 64 _
  · intro c hc r hr
    obtain ⟨upper, hu, hupper⟩ :=
      Option.bind_eq_some_iff.mp (pixelOf?_glyph? s hc (y := 2 * r) (by omega))
    obtain ⟨lower, hl, hlower⟩ :=
      Option.bind_eq_some_iff.mp (pixelOf?_glyph? s hc (y := 2 * r + 1) (by omega))
    obtain ⟨block, hb, hblock⟩ := Option.bind_eq_some_iff.mp (pixelsOf?_glyph? s hc hr)
    exact ⟨upper, lower, block, hu, hl, hb, hupper, hlower, hblock⟩

/-- A pixel in the last column and the lowest row but one; and a screen that was cleared shows what
the dark screen shows, in either picture. -/
theorem renderings_agree_corner :
    (∃ marks : List String, ∃ upper lower block : Char,
      textLines (Screen.blank.draw 63 30 [0x80]).text = marks ++ [""] ∧
      glyph? marks 63 30 = some upper ∧ glyph? marks 63 31 = some lower ∧
      glyph? (screenLines (Screen.blank.draw 63 30 [0x80])) 63 15 = some block ∧
      pixelOf? upper = some true ∧ pixelOf? lower = some false ∧
      pixelsOf? block = some (true, false)) ∧
    screenLines (Screen.blank.clear) = screenLines Screen.blank ∧
    Screen.blank.clear.text = Screen.blank.text ∧
    Screen.blank.clear.pixels = Screen.blank.pixels := by
  obtain ⟨hshown, hblocks, htexts⟩ := renderings_agree
  have hlines : screenLines Screen.blank.clear = screenLines Screen.blank := rfl
  have htext : Screen.blank.clear.text = Screen.blank.text := rfl
  refine ⟨?_, hlines, htext, hblocks _ _ hlines⟩
  obtain ⟨marks, htext, -, -, -, -, hplaces⟩ := hshown (Screen.blank.draw 63 30 [0x80])
  obtain ⟨upper, lower, block, hu, hl, hb, hupper, hlower, hblock⟩ :=
    hplaces 63 (by decide) 15 (by decide)
  have hlit : (Screen.blank.draw 63 30 [0x80]).pixel 63 30 = true := by decide +kernel
  have hdark : (Screen.blank.draw 63 30 [0x80]).pixel 63 31 = false := by decide +kernel
  rw [hlit] at hupper hblock
  rw [hdark] at hlower hblock
  exact ⟨marks, upper, lower, block, htext, hu, hl, hb, hupper, hlower, hblock⟩

end ChipEight
