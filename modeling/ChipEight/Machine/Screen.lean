import ChipEight.Text

/-!
# The screen

A screen is 64 by 32 pixels, each lit or not, with a mark that says whether it
was drawn on since a front end last asked. Drawing a sprite flips the pixels
that the sprite covers; those beyond the right or the bottom edge are dropped,
never wrapped to the other side. `Screen.pixel` is the view that every other
operation is described by.
-/

namespace ChipEight

/-- The pixels of the screen, row by row, and whether a repaint is due. -/
structure Screen where
  /-- Pixel `(x, y)` stands at `64 * y + x`. -/
  pixels : Vector Bool 2048
  /-- Whether the screen was cleared or drawn on since the mark was last taken. -/
  dirty : Bool
deriving DecidableEq

namespace Screen

/-- The number of pixels in a row. -/
def width : Nat := 64

/-- The number of rows. -/
def height : Nat := 32

/-- The dark screen, with no repaint due. -/
def blank : Screen :=
  ⟨Vector.replicate 2048 false, false⟩

/-- Whether a position is on the screen. -/
def Within (x y : Nat) : Prop :=
  x < width ∧ y < height

instance (x y : Nat) : Decidable (Within x y) :=
  inferInstanceAs (Decidable (_ ∧ _))

/-- Whether the pixel at a position is lit. Off the screen nothing is. -/
def pixel (s : Screen) (x y : Nat) : Bool :=
  decide (Within x y) && s.pixels[width * y + x]?.getD false

/-- Turn every pixel off. -/
def clear (s : Screen) : Screen :=
  { s with pixels := Vector.replicate 2048 false, dirty := true }

/-- Flip the pixel at a position; off the screen this changes nothing. -/
def flip (s : Screen) (p : Nat × Nat) : Screen :=
  if Within p.1 p.2 then
    let lit := s.pixel p.1 p.2
    { s with pixels := s.pixels.setIfInBounds (width * p.2 + p.1) !lit }
  else s

/-- Whether a sprite has a pixel in column `dx` of a row of bits; the highest bit is leftmost. -/
def hasBit (row : UInt8) (dx : Nat) : Bool :=
  row.toNat.testBit (7 - dx)

/-- The positions on the screen that one row of a sprite covers. -/
def rowCells (x y : Nat) (row : UInt8) : List (Nat × Nat) :=
  ((List.range 8).filter fun dx => hasBit row dx && decide (Within (x + dx) y)).map
    fun dx => (x + dx, y)

/-- The positions on the screen that a sprite covers, with its top left corner at `(x, y)`. -/
def cells (x y : Nat) : List UInt8 → List (Nat × Nat)
  | [] => []
  | row :: rows => rowCells x y row ++ cells x (y + 1) rows

/-- Draw a sprite: flip the pixels that it covers. -/
def draw (s : Screen) (x y : Nat) (rows : List UInt8) : Screen :=
  { (cells x y rows).foldl flip s with dirty := true }

/-- Whether a sprite, if drawn, would turn a lit pixel off. -/
def collides (s : Screen) (x y : Nat) (rows : List UInt8) : Bool :=
  (cells x y rows).any fun p => s.pixel p.1 p.2

/-- The screen with the mark taken off. -/
def settle (s : Screen) : Screen :=
  { s with dirty := false }

/-- The number of lit pixels. -/
def lit (s : Screen) : Nat :=
  s.pixels.toArray.count true

/-- The rows of pixels from top to bottom, as they are stored. -/
def rows (s : Screen) : List (List Bool) :=
  chunks width s.pixels.toList

/-- The screen in text, a line for each row: `#` is lit and `.` is dark. -/
def text (s : Screen) : String :=
  String.join (s.rows.map fun row =>
    String.ofList (row.map fun lit => if lit then '#' else '.') ++ "\n")

/-- The state of the screen in words. -/
def describe (s : Screen) : String :=
  Record.describe "Display" [("lit", decimal s.lit), ("dirty", Record.truth s.dirty)]

/-! ## Pixels -/

theorem pixel_eq_false_of_not_within {x y : Nat} (s : Screen) (h : ¬Within x y) :
    s.pixel x y = false := by
  simp [pixel, h]

@[simp] theorem pixel_blank (x y : Nat) : blank.pixel x y = false := by
  simp only [pixel, blank, Vector.getElem?_replicate]
  split <;> simp

@[simp] theorem pixel_clear (s : Screen) (x y : Nat) : s.clear.pixel x y = false := by
  simp only [pixel, clear, Vector.getElem?_replicate]
  split <;> simp

/-- A flip turns its own pixel over and leaves the others. -/
theorem pixel_flip (s : Screen) (p : Nat × Nat) (x y : Nat) :
    (s.flip p).pixel x y = (s.pixel x y ^^ decide (Within x y ∧ p = (x, y))) := by
  obtain ⟨px, py⟩ := p
  by_cases hp : Within px py
  · by_cases hw : Within x y
    · have hi : width * y + x < 2048 := by
        simp only [Within, width, height] at hw ⊢
        omega
      have hinj : width * py + px = width * y + x ↔ px = x ∧ py = y := by
        simp only [Within, width, height] at hw hp ⊢
        omega
      by_cases he : px = x ∧ py = y
      · obtain ⟨rfl, rfl⟩ := he
        simp [flip, pixel, hp, hi]
      · have hne : width * py + px ≠ width * y + x := fun h => he (hinj.1 h)
        simp [flip, pixel, hp, hw, hne, he]
    · simp [pixel, hw]
  · have : ¬(Within x y ∧ (px, py) = (x, y)) := by
      rintro ⟨hw, he⟩
      simp only [Prod.mk.injEq] at he
      exact hp (he.1 ▸ he.2 ▸ hw)
    rw [flip, if_neg hp, decide_eq_false this, Bool.xor_false]

end Screen

end ChipEight
