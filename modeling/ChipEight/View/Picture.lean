/-!
# Pictures

A picture is rows of styled cells. Pictures are put together from boxes, one
above the other or side by side, and every part is fitted to its size: what is
too long is cut at the right and at the bottom, and what is too short is filled
up with blanks.
-/

namespace ChipEight.View

/-- The colours of a terminal. -/
inductive Color where
  /-- Whatever the terminal shows by itself. -/
  | plain
  /-- Black. -/
  | black
  /-- Red. -/
  | red
  /-- Green. -/
  | green
  /-- Yellow. -/
  | yellow
  /-- Blue. -/
  | blue
  /-- Magenta. -/
  | magenta
  /-- Cyan. -/
  | cyan
  /-- White. -/
  | white
  /-- Dark gray. -/
  | darkGray
deriving DecidableEq

/-- The name of a colour. -/
def Color.name : Color → String
  | plain => "Reset"
  | black => "Black"
  | red => "Red"
  | green => "Green"
  | yellow => "Yellow"
  | blue => "Blue"
  | magenta => "Magenta"
  | cyan => "Cyan"
  | white => "White"
  | darkGray => "DarkGray"

/-- How a cell looks. -/
structure Style where
  /-- The colour of the character. -/
  foreground : Color
  /-- The colour behind it. -/
  background : Color
  /-- Whether it is bold. -/
  bold : Bool
deriving DecidableEq

namespace Style

/-- The look of an untouched cell. -/
def plain : Style :=
  ⟨.plain, .plain, false⟩

/-- Characters of a colour, otherwise plain. -/
def color (c : Color) : Style :=
  { plain with foreground := c }

end Style

/-- A character with its style. -/
structure Cell where
  /-- The character. -/
  glyph : Char
  /-- How it looks. -/
  style : Style
deriving DecidableEq

/-- A row of cells. -/
abbrev Row := List Cell

/-- Rows from top to bottom. -/
abbrev Picture := List Row

namespace Row

/-- The characters of a text in one style. -/
def ofText (style : Style) (text : String) : Row :=
  text.toList.map fun c => ⟨c, style⟩

/-- A character repeated in one style. -/
def replicate (n : Nat) (style : Style) (c : Char) : Row :=
  List.replicate n ⟨c, style⟩

/-- A row cut or filled up to a width. -/
def fit (width : Nat) (style : Style) (row : Row) : Row :=
  row.take width ++ replicate (width - row.length) style ' '

/-- The characters of a row. -/
def text (row : Row) : String :=
  String.ofList (row.map (·.glyph))

/-- A stretch of cells of one style: its column, its length and the style. -/
structure Run where
  /-- The first column. -/
  column : Nat
  /-- The number of cells. -/
  length : Nat
  /-- The style of all of them. -/
  style : Style
deriving DecidableEq

/-- The longest stretches of one style in a row that starts at a column. -/
def runs (column : Nat) : Row → List Run
  | [] => []
  | c :: rest =>
    match runs (column + 1) rest with
    | [] => [⟨column, 1, c.style⟩]
    | r :: more =>
      if r.style = c.style then ⟨column, r.length + 1, r.style⟩ :: more
      else ⟨column, 1, c.style⟩ :: r :: more

end Row

namespace Picture

/-- A picture without anything on it. -/
def blank (width height : Nat) : Picture :=
  List.replicate height (Row.replicate width .plain ' ')

/-- A picture cut or filled up to a size. -/
def fit (width height : Nat) (style : Style) (p : Picture) : Picture :=
  (p.take height ++ List.replicate (height - p.length) []).map (Row.fit width style)

/-- A picture beside another of the same height. -/
def beside (left right : Picture) : Picture :=
  List.zipWith (· ++ ·) left right

/-- The top or the bottom of a box: two corners, and between them a text, continued by a line. -/
def edge (width : Nat) (style : Style) (left right : Char) (title : String) : Row :=
  let inner := (Row.ofText style title).take (width - 2)
  ⟨left, style⟩ :: inner ++ Row.replicate (width - 2 - inner.length) style '─' ++ [⟨right, style⟩]

/-- A box of a size with a title in its top edge, and rows inside it. The rows, and the blanks
beside and below them, are cut and filled up to the inside of the box. -/
def box (width height : Nat) (border inside : Style) (title : String) (rows : List Row) : Picture :=
  let side : Cell := ⟨'│', border⟩
  let middle := (fit (width - 2) (height - 2) inside rows).map fun row => side :: row ++ [side]
  edge width border '┌' '┐' title :: middle ++ [edge width border '└' '┘' ""]

/-- The stretches of one style in each row, numbered from the top; plain cells are left out. -/
def runs (p : Picture) : List (Nat × Row.Run) :=
  p.zipIdx.flatMap fun row =>
    ((Row.runs 0 row.1).filter fun r => r.style ≠ .plain).map fun r => (row.2, r)

end Picture

end ChipEight.View
