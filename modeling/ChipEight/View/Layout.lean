import ChipEight.View.Picture

/-!
# Layout

A terminal is divided among parts that lie side by side or one below the other.
Each part asks for a length along that direction: exactly so many cells, or at
least so many. A `Divider` finds the lengths, and a `Panel` draws a part for
the width and height that come out.
-/

namespace ChipEight.View

/-- What a part asks of its length. -/
inductive Constraint where
  /-- Exactly so many cells. -/
  | exactly (n : Nat)
  /-- At least so many cells. -/
  | atLeast (n : Nat)
deriving DecidableEq

/-- The fewest cells that give a part what it asks for. -/
def Constraint.least : Constraint → Nat
  | exactly n => n
  | atLeast n => n

/-- The fewest cells that give all parts what they ask for. -/
def leastTotal (parts : List Constraint) : Nat :=
  parts.foldr (fun c total => c.least + total) 0

/-- A way to divide a number of cells among parts, in their order. -/
abbrev Divider := List Constraint → Nat → List Nat

/-- Every part gets the fewest cells that it asks for, and the first one that may grow gets what is
left over as well. -/
def Divider.greedy : Divider
  | [], _ => []
  | .exactly n :: parts, total => n :: greedy parts (total - n)
  | .atLeast _ :: parts, total => (total - leastTotal parts) :: parts.map Constraint.least

/-- What a part looks like at a width and a height. -/
abbrev Panel := Nat → Nat → Picture

/-- Parts one below the other, each as wide as the whole. -/
def stacked (divide : Divider) (parts : List (Constraint × Panel)) : Panel := fun width height =>
  let heights := divide (parts.map (·.1)) height
  Picture.fit width height .plain
    (List.zipWith (fun part length => part.2 width length) parts heights).flatten

/-- Parts side by side, each as high as the whole. -/
def abreast (divide : Divider) (parts : List (Constraint × Panel)) : Panel := fun width height =>
  let widths := divide (parts.map (·.1)) width
  (List.zipWith (fun part length => part.2 length height) parts widths).foldr
    Picture.beside (List.replicate height [])

end ChipEight.View
