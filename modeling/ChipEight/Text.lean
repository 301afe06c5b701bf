/-!
# Text

How numbers, records and tables are written.

Every number that the library prints or reads is written here: decimal digits
(`decimal`), also set flush right (`decimalRight`), upper-case hexadecimal of a
least width (`Hex.upper`), and lower-case hexadecimal with a leading `0x`
(`Hex.literal`, with the widths of addresses, bytes and nibbles named). A width
is a least number of digits: a longer numeral is never cut. In the other
direction, `decimalValue` and `Hex.digit?` give the values of decimal digits and
of a hexadecimal digit.

The descriptions of machine state are records: a name, then the fields in
braces, as in `Point { x: 1, y: 2 }`. Tables of bytes and registers are lists
cut into rows of equal length (`chunks`), of which only the last may be shorter
and none is empty.
-/

namespace ChipEight

/-! ## Numerals -/

/-- The decimal digits of `n`. -/
def decimal (n : Nat) : String :=
  String.ofList (Nat.toDigits 10 n)

/-- The decimal digits of `n` after as many blanks as fill `width` places. -/
def decimalRight (width n : Nat) : String :=
  String.ofList ((Nat.toDigits 10 n).leftpad width ' ')

/-- The number that decimal digits spell. -/
def decimalValue (digits : List Char) : Nat :=
  digits.foldl (fun n c => n * 10 + (c.toNat - '0'.toNat)) 0

/-- The number that decimal digits spell, if it is below a limit. -/
def decimalBelow? (limit : Nat) (digits : List Char) : Option Nat :=
  if digits.all Char.isDigit && decimalValue digits < limit then some (decimalValue digits)
  else none

namespace Hex

/-- The lower-case hexadecimal digits of `n`, with leading zeros up to `width` digits. -/
def digits (width n : Nat) : List Char :=
  (Nat.toDigits 16 n).leftpad width '0'

/-- `n` in upper-case hexadecimal, at least `width` digits. -/
def upper (width n : Nat) : String :=
  String.ofList ((digits width n).map Char.toUpper)

/-- `n` in lower-case hexadecimal, at least `width` digits, without a marker. -/
def lower (width n : Nat) : String :=
  String.ofList (digits width n)

/-- `n` in lower-case hexadecimal after `0x`, at least `width` digits. -/
def literal (width n : Nat) : String :=
  "0x" ++ lower width n

/-- An address: at least three digits, since memory ends at `0xfff`. -/
def address (n : Nat) : String :=
  literal 3 n

/-- A byte: at least two digits. -/
def byte (n : Nat) : String :=
  literal 2 n

/-- A key or register number: as many digits as it needs. -/
def nibble (n : Nat) : String :=
  literal 1 n

/-- The value of a hexadecimal digit of either case. -/
def digit? (c : Char) : Option Nat :=
  if '0' ≤ c ∧ c ≤ '9' then some (c.toNat - '0'.toNat)
  else if 'a' ≤ c ∧ c ≤ 'f' then some (c.toNat - 'a'.toNat + 10)
  else if 'A' ≤ c ∧ c ≤ 'F' then some (c.toNat - 'A'.toNat + 10)
  else none

end Hex

/-! ## Records -/

namespace Record

/-- A named record with its fields, in order. -/
def describe (name : String) : List (String × String) → String
  | [] => name
  | fields =>
    name ++ " \x7b " ++ String.intercalate ", " (fields.map fun f => f.1 ++ ": " ++ f.2) ++ " \x7d"

/-- A list of texts in brackets. -/
def bracketed (items : List String) : String :=
  "[" ++ String.intercalate ", " items ++ "]"

/-- A truth value in words. -/
def truth (b : Bool) : String :=
  if b then "true" else "false"

end Record

/-! ## Rows -/

/-- The rows of `k` items each that a list is cut into; a row has at least one item. -/
def chunks {α : Type} (k : Nat) (xs : List α) : List (List α) :=
  match xs with
  | [] => []
  | x :: rest => (x :: rest.take (k - 1)) :: chunks k (rest.drop (k - 1))
termination_by xs.length
decreasing_by
  rw [List.length_drop, List.length_cons]
  omega

section
variable {α : Type} {k : Nat} (hk : 0 < k)
include hk

/-- A row is cut off the front, and then the rest is cut. -/
theorem chunks_of_ne_nil {xs : List α} (h : xs ≠ []) :
    chunks k xs = xs.take k :: chunks k (xs.drop k) := by
  obtain ⟨k, rfl⟩ := Nat.exists_eq_succ_of_ne_zero (Nat.ne_of_gt hk)
  cases xs with
  | nil => exact absurd rfl h
  | cons x rest =>
    rw [chunks]
    rfl

/-- **Row `i` holds the items from `k * i` on.** -/
theorem getElem?_chunks (xs : List α) (i : Nat) :
    (chunks k xs)[i]? = if k * i < xs.length then some ((xs.drop (k * i)).take k) else none := by
  induction i generalizing xs with
  | zero =>
    cases xs with
    | nil => rw [chunks]; rfl
    | cons x rest => rw [chunks_of_ne_nil hk (List.cons_ne_nil x rest)]; rfl
  | succ i ih =>
    by_cases h : xs = []
    · subst h
      rw [chunks]
      rfl
    · rw [chunks_of_ne_nil hk h, List.getElem?_cons_succ, ih, List.length_drop, List.drop_drop,
        Nat.mul_succ, Nat.add_comm k]
      have hiff : k * i < xs.length - k ↔ k * i + k < xs.length := by omega
      simp only [hiff]

end

end ChipEight
