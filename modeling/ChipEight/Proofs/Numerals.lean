import Mathlib.Algebra.Ring.Nat
import ChipEight.Text

/-!
# Numerals read back

A number can be read off its numeral, however far the numeral was filled up with zeros
and in whichever case its digits are written. So different numbers never print the same.
-/

namespace ChipEight

/-! ## Decimal numerals -/

theorem decimalValue_toDigits (n : Nat) : decimalValue (Nat.toDigits 10 n) = n := by
  calc decimalValue (Nat.toDigits 10 n)
    _ = Nat.ofDigitChars 10 (Nat.toDigits 10 n) 0 := by
        simp only [decimalValue, Nat.ofDigitChars_eq_foldl, Nat.mul_comm]
    _ = n := Nat.ofDigitChars_ten_toDigits

theorem isDigit_of_mem_toDigits {n : Nat} {c : Char} (h : c ∈ Nat.toDigits 10 n) :
    c.isDigit = true :=
  Nat.isDigit_of_mem_toDigits (by decide) (by decide) h

/-- A number below a limit is read back from its digits. -/
theorem decimalBelow?_toDigits {limit n : Nat} (h : n < limit) :
    decimalBelow? limit (Nat.toDigits 10 n) = some n := by
  have hall : (Nat.toDigits 10 n).all Char.isDigit = true :=
    List.all_eq_true.mpr fun c hc => isDigit_of_mem_toDigits hc
  simp only [decimalBelow?, decimalValue_toDigits, hall, h, decide_true, Bool.and_self, if_true]

/-- Only zero is written with a zero in front. -/
theorem head?_toDigits_ne {n : Nat} (hn : 0 < n) : (Nat.toDigits 10 n).head? ≠ some '0' := by
  induction n using Nat.strongRecOn with
  | ind n ih =>
      rw [Nat.toDigits_eq_if (by decide)]
      split
      · intro h
        have hzero := Nat.digitChar_eq_zero.mp (Option.some.inj h)
        omega
      · have hne : Nat.toDigits 10 (n / 10) ≠ [] := Nat.toDigits_ne_nil
        have hd := ih (n / 10) (by omega) (by omega)
        obtain ⟨d, ds, hds⟩ := List.exists_cons_of_ne_nil hne
        rw [hds] at hd ⊢
        exact hd

theorem length_decimal_of_lt {n : Nat} (h : n < 10) : (decimal n).length = 1 := by
  rw [decimal, String.length_ofList, Nat.toDigits_of_lt_base h]
  rfl

/-- The last digit of a number is written last. -/
theorem decimal_of_ten_le {n : Nat} (h : 10 ≤ n) :
    decimal n = decimal (n / 10) ++ String.singleton (n % 10).digitChar := by
  rw [decimal, Nat.toDigits_eq_if (by decide), if_neg (Nat.not_lt.mpr h), String.ofList_append]
  rfl

/-! ## Hexadecimal numerals -/

namespace Hex

/-- The number that hexadecimal digits of either case spell. -/
def value (ds : List Char) : Nat :=
  ds.foldl (fun n c => 16 * n + (digit? c).getD 0) 0

theorem value_concat (ds : List Char) (c : Char) :
    value (ds ++ [c]) = 16 * value ds + (digit? c).getD 0 := by
  simp only [value, List.foldl_append, List.foldl_cons, List.foldl_nil]

theorem value_cons_zero {c : Char} (hc : digit? c = some 0) (ds : List Char) :
    value (c :: ds) = value ds := by
  simp only [value, List.foldl_cons, hc, Option.getD_some, Nat.mul_zero, Nat.add_zero]

section
-- the case in which digits are written
variable {f : Char → Char} (hf : ∀ d < 16, digit? (f d.digitChar) = some d)
include hf

theorem value_map_toDigits (n : Nat) : value ((Nat.toDigits 16 n).map f) = n := by
  induction n using Nat.strongRecOn with
  | ind n ih =>
      rw [Nat.toDigits_eq_if (by decide)]
      split
      · rename_i hn
        rw [List.map_singleton, ← List.nil_append [f n.digitChar], value_concat, hf n hn]
        exact Nat.zero_add n
      · rename_i hn
        rw [List.map_append, List.map_singleton, value_concat, ih (n / 16) (by omega),
          hf (n % 16) (by omega), Option.getD_some]
        omega

theorem value_map_digits (width n : Nat) : value ((digits width n).map f) = n := by
  have hzero : digit? (f '0') = some 0 := hf 0 (by decide)
  rw [digits, List.leftpad, List.map_append, List.map_replicate]
  induction width - (Nat.toDigits 16 n).length with
  | zero => exact value_map_toDigits hf n
  | succ k ih => rw [List.replicate_succ, List.cons_append, value_cons_zero hzero, ih]

end

theorem value_lower (width n : Nat) : value (lower width n).toList = n := by
  have hf : ∀ d < 16, digit? (id d.digitChar) = some d := by decide
  rw [lower, String.toList_ofList, ← List.map_id (digits width n)]
  exact value_map_digits hf width n

theorem value_upper (width n : Nat) : value (upper width n).toList = n := by
  have hf : ∀ d < 16, digit? (Char.toUpper d.digitChar) = some d := by decide
  rw [upper, String.toList_ofList]
  exact value_map_digits hf width n

theorem lower_inj {width width' n n' : Nat} (h : lower width n = lower width' n') : n = n' := by
  rw [← value_lower width n, h, value_lower]

theorem upper_inj {width width' n n' : Nat} (h : upper width n = upper width' n') : n = n' := by
  rw [← value_upper width n, h, value_upper]

/-- A numeral that needs no more digits than its width has exactly that many. -/
theorem length_digits_of_lt {width n : Nat} (hw : 0 < width) (h : n < 16 ^ width) :
    (digits width n).length = width := by
  have hle : (Nat.toDigits 16 n).length ≤ width :=
    (Nat.length_toDigits_le_iff (by decide) hw).mpr h
  rw [digits, List.length_leftpad, Nat.max_eq_left hle]

theorem length_lower_of_lt {width n : Nat} (hw : 0 < width) (h : n < 16 ^ width) :
    (lower width n).length = width := by
  rw [lower, String.length_ofList, length_digits_of_lt hw h]

theorem length_upper_of_lt {width n : Nat} (hw : 0 < width) (h : n < 16 ^ width) :
    (upper width n).length = width := by
  rw [upper, String.length_ofList, List.length_map, length_digits_of_lt hw h]

theorem length_literal_of_lt {width n : Nat} (hw : 0 < width) (h : n < 16 ^ width) :
    (literal width n).length = 2 + width := by
  rw [literal, String.length_append, length_lower_of_lt hw h]
  rfl

/-- A numeral is never cut. -/
theorem le_length_digits (width n : Nat) : width ≤ (digits width n).length := by
  rw [digits, List.length_leftpad]
  exact Nat.le_max_left _ _

theorem le_length_lower (width n : Nat) : width ≤ (lower width n).length := by
  rw [lower, String.length_ofList]
  exact le_length_digits width n

end Hex

end ChipEight
