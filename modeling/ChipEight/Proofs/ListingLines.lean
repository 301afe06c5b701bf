import ChipEight.Instruction.Assembly

/-!
# The lines of a listing

A listing is one text. Cut at the ends of its lines (`textLines`), it gives back its
lines, the header first: no line holds a line break of its own, since all that is
printed is digits and a few fixed words. The line of a word stands where half its
offset says (`getElem?_lines`).
-/

namespace ChipEight

/-! ## Text cut into lines -/

/-- The pieces of a text between its line breaks. -/
def textLines (t : String) : List String :=
  (t.split '\n').toList.map (·.copy)

/-- The text holds no line break. -/
def OneLine (t : String) : Prop :=
  '\n' ∉ t.toList

instance (t : String) : Decidable (OneLine t) :=
  inferInstanceAs (Decidable (¬_))

theorem oneLine_append {s t : String} : OneLine (s ++ t) ↔ OneLine s ∧ OneLine t := by
  simp only [OneLine, String.toList_append, List.mem_append, not_or]

/-- **Lines that are each ended come back when the text is cut**, and then an empty piece. -/
theorem textLines_join {ls : List String} (h : ∀ l ∈ ls, OneLine l) :
    textLines (String.join (ls.map (· ++ "\n"))) = ls ++ [""] := by
  rw [textLines, String.toList_split_char, String.toList_join]
  induction ls with
  | nil => rfl
  | cons l ls ih =>
      have hl : '\n' ∉ l.toList := h l List.mem_cons_self
      have hcut : ((l :: ls).map (· ++ "\n")).flatMap String.toList =
          l.toList ++ '\n' :: (ls.map (· ++ "\n")).flatMap String.toList := by simp
      rw [hcut, List.splitOn_append_cons_self_of_not_mem hl, List.map_cons,
        ih fun l' hl' => h l' (List.mem_cons_of_mem l hl'), String.ofList_toList, List.cons_append]

/-! ## What is printed holds no line break -/

/-- A numeral is made of the digits of its base. -/
theorem exists_digit_of_mem_toDigits {b n : Nat} {c : Char} (hb : 1 < b)
    (h : c ∈ Nat.toDigits b n) : ∃ d < b, c = d.digitChar := by
  induction n using Nat.strongRecOn with
  | ind n ih =>
      rw [Nat.toDigits_eq_if hb] at h
      split at h
      · rename_i hn
        exact ⟨n, hn, List.mem_singleton.mp h⟩
      · rename_i hn
        rcases List.mem_append.mp h with h | h
        · exact ih (n / b) (Nat.div_lt_self (by omega) hb) h
        · exact ⟨n % b, Nat.mod_lt n (by omega), List.mem_singleton.mp h⟩

theorem oneLine_decimal (n : Nat) : OneLine (decimal n) := by
  rw [OneLine, decimal, String.toList_ofList]
  intro h
  obtain ⟨d, -, hd⟩ := exists_digit_of_mem_toDigits (by decide) h
  exact Nat.digitChar_ne '\n' (by decide) hd.symm

namespace Hex

theorem exists_digit_of_mem_digits {width n : Nat} {c : Char} (h : c ∈ digits width n) :
    ∃ d < 16, c = d.digitChar := by
  rcases List.mem_append.mp h with h | h
  · exact ⟨0, by decide, (List.mem_replicate.mp h).2⟩
  · exact exists_digit_of_mem_toDigits (by decide) h

theorem exists_digit_of_mem_lower {width n : Nat} {c : Char} (h : c ∈ (lower width n).toList) :
    ∃ d < 16, c = d.digitChar := by
  rw [lower, String.toList_ofList] at h
  exact exists_digit_of_mem_digits h

theorem exists_digit_of_mem_upper {width n : Nat} {c : Char} (h : c ∈ (upper width n).toList) :
    ∃ d < 16, c = d.digitChar.toUpper := by
  rw [upper, String.toList_ofList] at h
  obtain ⟨a, ha, rfl⟩ := List.mem_map.mp h
  obtain ⟨d, hd, rfl⟩ := exists_digit_of_mem_digits ha
  exact ⟨d, hd, rfl⟩

theorem oneLine_lower (width n : Nat) : OneLine (lower width n) := by
  intro h
  obtain ⟨d, -, hd⟩ := exists_digit_of_mem_lower h
  exact Nat.digitChar_ne '\n' (by decide) hd.symm

theorem oneLine_upper (width n : Nat) : OneLine (upper width n) := by
  intro h
  obtain ⟨d, hd, hup⟩ := exists_digit_of_mem_upper h
  have hall : ∀ d < 16, (Nat.digitChar d).toUpper ≠ '\n' := by decide
  exact hall d hd hup.symm

theorem oneLine_literal (width n : Nat) : OneLine (literal width n) :=
  oneLine_append.mpr ⟨by decide, oneLine_lower width n⟩

end Hex

theorem Instruction.oneLine_register (x : UInt8) : OneLine (register x) :=
  oneLine_append.mpr ⟨by decide, Hex.oneLine_upper 1 x.toNat⟩

theorem Instruction.oneLine_assembly (i : Instruction) : OneLine i.assembly := by
  cases i <;>
    simp only [assembly, oneLine_append, oneLine_register, oneLine_decimal, Hex.address, Hex.byte,
      Hex.oneLine_literal] <;>
    decide

namespace Word

theorem oneLine_text (w : Word) : OneLine w.text :=
  Hex.oneLine_upper 4 w.bits.toNat

theorem oneLine_assembly (w : Word) : OneLine w.assembly := by
  unfold Word.assembly
  split
  · exact Instruction.oneLine_assembly _
  · exact oneLine_append.mpr ⟨by decide, w.oneLine_text⟩

/-- A word that is an instruction is shown as that instruction. -/
theorem assembly_of_decode? {w : Word} {i : Instruction} (h : w.decode? = some i) :
    w.assembly = i.assembly := by
  rw [Word.assembly, h]

/-- A word that is no instruction is shown by its digits. -/
theorem assembly_of_refused {w : Word} (h : w.decode? = none) :
    w.assembly = "??? ; " ++ w.text := by
  rw [Word.assembly, h]

end Word

namespace Listing

theorem oneLine_wordLine (address : Nat) (w : Word) : OneLine (wordLine address w) := by
  simp only [wordLine, Hex.address, oneLine_append, Hex.oneLine_literal, Word.oneLine_text,
    Word.oneLine_assembly]
  decide

theorem oneLine_dataLine (address : Nat) (b : UInt8) : OneLine (dataLine address b) := by
  simp only [dataLine, Hex.address, Hex.byte, oneLine_append, Hex.oneLine_literal,
    Hex.oneLine_upper]
  decide

theorem oneLine_of_mem_lines {address : Nat} {image : List UInt8} {l : String}
    (h : l ∈ lines address image) : OneLine l := by
  induction address, image using lines.induct with
  | case1 address hi lo rest ih =>
      rcases List.mem_cons.mp h with rfl | h
      · exact oneLine_wordLine address _
      · exact ih h
  | case2 address b =>
      rw [List.mem_singleton.mp h]
      exact oneLine_dataLine address b
  | case3 address => cases h

/-! ## The lines -/

/-- **A listing cut at its line breaks is the header and the lines of the image.** -/
theorem textLines_text (image : List UInt8) (origin : UInt16) :
    textLines (text image origin) = header ++ lines origin.toNat image ++ [""] := by
  refine textLines_join fun l hl => ?_
  rcases List.mem_append.mp hl with hl | hl
  · have hheader : ∀ l ∈ header, OneLine l := by decide
    exact hheader l hl
  · exact oneLine_of_mem_lines hl

/-- **The word at an even offset stands on the line of half the offset.** -/
theorem getElem?_lines {image : List UInt8} {k : Nat} {hi lo : UInt8}
    (hhi : image[2 * k]? = some hi) (hlo : image[2 * k + 1]? = some lo) (address : Nat) :
    (lines address image)[k]? = some (wordLine (address + 2 * k) (.ofBytes hi lo)) := by
  induction address, image using lines.induct generalizing k with
  | case1 address hi' lo' rest ih =>
      cases k with
      | zero =>
          cases hhi
          cases hlo
          rfl
      | succ k =>
          -- one line and two bytes further on
          have ha : address + 2 + 2 * k = address + 2 * (k + 1) := by omega
          rw [lines, List.getElem?_cons_succ, ih hhi hlo, ha]
  | case2 address b => cases hlo
  | case3 address => cases hlo

end Listing

end ChipEight
