import ChipEight.Proofs.ListingLines
import ChipEight.Proofs.Numerals

/-!
# A listing loses nothing

The lines of a listing stand for the words of the image, in order and two bytes apart,
and a last line for the byte left over if there is one. Nothing else is printed, so an
image can be read off its listing, and the address that it was listed at as well.

Addresses have three digits or more, so a line has no fixed columns. But the first colon
of a line ends its address, and the first blank after that ends the digits of its word or
byte (`Listing.row_inj`). A word has four digits and a byte has two, which tells the two
kinds of lines apart.
-/

namespace ChipEight

theorem takeWhile_append_cons_of_not_mem {α : Type} [DecidableEq α] {c : α} {s : List α}
    (hs : c ∉ s) (t : List α) : (s ++ c :: t).takeWhile (· ≠ c) = s := by
  have hall : ∀ a ∈ s, decide (a ≠ c) = true := by
    intro a ha
    exact decide_eq_true fun hac => hs (hac ▸ ha)
  rw [List.takeWhile_append_of_pos hall, List.takeWhile_cons_of_neg (by simp), List.append_nil]

/-- What stands before the first of a mark, and what after it, can be read off a text. -/
theorem append_cons_inj_of_not_mem {α : Type} [DecidableEq α] {c : α} {s s' t t' : List α}
    (hs : c ∉ s) (hs' : c ∉ s') (h : s ++ c :: t = s' ++ c :: t') : s = s' ∧ t = t' := by
  have hfront : s = s' := by
    rw [← takeWhile_append_cons_of_not_mem hs t, h, takeWhile_append_cons_of_not_mem hs']
  subst hfront
  exact ⟨rfl, (List.cons.inj (List.append_cancel_left h)).2⟩

theorem Hex.not_mem_lower {c : Char} (hc : ∀ d < 16, d.digitChar ≠ c) (width n : Nat) :
    c ∉ (lower width n).toList := by
  intro h
  obtain ⟨d, hd, rfl⟩ := exists_digit_of_mem_lower h
  exact hc d hd rfl

theorem Hex.not_mem_upper {c : Char} (hc : ∀ d < 16, d.digitChar.toUpper ≠ c) (width n : Nat) :
    c ∉ (upper width n).toList := by
  intro h
  obtain ⟨d, hd, rfl⟩ := exists_digit_of_mem_upper h
  exact hc d hd rfl

theorem Word.ofBytes_inj {hi lo hi' lo' : UInt8} (h : ofBytes hi lo = ofBytes hi' lo') :
    hi = hi' ∧ lo = lo' := by
  have hbits := congrArg (·.bits.toNat) h
  simp only [toNat_ofBytes] at hbits
  have := lo.toNat_lt
  have := lo'.toNat_lt
  constructor <;> apply UInt8.toNat_inj.mp <;> omega

namespace Listing

/-! ## One line -/

/-- **Address and digits can be read off a line**, and what stands behind them. -/
theorem row_inj {a a' width width' n n' : Nat} {t t' : String}
    (h : Hex.address a ++ ": " ++ Hex.upper width n ++ " " ++ t =
      Hex.address a' ++ ": " ++ Hex.upper width' n' ++ " " ++ t') :
    a = a' ∧ Hex.upper width n = Hex.upper width' n' ∧ t = t' := by
  have hcolon : ∀ d < 16, d.digitChar ≠ ':' := by decide
  have hblank : ∀ d < 16, d.digitChar.toUpper ≠ ' ' := by decide
  have hchars := congrArg String.toList h
  simp only [Hex.address, Hex.literal, String.toList_append, List.append_assoc] at hchars
  obtain ⟨haddress, hrest⟩ := append_cons_inj_of_not_mem
    (Hex.not_mem_lower hcolon 3 a) (Hex.not_mem_lower hcolon 3 a')
    (List.append_cancel_left hchars)
  obtain ⟨hdigits, htail⟩ := append_cons_inj_of_not_mem
    (Hex.not_mem_upper hblank width n) (Hex.not_mem_upper hblank width' n')
    ((List.append_right_inj _).mp hrest)
  exact ⟨Hex.lower_inj (String.toList_inj.mp haddress), String.toList_inj.mp hdigits,
    String.toList_inj.mp htail⟩

/-- A word line, cut where `row_inj` cuts it. -/
theorem wordLine_eq (a : Nat) (w : Word) :
    wordLine a w =
      Hex.address a ++ ": " ++ Hex.upper 4 w.bits.toNat ++ " " ++ (" " ++ w.assembly) := by
  simp only [wordLine, Word.text, String.append_assoc]
  rfl

theorem dataLine_eq (a : Nat) (b : UInt8) :
    dataLine a b =
      Hex.address a ++ ": " ++ Hex.upper 2 b.toNat ++ " " ++ ("   DB " ++ Hex.byte b.toNat) := by
  simp only [dataLine, String.append_assoc]
  rfl

theorem wordLine_inj {a a' : Nat} {w w' : Word} (h : wordLine a w = wordLine a' w') :
    a = a' ∧ w = w' := by
  rw [wordLine_eq, wordLine_eq] at h
  obtain ⟨ha, hdigits, -⟩ := row_inj h
  exact ⟨ha, Word.ext_toNat (Hex.upper_inj hdigits)⟩

theorem dataLine_inj {a a' : Nat} {b b' : UInt8} (h : dataLine a b = dataLine a' b') :
    a = a' ∧ b = b' := by
  rw [dataLine_eq, dataLine_eq] at h
  obtain ⟨ha, hdigits, -⟩ := row_inj h
  exact ⟨ha, UInt8.toNat_inj.mp (Hex.upper_inj hdigits)⟩

/-- A word has more digits than a byte. -/
theorem wordLine_ne_dataLine (a a' : Nat) (w : Word) (b : UInt8) :
    wordLine a w ≠ dataLine a' b := by
  intro h
  rw [wordLine_eq, dataLine_eq] at h
  obtain ⟨-, hdigits, -⟩ := row_inj h
  have hword : (Hex.upper 4 w.bits.toNat).length = 4 :=
    Hex.length_upper_of_lt (by decide) w.bits.toNat_lt
  have hbyte : (Hex.upper 2 b.toNat).length = 2 :=
    Hex.length_upper_of_lt (by decide) b.toNat_lt
  rw [hdigits, hbyte] at hword
  cases hword

/-! ## All lines -/

theorem length_lines (a : Nat) (image : List UInt8) :
    (lines a image).length = image.length / 2 + image.length % 2 := by
  induction a, image using lines.induct with
  | case1 a hi lo rest ih =>
      simp only [lines, List.length_cons, ih]
      omega
  | case2 a b => simp only [lines, List.length_singleton]
  | case3 a => simp only [lines, List.length_nil]

/-- **The byte left over stands on the last line.** -/
theorem getElem?_lines_last {image : List UInt8} {b : UInt8} (hodd : image.length % 2 = 1)
    (hlast : image.getLast? = some b) (a : Nat) :
    (lines a image)[image.length / 2]? = some (dataLine (a + image.length - 1) b) := by
  induction a, image using lines.induct with
  | case1 a hi lo rest ih =>
      have hrest : rest.length % 2 = 1 := by
        simp only [List.length_cons] at hodd
        omega
      have hne : rest ≠ [] := by
        rintro rfl
        cases hrest
      have hget : rest.getLast? = some b := by
        rwa [List.getLast?_cons_of_ne_nil (by simp), List.getLast?_cons_of_ne_nil hne] at hlast
      have hline : (hi :: lo :: rest).length / 2 = rest.length / 2 + 1 := by
        simp only [List.length_cons]
        omega
      have haddress : a + 2 + rest.length - 1 = a + (hi :: lo :: rest).length - 1 := by
        simp only [List.length_cons]
        omega
      rw [hline, lines, List.getElem?_cons_succ, ih hrest hget, haddress]
  | case2 a b' =>
      cases hlast
      simp [lines]
  | case3 a => cases hlast

/-- **The lines of an image determine the image**, and its address if there is a line at all. -/
theorem lines_inj {a a' : Nat} {image image' : List UInt8} (h : lines a image = lines a' image') :
    image = image' ∧ (image ≠ [] → a = a') := by
  induction a, image using lines.induct generalizing a' image' with
  | case1 a hi lo rest ih =>
      rcases image' with _ | ⟨hi', _ | ⟨lo', rest'⟩⟩
      · cases h
      · exact absurd (List.cons.inj h).1 (wordLine_ne_dataLine _ _ _ _)
      · obtain ⟨hline, hrest⟩ := List.cons.inj h
        obtain ⟨ha, hword⟩ := wordLine_inj hline
        obtain ⟨rfl, rfl⟩ := Word.ofBytes_inj hword
        obtain ⟨rfl, -⟩ := ih hrest
        exact ⟨rfl, fun _ => ha⟩
  | case2 a b =>
      rcases image' with _ | ⟨hi', _ | ⟨lo', rest'⟩⟩
      · cases h
      · obtain ⟨ha, rfl⟩ := dataLine_inj (List.cons.inj h).1
        exact ⟨rfl, fun _ => ha⟩
      · exact absurd (List.cons.inj h).1.symm (wordLine_ne_dataLine _ _ _ _)
  | case3 a =>
      rcases image' with _ | ⟨hi', _ | ⟨lo', rest'⟩⟩
      · exact ⟨rfl, fun hne => absurd rfl hne⟩
      · cases h
      · cases h

/-- A listing is not only a text but its lines. -/
theorem lines_eq_of_text_eq {image image' : List UInt8} {origin origin' : UInt16}
    (h : text image origin = text image' origin') :
    lines origin.toNat image = lines origin'.toNat image' := by
  have hcut := congrArg textLines h
  rw [textLines_text, textLines_text] at hcut
  exact List.append_cancel_left (List.append_cancel_right hcut)

/--
**A listing is faithful and loses nothing.**

A listing is its three header lines and then a line for each whole word of the image: the
address of the word, counted on past 16 bits, its two bytes as one big-endian number, and
its assembly text. If the length of the image is odd, one more line shows the last byte,
at its own address. No line holds a line break. Equal listings are listings of the same
image, and at the same address unless the image is empty.
-/
theorem listing_lossless :
    (∀ (image : List UInt8) (origin : UInt16), ∃ words data : List String,
      text image origin = String.join
        ((["; Chip-8 Disassembly", "; ------------------", ""] ++ words ++ data).map (· ++ "\n")) ∧
      (∀ l ∈ words ++ data, OneLine l) ∧
      words.length = image.length / 2 ∧
      (∀ (k : Nat) (hi lo : UInt8), image[2 * k]? = some hi → image[2 * k + 1]? = some lo →
        words[k]? = some (Hex.address (origin.toNat + 2 * k) ++ ": " ++
          Hex.upper 4 (hi.toNat * 0x100 + lo.toNat) ++ "  " ++ (Word.ofBytes hi lo).assembly)) ∧
      (image.length % 2 = 0 → data = []) ∧
      ∀ b : UInt8, image.length % 2 = 1 → image.getLast? = some b →
        data = [Hex.address (origin.toNat + image.length - 1) ++ ": " ++ Hex.upper 2 b.toNat ++
          "    DB " ++ Hex.byte b.toNat]) ∧
    ∀ (image image' : List UInt8) (origin origin' : UInt16),
      text image origin = text image' origin' →
        image = image' ∧ (image ≠ [] → origin = origin') := by
  constructor
  · intro image origin
    have hlength := length_lines origin.toNat image
    refine ⟨(lines origin.toNat image).take (image.length / 2),
      (lines origin.toNat image).drop (image.length / 2), ?_, ?_, ?_, ?_, ?_, ?_⟩
    · rw [List.append_assoc, List.take_append_drop]
      rfl
    · rw [List.take_append_drop]
      exact fun l hl => oneLine_of_mem_lines hl
    · rw [List.length_take, hlength]
      omega
    · intro k hi lo hhi hlo
      obtain ⟨hlt, -⟩ := List.getElem?_eq_some_iff.mp hlo
      rw [List.getElem?_take_of_lt (by omega), getElem?_lines hhi hlo, wordLine, Word.text,
        Word.toNat_ofBytes]
    · intro heven
      exact List.drop_of_length_le (by omega)
    · intro b hodd hlast
      have hline := getElem?_lines_last hodd hlast origin.toNat
      obtain ⟨hlt, hget⟩ := List.getElem?_eq_some_iff.mp hline
      rw [List.drop_eq_getElem_cons hlt, List.drop_of_length_le (by omega), hget]
      rfl
  · intro image image' origin origin' h
    obtain ⟨himage, haddress⟩ := lines_inj (lines_eq_of_text_eq h)
    exact ⟨himage, fun hne => UInt16.toNat_inj.mp (haddress hne)⟩

/-- An image of three bytes at the last address of 16 bits; and a word with a zero byte does not
look like its other byte. -/
theorem listing_lossless_odd :
    (∃ words data : List String,
      text [0x00, 0xE0, 0xAB] 0xFFFF = String.join
        ((["; Chip-8 Disassembly", "; ------------------", ""] ++ words ++ data).map (· ++ "\n")) ∧
      words[0]? = some "0xffff: 00E0  CLS" ∧ data = ["0x10001: AB    DB 0xab"]) ∧
    text [0x00, 0xAB] 0x200 ≠ text [0xAB] 0x200 := by
  obtain ⟨hlisting, hlossless⟩ := listing_lossless
  constructor
  · obtain ⟨words, data, htext, -, -, hwords, -, hdata⟩ := hlisting [0x00, 0xE0, 0xAB] 0xFFFF
    have hword := hwords 0 0x00 0xE0 rfl rfl
    have hbyte := hdata 0xAB rfl rfl
    exact ⟨words, data, htext, hword.trans (by decide +kernel), hbyte.trans (by decide +kernel)⟩
  · intro h
    obtain ⟨himage, -⟩ := hlossless _ _ _ _ h
    cases himage

end Listing

end ChipEight
