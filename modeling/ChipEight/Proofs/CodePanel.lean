import ChipEight.Proofs.DashboardBoxes
import ChipEight.Proofs.Decoding
import ChipEight.Proofs.ListingLines

/-!
# The code panel

A row of code is a mark, an address, the digits of a word and its assembly text. All but
the last have 15 characters together. The assembly text of most instructions has 13 at
the most, and then the row fits the 28 cells that the panel has inside its border on
the narrowest terminal. Only a sprite of ten rows or more takes one character more,
since its height has two digits.

So on a terminal of 96 columns just those rows lose a character, the last digit of the
height, and what is left is the text of a sprite of height 1. One more column, and every
row is complete.
-/

namespace ChipEight

/-! ## How long assembly text is -/

namespace Instruction

theorem length_register {x : UInt8} (h : x.toNat < 16) : (register x).length = 2 := by
  rw [register, String.length_append, Hex.length_upper_of_lt (by decide) h]
  rfl

theorem length_byte (n : UInt8) : (Hex.byte n.toNat).length = 4 :=
  Hex.length_literal_of_lt (by decide) n.toNat_lt

theorem length_address {a : Nat} (h : a < 0x1000) : (Hex.address a).length = 5 :=
  Hex.length_literal_of_lt (by decide) h

theorem length_draw {x y : UInt8} (n : UInt8) (hx : x.toNat < 16) (hy : y.toNat < 16) :
    (draw x y n).assembly.length = 12 + (decimal n.toNat).length := by
  rw [assembly, String.length_append, String.length_append, String.length_append,
    String.length_append, String.length_append, length_register hx, length_register hy]
  rfl

theorem length_draw_one {x y : UInt8} (hx : x.toNat < 16) (hy : y.toNat < 16) :
    (draw x y 1).assembly.length = 13 :=
  length_draw 1 hx hy

/-- The text of a sprite of ten rows or more is that of a single row, and one more digit. -/
theorem assembly_draw_of_ten_le {n : UInt8} (x y : UInt8) (hn : n.toNat < 16)
    (hten : 10 ≤ n.toNat) :
    (draw x y n).assembly =
      (draw x y 1).assembly ++ String.singleton (n.toNat % 10).digitChar := by
  have hone : n.toNat / 10 = (1 : UInt8).toNat := by
    have : (1 : UInt8).toNat = 1 := rfl
    omega
  rw [assembly, assembly, decimal_of_ten_le hten, hone, ← String.append_assoc]

theorem length_assembly_le {i : Instruction} (h : i.InRange)
    (hheight : ∀ x y n, i = draw x y n → n.toNat < 10) : i.assembly.length ≤ 13 := by
  cases i with
  | clear | ret => decide
  | jump a | call a | jumpOffset a | setIndex a =>
    rw [assembly, String.length_append, length_address h]
    decide
  | skipEqByte x nn | skipNeByte x nn | loadByte x nn | addByte x nn | random x nn =>
    rw [assembly, String.length_append, String.length_append, String.length_append,
      length_register h, length_byte]
    decide
  | skipEqReg x y | skipNeReg x y | copy x y | or x y | and x y | xor x y | add x y | sub x y
  | shiftRight x y | subFrom x y | shiftLeft x y =>
    rw [assembly, String.length_append, String.length_append, String.length_append,
      length_register h.1, length_register h.2]
    decide
  | addIndex x | fontIndex x | storeDecimal x | storeRegisters x | skipPressed x
  | skipReleased x | setDelay x | setSound x =>
    rw [assembly, String.length_append, length_register h]
    decide
  | loadRegisters x | waitKey x | readDelay x =>
    rw [assembly, String.length_append, String.length_append, length_register h]
    decide
  | draw x y n =>
    rw [length_draw n h.1 h.2.1, length_decimal_of_lt (hheight x y n rfl)]

end Instruction

namespace Word

theorem length_text (w : Word) : w.text.length = 4 :=
  Hex.length_upper_of_lt (by decide) w.bits.toNat_lt

/-- The word is a sprite of ten rows or more. -/
def TallSprite (w : Word) : Prop :=
  ∃ x y n, w.decode? = some (.draw x y n) ∧ 10 ≤ n.toNat

theorem length_assembly_le {w : Word} (h : ¬w.TallSprite) : w.assembly.length ≤ 13 := by
  cases hw : w.decode? with
  | none =>
    rw [assembly_of_refused hw, String.length_append, length_text]
    decide
  | some i =>
    rw [assembly, hw]
    refine Instruction.length_assembly_le (inRange_of_decode? hw) fun x y n hi => ?_
    exact Nat.lt_of_not_le fun hten => h ⟨x, y, n, hi ▸ hw, hten⟩

/-- No word needs more than one character more. -/
theorem length_assembly_le_succ (w : Word) : w.assembly.length ≤ 14 := by
  by_cases htall : w.TallSprite
  · obtain ⟨x, y, n, hw, hten⟩ := htall
    obtain ⟨hx, hy, hn⟩ := inRange_of_decode? hw
    rw [assembly, hw]
    refine (congrArg String.length (Instruction.assembly_draw_of_ten_le x y hn hten)).trans_le ?_
    rw [String.length_append, Instruction.length_draw_one hx hy, String.length_singleton]
  · exact Nat.le_succ_of_le (length_assembly_le htall)

end Word

/-! ## How rows are cut -/

namespace View

/-- A text followed by blanks up to a width. -/
def padded (width : Nat) (t : String) : String :=
  t ++ String.ofList (List.replicate (width - t.length) ' ')

theorem Row.text_ofText (style : Style) (t : String) : (Row.ofText style t).text = t := by
  rw [Row.text, Row.ofText, List.map_map]
  exact (congrArg String.ofList t.toList.map_id).trans String.ofList_toList

theorem Row.text_append (row row' : Row) : Row.text (row ++ row') = row.text ++ row'.text := by
  rw [Row.text, List.map_append, String.ofList_append]
  rfl

theorem Row.text_fit_ofText {width : Nat} {t : String} (style style' : Style)
    (h : t.length ≤ width) : (Row.fit width style (Row.ofText style' t)).text = padded width t := by
  rw [Row.fit_eq_filled style (by rwa [Row.length_ofText]), Row.filled, Row.length_ofText,
    Row.text_append, Row.text_ofText, padded, Row.text, Row.replicate, List.map_replicate]

/-- What does not fit is cut off. -/
theorem Row.text_fit_ofText_append {width : Nat} {t : String} (u : String) (style style' : Style)
    (h : t.length = width) : (Row.fit width style (Row.ofText style' (t ++ u))).text = t := by
  have hrow : Row.ofText style' (t ++ u) = Row.ofText style' t ++ Row.ofText style' u := by
    rw [Row.ofText, String.toList_append, List.map_append]
    rfl
  have hlength : (Row.ofText style' t).length = width := (Row.length_ofText style' t).trans h
  have hrest : width - (Row.ofText style' t ++ Row.ofText style' u).length = 0 := by
    rw [List.length_append]
    omega
  rw [Row.fit, hrow, hrest, List.take_left' hlength, Row.text_append, Row.text_ofText]
  exact String.append_empty

/-! ## The rows of code -/

/-- The mark in front of a row. -/
def codeMark (r : Session.CodeRow) : String :=
  if r.current then "▶ " else "  "

/-- All that a row says. -/
def codeText (r : Session.CodeRow) : String :=
  codeMark r ++ (Hex.address r.address ++ ": " ++ r.text)

/-- What stands before the assembly text in the row of a word. -/
def codeLead (r : Session.CodeRow) (w : Word) : String :=
  codeMark r ++ (Hex.address r.address ++ ": " ++ w.text ++ "  ")

theorem codeText_eq {r : Session.CodeRow} {w : Word} (h : r.text = w.text ++ "  " ++ w.assembly) :
    codeText r = codeLead r w ++ w.assembly := by
  simp only [codeText, codeLead, h, String.append_assoc]

theorem length_codeLead {r : Session.CodeRow} (w : Word) (h : r.address ≤ 0xFFE) :
    (codeLead r w).length = 15 := by
  have hmark : (codeMark r).length = 2 := by
    unfold codeMark
    split <;> rfl
  rw [codeLead, String.length_append, String.length_append, String.length_append,
    String.length_append, hmark, Instruction.length_address (by omega), w.length_text]
  rfl

/-- The look of a row. -/
def codeStyle (r : Session.CodeRow) : Style :=
  if r.current then ⟨.yellow, .plain, true⟩ else .plain

theorem fit_codeRow (width : Nat) (r : Session.CodeRow) :
    Row.fit width .plain (codeRow width r) =
      Row.fit width (codeStyle r) (Row.ofText (codeStyle r) (codeText r)) := by
  rw [codeRow, codeStyle, codeText, codeMark]
  cases r.current with
  | false => rfl
  | true => exact Row.fit_of_length_eq .plain (Row.length_fit _ _ _)

variable {divide : Divider} {s : Session} {width height : Nat}

/-- The inside of the box with the code is the rows of the listing, fitted to it. -/
theorem window_code (hd : divide.Lawful) (hw : 96 ≤ width) (hh : 29 ≤ height)
    (hdebug : s.showDebug = true) :
    (dashboardBy divide s width height).window 67 11 (width - 68) (height - 25) =
      Picture.fit (width - 68) (height - 25) .plain
        ((s.disassembly (height - 25)).map (codeRow (width - 68))) :=
  Picture.window_trans (window_codeBox hd hw hh hdebug) (Picture.window_box _ _ _ _)
    (by omega) (by omega)

/-- A row of the listing, as it is seen inside the box. -/
theorem getElem?_window_code (hd : divide.Lawful) (hw : 96 ≤ width) (hh : 29 ≤ height)
    (hdebug : s.showDebug = true) {k : Nat} {r : Session.CodeRow}
    (hr : (s.disassembly (height - 25))[k]? = some r) :
    ((dashboardBy divide s width height).window 67 11 (width - 68) (height - 25))[k]? =
      some (Row.fit (width - 68) (codeStyle r) (Row.ofText (codeStyle r) (codeText r))) := by
  have hk : k < height - 25 :=
    Nat.lt_of_lt_of_le (List.getElem?_eq_some_iff.mp hr).1 (s.length_disassembly_le _)
  have hrow : ((s.disassembly (height - 25)).map (codeRow (width - 68)))[k]? =
      some (codeRow (width - 68) r) := by
    rw [List.getElem?_map, hr]
    rfl
  rw [window_code hd hw hh hdebug, Picture.getElem?_fit .plain hrow hk, fit_codeRow]

/-- **The rows of code are complete, but for one digit on the narrowest terminal.** The box with the
code stands below the registers, and its inside shows a row for each word of the listing. On a
terminal of 97 columns or more the row has its mark, address, digits and assembly text, every
character of them, and then blanks. On one of 96 columns so has every row except that of a sprite
of ten rows or more: there the last digit of the height is cut off, and the row reads as a sprite
of height 1. -/
theorem code_rows_shown (hd : divide.Lawful) (hw : 96 ≤ width) (hh : 29 ≤ height)
    (hdebug : s.showDebug = true) :
    let p := dashboardBy divide s width height
    let listing := s.disassembly (height - 25)
    p.window 66 10 (width - 66) (height - 23) = codeBox s (width - 66) (height - 23) ∧
      listing.length ≤ height - 25 ∧
      ∀ (k : Nat) (r : Session.CodeRow), listing[k]? = some r → ∃ w : Word, ∃ row : Row,
        s.console.machine.memory.readWord (.ofNat r.address) = .ok w ∧
        codeText r = codeLead r w ++ w.assembly ∧
        (p.window 67 11 (width - 68) (height - 25))[k]? = some row ∧
        (97 ≤ width ∨ ¬w.TallSprite → row.text = padded (width - 68) (codeText r)) ∧
        (width = 96 → ∀ x y n, w.decode? = some (.draw x y n) → 10 ≤ n.toNat →
          row.text = codeLead r w ++ (Instruction.draw x y 1).assembly) := by
  intro p listing
  refine ⟨window_codeBox hd hw hh hdebug, s.length_disassembly_le _, fun k r hr => ?_⟩
  obtain ⟨haddress, ⟨w, hword, htext⟩, -⟩ := Session.of_mem_disassembly (List.mem_of_getElem? hr)
  have hlead := length_codeLead w haddress
  have hfull := codeText_eq htext
  refine ⟨w, _, hword, hfull, getElem?_window_code hd hw hh hdebug hr, fun hroom => ?_, ?_⟩
  · refine Row.text_fit_ofText _ _ ?_
    rw [hfull, String.length_append, hlead]
    have hlongest := w.length_assembly_le_succ
    rcases hroom with hwide | hlow
    · omega
    · have := Word.length_assembly_le hlow
      omega
  · -- 15 characters and 13 fill the row, and the second digit of the height is the one beyond
    rintro rfl x y n hdraw hten
    obtain ⟨hx, hy, hn⟩ := Word.inRange_of_decode? hdraw
    have hassembly : w.assembly =
        (Instruction.draw x y 1).assembly ++ String.singleton (n.toNat % 10).digitChar := by
      rw [Word.assembly, hdraw]
      exact Instruction.assembly_draw_of_ten_le x y hn hten
    rw [hfull, hassembly, ← String.append_assoc]
    refine Row.text_fit_ofText_append _ _ _ ?_
    rw [String.length_append, hlead, Instruction.length_draw_one hx hy]

/-- A session in whose listing of four rows the last is a sprite of height 15. -/
theorem exists_tallSprite_listed :
    ∃ s₀, Session.new ⟨480, 60, some 7⟩ [0x60, 0x05, 0xD0, 0x1F] (.ofSeed 0) = .ok s₀ ∧
      s₀.showDebug = true ∧
      (s₀.disassembly 4)[3]? = some ⟨0x202, "D01F  DRW V0, V1, 15", false⟩ := by
  have hlisting : (Session.new ⟨480, 60, some 7⟩ [0x60, 0x05, 0xD0, 0x1F] (.ofSeed 0)).toOption.map
      (fun s => (s.showDebug, (s.disassembly 4)[3]?)) =
      some (true, some ⟨0x202, "D01F  DRW V0, V1, 15", false⟩) := by decide +kernel
  obtain ⟨s₀, h₀, hs₀⟩ := Session.exists_new_of_map hlisting
  obtain ⟨hdebug, hr⟩ := Prod.mk.inj hs₀
  exact ⟨s₀, h₀, hdebug, hr⟩

/-- On 97 columns the row of a sprite of height 15 is complete. -/
theorem code_rows_shown_tall :
    ∃ s₀, Session.new ⟨480, 60, some 7⟩ [0x60, 0x05, 0xD0, 0x1F] (.ofSeed 0) = .ok s₀ ∧
      s₀.showDebug = true ∧ ∃ row : Row,
        ((dashboard s₀ 97 29).window 67 11 29 4)[3]? = some row ∧
        row.text = "  0x202: D01F  DRW V0, V1, 15" := by
  obtain ⟨s₀, h₀, hdebug, hr⟩ := exists_tallSprite_listed
  obtain ⟨-, -, hrows⟩ := code_rows_shown Divider.greedy_lawful (show 96 ≤ 97 by decide)
    (show 29 ≤ 29 by decide) hdebug
  obtain ⟨w, row, -, -, hrow, hfull, -⟩ := hrows 3 _ hr
  have htext : padded 29 (codeText ⟨0x202, "D01F  DRW V0, V1, 15", false⟩) =
      "  0x202: D01F  DRW V0, V1, 15" := by decide +kernel
  exact ⟨s₀, h₀, hdebug, row, hrow, (hfull (.inl (by decide))).trans htext⟩

/-- On 96 columns the same row shows a sprite of height 1. -/
theorem code_row_cut :
    ∃ s₀, Session.new ⟨480, 60, some 7⟩ [0x60, 0x05, 0xD0, 0x1F] (.ofSeed 0) = .ok s₀ ∧
      s₀.showDebug = true ∧
      (s₀.disassembly 4)[3]?.map codeText = some "  0x202: D01F  DRW V0, V1, 15" ∧
      ((dashboard s₀ 96 29).window 67 11 28 4)[3]?.map Row.text =
        some "  0x202: D01F  DRW V0, V1, 1" := by
  obtain ⟨s₀, h₀, hdebug, hr⟩ := exists_tallSprite_listed
  have hrow := getElem?_window_code Divider.greedy_lawful (show 96 ≤ 96 by decide)
    (show 29 ≤ 29 by decide) hdebug hr
  have htext : codeText ⟨0x202, "D01F  DRW V0, V1, 15", false⟩ =
      "  0x202: D01F  DRW V0, V1, 15" := by decide +kernel
  refine ⟨s₀, h₀, hdebug, by rw [hr, Option.map_some, htext], ?_⟩
  rw [dashboard, hrow, Option.map_some, htext]
  decide +kernel

end View

end ChipEight
