import ChipEight.Proofs.Encoding
import ChipEight.Proofs.LosslessListing

/-!
# Assembly text read back

An instruction can be read off its assembly text, whatever its operands are. So no two
instructions share a text, and with the words that are none (`??? ;` and their digits),
no two words do.

A text is cut into words where it has blanks, and commas count for nothing
(`wordsOf`). The first word is the mnemonic; each of the others is an operand, and shows
by its first characters of which kind it is (`Operand.read`). Five mnemonics are shared
by several instructions, `LD` by eleven. These differ in the kinds of their operands, so
mnemonic and operands together name the instruction (`Instruction.ofParts?`).
-/

namespace ChipEight

/-! ## Operands -/

/-- An operand of an instruction. -/
inductive Operand where
  /-- A register. -/
  | register (x : UInt8)
  /-- A byte. -/
  | byte (n : UInt8)
  /-- An address. -/
  | address (a : UInt16)
  /-- The height of a sprite. -/
  | height (n : UInt8)
  /-- The index register. -/
  | index
  /-- The memory that the index register points at. -/
  | atIndex
  /-- The font sprite of a digit. -/
  | font
  /-- The decimal digits of a number. -/
  | digits
  /-- The next key. -/
  | key
  /-- The delay timer. -/
  | delay
  /-- The sound timer. -/
  | sound
deriving DecidableEq

/-- The text is a single word: it holds no blank, and no comma either. -/
def Unbroken (t : String) : Prop :=
  ' ' ∉ t.toList ∧ ',' ∉ t.toList

instance (t : String) : Decidable (Unbroken t) :=
  inferInstanceAs (Decidable (_ ∧ _))

theorem unbroken_append {s t : String} : Unbroken (s ++ t) ↔ Unbroken s ∧ Unbroken t := by
  simp only [Unbroken, String.toList_append, List.mem_append, not_or]
  exact and_and_and_comm

theorem Hex.unbroken_lower (width n : Nat) : Unbroken (lower width n) :=
  ⟨not_mem_lower (by decide) width n, not_mem_lower (by decide) width n⟩

theorem Hex.unbroken_upper (width n : Nat) : Unbroken (upper width n) :=
  ⟨not_mem_upper (by decide) width n, not_mem_upper (by decide) width n⟩

theorem unbroken_decimal (n : Nat) : Unbroken (decimal n) := by
  have hno : ∀ c : Char, c.isDigit = false → c ∉ Nat.toDigits 10 n := by
    intro c hc h
    rw [isDigit_of_mem_toDigits h] at hc
    cases hc
  rw [Unbroken, decimal, String.toList_ofList]
  exact ⟨hno ' ' (by decide), hno ',' (by decide)⟩

namespace Operand

/-- The operand as it is written. -/
def text : Operand → String
  | register x => Instruction.register x
  | byte n => Hex.byte n.toNat
  | address a => Hex.address a.toNat
  | height n => decimal n.toNat
  | index => "I"
  | atIndex => "[I]"
  | font => "F"
  | digits => "B"
  | key => "K"
  | delay => "DT"
  | sound => "ST"

/-- The operand that a word stands for. -/
def read : List Char → Operand
  | ['I'] => index
  | ['[', 'I', ']'] => atIndex
  | ['F'] => font
  | ['B'] => digits
  | ['K'] => key
  | ['D', 'T'] => delay
  | ['S', 'T'] => sound
  | 'V' :: ds => register (.ofNat (Hex.value ds))
  | ['0', 'x', d, e] => byte (.ofNat (Hex.value [d, e]))
  | '0' :: 'x' :: ds => address (.ofNat (Hex.value ds))
  | ds => height (.ofNat (decimalValue ds))

theorem read_of_isDigit {ds : List Char} (h : ∀ c ∈ ds, c.isDigit = true) :
    read ds = height (.ofNat (decimalValue ds)) := by
  unfold read
  split <;> simp_all

/-- **An operand can be read off its text.** -/
theorem read_text (o : Operand) : read o.text.toList = o := by
  cases o with
  | register x => simp [text, Instruction.register, read, Hex.value_upper]
  | byte n =>
      have hlength : (Hex.lower 2 n.toNat).length = 2 :=
        Hex.length_lower_of_lt (by decide) n.toNat_lt
      have hvalue := Hex.value_lower 2 n.toNat
      rw [← String.length_toList] at hlength
      rw [text, Hex.byte, Hex.literal, String.toList_append]
      generalize (Hex.lower 2 n.toNat).toList = ds at hlength hvalue
      rcases ds with - | ⟨d, - | ⟨e, - | ⟨f, ds⟩⟩⟩
      case cons.cons.nil => simp [read, hvalue]
      all_goals simp at hlength
  | address a =>
      -- three digits or more, so this is not read as a byte
      have hlength := Hex.le_length_lower 3 a.toNat
      have hvalue := Hex.value_lower 3 a.toNat
      rw [← String.length_toList] at hlength
      rw [text, Hex.address, Hex.literal, String.toList_append]
      generalize (Hex.lower 3 a.toNat).toList = ds at hlength hvalue
      rcases ds with - | ⟨d, - | ⟨e, - | ⟨f, ds⟩⟩⟩
      case cons.cons.cons => simp [read, hvalue]
      all_goals simp at hlength
  | height n =>
      rw [text, decimal, String.toList_ofList, read_of_isDigit fun c => isDigit_of_mem_toDigits,
        decimalValue_toDigits, UInt8.ofNat_toNat]
  | index | atIndex | font | digits | key | delay | sound => rfl

theorem unbroken_text (o : Operand) : Unbroken o.text := by
  cases o with
  | register x => exact unbroken_append.mpr ⟨by decide, Hex.unbroken_upper 1 x.toNat⟩
  | byte n => exact unbroken_append.mpr ⟨by decide, Hex.unbroken_lower 2 n.toNat⟩
  | address a => exact unbroken_append.mpr ⟨by decide, Hex.unbroken_lower 3 a.toNat⟩
  | height n => exact unbroken_decimal n.toNat
  | index | atIndex | font | digits | key | delay | sound => decide

end Operand

/-! ## Lines of words -/

/-- The words of a line: a blank ends a word, and commas are left out. -/
def wordsOf (t : String) : List (List Char) :=
  (t.toList.filter (· ≠ ',')).splitOn ' '

theorem wordsOf_of_unbroken {t : String} (h : Unbroken t) : wordsOf t = [t.toList] := by
  have hall : ∀ c ∈ t.toList, decide (c ≠ ',') = true := fun c hc =>
    decide_eq_true fun he => h.2 (he ▸ hc)
  rw [wordsOf, List.filter_eq_self.mpr hall, List.splitOn_eq_singleton h.1]

theorem wordsOf_blank (s t : String) : wordsOf (s ++ " " ++ t) = wordsOf s ++ wordsOf t := by
  simp [wordsOf, List.splitOn_append_cons_self]

theorem wordsOf_comma (s t : String) : wordsOf (s ++ ", " ++ t) = wordsOf s ++ wordsOf t := by
  simp [wordsOf, List.splitOn_append_cons_self]

/-- A line of assembly: the mnemonic, and the operands with commas between them. -/
def assemblyLine (mnemonic : String) : List String → String
  | [] => mnemonic
  | operands => mnemonic ++ " " ++ String.intercalate ", " operands

theorem wordsOf_intercalate {ts : List String} (hne : ts ≠ []) (h : ∀ t ∈ ts, Unbroken t) :
    wordsOf (String.intercalate ", " ts) = ts.map String.toList := by
  induction ts with
  | nil => exact absurd rfl hne
  | cons t ts ih =>
      have ht := wordsOf_of_unbroken (h t List.mem_cons_self)
      cases ts with
      | nil => rw [String.intercalate_singleton, ht]; rfl
      | cons t' ts =>
          have hrest := ih (List.cons_ne_nil _ _) fun u hu => h u (List.mem_cons_of_mem t hu)
          rw [String.intercalate_cons_cons, wordsOf_comma, ht, hrest]
          rfl

/-- **A line comes back as its words.** -/
theorem wordsOf_assemblyLine {m : String} {ts : List String} (hm : Unbroken m)
    (h : ∀ t ∈ ts, Unbroken t) :
    wordsOf (assemblyLine m ts) = m.toList :: ts.map String.toList := by
  cases ts with
  | nil => exact wordsOf_of_unbroken hm
  | cons t ts =>
      rw [assemblyLine, wordsOf_blank, wordsOf_of_unbroken hm,
        wordsOf_intercalate (List.cons_ne_nil t ts) h]
      · rfl
      · exact List.cons_ne_nil t ts

/-! ## Instructions -/

namespace Instruction

/-- The mnemonic of an instruction, and its operands. -/
def parts : Instruction → String × List Operand
  | clear => ("CLS", [])
  | draw x y n => ("DRW", [.register x, .register y, .height n])
  | ret => ("RET", [])
  | jump a => ("JP", [.address a])
  | call a => ("CALL", [.address a])
  | jumpOffset a => ("JP", [.register 0, .address a])
  | skipEqByte x nn => ("SE", [.register x, .byte nn])
  | skipNeByte x nn => ("SNE", [.register x, .byte nn])
  | skipEqReg x y => ("SE", [.register x, .register y])
  | skipNeReg x y => ("SNE", [.register x, .register y])
  | loadByte x nn => ("LD", [.register x, .byte nn])
  | addByte x nn => ("ADD", [.register x, .byte nn])
  | copy x y => ("LD", [.register x, .register y])
  | or x y => ("OR", [.register x, .register y])
  | and x y => ("AND", [.register x, .register y])
  | xor x y => ("XOR", [.register x, .register y])
  | add x y => ("ADD", [.register x, .register y])
  | sub x y => ("SUB", [.register x, .register y])
  | shiftRight x y => ("SHR", [.register x, .register y])
  | subFrom x y => ("SUBN", [.register x, .register y])
  | shiftLeft x y => ("SHL", [.register x, .register y])
  | random x nn => ("RND", [.register x, .byte nn])
  | setIndex a => ("LD", [.index, .address a])
  | addIndex x => ("ADD", [.index, .register x])
  | fontIndex x => ("LD", [.font, .register x])
  | storeDecimal x => ("LD", [.digits, .register x])
  | storeRegisters x => ("LD", [.atIndex, .register x])
  | loadRegisters x => ("LD", [.register x, .atIndex])
  | skipPressed x => ("SKP", [.register x])
  | skipReleased x => ("SKNP", [.register x])
  | waitKey x => ("LD", [.register x, .key])
  | readDelay x => ("LD", [.register x, .delay])
  | setDelay x => ("LD", [.delay, .register x])
  | setSound x => ("LD", [.sound, .register x])

/-- The instruction with a mnemonic and operands. -/
def ofParts? : String → List Operand → Option Instruction
  | "CLS", [] => some clear
  | "DRW", [.register x, .register y, .height n] => some (draw x y n)
  | "RET", [] => some ret
  | "JP", [.address a] => some (jump a)
  | "CALL", [.address a] => some (call a)
  | "JP", [.register x, .address a] => if x = 0 then some (jumpOffset a) else none
  | "SE", [.register x, .byte nn] => some (skipEqByte x nn)
  | "SNE", [.register x, .byte nn] => some (skipNeByte x nn)
  | "SE", [.register x, .register y] => some (skipEqReg x y)
  | "SNE", [.register x, .register y] => some (skipNeReg x y)
  | "LD", [.register x, .byte nn] => some (loadByte x nn)
  | "ADD", [.register x, .byte nn] => some (addByte x nn)
  | "LD", [.register x, .register y] => some (copy x y)
  | "OR", [.register x, .register y] => some (or x y)
  | "AND", [.register x, .register y] => some (and x y)
  | "XOR", [.register x, .register y] => some (xor x y)
  | "ADD", [.register x, .register y] => some (add x y)
  | "SUB", [.register x, .register y] => some (sub x y)
  | "SHR", [.register x, .register y] => some (shiftRight x y)
  | "SUBN", [.register x, .register y] => some (subFrom x y)
  | "SHL", [.register x, .register y] => some (shiftLeft x y)
  | "RND", [.register x, .byte nn] => some (random x nn)
  | "LD", [.index, .address a] => some (setIndex a)
  | "ADD", [.index, .register x] => some (addIndex x)
  | "LD", [.font, .register x] => some (fontIndex x)
  | "LD", [.digits, .register x] => some (storeDecimal x)
  | "LD", [.atIndex, .register x] => some (storeRegisters x)
  | "LD", [.register x, .atIndex] => some (loadRegisters x)
  | "SKP", [.register x] => some (skipPressed x)
  | "SKNP", [.register x] => some (skipReleased x)
  | "LD", [.register x, .key] => some (waitKey x)
  | "LD", [.register x, .delay] => some (readDelay x)
  | "LD", [.delay, .register x] => some (setDelay x)
  | "LD", [.sound, .register x] => some (setSound x)
  | _, _ => none

theorem ofParts?_parts (i : Instruction) : ofParts? i.parts.1 i.parts.2 = some i := by
  cases i <;> rfl

theorem unbroken_mnemonic (i : Instruction) : Unbroken i.parts.1 := by
  cases i <;> (simp only [parts]; decide)

/-- No instruction is marked as unknown. -/
theorem mnemonic_ne (i : Instruction) : i.parts.1 ≠ "???" := by
  cases i <;> (simp only [parts]; decide)

/-- An instruction is written as its mnemonic and its operands. -/
theorem assembly_eq (i : Instruction) :
    i.assembly = assemblyLine i.parts.1 (i.parts.2.map Operand.text) := by
  have hzero : register 0 = "V0" := by decide
  apply String.toList_inj.mp
  cases i <;>
    simp [assembly, parts, assemblyLine, Operand.text, String.intercalate_cons_cons, hzero]

/-- The words of an instruction are its mnemonic and the texts of its operands. -/
theorem wordsOf_assembly (i : Instruction) :
    wordsOf i.assembly = i.parts.1.toList :: i.parts.2.map (·.text.toList) := by
  rw [assembly_eq, wordsOf_assemblyLine i.unbroken_mnemonic, List.map_map]
  · rfl
  · intro t ht
    obtain ⟨o, -, rfl⟩ := List.mem_map.mp ht
    exact o.unbroken_text

/-- The instruction that a line of assembly stands for, if any. -/
def read? (t : String) : Option Instruction :=
  match wordsOf t with
  | [] => none
  | mnemonic :: operands => ofParts? (String.ofList mnemonic) (operands.map Operand.read)

/-- **An instruction can be read off its text.** -/
theorem read?_assembly (i : Instruction) : read? i.assembly = some i := by
  have hoperands : (i.parts.2.map (·.text.toList)).map Operand.read = i.parts.2 := by
    simp only [List.map_map, Function.comp_def, Operand.read_text, List.map_id']
  rw [read?, wordsOf_assembly]
  simp only [hoperands, String.ofList_toList]
  exact ofParts?_parts i

theorem assembly_inj {i i' : Instruction} (h : i.assembly = i'.assembly) : i = i' := by
  have hread := read?_assembly i
  rw [h, read?_assembly] at hread
  exact (Option.some.inj hread).symm

/-- What is said of a word that is no instruction is said of no instruction. -/
theorem assembly_ne (i : Instruction) (digits : String) : i.assembly ≠ "??? ; " ++ digits := by
  intro h
  have hsplit : "??? ; " ++ digits = "???" ++ " " ++ ("; " ++ digits) := by
    apply String.toList_inj.mp
    simp
  have hwords := i.wordsOf_assembly
  rw [h, hsplit, wordsOf_blank, wordsOf_of_unbroken (by decide)] at hwords
  exact i.mnemonic_ne (String.toList_inj.mp (List.cons.inj hwords).1.symm)

end Instruction

/-- A word can be told from its text as well. -/
theorem Word.assembly_inj {w w' : Word} (h : w.assembly = w'.assembly) : w = w' := by
  cases hw : w.decode? with
  | some i =>
      cases hw' : w'.decode? with
      | some i' =>
          rw [assembly_of_decode? hw, assembly_of_decode? hw'] at h
          rw [← encode_of_decode? hw, ← encode_of_decode? hw', Instruction.assembly_inj h]
      | none =>
          rw [assembly_of_decode? hw, assembly_of_refused hw'] at h
          exact absurd h (i.assembly_ne _)
  | none =>
      cases hw' : w'.decode? with
      | some i' =>
          rw [assembly_of_refused hw, assembly_of_decode? hw'] at h
          exact absurd h.symm (i'.assembly_ne _)
      | none =>
          rw [assembly_of_refused hw, assembly_of_refused hw', String.append_right_inj] at h
          exact ext_toNat (Hex.upper_inj h)

/-- **The text determines the instruction**, whatever the operands, and it is never that of a word
that is none. So the text of a word determines the word. -/
theorem assembly_determines :
    (∀ i i' : Instruction, i.assembly = i'.assembly → i = i') ∧
      (∀ (i : Instruction) (digits : String), i.assembly ≠ "??? ; " ++ digits) ∧
      ∀ w w' : Word, w.assembly = w'.assembly → w = w' :=
  ⟨fun _ _ => Instruction.assembly_inj, Instruction.assembly_ne, fun _ _ => Word.assembly_inj⟩

/-- `LD VF, V1` is not `LD F, V1`; and a word that reads `CLS` is `00E0`, whatever it was put
together from. -/
theorem assembly_determines_cut :
    (Instruction.copy 0xF 1).assembly ≠ (Instruction.fontIndex 1).assembly ∧
      (Word.ofNibbles 0x10 0x20 0xE 0x30).assembly = "CLS" ∧
      Word.ofNibbles 0x10 0x20 0xE 0x30 = ⟨0x00E0⟩ := by
  obtain ⟨hinstructions, -, hwords⟩ := assembly_determines
  have hcut : (Word.ofNibbles 0x10 0x20 0xE 0x30).assembly = "CLS" := by decide
  have hclear : (⟨0x00E0⟩ : Word).assembly = "CLS" := by decide
  refine ⟨fun h => ?_, hcut, hwords _ _ (hcut.trans hclear.symm)⟩
  cases hinstructions _ _ h

end ChipEight
