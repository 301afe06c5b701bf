import ChipEight.Json

/-!
# JSON tokens

`Token.scan?` cuts a text into tokens. Only space, tab, line feed and carriage
return may stand between tokens. Each scanner of a part gives the characters
it took and the rest of the text, and `number?_append` and `body?_append` say
that nothing is lost between the two; so each token shortens the text, and
scanning ends.
-/

namespace ChipEight.Json

/-- The pieces that JSON text is made of. -/
inductive Token where
  /-- The mark that opens an object. -/
  | openBrace
  /-- The mark that closes an object. -/
  | closeBrace
  /-- The mark that opens an array. -/
  | openBracket
  /-- The mark that closes an array. -/
  | closeBracket
  /-- The mark between a name and its value. -/
  | colon
  /-- The mark between two items. -/
  | comma
  /-- `null`. -/
  | null
  /-- `true` or `false`. -/
  | bool (b : Bool)
  /-- A number with its literal. -/
  | number (literal : List Char)
  /-- A string with the characters between its quotes. -/
  | string (body : List Char)

namespace Token

/-- Whether a character may stand between tokens. -/
def isBlank (c : Char) : Bool :=
  c == ' ' || c == '\t' || c == '\n' || c == '\r'

/-- Take a run of at least one digit. -/
def digits? (cs : List Char) : Option (List Char × List Char) :=
  if (cs.takeWhile Char.isDigit).isEmpty then none
  else some (cs.takeWhile Char.isDigit, cs.dropWhile Char.isDigit)

/-- Take the sign of a number, if there is one. -/
def minus : List Char → List Char × List Char
  | '-' :: rest => (['-'], rest)
  | cs => ([], cs)

/-- Take the whole part of a number: a zero, or a run of digits that starts with no zero. -/
def whole? : List Char → Option (List Char × List Char)
  | '0' :: rest => some (['0'], rest)
  | cs => digits? cs

/-- Take the fraction of a number, if there is one. -/
def fraction? : List Char → Option (List Char × List Char)
  | '.' :: rest => (digits? rest).map fun p => ('.' :: p.1, p.2)
  | cs => some ([], cs)

/-- Take the sign of an exponent, if there is one. -/
def sign : List Char → List Char × List Char
  | '+' :: rest => (['+'], rest)
  | cs => minus cs

/-- Take the exponent of a number, if there is one. -/
def exponent? : List Char → Option (List Char × List Char)
  | 'e' :: rest => (digits? (sign rest).2).map fun p => ('e' :: ((sign rest).1 ++ p.1), p.2)
  | 'E' :: rest => (digits? (sign rest).2).map fun p => ('E' :: ((sign rest).1 ++ p.1), p.2)
  | cs => some ([], cs)

/-- Take a number. -/
def number? (cs : List Char) : Option (List Char × List Char) :=
  match whole? (minus cs).2 with
  | none => none
  | some (whole, rest) =>
    match fraction? rest with
    | none => none
    | some (fraction, rest) =>
      match exponent? rest with
      | none => none
      | some (exponent, rest) => some ((minus cs).1 ++ whole ++ fraction ++ exponent, rest)

/-- Take the characters of a string up to its closing quote, which is dropped. Escapes must be
well formed, and control characters must be escaped. -/
def body? : List Char → Option (List Char × List Char)
  | [] => none
  | '"' :: rest => some ([], rest)
  | '\\' :: 'u' :: a :: b :: c :: d :: rest =>
    match hexUnit? a b c d with
    | none => none
    | some _ => (body? rest).map fun p => ('\\' :: 'u' :: a :: b :: c :: d :: p.1, p.2)
  | '\\' :: c :: rest =>
    match escaped? c with
    | none => none
    | some _ => (body? rest).map fun p => ('\\' :: c :: p.1, p.2)
  | c :: rest =>
    if c = '\\' ∨ c < ' ' then none else (body? rest).map fun p => (c :: p.1, p.2)

/-- Take the token that a text starts with. -/
def next? : List Char → Option (Token × List Char)
  | '\x7b' :: rest => some (openBrace, rest)
  | '\x7d' :: rest => some (closeBrace, rest)
  | '[' :: rest => some (openBracket, rest)
  | ']' :: rest => some (closeBracket, rest)
  | ':' :: rest => some (colon, rest)
  | ',' :: rest => some (comma, rest)
  | 'n' :: 'u' :: 'l' :: 'l' :: rest => some (null, rest)
  | 't' :: 'r' :: 'u' :: 'e' :: rest => some (bool true, rest)
  | 'f' :: 'a' :: 'l' :: 's' :: 'e' :: rest => some (bool false, rest)
  | '"' :: rest => (body? rest).map fun p => (string p.1, p.2)
  | cs => (number? cs).map fun p => (number p.1, p.2)

/-! ## Nothing is lost -/

theorem digits?_append {cs taken rest : List Char} (h : digits? cs = some (taken, rest)) :
    cs = taken ++ rest ∧ taken ≠ [] := by
  unfold digits? at h
  split at h
  · simp at h
  · rename_i hne
    simp only [Option.some.injEq, Prod.mk.injEq] at h
    obtain ⟨rfl, rfl⟩ := h
    exact ⟨(List.takeWhile_append_dropWhile).symm, by simpa using hne⟩

theorem minus_append (cs : List Char) : cs = (minus cs).1 ++ (minus cs).2 := by
  unfold minus
  split <;> rfl

theorem sign_append (cs : List Char) : cs = (sign cs).1 ++ (sign cs).2 := by
  unfold sign
  split
  · rfl
  · exact minus_append _

theorem whole?_append {cs taken rest : List Char} (h : whole? cs = some (taken, rest)) :
    cs = taken ++ rest ∧ taken ≠ [] := by
  unfold whole? at h
  split at h
  · simp only [Option.some.injEq, Prod.mk.injEq] at h
    obtain ⟨rfl, rfl⟩ := h
    exact ⟨rfl, by simp⟩
  · exact digits?_append h

theorem fraction?_append {cs taken rest : List Char} (h : fraction? cs = some (taken, rest)) :
    cs = taken ++ rest := by
  unfold fraction? at h
  split at h
  · obtain ⟨p, hp, he⟩ := Option.map_eq_some_iff.1 h
    simp only [Prod.mk.injEq] at he
    obtain ⟨rfl, rfl⟩ := he
    simp [(digits?_append hp).1]
  · simp only [Option.some.injEq, Prod.mk.injEq] at h
    obtain ⟨rfl, rfl⟩ := h
    rfl

theorem exponent?_append {cs taken rest : List Char} (h : exponent? cs = some (taken, rest)) :
    cs = taken ++ rest := by
  unfold exponent? at h
  split at h
  · rename_i r
    obtain ⟨p, hp, he⟩ := Option.map_eq_some_iff.1 h
    simp only [Prod.mk.injEq] at he
    obtain ⟨rfl, rfl⟩ := he
    have := sign_append r
    rw [(digits?_append hp).1] at this
    simpa using this
  · rename_i r
    obtain ⟨p, hp, he⟩ := Option.map_eq_some_iff.1 h
    simp only [Prod.mk.injEq] at he
    obtain ⟨rfl, rfl⟩ := he
    have := sign_append r
    rw [(digits?_append hp).1] at this
    simpa using this
  · simp only [Option.some.injEq, Prod.mk.injEq] at h
    obtain ⟨rfl, rfl⟩ := h
    rfl

/-- A number and what follows it make up the text, and a number has at least one character. -/
theorem number?_append {cs taken rest : List Char} (h : number? cs = some (taken, rest)) :
    cs = taken ++ rest ∧ taken ≠ [] := by
  unfold number? at h
  split at h
  · simp at h
  · rename_i whole rest₁ hw
    split at h
    · simp at h
    · rename_i fraction rest₂ hf
      split at h
      · simp at h
      · rename_i exponent rest₃ he
        simp only [Option.some.injEq, Prod.mk.injEq] at h
        obtain ⟨rfl, rfl⟩ := h
        obtain ⟨hcs, hne⟩ := whole?_append hw
        have hm := minus_append cs
        rw [hcs, fraction?_append hf, exponent?_append he] at hm
        exact ⟨by simpa using hm, by simp [hne]⟩

/-- The characters of a string, its closing quote and what follows make up the text. -/
theorem body?_append {cs taken rest : List Char} (h : body? cs = some (taken, rest)) :
    cs = taken ++ '"' :: rest := by
  fun_induction body? cs generalizing taken with
  | case1 => simp at h
  | case2 =>
    simp only [Option.some.injEq, Prod.mk.injEq] at h
    obtain ⟨rfl, rfl⟩ := h
    rfl
  | case3 => simp at h
  | case4 _ _ _ _ _ _ _ ih =>
    obtain ⟨p, hp, he⟩ := Option.map_eq_some_iff.1 h
    simp only [Prod.mk.injEq] at he
    obtain ⟨rfl, rfl⟩ := he
    simp [ih hp]
  | case5 => simp at h
  | case6 _ _ _ _ _ ih =>
    obtain ⟨p, hp, he⟩ := Option.map_eq_some_iff.1 h
    simp only [Prod.mk.injEq] at he
    obtain ⟨rfl, rfl⟩ := he
    simp [ih hp]
  | case7 => simp at h
  | case8 _ _ _ _ _ _ ih =>
    obtain ⟨p, hp, he⟩ := Option.map_eq_some_iff.1 h
    simp only [Prod.mk.injEq] at he
    obtain ⟨rfl, rfl⟩ := he
    simp [ih hp]

/-- Taking a token shortens the text. -/
theorem next?_length {cs rest : List Char} {t : Token} (h : next? cs = some (t, rest)) :
    rest.length < cs.length := by
  unfold next? at h
  split at h
  case h_10 =>
    obtain ⟨p, hp, he⟩ := Option.map_eq_some_iff.1 h
    simp only [Prod.mk.injEq] at he
    obtain ⟨-, rfl⟩ := he
    rw [body?_append hp]
    simp
    omega
  case h_11 =>
    obtain ⟨p, hp, he⟩ := Option.map_eq_some_iff.1 h
    simp only [Prod.mk.injEq] at he
    obtain ⟨-, rfl⟩ := he
    obtain ⟨hcs, hne⟩ := number?_append hp
    rw [hcs, List.length_append]
    have := List.length_pos_iff.2 hne
    omega
  all_goals
    simp only [Option.some.injEq, Prod.mk.injEq] at h
    obtain ⟨-, rfl⟩ := h
    simp
    try omega

theorem length_dropWhile_le (p : Char → Bool) (cs : List Char) :
    (cs.dropWhile p).length ≤ cs.length :=
  (List.dropWhile_sublist p).length_le

/-- Cut a text into tokens. -/
def scan? (cs : List Char) : Option (List Token) :=
  match _h : cs.dropWhile isBlank with
  | [] => some []
  | c :: more =>
    match _ht : next? (c :: more) with
    | none => none
    | some (t, rest) => (scan? rest).map (t :: ·)
termination_by cs.length
decreasing_by
  have h₁ := next?_length _ht
  have h₂ := length_dropWhile_le isBlank cs
  rw [_h] at h₂
  omega

end Token

end ChipEight.Json
