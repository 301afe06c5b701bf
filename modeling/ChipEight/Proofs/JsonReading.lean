import ChipEight.Json.Reader
import ChipEight.Proofs.JsonGrammar

/-!
# Reading every JSON text

The reader accepts every text that the grammar allows, and reads the value that the text
spells (`parse?_of_spells`).

The reader goes through a text from the front and keeps the containers that are still
open. So the induction on the grammar is over what comes before and after: wherever a
value may stand, a reader that meets the spelling of one has read that value when it
comes to the end of it. A number has no mark at its end, so it has to be followed by
something that cannot continue it (`Stops`). In a JSON text it always is.
-/

namespace ChipEight.Json

/-! ## Parts of numbers and strings -/

/-- The text does not go on with a digit. -/
def NoDigit (cs : List Char) : Prop :=
  ∀ c, cs.head? = some c → c.isDigit = false

/-- The text does not go on with anything that could belong to a number. -/
def Stops (cs : List Char) : Prop :=
  ∀ c, cs.head? = some c → c.isDigit = false ∧ c ≠ '.' ∧ c ≠ 'e' ∧ c ≠ 'E'

theorem Stops.noDigit {cs : List Char} (h : Stops cs) : NoDigit cs :=
  fun c hc => (h c hc).1

theorem Digits.exists_head? {ds : List Char} (h : Digits ds) (cs : List Char) :
    ∃ c, (ds ++ cs).head? = some c ∧ c.isDigit = true := by
  obtain ⟨hne, hall⟩ := h
  obtain ⟨c, ds, rfl⟩ := List.exists_cons_of_ne_nil hne
  exact ⟨c, rfl, hall c List.mem_cons_self⟩

theorem Whole.exists_head? {ds : List Char} (h : Whole ds) (cs : List Char) :
    ∃ c, (ds ++ cs).head? = some c ∧ c.isDigit = true := by
  cases h with
  | zero => exact ⟨'0', rfl, rfl⟩
  | digits hds _ => exact hds.exists_head? cs

theorem Exponent.head? {cs rest : List Char} (h : Exponent cs) (hr : Stops rest) (c : Char)
    (hc : (cs ++ rest).head? = some c) : c.isDigit = false ∧ c ≠ '.' := by
  cases h with
  | absent => exact ⟨(hr c hc).1, (hr c hc).2.1⟩
  | present hmark _ _ =>
      cases hc
      rcases hmark with rfl | rfl <;> decide

theorem Fraction.noDigit {cs rest : List Char} (h : Fraction cs)
    (hr : NoDigit rest) : NoDigit (cs ++ rest) := by
  cases h with
  | absent => exact hr
  | present _ =>
      intro c hc
      cases hc
      rfl

theorem HexDigit.exists_digit? {c : Char} (h : HexDigit c) : ∃ n, Hex.digit? c = some n := by
  unfold Hex.digit?
  split
  · exact ⟨_, rfl⟩
  · rename_i hdecimal
    split
    · exact ⟨_, rfl⟩
    · rename_i hlower
      have hupper := (h.resolve_left hdecimal).resolve_left hlower
      rw [if_pos hupper]
      exact ⟨_, rfl⟩

theorem exists_hexUnit? {a b c d : Char} (ha : HexDigit a) (hb : HexDigit b) (hc : HexDigit c)
    (hd : HexDigit d) : ∃ u, hexUnit? a b c d = some u := by
  obtain ⟨_, ha⟩ := ha.exists_digit?
  obtain ⟨_, hb⟩ := hb.exists_digit?
  obtain ⟨_, hc⟩ := hc.exists_digit?
  obtain ⟨_, hd⟩ := hd.exists_digit?
  simp only [hexUnit?, ha, hb, hc, hd, Option.bind_eq_bind, Option.bind_some, Option.pure_def,
    Option.some.injEq, exists_eq']

namespace Token

/-! ## Numbers -/

theorem digits?_digits {ds rest : List Char} (h : Digits ds) (hr : NoDigit rest) :
    digits? (ds ++ rest) = some (ds, rest) := by
  obtain ⟨hne, hall⟩ := h
  have htake : (ds ++ rest).takeWhile Char.isDigit = ds := by
    rw [List.takeWhile_append_of_pos hall]
    cases rest with
    | nil => exact List.append_nil ds
    | cons c rest => rw [List.takeWhile_cons_of_neg (by simp [hr c rfl]), List.append_nil]
  have hdrop : (ds ++ rest).dropWhile Char.isDigit = rest := by
    rw [List.dropWhile_append_of_pos hall]
    cases rest with
    | nil => rfl
    | cons c rest => rw [List.dropWhile_cons_of_neg (by simp [hr c rfl])]
  rw [digits?, htake, hdrop, if_neg (by simpa using hne)]

theorem minus_of_head? {cs : List Char} (h : cs.head? ≠ some '-') : minus cs = ([], cs) := by
  unfold minus
  split
  · exact absurd rfl h
  · rfl

theorem sign_of_head? {cs : List Char} (hp : cs.head? ≠ some '+') (hm : cs.head? ≠ some '-') :
    sign cs = ([], cs) := by
  unfold sign
  split
  · exact absurd rfl hp
  · exact minus_of_head? hm

theorem whole?_of_head? {cs : List Char} (h : cs.head? ≠ some '0') : whole? cs = digits? cs := by
  unfold whole?
  split
  · exact absurd rfl h
  · rfl

theorem whole?_whole {cs rest : List Char} (h : Whole cs) (hr : NoDigit rest) :
    whole? (cs ++ rest) = some (cs, rest) := by
  cases h with
  | zero => rfl
  | digits hds hzero =>
      have hhead : (cs ++ rest).head? ≠ some '0' := by
        obtain ⟨c, cs, rfl⟩ := List.exists_cons_of_ne_nil hds.1
        exact hzero
      rw [whole?_of_head? hhead, digits?_digits hds hr]

theorem fraction?_fraction {cs rest : List Char} (h : Fraction cs) (hr : NoDigit rest)
    (hdot : rest.head? ≠ some '.') : fraction? (cs ++ rest) = some (cs, rest) := by
  cases h with
  | absent =>
      rw [List.nil_append]
      unfold fraction?
      split
      · exact absurd rfl hdot
      · rfl
  | present hds =>
      rw [List.cons_append, fraction?, digits?_digits hds hr]
      rfl

/-- The sign of an exponent, or its absence. -/
theorem sign_append_digits {s ds : List Char} (hs : s = [] ∨ s = ['+'] ∨ s = ['-'])
    (hds : Digits ds) (rest : List Char) : sign (s ++ ds ++ rest) = (s, ds ++ rest) := by
  obtain ⟨c, hc, hdigit⟩ := hds.exists_head? rest
  rcases hs with rfl | rfl | rfl
  · apply sign_of_head? <;> rw [List.nil_append, hc] <;> rintro ⟨⟩ <;> cases hdigit
  · rfl
  · rfl

theorem exponent?_exponent {cs rest : List Char} (h : Exponent cs) (hr : Stops rest) :
    exponent? (cs ++ rest) = some (cs, rest) := by
  cases h with
  | absent =>
      rw [List.nil_append]
      unfold exponent?
      split
      · exact absurd rfl (hr 'e' rfl).2.2.1
      · exact absurd rfl (hr 'E' rfl).2.2.2
      · rfl
  | present hmark hs hds =>
      have hdigits := digits?_digits hds hr.noDigit
      rcases hmark with rfl | rfl
      · rw [List.cons_append, exponent?, sign_append_digits hs hds, hdigits]
        rfl
      · rw [List.cons_append, exponent?, sign_append_digits hs hds, hdigits]
        rfl

/-- **A number is taken whole**, if what follows cannot continue it. -/
theorem number?_numberText {cs rest : List Char} (h : NumberText cs) (hr : Stops rest) :
    number? (cs ++ rest) = some (cs, rest) := by
  obtain @⟨s, whole, fraction, exponent, hs, hwhole, hfraction, hexponent⟩ := h
  have hafter := hexponent.head? hr
  have hnodigit : NoDigit (exponent ++ rest) := fun c hc => (hafter c hc).1
  have hdot : (exponent ++ rest).head? ≠ some '.' := fun hc => (hafter '.' hc).2 rfl
  have hminus : minus (s ++ (whole ++ (fraction ++ (exponent ++ rest)))) =
      (s, whole ++ (fraction ++ (exponent ++ rest))) := by
    obtain ⟨c, hc, hdigit⟩ := hwhole.exists_head? (fraction ++ (exponent ++ rest))
    rcases hs with rfl | rfl
    · apply minus_of_head?
      rw [List.nil_append, hc]
      rintro ⟨⟩
      cases hdigit
    · rfl
  simp only [List.append_assoc, number?, hminus, whole?_whole hwhole (hfraction.noDigit hnodigit),
    fraction?_fraction hfraction hnodigit hdot, exponent?_exponent hexponent hr]

/-! ## Strings -/

/-- **A string is taken up to the quote that ends it.** -/
theorem body?_body {cs : List Char} (h : Body cs) (rest : List Char) :
    body? (cs ++ '"' :: rest) = some (cs, rest) := by
  induction h with
  | nil => simp only [List.nil_append, body?]
  | @plain c cs hquote hslash hblank _ ih =>
      have hok : ¬(c = '\\' ∨ c < ' ') := not_or.mpr ⟨hslash, Char.not_lt.mpr hblank⟩
      rw [List.cons_append]
      unfold body?
      split
      · rename_i heq
        cases heq
      · rename_i heq
        exact absurd (List.cons.inj heq).1 hquote
      · rename_i heq
        exact absurd (List.cons.inj heq).1 hslash
      · rename_i heq
        exact absurd (List.cons.inj heq).1 hslash
      · rename_i heq
        obtain ⟨rfl, rfl⟩ := List.cons.inj heq
        rw [if_neg hok, ih]
        rfl
  | @escape c cs hc _ ih =>
      simp only [List.mem_cons, List.not_mem_nil, or_false] at hc
      rcases hc with rfl | rfl | rfl | rfl | rfl | rfl | rfl | rfl <;>
        simp [body?, escaped?, ih]
  | @unit a b c d cs ha hb hc hd _ ih =>
      obtain ⟨u, hu⟩ := exists_hexUnit? ha hb hc hd
      simp [body?, hu, ih]

/-! ## Tokens -/

theorem next?_number {cs rest : List Char} (h : NumberText cs) (hr : Stops rest) :
    next? (cs ++ rest) = some (.number cs, rest) := by
  have hnumber := number?_numberText h hr
  have hhead : ∃ c, (cs ++ rest).head? = some c ∧ (c.isDigit = true ∨ c = '-') := by
    obtain @⟨s, whole, fraction, exponent, hs, hwhole, -, -⟩ := h
    obtain ⟨c, hc, hdigit⟩ := hwhole.exists_head? (fraction ++ exponent ++ rest)
    rcases hs with rfl | rfl
    · exact ⟨c, by simpa using hc, .inl hdigit⟩
    · exact ⟨'-', rfl, .inr rfl⟩
  obtain ⟨c, hc, hstart⟩ := hhead
  generalize cs ++ rest = text at hnumber hc
  unfold next?
  split
  case h_11 => rw [hnumber]; rfl
  all_goals
    cases hc
    exact absurd hstart (by decide)

theorem next?_string {cs : List Char} (h : Body cs) (rest : List Char) :
    next? ('"' :: (cs ++ '"' :: rest)) = some (.string cs, rest) := by
  rw [next?, body?_body h]
  rfl

/-- No token starts with a blank. -/
theorem next?_blank {c : Char} (hc : Blank c) (cs : List Char) : next? (c :: cs) = none := by
  rcases hc with rfl | rfl | rfl | rfl <;> rfl

theorem isBlank_iff {c : Char} : isBlank c = true ↔ Blank c := by
  simp [isBlank, Blank, or_assoc]

/-- Scanning, without the bookkeeping for its end. -/
theorem scan?_eq (cs : List Char) :
    scan? cs =
      match cs.dropWhile isBlank with
      | [] => some []
      | c :: more =>
        match next? (c :: more) with
        | none => none
        | some (t, rest) => (scan? rest).map (t :: ·) := by
  rw [scan?]
  split <;> rename_i h <;> simp only [h]
  split <;> rename_i h <;> simp only [h]

theorem scan?_cons_blank {c : Char} (hc : Blank c) (cs : List Char) :
    scan? (c :: cs) = scan? cs := by
  rw [scan?_eq, List.dropWhile_cons_of_pos (isBlank_iff.mpr hc), ← scan?_eq]

theorem scan?_of_next? {cs rest : List Char} {t : Token} (h : next? cs = some (t, rest)) :
    scan? cs = (scan? rest).map (t :: ·) := by
  cases cs with
  | nil => cases h
  | cons c cs =>
      have hc : ¬isBlank c = true := by
        intro hc
        rw [next?_blank (isBlank_iff.mp hc)] at h
        cases h
      rw [scan?_eq, List.dropWhile_cons_of_neg hc]
      simp only [h]

end Token

/-! ## Reading -/

/-- Where a reader stands when it has gone through a text. -/
def readOn (p : Progress) (cs : List Char) : Option Progress :=
  (Token.scan? cs).bind p.run?

theorem readOn_nil (p : Progress) : readOn p [] = some p := by
  rw [readOn, Token.scan?_eq]
  rfl

theorem readOn_blank {c : Char} (hc : Blank c) (p : Progress) (cs : List Char) :
    readOn p (c :: cs) = readOn p cs := by
  rw [readOn, Token.scan?_cons_blank hc, readOn]

theorem readOn_blanks {before : List Char} (h : Blanks before) (p : Progress) (cs : List Char) :
    readOn p (before ++ cs) = readOn p cs := by
  induction before with
  | nil => rfl
  | cons c before ih =>
      obtain ⟨hc, hbefore⟩ := List.forall_mem_cons.mp h
      rw [List.cons_append, readOn_blank hc, ih hbefore]

/-- A token that may come next takes the reader on. -/
theorem readOn_token {p q : Progress} {cs rest : List Char} {t : Token}
    (ht : Token.next? cs = some (t, rest)) (hp : p.next? t = some q) :
    readOn p cs = readOn q rest := by
  rw [readOn, Token.scan?_of_next? ht, Option.bind_map, readOn]
  congr 1
  funext ts
  simp only [Function.comp, Progress.run?, hp]

namespace Progress

/-- A value may come next, within some open containers. -/
def ExpectsValue (p : Progress) (outer : List Frame) : Prop :=
  ∀ t : Token, t ≠ .closeBracket → p.next? t = start? outer t

/-- A name may come next, in an object with some members, within some open containers. -/
def ExpectsName (p : Progress) (outer : List Frame) (before : List (List Char × Json)) : Prop :=
  ∀ k, p.next? (.string k) = some (.colon outer before k)

theorem expectsValue_value (outer : List Frame) : (value outer).ExpectsValue outer :=
  fun _ _ => rfl

/-- Where the first item of an array may come, it is read like any other. -/
theorem expectsValue_firstItem (outer : List Frame) :
    (firstItem outer).ExpectsValue (.array [] :: outer) := by
  intro t ht
  cases t with
  | closeBracket => exact absurd rfl ht
  | _ => rfl

theorem expectsName_firstKey (outer : List Frame) : (firstKey outer).ExpectsName outer [] :=
  fun _ => rfl

theorem expectsName_key (outer : List Frame) (before : List (List Char × Json)) :
    (key outer before).ExpectsName outer before :=
  fun _ => rfl

end Progress

theorem stops_blank {c : Char} (hc : Blank c) (cs : List Char) : Stops (c :: cs) := by
  intro d hd
  cases hd
  rcases hc with rfl | rfl | rfl | rfl <;> decide

theorem stops_nil : Stops [] := by
  rintro c ⟨⟩

theorem stops_mark {c : Char} (hc : c = ',' ∨ c = ']' ∨ c = '\x7d') (cs : List Char) :
    Stops (c :: cs) := by
  intro d hd
  cases hd
  rcases hc with rfl | rfl | rfl <;> decide

/-- The name of a member, and the colon behind it. -/
theorem readOn_name {p : Progress} {outer : List Frame} {members : List (List Char × Json)}
    {before key between rest : List Char} (hbefore : Blanks before) (hkey : Body key)
    (hbetween : Blanks between) (hp : p.ExpectsName outer members) :
    readOn p (before ++ '"' :: (key ++ '"' :: (between ++ ':' :: rest))) =
      readOn (.value (.member key members :: outer)) rest := by
  rw [readOn_blanks hbefore, readOn_token (Token.next?_string hkey _) (hp key),
    readOn_blanks hbetween]
  exact readOn_token rfl rfl

mutual

/-- **The spelling of a value is read as that value**, wherever a value may stand. -/
theorem Spells.readOn_eq {v : Json} {cs : List Char} (h : Spells v cs) {p : Progress}
    {outer : List Frame} (hp : p.ExpectsValue outer) {rest : List Char} (hr : Stops rest) :
    readOn p (cs ++ rest) = readOn (.after v outer) rest := by
  match h with
  | .null => exact readOn_token rfl (hp .null nofun)
  | .true => exact readOn_token rfl (hp (.bool true) nofun)
  | .false => exact readOn_token rfl (hp (.bool false) nofun)
  | .number hn => exact readOn_token (Token.next?_number hn hr) (hp (.number _) nofun)
  | @Spells.string body hb =>
      have ht : Token.next? ('"' :: (body ++ ['"']) ++ rest) = some (.string body, rest) := by
        rw [List.cons_append, List.append_assoc]
        exact Token.next?_string hb rest
      exact readOn_token ht (hp (.string body) nofun)
  | @Spells.emptyArray ds hds =>
      calc readOn p ('[' :: (ds ++ [']']) ++ rest)
        _ = readOn (.firstItem outer) (ds ++ ']' :: rest) := by
            rw [List.cons_append, List.append_assoc]
            exact readOn_token rfl (hp .openBracket nofun)
        _ = readOn (.firstItem outer) (']' :: rest) := readOn_blanks hds _ _
        _ = readOn (.after (.array []) outer) rest := readOn_token rfl rfl
  | @Spells.array items ds hitems =>
      calc readOn p ('[' :: (ds ++ [']']) ++ rest)
        _ = readOn (.firstItem outer) (ds ++ ']' :: rest) := by
            rw [List.cons_append, List.append_assoc]
            exact readOn_token rfl (hp .openBracket nofun)
        _ = readOn (.after (.array items) outer) rest :=
            hitems.readOn_eq (Progress.expectsValue_firstItem outer)
  | @Spells.emptyObject ds hds =>
      calc readOn p ('\x7b' :: (ds ++ ['\x7d']) ++ rest)
        _ = readOn (.firstKey outer) (ds ++ '\x7d' :: rest) := by
            rw [List.cons_append, List.append_assoc]
            exact readOn_token rfl (hp .openBrace nofun)
        _ = readOn (.firstKey outer) ('\x7d' :: rest) := readOn_blanks hds _ _
        _ = readOn (.after (.object []) outer) rest := readOn_token rfl rfl
  | @Spells.object members ds hmembers =>
      calc readOn p ('\x7b' :: (ds ++ ['\x7d']) ++ rest)
        _ = readOn (.firstKey outer) (ds ++ '\x7d' :: rest) := by
            rw [List.cons_append, List.append_assoc]
            exact readOn_token rfl (hp .openBrace nofun)
        _ = readOn (.after (.object members) outer) rest :=
            hmembers.readOn_eq (Progress.expectsName_firstKey outer)
  | .blankBefore hc hv =>
      rw [List.cons_append, readOn_blank hc]
      exact hv.readOn_eq hp hr
  | .blankAfter hv hc =>
      rw [List.append_assoc, List.singleton_append, hv.readOn_eq hp (stops_blank hc rest)]
      exact readOn_blank hc _ _

/-- The items of an array are read behind those that were read before. -/
theorem SpellsItems.readOn_eq {items : List Json} {cs : List Char} (h : SpellsItems items cs)
    {p : Progress} {outer : List Frame} {before : List Json}
    (hp : p.ExpectsValue (.array before :: outer)) {rest : List Char} :
    readOn p (cs ++ ']' :: rest) =
      readOn (.after (.array (before.reverse ++ items)) outer) rest := by
  match h with
  | @SpellsItems.last v _ hv =>
      calc readOn p (cs ++ ']' :: rest)
        _ = readOn (.after v (.array before :: outer)) (']' :: rest) :=
            hv.readOn_eq hp (stops_mark (by decide) rest)
        _ = readOn (.after (.array (before.reverse ++ [v])) outer) rest := by
            rw [← List.reverse_cons]
            exact readOn_token rfl rfl
  | @SpellsItems.cons v items cs ds hv hitems =>
      calc readOn p (cs ++ ',' :: ds ++ ']' :: rest)
        _ = readOn (.after v (.array before :: outer)) (',' :: (ds ++ ']' :: rest)) := by
            rw [List.append_assoc]
            exact hv.readOn_eq hp (stops_mark (by decide) _)
        _ = readOn (.value (.array (v :: before) :: outer)) (ds ++ ']' :: rest) :=
            readOn_token rfl rfl
        _ = readOn (.after (.array (before.reverse ++ v :: items)) outer) rest := by
            rw [hitems.readOn_eq (Progress.expectsValue_value _), List.reverse_cons,
              List.append_assoc]
            rfl

/-- The members of an object are read behind those that were read before. -/
theorem SpellsMembers.readOn_eq {members : List (List Char × Json)} {cs : List Char}
    (h : SpellsMembers members cs) {p : Progress} {outer : List Frame}
    {before : List (List Char × Json)} (hp : p.ExpectsName outer before) {rest : List Char} :
    readOn p (cs ++ '\x7d' :: rest) =
      readOn (.after (.object (before.reverse ++ members)) outer) rest := by
  match h with
  | @SpellsMembers.last key pre between cs v hpre hkey hbetween hv =>
      calc readOn p (pre ++ '"' :: (key ++ '"' :: (between ++ ':' :: cs)) ++ '\x7d' :: rest)
        _ = readOn (.value (.member key before :: outer)) (cs ++ '\x7d' :: rest) := by
            simp only [List.append_assoc, List.cons_append]
            exact readOn_name hpre hkey hbetween hp
        _ = readOn (.after v (.member key before :: outer)) ('\x7d' :: rest) :=
            hv.readOn_eq (Progress.expectsValue_value _) (stops_mark (by decide) rest)
        _ = readOn (.after (.object (before.reverse ++ [(key, v)])) outer) rest := by
            rw [← List.reverse_cons]
            exact readOn_token rfl rfl
  | @SpellsMembers.cons key pre between cs ds v members hpre hkey hbetween hv hmembers =>
      calc readOn p (pre ++ '"' :: (key ++ '"' :: (between ++ ':' :: (cs ++ ',' :: ds))) ++
            '\x7d' :: rest)
        _ = readOn (.value (.member key before :: outer))
              (cs ++ ',' :: (ds ++ '\x7d' :: rest)) := by
            simp only [List.append_assoc, List.cons_append]
            exact readOn_name hpre hkey hbetween hp
        _ = readOn (.after v (.member key before :: outer)) (',' :: (ds ++ '\x7d' :: rest)) :=
            hv.readOn_eq (Progress.expectsValue_value _) (stops_mark (by decide) _)
        _ = readOn (.key outer ((key, v) :: before)) (ds ++ '\x7d' :: rest) :=
            readOn_token rfl rfl
        _ = readOn (.after (.object (before.reverse ++ (key, v) :: members)) outer) rest := by
            rw [hmembers.readOn_eq (Progress.expectsName_key outer _), List.reverse_cons,
              List.append_assoc]
            rfl

end

/-- **Every text of a value is read as that value.** -/
theorem parse?_of_spells {v : Json} {text : String} (h : Spells v text.toList) :
    parse? text = some v := by
  have hread : readOn (.value []) text.toList = some (.after v []) := by
    rw [← List.append_nil text.toList, h.readOn_eq (Progress.expectsValue_value []) stops_nil,
      readOn_nil]
  calc parse? text
    _ = (readOn (.value []) text.toList).bind Progress.result? := by
        rw [parse?, readOn, Option.bind_assoc]
        rfl
    _ = some v := by rw [hread]; rfl

end ChipEight.Json
