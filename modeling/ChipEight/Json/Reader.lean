import ChipEight.Json.Token

/-!
# Reading JSON

Tokens are put together one at a time. The reader keeps the containers that
are still open, innermost first, and what may come next; so a text may nest
its containers as deep as it likes. Trailing commas, missing values and
anything after the value are refused.
-/

namespace ChipEight.Json

/-- A container that is still open, with what it holds so far, latest first. -/
inductive Frame where
  /-- An array with its items. -/
  | array (items : List Json)
  /-- An object with its members and the name whose value is being read. -/
  | member (key : List Char) (before : List (List Char × Json))

/-- How far a text was read. The open containers are listed from the innermost outwards. -/
inductive Progress where
  /-- A value has to come. -/
  | value (outer : List Frame)
  /-- An array was opened: an item or its end has to come. -/
  | firstItem (outer : List Frame)
  /-- An object was opened: a name or its end has to come. -/
  | firstKey (outer : List Frame)
  /-- A name has to come. -/
  | key (outer : List Frame) (before : List (List Char × Json))
  /-- A colon has to come. -/
  | colon (outer : List Frame) (before : List (List Char × Json)) (key : List Char)
  /-- A value has ended. -/
  | after (v : Json) (outer : List Frame)

namespace Progress

/-- Start a value with a token. -/
def start? (outer : List Frame) : Token → Option Progress
  | .null => some (after .null outer)
  | .bool b => some (after (.bool b) outer)
  | .number literal => some (after (.number literal) outer)
  | .string body => some (after (.string body) outer)
  | .openBracket => some (firstItem outer)
  | .openBrace => some (firstKey outer)
  | _ => none

/-- Go on with a token, if it may come next. -/
def next? : Progress → Token → Option Progress
  | value outer, t => start? outer t
  | firstItem outer, .closeBracket => some (after (.array []) outer)
  | firstItem outer, t => start? (.array [] :: outer) t
  | firstKey outer, .closeBrace => some (after (.object []) outer)
  | firstKey outer, .string k => some (colon outer [] k)
  | key outer before, .string k => some (colon outer before k)
  | colon outer before k, .colon => some (value (.member k before :: outer))
  | after v (.array items :: outer), .comma => some (value (.array (v :: items) :: outer))
  | after v (.array items :: outer), .closeBracket =>
    some (after (.array (v :: items).reverse) outer)
  | after v (.member k before :: outer), .comma => some (key outer ((k, v) :: before))
  | after v (.member k before :: outer), .closeBrace =>
    some (after (.object ((k, v) :: before).reverse) outer)
  | _, _ => none

/-- The value, if one was read and nothing is open. -/
def result? : Progress → Option Json
  | after v [] => some v
  | _ => none

/-- Go on with all tokens of a list. -/
def run? : Progress → List Token → Option Progress
  | p, [] => some p
  | p, t :: ts =>
    match p.next? t with
    | some q => q.run? ts
    | none => none

end Progress

/-- The value that a list of tokens spells. -/
def ofTokens? (ts : List Token) : Option Json :=
  ((Progress.value []).run? ts).bind Progress.result?

/-- The value that a text spells. -/
def parse? (text : String) : Option Json :=
  (Token.scan? text.toList).bind ofTokens?

end ChipEight.Json
