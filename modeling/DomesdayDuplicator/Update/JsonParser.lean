import DomesdayDuplicator.Foundations.FuelLoop
import DomesdayDuplicator.Update.JsonGrammar

/-!
# The JSON parser

`ParseJson` of `ddd-gui/src/capture/json_value.cpp`. The cursor is the text still to be read, so
where a parse stops is known from what was left of it.
-/

namespace Json

open FuelLoop Manifest ManifestReader

/-- Where a parse gave up, and why. -/
structure Stop where
  message : Text
  rest : Text
  deriving DecidableEq

/-- What was read and the text behind it. -/
abbrev Outcome (α : Type) := Except Stop (α × Text)

def fail {α : Type} (message : String) (rest : Text) : Outcome α := .error ⟨text message, rest⟩

def skipWhitespace (t : Text) : Text := t.dropWhile isWhitespace

/-! ## Strings -/

def parseHexQuad : Text → Outcome Nat
  | a :: b :: c :: d :: rest =>
    match hexQuad a b c d with
    | none => fail "\\u escape is not four hex digits" (a :: b :: c :: d :: rest)
    | some value => .ok (value, rest)
  | rest => fail "truncated \\u escape" rest

/-- `\uXXXX`, with a following `\uXXXX` when the first is a high surrogate. -/
def parseUnicodeEscape (t : Text) : Outcome Text :=
  match parseHexQuad t with
  | .error stop => .error stop
  | .ok (first, rest) =>
    if isHigh first then
      match rest with
      | 0x5C#8 :: 0x75#8 :: after =>
        match parseHexQuad after with
        | .error stop => .error stop
        | .ok (second, behind) =>
          if isLow second then .ok (appendUtf8 (joined first second), behind)
          else fail "high surrogate followed by something other than a low surrogate" behind
      | _ => fail "high surrogate without a low surrogate" rest
    else if isLow first then fail "low surrogate without a high surrogate" rest
    else .ok (appendUtf8 first, rest)

def shortEscape (escape : Byte) : Option Byte :=
  if escape = quote then some quote
  else if escape = backslash then some backslash
  else if escape = 0x2F then some 0x2F
  else if escape = 0x62 then some 0x08
  else if escape = 0x66 then some 0x0C
  else if escape = 0x6E then some 0x0A
  else if escape = 0x72 then some 0x0D
  else if escape = 0x74 then some 0x09
  else none

/-- One turn of the loop over a string's characters. -/
def stringTurn : Text × Text → Turn (Text × Text) (Outcome Text)
  | (_, []) => .done (fail "unterminated string" [])
  | (decoded, c :: rest) =>
    if c = quote then .done (.ok (decoded, rest))
    else if c.toNat < 0x20 then
      .done (fail "unescaped control character in a string" (c :: rest))
    else if c ≠ backslash then .again (decoded ++ [c], rest)
    else
      match rest with
      | [] => .done (fail "unterminated escape" [])
      | escape :: after =>
        if escape = 0x75 then
          match parseUnicodeEscape after with
          | .error stop => .done (.error stop)
          | .ok (bytes, behind) => .again (decoded ++ bytes, behind)
        else
          match shortEscape escape with
          | some stands => .again (decoded ++ [stands], after)
          | none => .done (fail "unknown escape" after)

/-- A result no loop here comes to. -/
def stuck {α : Type} : Outcome α := .error ⟨[], []⟩

/-- The loop as long as there is text for it. -/
def loop {α β : Type} (turn : α × Text → Turn (α × Text) (Outcome β)) (start : α) (t : Text) :
    Outcome β :=
  (run turn (t.length + 1) (start, t)).getD stuck

/-- A string from behind its opening quote. -/
def parseString (t : Text) : Outcome Text := loop stringTurn [] t

/-! ## Numbers -/

def startsWithDigit : Text → Bool
  | c :: _ => isDigit c
  | [] => false

def dropSign (signs : List Byte) : Text → Text
  | c :: rest => if c ∈ signs then rest else c :: rest
  | [] => []

def integerPart (t : Text) : Except Stop Text :=
  let rest := dropSign [0x2D] t
  if ¬ startsWithDigit rest then .error ⟨text "expected a value", rest⟩
  else if rest.head? = some 0x30 then .ok rest.tail
  else .ok (rest.dropWhile isDigit)

def fractionPart : Text → Except Stop Text
  | 0x2E#8 :: rest =>
    if ¬ startsWithDigit rest then
      .error ⟨text "a decimal point must be followed by a digit", rest⟩
    else .ok (rest.dropWhile isDigit)
  | t => .ok t

def exponentPart : Text → Except Stop Text
  | e :: rest =>
    if e = 0x65 ∨ e = 0x45 then
      let digits := dropSign [0x2B, 0x2D] rest
      if ¬ startsWithDigit digits then
        .error ⟨text "an exponent must have at least one digit", digits⟩
      else .ok (digits.dropWhile isDigit)
    else .ok (e :: rest)
  | [] => .ok []

def numberEnd (t : Text) : Except Stop Text := do
  let rest ← integerPart t
  let rest ← fractionPart rest
  exponentPart rest

/-- The grammar is checked and the text is kept as it was written. -/
def parseNumber (t : Text) : Outcome JsonValue :=
  (numberEnd t).map fun rest => (.number (t.take (t.length - rest.length)), rest)

/-! ## Values -/

def parseLiteral (literal : Text) (value : JsonValue) (t : Text) : Outcome JsonValue :=
  if literal <+: t then .ok (value, t.drop literal.length) else fail "expected a value" t

/-- One turn of the loop over the items between brackets: an item, then a comma or the end. -/
def listTurn {α : Type} (item : List α → Text → Outcome α) (close : Byte)
    (unterminated expected : String) : List α × Text → Turn (List α × Text) (Outcome (List α))
  | (items, t) =>
    match item items t with
    | .error stop => .done (.error stop)
    | .ok (x, rest) =>
      match skipWhitespace rest with
      | [] => .done (fail unterminated [])
      | c :: after =>
        if c = comma then .again (items ++ [x], after)
        else if c = close then .done (.ok (items ++ [x], after))
        else .done (fail expected (c :: after))

def parseElement (value : Text → Outcome JsonValue) (_ : List JsonValue) (t : Text) :
    Outcome JsonValue :=
  value (skipWhitespace t)

def elementTurn (value : Text → Outcome JsonValue) :=
  listTurn (parseElement value) closeBracket "unterminated array" "expected ',' or ']'"

def parseArray (value : Text → Outcome JsonValue) (t : Text) : Outcome JsonValue :=
  match skipWhitespace t with
  | 0x5D#8 :: rest => .ok (.array [], rest)
  | inside => (loop (elementTurn value) [] inside).map fun (elements, rest) =>
      (.array elements, rest)

/-- A name that no member before has, a colon and a value. -/
def parseMember (value : Text → Outcome JsonValue) (members : List (Text × JsonValue))
    (t : Text) : Outcome (Text × JsonValue) :=
  match skipWhitespace t with
  | 0x22#8 :: inside =>
    match parseString inside with
    | .error stop => .error stop
    | .ok (name, rest) =>
      if members.any fun member => member.1 == name then
        fail "duplicate member name" (quote :: inside)
      else
        match skipWhitespace rest with
        | 0x3A#8 :: behind =>
          (value (skipWhitespace behind)).map fun (v, rest) => ((name, v), rest)
        | behind => fail "expected ':' after a member name" behind
  | rest => fail "expected a member name" rest

def memberTurn (value : Text → Outcome JsonValue) :=
  listTurn (parseMember value) closeBrace "unterminated object" "expected ',' or '\x7d'"

def parseObject (value : Text → Outcome JsonValue) (t : Text) : Outcome JsonValue :=
  match skipWhitespace t with
  | 0x7D#8 :: rest => .ok (.object [], rest)
  | inside => (loop (memberTurn value) [] inside).map fun (members, rest) =>
      (.object members, rest)

def kMaximumDepth : Nat := 32

/-- A value, with so many levels left: `kMaximumDepth + 1` less the depth. -/
def parseValue : Nat → Text → Outcome JsonValue
  | 0, t => fail "nested too deeply" t
  | _ + 1, [] => fail "expected a value" []
  | levels + 1, c :: rest =>
    if c = openBrace then parseObject (parseValue levels) rest
    else if c = openBracket then parseArray (parseValue levels) rest
    else if c = quote then (parseString rest).map fun (decoded, rest) => (.string decoded, rest)
    else if c = 0x74 then parseLiteral (text "true") (.boolean true) (c :: rest)
    else if c = 0x66 then parseLiteral (text "false") (.boolean false) (c :: rest)
    else if c = 0x6E then parseLiteral (text "null") .null (c :: rest)
    else parseNumber (c :: rest)

def parseDocument (t : Text) : Outcome JsonValue :=
  match parseValue (kMaximumDepth + 1) (skipWhitespace t) with
  | .error stop => .error stop
  | .ok (value, rest) =>
    match skipWhitespace rest with
    | [] => .ok (value, [])
    | behind => fail "trailing content after the top-level value" behind

structure JsonParseError where
  message : Text
  /-- Byte offset into the input at which the parser stopped. -/
  offset : Nat
  deriving DecidableEq

def parseJson (t : Text) : Except JsonParseError JsonValue :=
  match parseDocument t with
  | .error stop => .error ⟨stop.message, t.length - stop.rest.length⟩
  | .ok (value, _) => .ok value

end Json
