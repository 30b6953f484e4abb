import DomesdayDuplicator.Update.ManifestReader

/-!
# JSON

The grammar of RFC 8259 over bytes, where a byte from 0x80 on stands for itself in a string.
A string with a lone surrogate among its escapes names no text and has no spelling here;
what a document names is a `JsonValue`.
-/

namespace Json

open Manifest ManifestReader

abbrev quote : Byte := 0x22#8
abbrev comma : Byte := 0x2C#8
abbrev colon : Byte := 0x3A#8
abbrev backslash : Byte := 0x5C#8
abbrev openBracket : Byte := 0x5B#8
abbrev closeBracket : Byte := 0x5D#8
abbrev openBrace : Byte := 0x7B#8
abbrev closeBrace : Byte := 0x7D#8

def isWhitespace (c : Byte) : Bool := c = 0x20 ∨ c = 0x09 ∨ c = 0x0A ∨ c = 0x0D

def isDigit (c : Byte) : Bool := 0x30 ≤ c.toNat ∧ c.toNat ≤ 0x39

def Blank (t : Text) : Prop := ∀ c ∈ t, isWhitespace c = true

/-! ## Numbers -/

def Digits (t : Text) : Prop := t ≠ [] ∧ ∀ c ∈ t, isDigit c = true

/-- No digit follows a leading zero. -/
inductive Whole : Text → Prop where
  | zero : Whole [0x30]
  | digits {d : Byte} {ds : Text} (first : isDigit d = true) (proper : d ≠ 0x30)
      (rest : ∀ c ∈ ds, isDigit c = true) : Whole (d :: ds)

inductive Fraction : Text → Prop where
  | none : Fraction []
  | point {ds : Text} (digits : Digits ds) : Fraction (0x2E :: ds)

inductive Exponent : Text → Prop where
  | none : Exponent []
  | power {e : Byte} {sign ds : Text} (letter : e = 0x65 ∨ e = 0x45)
      (signed : sign = [] ∨ sign = [0x2B] ∨ sign = [0x2D]) (digits : Digits ds) :
      Exponent (e :: (sign ++ ds))

inductive Numeral : Text → Prop where
  | parts {sign whole fraction exponent : Text} (signed : sign = [] ∨ sign = [0x2D])
      (first : Whole whole) (second : Fraction fraction) (third : Exponent exponent) :
      Numeral (sign ++ whole ++ fraction ++ exponent)

/-! ## Strings -/

/-- The letters after a backslash, but for `u`, with what they stand for. -/
def escapes : List (Byte × Byte) :=
  [(0x22, 0x22), (0x5C, 0x5C), (0x2F, 0x2F), (0x62, 0x08), (0x66, 0x0C), (0x6E, 0x0A), (0x72, 0x0D),
    (0x74, 0x09)]

/-- Four hexadecimal digits. -/
def hexQuad (a b c d : Byte) : Option Nat := do
  let a ← hexNibble a
  let b ← hexNibble b
  let c ← hexNibble c
  let d ← hexNibble d
  return ((16 * a + b) * 16 + c) * 16 + d

inductive Piece where
  | plain (c : Byte) (free : 0x20 ≤ c.toNat ∧ c ≠ quote ∧ c ≠ backslash)
  | short (letter stands : Byte) (listed : (letter, stands) ∈ escapes)
  | unit (a b c d : Byte) (value : Nat) (hex : hexQuad a b c d = some value)

def Piece.spelled : Piece → Text
  | plain c _ => [c]
  | short letter _ _ => [backslash, letter]
  | unit a b c d _ _ => [backslash, 0x75, a, b, c, d]

def spelling (pieces : List Piece) : Text := pieces.flatMap Piece.spelled

def isHigh (value : Nat) : Bool := 0xD800 ≤ value ∧ value ≤ 0xDBFF

def isLow (value : Nat) : Bool := 0xDC00 ≤ value ∧ value ≤ 0xDFFF

def joined (high low : Nat) : Nat := 0x10000 + ((high - 0xD800) <<< 10) + (low - 0xDC00)

/-- The code point in UTF-8. -/
def appendUtf8 (codePoint : Nat) : Text :=
  let continuation (n : Nat) : Byte := BitVec.ofNat 8 (0x80 ||| (n &&& 0x3F))
  if codePoint < 0x80 then [BitVec.ofNat 8 codePoint]
  else if codePoint < 0x800 then
    [BitVec.ofNat 8 (0xC0 ||| (codePoint >>> 6)), continuation codePoint]
  else if codePoint < 0x10000 then
    [BitVec.ofNat 8 (0xE0 ||| (codePoint >>> 12)), continuation (codePoint >>> 6),
      continuation codePoint]
  else
    [BitVec.ofNat 8 (0xF0 ||| (codePoint >>> 18)), continuation (codePoint >>> 12),
      continuation (codePoint >>> 6), continuation codePoint]

/-- The text that the pieces of a string name. -/
inductive Decodes : List Piece → Text → Prop where
  | nil : Decodes [] []
  | plain {c free ps t} (rest : Decodes ps t) : Decodes (.plain c free :: ps) (c :: t)
  | short {letter stands listed ps t} (rest : Decodes ps t) :
      Decodes (.short letter stands listed :: ps) (stands :: t)
  | unit {a b c d value hex ps t} (high : isHigh value = false) (low : isLow value = false)
      (rest : Decodes ps t) : Decodes (.unit a b c d value hex :: ps) (appendUtf8 value ++ t)
  | pair {a b c d value hex a' b' c' d' value' hex' ps t} (high : isHigh value = true)
      (low : isLow value' = true) (rest : Decodes ps t) :
      Decodes (.unit a b c d value hex :: .unit a' b' c' d' value' hex' :: ps)
        (appendUtf8 (joined value value') ++ t)

/-- No surrogate stands alone; `after` tells whether a high one has just been passed. -/
def paired : Bool → List Piece → Bool
  | after, [] => !after
  | true, .unit _ _ _ _ value _ :: ps => isLow value && paired false ps
  | false, .unit _ _ _ _ value _ :: ps => !isLow value && paired (isHigh value) ps
  | after, _ :: ps => !after && paired false ps

/-! ## Values -/

inductive Phrase where
  | value (v : JsonValue)
  | elements (es : List JsonValue)
  | members (ms : List (Text × JsonValue))

/-- A name, the colon with what is around it, and the text of the value. -/
def labelled (ps : List Piece) (left right t : Text) : Text :=
  quote :: (spelling ps ++ quote :: (left ++ colon :: (right ++ t)))

/-- `Spells p t`: the text `t` is one that the grammar derives for `p`. -/
inductive Spells : Phrase → Text → Prop where
  | null : Spells (.value .null) (text "null")
  | yes : Spells (.value (.boolean true)) (text "true")
  | no : Spells (.value (.boolean false)) (text "false")
  | number {lexeme} (numeral : Numeral lexeme) : Spells (.value (.number lexeme)) lexeme
  | string {ps t} (named : Decodes ps t) :
      Spells (.value (.string t)) (quote :: (spelling ps ++ [quote]))
  | noElements {a} (gap : Blank a) :
      Spells (.value (.array [])) (openBracket :: (a ++ [closeBracket]))
  | array {es t} (inside : Spells (.elements es) t) :
      Spells (.value (.array es)) (openBracket :: (t ++ [closeBracket]))
  | noMembers {a} (gap : Blank a) :
      Spells (.value (.object [])) (openBrace :: (a ++ [closeBrace]))
  | object {ms t} (inside : Spells (.members ms) t) :
      Spells (.value (.object ms)) (openBrace :: (t ++ [closeBrace]))
  | lastElement {a b v t} (before : Blank a) (after : Blank b) (only : Spells (.value v) t) :
      Spells (.elements [v]) (a ++ t ++ b)
  | moreElements {a b v t es t'} (before : Blank a) (after : Blank b) (first : Spells (.value v) t)
      (rest : Spells (.elements es) t') : Spells (.elements (v :: es)) (a ++ t ++ b ++ comma :: t')
  | lastMember {a b ps name c d v t} (before : Blank a) (after : Blank b) (named : Decodes ps name)
      (left : Blank c) (right : Blank d) (only : Spells (.value v) t) :
      Spells (.members [(name, v)]) (a ++ labelled ps c d t ++ b)
  | moreMembers {a b ps name c d v t ms t'} (before : Blank a) (after : Blank b)
      (named : Decodes ps name) (left : Blank c) (right : Blank d) (first : Spells (.value v) t)
      (rest : Spells (.members ms) t') :
      Spells (.members ((name, v) :: ms)) (a ++ labelled ps c d t ++ b ++ comma :: t')

/-- A value with whitespace around it. -/
def Document (v : JsonValue) (document : Text) : Prop :=
  ∃ a t b, document = a ++ t ++ b ∧ Blank a ∧ Blank b ∧ Spells (.value v) t

/-! ## Conditions on a value -/

def children : JsonValue → List JsonValue
  | .array elements => elements
  | .object members => members.map Prod.snd
  | _ => []

/-- There are at most so many levels of values inside this one. -/
def Within : Nat → JsonValue → Prop
  | 0, v => children v = []
  | levels + 1, v => ∀ c ∈ children v, Within levels c

/-- The property holds of the value and of every value inside. -/
inductive Throughout (p : JsonValue → Prop) : JsonValue → Prop where
  | intro {v : JsonValue} (here : p v) (inside : ∀ c ∈ children v, Throughout p c) : Throughout p v

/-- No two members share a name. -/
def Unrepeated : JsonValue → Prop
  | .object members => (members.map Prod.fst).Nodup
  | _ => True

/-- The number is one. -/
def Numeric : JsonValue → Prop
  | .number lexeme => Numeral lexeme
  | _ => True

end Json
