import DomesdayDuplicator.Capture.YamlWriter

/-!
# Reading block mappings

What YAML makes of a document of block mappings whose keys and strings are double-quoted: its
lines, with the indentation of each, and the tree they build. Lines that are blank or comments
add nothing.
-/

namespace Yaml

open Manifest ManifestReader
open Json (quote backslash colon isDigit)

inductive Node where
  | null
  | text (value : Text)
  | integer (value : Int)
  | decimal (lexeme : Text)
  | boolean (value : Bool)
  | mapping (members : List (Text × Node))

/-! ## Scalars -/

def escape (letter : Byte) : Option Byte :=
  if letter = quote then some quote
  else if letter = backslash then some backslash
  else if letter = 0x6E then some 0x0A
  else if letter = 0x72 then some 0x0D
  else if letter = 0x74 then some 0x09
  else none

def hexByte (high low : Byte) : Option Byte := do
  let high ← hexNibble high
  let low ← hexNibble low
  return BitVec.ofNat 8 (16 * high + low)

/-- A quoted scalar from behind its opening quote, and the text behind it. -/
def readQuoted : Text → Option (Text × Text)
  | [] => none
  | c :: rest =>
    if c = quote then some ([], rest)
    else if c ≠ backslash then (readQuoted rest).map fun (t, rest) => (c :: t, rest)
    else
      match rest with
      | 0x78#8 :: high :: low :: rest => do
        let b ← hexByte high low
        (readQuoted rest).map fun (t, rest) => (b :: t, rest)
      | letter :: rest => do
        let b ← escape letter
        (readQuoted rest).map fun (t, rest) => (b :: t, rest)
      | [] => none

def readInteger : Text → Option Int
  | 0x2D#8 :: digits => (decimal digits).map Int.negOfNat
  | digits => (decimal digits).map Int.ofNat

/-- A number with decimals. -/
def isDecimal (t : Text) : Bool :=
  let unsigned := if t.head? = some 0x2D then t.tail else t
  let whole := unsigned.takeWhile isDigit
  let behind := unsigned.dropWhile isDigit
  !whole.isEmpty && behind.head? = some 0x2E && !behind.tail.isEmpty && behind.tail.all isDigit

def readPlain (t : Text) : Option Node :=
  if t = text "true" then some (.boolean true)
  else if t = text "false" then some (.boolean false)
  else if isDecimal t then some (.decimal t)
  else (readInteger t).map .integer

def readValue (t : Text) : Option Node :=
  match t with
  | 0x22#8 :: inside =>
    match readQuoted inside with
    | some (value, []) => some (.text value)
    | _ => none
  | [0x7B#8, 0x7D#8] => some (.mapping [])
  | plain => readPlain plain

/-! ## Lines -/

/-- A key at an indentation, with its value where the line has one. -/
inductive Line where
  | member (indent : Nat) (key : Text) (value : Option Node)
  | unreadable

def isBreak (c : Byte) : Bool := c = 0x0A ∨ c = 0x0D

def isBlank (c : Byte) : Bool := c = 0x20 ∨ c = 0x09

/-- A line with nothing on it, or with a comment. -/
def skipped (l : Text) : Bool :=
  match l.dropWhile isBlank with
  | [] => true
  | c :: _ => c = 0x23

def readMember (l : Text) : Option Line :=
  match l.dropWhile (· = 0x20) with
  | 0x22#8 :: inside =>
    let indent := (l.takeWhile (· = 0x20)).length
    match readQuoted inside with
    | some (key, [0x3A#8]) => some (.member indent key none)
    | some (key, 0x3A#8 :: 0x20#8 :: value) =>
      (readValue value).map fun node => .member indent key (some node)
    | _ => none
  | _ => none

def lineOf (l : Text) : Option Line :=
  if skipped l then none else some ((readMember l).getD .unreadable)

def contents (t : Text) : List Line := (t.splitOnP isBreak).filterMap lineOf

/-! ## The tree -/

/-- What is read from some line on, each with its indentation and not yet under a parent. -/
abbrev Pending := List (Nat × Text × Node)

/-- One mapping: the same indentation throughout and no key twice. -/
def uniform (members : Pending) : Bool :=
  match members with
  | [] => true
  | first :: rest =>
    rest.all (fun m => m.1 = first.1) && decide ((members.map fun m => m.2.1).Nodup)

/-- A line before what has been read behind it, of which the deeper part belongs to it. -/
def attach : Line → Pending → Option Pending
  | .unreadable, _ => none
  | .member indent key value, pending =>
    let inside := pending.takeWhile fun m => indent < m.1
    let behind := pending.dropWhile fun m => indent < m.1
    match value with
    | some node => if inside.isEmpty then some ((indent, key, node) :: behind) else none
    | none =>
      if inside.isEmpty then some ((indent, key, .null) :: behind)
      else if uniform inside then
        some ((indent, key, .mapping (inside.map fun m => m.2)) :: behind)
      else none

def build : List Line → Option Pending
  | [] => some []
  | line :: rest => (build rest).bind (attach line)

/-- The members of the document's mapping. -/
def read (t : Text) : Option (List (Text × Node)) :=
  (build (contents t)).bind fun members =>
    if uniform members then some (members.map fun m => m.2) else none

end Yaml
