import DomesdayDuplicator.Update.JsonGrammar

/-!
# The YAML writer

`ddd-gui/src/capture/yaml_writer.cpp`. The key line of a mapping is put off until something is
written in the mapping, or until it is closed with nothing written in it.
-/

namespace Yaml

open Manifest ManifestReader
open Json (quote backslash colon Digits)

def hexDigit (value : Nat) : Byte :=
  if value < 10 then BitVec.ofNat 8 (0x30 + value) else BitVec.ofNat 8 (0x61 + (value - 10))

/-- One character of a quoted scalar. -/
def quoted (character : Byte) : Text :=
  if character = quote then [backslash, quote]
  else if character = backslash then [backslash, backslash]
  else if character = 0x0A then [backslash, 0x6E]
  else if character = 0x0D then [backslash, 0x72]
  else if character = 0x09 then [backslash, 0x74]
  else if character.toNat < 0x20 ∨ character = 0x7F then
    [backslash, 0x78, hexDigit (character.toNat >>> 4), hexDigit (character.toNat &&& 0x0F)]
  else [character]

def quoteScalar (value : Text) : Text := quote :: (value.flatMap quoted ++ [quote])

/-! ## Scalars -/

/-- A number as `%.*f` writes it into the buffer, with the separator of some locale before its
decimals. -/
structure Formatted where
  text : Text
  fits : text.length < 64
  fixed : ∃ sign whole separator fraction, text = sign ++ whole ++ separator :: fraction ∧
    (sign = [] ∨ sign = [0x2D]) ∧ Digits whole ∧ (separator = 0x2E ∨ separator = 0x2C) ∧
    Digits fraction

inductive Scalar where
  | string (value : Text)
  | integer (value : Int)
  | unsigned (value : Nat)
  | number (value : Formatted)
  | boolean (value : Bool)

/-- The number with YAML's separator. -/
def numberText (value : Formatted) : Text := value.text.map fun c => if c = 0x2C then 0x2E else c

def Scalar.written : Scalar → Text
  | string value => quoteScalar value
  | integer value => decimalText value
  | unsigned value => decimalText value
  | number value => numberText value
  | boolean value => if value then text "true" else text "false"

/-! ## The writer -/

structure OpenMapping where
  key : Text
  written : Bool

/-- The mappings that are open stand outermost first. -/
structure YamlWriter where
  text : Text
  opened : List OpenMapping

def writeIndent (depth : Nat) : Text := List.replicate (2 * depth) 0x20

def writeKey (key : Text) : Text := quoteScalar key ++ [colon]

/-- The key lines still to be written, from this level on. -/
def flushText : Nat → List OpenMapping → Text
  | _, [] => []
  | level, mapping :: inner =>
    (if mapping.written then [] else writeIndent level ++ writeKey mapping.key ++ [0x0A]) ++
      flushText (level + 1) inner

def marked (opened : List OpenMapping) : List OpenMapping :=
  opened.map fun mapping => { mapping with written := true }

namespace YamlWriter

def flushOpenMappings (w : YamlWriter) : YamlWriter :=
  ⟨w.text ++ flushText 0 w.opened, marked w.opened⟩

/-- A line at the current indent, under all its parents. -/
def line (w : YamlWriter) (contents : Text) : YamlWriter :=
  let w := w.flushOpenMappings
  ⟨w.text ++ (writeIndent w.opened.length ++ contents ++ [0x0A]), w.opened⟩

def comment (w : YamlWriter) (t : Text) : YamlWriter :=
  w.line (if t = [] then [0x23] else 0x23 :: 0x20 :: t)

def blankLine (w : YamlWriter) : YamlWriter := ⟨w.text ++ [0x0A], w.opened⟩

def beginMapping (w : YamlWriter) (key : Text) : YamlWriter := ⟨w.text, w.opened ++ [⟨key, false⟩]⟩

def endMapping (w : YamlWriter) : YamlWriter :=
  match w.opened.getLast? with
  | none => w
  | some mapping =>
    let w : YamlWriter := ⟨w.text, w.opened.dropLast⟩
    if mapping.written then w else w.line (writeKey mapping.key ++ [0x20, 0x7B, 0x7D])

def scalar (w : YamlWriter) (key : Text) (value : Scalar) : YamlWriter :=
  w.line (writeKey key ++ 0x20 :: value.written)

def string (w : YamlWriter) (key value : Text) : YamlWriter := w.scalar key (.string value)

def stringIfPresent (w : YamlWriter) (key value : Text) : YamlWriter :=
  if value = [] then w else w.string key value

def integer (w : YamlWriter) (key : Text) (value : Int) : YamlWriter :=
  w.scalar key (.integer value)

def unsigned (w : YamlWriter) (key : Text) (value : Nat) : YamlWriter :=
  w.scalar key (.unsigned value)

def number (w : YamlWriter) (key : Text) (value : Formatted) : YamlWriter :=
  w.scalar key (.number value)

def boolean (w : YamlWriter) (key : Text) (value : Bool) : YamlWriter :=
  w.scalar key (.boolean value)

end YamlWriter

/-- The calls that write something by themselves. -/
inductive Entry where
  | comment (t : Text)
  | blankLine
  | string (key value : Text)
  | stringIfPresent (key value : Text)
  | integer (key : Text) (value : Int)
  | unsigned (key : Text) (value : Nat)
  | number (key : Text) (value : Formatted)
  | boolean (key : Text) (value : Bool)

inductive Call where
  | entry (e : Entry)
  | beginMapping (key : Text)
  | endMapping

namespace YamlWriter

def entry (w : YamlWriter) : Entry → YamlWriter
  | .comment t => w.comment t
  | .blankLine => w.blankLine
  | .string key value => w.string key value
  | .stringIfPresent key value => w.stringIfPresent key value
  | .integer key value => w.integer key value
  | .unsigned key value => w.unsigned key value
  | .number key value => w.number key value
  | .boolean key value => w.boolean key value

def call (w : YamlWriter) : Call → YamlWriter
  | .entry e => w.entry e
  | .beginMapping key => w.beginMapping key
  | .endMapping => w.endMapping

end YamlWriter

/-- The document some calls make. -/
def document (calls : List Call) : Text := (calls.foldl YamlWriter.call ⟨[], []⟩).text

/-! ## Balanced calls -/

/-- Calls in which every mapping that is begun is ended, as what they write at each level. -/
inductive Items where
  | done
  | entry (e : Entry) (rest : Items)
  | mapping (key : Text) (inner rest : Items)

def Items.calls : Items → List Call
  | .done => []
  | .entry e rest => .entry e :: rest.calls
  | .mapping key inner rest => .beginMapping key :: (inner.calls ++ .endMapping :: rest.calls)

/-- No mapping is ended that was not begun, and none is left open. -/
def balanced : Nat → List Call → Bool
  | depth, [] => depth = 0
  | depth, .entry _ :: rest => balanced depth rest
  | depth, .beginMapping _ :: rest => balanced (depth + 1) rest
  | 0, .endMapping :: _ => false
  | depth + 1, .endMapping :: rest => balanced depth rest

/-- The scalar a call writes. -/
def Entry.scalar : Entry → Option (Text × Scalar)
  | .comment _ | .blankLine => none
  | .string key value => some (key, .string value)
  | .stringIfPresent key value => if value = [] then none else some (key, .string value)
  | .integer key value => some (key, .integer value)
  | .unsigned key value => some (key, .unsigned value)
  | .number key value => some (key, .number value)
  | .boolean key value => some (key, .boolean value)

/-- The call puts a line under its parents. -/
def Entry.writes : Entry → Bool
  | .comment _ => true
  | e => e.scalar.isSome

/-- Nothing here makes a parent's key line appear. -/
def Items.idle : Items → Bool
  | .done => true
  | .entry e rest => !e.writes && rest.idle
  | .mapping _ _ _ => false

end Yaml
