import DomesdayDuplicator.Update.ManifestReader

/-!
# A Serial Vector Format file

What `ddd-gui/src/capture/svf_player.cpp` reads out of the text before anything moves: the
statements, and of a statement the states, values and waits it names. Floating point is a
parameter.
-/

namespace Svf

open Manifest (Byte Text text)
open ManifestReader (decimalText)

inductive TapState where
  | reset | idle
  | drSelect | drCapture | drShift | drExit1 | drPause | drExit2 | drUpdate
  | irSelect | irCapture | irShift | irExit1 | irPause | irExit2 | irUpdate
  deriving DecidableEq

def isStableState (state : TapState) : Bool :=
  state = .reset ∨ state = .idle ∨ state = .drPause ∨ state = .irPause

def stateNames : List (Text × TapState) :=
  [(text "RESET", .reset), (text "IDLE", .idle), (text "DRSELECT", .drSelect),
    (text "DRCAPTURE", .drCapture), (text "DRSHIFT", .drShift), (text "DREXIT1", .drExit1),
    (text "DRPAUSE", .drPause), (text "DREXIT2", .drExit2), (text "DRUPDATE", .drUpdate),
    (text "IRSELECT", .irSelect), (text "IRCAPTURE", .irCapture), (text "IRSHIFT", .irShift),
    (text "IREXIT1", .irExit1), (text "IRPAUSE", .irPause), (text "IREXIT2", .irExit2),
    (text "IRUPDATE", .irUpdate)]

def stateNamed (name : Text) : Option TapState := stateNames.lookup name

/-! ## Problems -/

/-- A window onto a scan value, with the bits it covers. -/
structure HexWindow where
  text : Text
  lowestBit : Nat
  highestBit : Nat
  deriving DecidableEq

inductive HexProblem where
  | notHexadecimal | tooWide
  deriving DecidableEq

def HexProblem.text : HexProblem → Text
  | .notHexadecimal => Manifest.text
    "the file has something that is not a hexadecimal digit in a value"
  | .tooWide => Manifest.text
    "the file has a value with more bits in it than the scan it belongs to"

inductive Problem where
  | stoppedAnswering
  | stopped
  | endsInValue
  | endsInStatement
  | unknownCommand (command : Text)
  | scanMalformed
  | scanNames (keyword : Text)
  | scanNoLength
  | scanLengthChanged
  | scanValue (problem : HexProblem)
  | mismatch (index bitCount : Nat) (said wanted : HexWindow)
  | waitMalformed
  | waitState
  | systemClock
  | stateMissing
  | stateUnknown (name : Text)
  | endStateMalformed
  | endStateUnstable
  | headerNoLength
  | longerChain
  | rateMalformed
  | resetLineMalformed
  | resetLineDriven
  deriving DecidableEq

def Problem.text : Problem → Text
  | .stoppedAnswering => Manifest.text "The cable stopped answering."
  | .stopped => Manifest.text "Stopped before the end of the file."
  | .endsInValue => Manifest.text "The file ends in the middle of a value."
  | .endsInStatement => Manifest.text
    "The file ends in the middle of a statement, with no semicolon."
  | .unknownCommand command => Manifest.text "The file uses \"" ++ command ++
    Manifest.text "\", which this application does not understand."
  | .scanMalformed => Manifest.text "A scan in the file is malformed."
  | .scanNames keyword => Manifest.text "A scan in the file names \"" ++ keyword ++
    Manifest.text "\", which is not part of one."
  | .scanNoLength => Manifest.text "A scan in the file has no length."
  | .scanLengthChanged => Manifest.text
    "A scan in the file changes length without saying what to shift."
  | .scanValue problem => Manifest.text "Reading a scan failed: " ++ problem.text ++
    Manifest.text "."
  | .mismatch index bitCount said wanted =>
    Manifest.text "The device did not answer as the programming file expected at bit " ++
      decimalText index ++ Manifest.text " of a " ++ decimalText bitCount ++
      Manifest.text "-bit scan: across bits " ++ decimalText said.highestBit ++
      Manifest.text " to " ++ decimalText said.lowestBit ++ Manifest.text " it said " ++
      said.text ++ Manifest.text " where " ++ wanted.text ++ Manifest.text " was expected."
  | .waitMalformed => Manifest.text "A wait in the file is malformed."
  | .waitState => Manifest.text "A wait in the file names a state that does not exist."
  | .systemClock => Manifest.text
    "The file asks for cycles of a system clock, which this cable does not have."
  | .stateMissing => Manifest.text "A state change in the file names no state."
  | .stateUnknown name => Manifest.text "The file names a state that does not exist: " ++ name ++
    Manifest.text "."
  | .endStateMalformed => Manifest.text "An end state in the file is malformed."
  | .endStateUnstable => Manifest.text
    "The file ends its scans in a state a scan cannot rest in."
  | .headerNoLength => Manifest.text "A header in the file has no length."
  | .longerChain =>
    Manifest.text "This programming file is for a JTAG chain with more than one " ++
      Manifest.text "device on it, and this application drives a chain with one."
  | .rateMalformed => Manifest.text "The file's clock rate is malformed."
  | .resetLineMalformed => Manifest.text "A reset line setting in the file is malformed."
  | .resetLineDriven => Manifest.text
    "This programming file drives a JTAG reset line, which this cable does not have."

/-! ## Statements -/

structure Token where
  text : Text
  bracketed : Bool
  deriving DecidableEq

/-- `readerLine` is where the reader is once the statement is read. -/
structure Statement where
  tokens : List Token
  line : Nat
  readerLine : Nat
  deriving DecidableEq

/-- What `NextStatement` has of the statement it is reading. -/
structure Reader where
  line : Nat
  tokens : List Token
  statementLine : Nat
  started : Bool
  word : Text

def Reader.start (line : Nat) : Reader := ⟨line, [], line, false, []⟩

def Reader.noteLine (r : Reader) : Reader :=
  if r.started then r else { r with started := true, statementLine := r.line }

def Reader.finishWord (r : Reader) : Reader :=
  if r.word = [] then r else { r with tokens := r.tokens ++ [⟨r.word, false⟩], word := [] }

inductive Mode where
  | words
  | comment
  | value (text : Text)

def toUpper (c : Byte) : Byte := if 0x61 ≤ c.toNat ∧ c.toNat ≤ 0x7A then c - 0x20 else c

/-- What the reader found: the statements, the line it got to, and the problem it ended on
with the line that is blamed. -/
structure SvfFile where
  statements : List Statement
  lastLine : Nat
  problem : Option (Nat × Problem)
  deriving DecidableEq

/-- `NextStatement` again and again, to the end of the text. -/
def readFile : Mode → Reader → Text → SvfFile
  | .words, r, [] | .comment, r, [] =>
    let r := r.finishWord
    ⟨[], r.line, if r.tokens = [] then none else some (r.statementLine, .endsInStatement)⟩
  | .value _, r, [] => ⟨[], r.line, some (r.statementLine, .endsInValue)⟩
  | .comment, r, c :: rest =>
    if c = 0x0A#8 then readFile .words { r with line := r.line + 1 } rest
    else readFile .comment r rest
  | .value value, r, c :: rest =>
    if c = 0x29#8 then readFile .words { r with tokens := r.tokens ++ [⟨value, true⟩] } rest
    else if c = 0x0A#8 then readFile (.value value) { r with line := r.line + 1 } rest
    else if c.toNat ≤ 0x20 then readFile (.value value) r rest
    else readFile (.value (value ++ [c])) r rest
  | .words, r, c :: rest =>
    if c = 0x0A#8 then readFile .words { r.finishWord with line := r.line + 1 } rest
    else if c.toNat ≤ 0x20 then readFile .words r.finishWord rest
    else if c = 0x21#8 ∨ c = 0x2F#8 ∧ rest.head? = some 0x2F#8 then
      readFile .comment r.finishWord rest
    else if c = 0x3B#8 then
      let r := r.finishWord
      if r.tokens = [] then readFile .words { r with started := false } rest
      else
        let more := readFile .words (.start r.line) rest
        { more with statements := ⟨r.tokens, r.statementLine, r.line⟩ :: more.statements }
    else if c = 0x28#8 then readFile (.value []) r.noteLine.finishWord rest
    else readFile .words { r.noteLine with word := r.word ++ [toUpper c] } rest

def readText (contents : Text) : SvfFile := readFile .words (.start 1) contents

/-! ## Values -/

def hexDigit (c : Byte) : Option Nat :=
  if 0x30 ≤ c.toNat ∧ c.toNat ≤ 0x39 then some (c.toNat - 0x30)
  else if 0x41 ≤ c.toNat ∧ c.toNat ≤ 0x46 then some (c.toNat - 0x41 + 10)
  else if 0x61 ≤ c.toNat ∧ c.toNat ≤ 0x66 then some (c.toNat - 0x61 + 10)
  else none

/-- One digit's four bits, the lowest first, from `index` on. -/
def setDigit (digit index : Nat) : Nat → List Bool → Except HexProblem (List Bool)
  | 0, bits => .ok bits
  | left + 1, bits =>
    let set := digit.testBit 0
    if index < bits.length then setDigit (digit / 2) (index + 1) left (bits.set index set)
    else if set then .error .tooWide
    else setDigit (digit / 2) (index + 1) left bits

/-- The digits from the last one back. -/
def setDigits : List Byte → Nat → List Bool → Except HexProblem (List Bool)
  | [], _, bits => .ok bits
  | c :: rest, nibble, bits =>
    match hexDigit c with
    | none => .error .notHexadecimal
    | some digit => (setDigit digit (nibble * 4) 4 bits).bind (setDigits rest (nibble + 1))

def hexToBits (hex : Text) (bitCount : Nat) : Except HexProblem (List Bool) :=
  setDigits hex.reverse 0 (List.replicate bitCount false)

def hexDigits : Text := text "0123456789ABCDEF"

def digitAt (bits : List Bool) (nibble : Nat) : Byte :=
  hexDigits.getD ((List.range 4).foldl (fun value offset =>
    if bits.getD (nibble * 4 + offset) false then value ||| 1 <<< offset else value) 0) 0

def bitsToHexAround (bits : List Bool) (around maximumDigits : Nat) : HexWindow :=
  let digits := (bits.length + 3) / 4
  let top := if maximumDigits < digits then
      max (min digits (around / 4 + (maximumDigits + 1) / 2)) maximumDigits
    else digits
  let bottom := top - maximumDigits
  if bits = [] then ⟨[], 0, 0⟩
  else
    { text := (if top < digits then text "…" else []) ++
        ((List.range (top - bottom)).map fun i => digitAt bits (top - 1 - i)) ++
        if 0 < bottom then text "…" else []
      lowestBit := bottom * 4
      highestBit := min (top * 4) bits.length - 1 }

/-! ## What the statements say -/

/-- What the player does with `double`. -/
structure Doubles (D : Type) where
  /-- `strtod`, where it takes the whole text. -/
  strtod : Text → Option D
  negative : D → Bool
  isZero : D → Bool
  /-- The casts to `size_t` and `uint64_t`. -/
  truncate : D → Nat
  zero : D
  /-- Whether so many seconds, or so many clocks at such a rate, are a wait to hold open. -/
  waits : (seconds : D) → (clocks : Nat) → (frequency : D) → Bool

section Statements

variable {D : Type} (d : Doubles D)

def number (token : Token) : Option D :=
  if token.bracketed ∨ token.text = [] then none else d.strtod token.text

structure ScanFields where
  tdi : Option Text
  tdo : Option Text
  mask : Option Text
  smask : Option Text
  deriving DecidableEq

def parseScanFields : List Token → ScanFields → Except Problem ScanFields
  | [], fields => .ok fields
  | [_], _ => .error .scanMalformed
  | keyword :: value :: rest, fields =>
    if keyword.bracketed then .error .scanMalformed
    else if ¬ value.bracketed then .error .scanMalformed
    else if keyword.text = text "TDI" then
      parseScanFields rest { fields with tdi := some value.text }
    else if keyword.text = text "TDO" then
      parseScanFields rest { fields with tdo := some value.text }
    else if keyword.text = text "MASK" then
      parseScanFields rest { fields with mask := some value.text }
    else if keyword.text = text "SMASK" then
      parseScanFields rest { fields with smask := some value.text }
    else .error (.scanNames keyword.text)

/-- A scan's length and fields. -/
def parseScan (arguments : List Token) : Except Problem (Nat × ScanFields) :=
  match arguments with
  | [] => .error .scanNoLength
  | length :: rest =>
    match number d length with
    | none => .error .scanNoLength
    | some bits =>
      if d.negative bits then .error .scanNoLength
      else (parseScanFields rest ⟨none, none, none, none⟩).map (d.truncate bits, ·)

/-- What a `RUNTEST` asks for. -/
structure Wait (D : Type) where
  runState : TapState
  endState : Option TapState
  clocks : Nat
  seconds : D

def parseWait : List Token → Wait D → Except Problem (Wait D)
  | [], wait => .ok wait
  | token :: rest, wait =>
    if token.text = text "ENDSTATE" then
      match rest with
      | [] => .error .waitMalformed
      | name :: rest =>
        match stateNamed name.text with
        | none => .error .waitState
        | some state => parseWait rest { wait with endState := some state }
    else if token.text = text "MAXIMUM" then
      match rest with
      | _ :: _ :: rest => parseWait rest wait
      | _ => .ok wait
    else
      match rest with
      | [] => .error .waitMalformed
      | unit :: rest =>
        match number d token with
        | none => .error .waitMalformed
        | some value =>
          if unit.text = text "TCK" then parseWait rest { wait with clocks := d.truncate value }
          else if unit.text = text "SEC" then parseWait rest { wait with seconds := value }
          else if unit.text = text "SCK" then .error .systemClock
          else .error .waitMalformed

/-- The state in front, where there is one, is the one to wait in. -/
def parseRunTest (arguments : List Token) : Except Problem (Wait D) :=
  match arguments with
  | [] => .ok ⟨.idle, none, 0, d.zero⟩
  | first :: rest =>
    match stateNamed first.text with
    | some state => parseWait d rest ⟨state, none, 0, d.zero⟩
    | none => parseWait d (first :: rest) ⟨.idle, none, 0, d.zero⟩

/-- `DoHeaderOrTrailer`. -/
def doHeaderOrTrailer (arguments : List Token) : Option Problem :=
  match arguments with
  | [] => some .headerNoLength
  | length :: _ =>
    match number d length with
    | none => some .headerNoLength
    | some bits => if d.isZero bits then none else some .longerChain

/-- `DoTrst`. -/
def doTrst (arguments : List Token) : Option Problem :=
  match arguments with
  | [setting] =>
    if setting.text = text "ON" then some .resetLineDriven
    else if setting.text = text "OFF" ∨ setting.text = text "Z" ∨ setting.text = text "ABSENT" then
      none
    else some .resetLineMalformed
  | _ => some .resetLineMalformed

end Statements

end Svf
