import DomesdayDuplicator.Player.ResponseParser
import DomesdayDuplicator.Foundations.Execution
import Mathlib.Logic.Function.Basic
import Mathlib.Algebra.Ring.Int.Defs

/-!
# A session with a player

`ddd-gui/src/player/player_session.cpp` over the serial line: each call discards what has
come in, writes its command and reads until there are enough lines or the time is up. The
player answers the commands it has got in their order, each once at most and whenever it
likes; what it sends comes in one byte after the other. A byte carries the call it is an
answer to, which nothing on the line does.
-/

namespace PlayerSession

open Player Execution

/-! ## Commands -/

inductive ArgumentEncoding where
  | none | decimal | timeCodeHMMSS
  deriving DecidableEq

inductive ResponseKind where
  | acknowledgement | text
  deriving DecidableEq

/-- A command of a model as the encoder and the session read it. -/
structure WireSpec where
  start : Text
  suffix : Text
  argument : ArgumentEncoding
  argumentDigits : Nat
  response : ResponseKind

inductive EncodeStatus where
  | commandUnsupported | parameterUnsupported | argumentRequired | unexpectedArgument
  | argumentOutOfRange | commandTooLong
  deriving DecidableEq

def kMaximumCommandLength : Nat := 20

def largestValueIn (digits : Nat) : Int := 10 ^ digits - 1

def digitText (n : Nat) : Text := [Char.ofNat ('0'.toNat + n)]

def encodeHMMSS (value : Nat) : Option Text :=
  let hours := value / 1000000
  let minutes := value / 10000 % 100
  let seconds := value / 100 % 100
  if hours > 9 ∨ minutes > 59 ∨ seconds > 59 then none
  else some (digitText hours ++ digitText (minutes / 10) ++ digitText (minutes % 10) ++
    digitText (seconds / 10) ++ digitText (seconds % 10))

def encodeArgument (spec : WireSpec) (argument : Option Int) : Except EncodeStatus Text :=
  if spec.argument = .none then
    if argument.isSome then .error .unexpectedArgument else .ok []
  else
    match argument with
    | none => .error .argumentRequired
    | some value =>
      if value < 0 ∨ value > largestValueIn spec.argumentDigits then .error .argumentOutOfRange
      else
        match spec.argument with
        | .decimal => .ok (Nat.toDigits 10 value.toNat)
        | .timeCodeHMMSS =>
          match encodeHMMSS value.toNat with
          | none => .error .argumentOutOfRange
          | some text => .ok text
        | .none => .error .argumentOutOfRange

def encodeCommand (spec : WireSpec) (argument : Option Int) : Except EncodeStatus Text :=
  if spec.start = [] ∧ spec.suffix = [] then .error .commandUnsupported
  else
    match encodeArgument spec argument with
    | .error status => .error status
    | .ok text =>
      let bytes := spec.start ++ text ++ spec.suffix ++ [commandTerminator]
      if bytes.length > kMaximumCommandLength then .error .commandTooLong else .ok bytes

def statusForEncodeFailure : EncodeStatus → ReplyStatus
  | .commandUnsupported | .parameterUnsupported => .unsupported
  | .argumentRequired | .unexpectedArgument | .argumentOutOfRange | .commandTooLong =>
    .invalidArgument

/-! ## Replies -/

/-- A reply with the player's error code and the bytes that were sent. -/
structure SessionReply where
  status : ReplyStatus
  text : Text
  errorCode : Text
  sent : Text
  deriving DecidableEq

def failure (status : ReplyStatus) (sent : Text) : SessionReply := ⟨status, [], [], sent⟩

def countTerminators (raw : Text) : Nat := raw.count commandTerminator

/-- From the first `E`, with the digits behind it, if there are any. -/
def extractErrorCode (text : Text) : Text :=
  match text.dropWhile (· ≠ 'E') with
  | [] => []
  | e :: rest =>
    let digits := rest.takeWhile isDigit
    if digits = [] then [] else e :: digits

def parseAcknowledgement (raw sent : Text) : SessionReply :=
  let text := stripTerminator raw
  if text = [] then ⟨.noAnswer, text, [], sent⟩
  else if 'E' ∈ text then ⟨.refused, text, extractErrorCode text, sent⟩
  else ⟨.ok, text, [], sent⟩

def parseText (raw sent : Text) : SessionReply :=
  let text := raw.rdropWhile fun c => c == commandTerminator || c == '\n'
  ⟨if text = [] then .noAnswer else .ok, text, [], sent⟩

/-! ## The session and the line -/

/-- What `Send` is given. -/
structure Request where
  bytes : Text
  response : ResponseKind
  expectedReplies : Int
  deriving DecidableEq

def Request.wanted (r : Request) : Nat := (max r.expectedReplies 1).toNat

def Request.parse (r : Request) (raw : Text) : SessionReply :=
  if r.response = .acknowledgement then parseAcknowledgement raw r.bytes else parseText raw r.bytes

/-- A byte on the line, with the call whose command it answers. -/
structure Sent where
  call : Nat
  char : Char
  deriving DecidableEq

def chars (raw : List Sent) : Text := raw.map Sent.char

inductive Phase where
  | idle
  | discarding (request : Request)
  | writing (request : Request)
  | reading (call : Nat) (request : Request) (into : List Sent)

/-- A call that has come back; `call` numbers those whose command was written. -/
structure Returned where
  call : Option Nat
  request : Request
  raw : List Sent
  reply : SessionReply

structure Link where
  connected : Bool
  calls : Nat
  phase : Phase
  /-- What has come in and what is on its way. -/
  input : List Sent
  wire : List Sent
  /-- The commands the player has got and has not dealt with. -/
  asked : List Nat
  answers : Nat → Option Text
  returned : List Returned

inductive Action where
  -- the caller
  | execute (command : PlayerCommand) (argument : Option Int)
  | sendRaw (command : Text) (response : ResponseKind) (expectedReplies : Int)
  -- the session
  | discardBuffers
  | write (works : Bool)
  | read (count : Nat) (works : Bool)
  | timeOut
  -- the player and the line
  | answer (text : Text)
  | ignore
  | arrive

/-- A session that is connected, with nothing on the line. -/
def start : Link := ⟨true, 0, .idle, [], [], [], fun _ => none, []⟩

namespace Link

def begin (request : Except ReplyStatus Request) (l : Link) : Link :=
  match l.phase with
  | .idle =>
    if l.connected then
      match request with
      | .ok request => { l with phase := .discarding request }
      | .error status =>
        { l with returned := l.returned ++ [⟨none, ⟨[], .text, 1⟩, [], failure status []⟩] }
    else
      { l with returned := l.returned ++ [⟨none, ⟨[], .text, 1⟩, [], failure .notConnected []⟩] }
  | _ => l

def execute (spec : WireSpec) (argument : Option Int) (l : Link) : Link :=
  l.begin (match encodeCommand spec argument with
    | .error status => .error (statusForEncodeFailure status)
    | .ok bytes => .ok ⟨bytes, spec.response, 1⟩)

def sendRaw (command : Text) (response : ResponseKind) (expectedReplies : Int) (l : Link) : Link :=
  let bytes := if command.getLast? = some commandTerminator then command
    else command ++ [commandTerminator]
  l.begin (if bytes.length > kMaximumCommandLength then .error .invalidArgument
    else .ok ⟨bytes, response, expectedReplies⟩)

def returns (call : Option Nat) (request : Request) (raw : List Sent) (reply : SessionReply)
    (l : Link) : Link :=
  { l with phase := .idle, returned := l.returned ++ [⟨call, request, raw, reply⟩] }

def write (works : Bool) (l : Link) : Link :=
  match l.phase with
  | .writing request =>
    if works then
      { l with
        calls := l.calls + 1
        asked := l.asked ++ [l.calls]
        phase := .reading l.calls request [] }
    else
      { l with connected := false }.returns none request [] (failure .linkFailed request.bytes)
  | _ => l

/-- `Read` appends some of what has come in. -/
def read (count : Nat) (works : Bool) (l : Link) : Link :=
  match l.phase with
  | .reading call request into =>
    if works then
      let raw := into ++ l.input.take count
      let l := { l with input := l.input.drop count, phase := .reading call request raw }
      if request.wanted ≤ countTerminators (chars raw) then
        l.returns (some call) request raw (request.parse (chars raw))
      else l
    else
      { l with connected := false }.returns (some call) request []
        (failure .linkFailed request.bytes)
  | _ => l

/-- An incomplete reply is thrown away. -/
def timeOut (l : Link) : Link :=
  match l.phase with
  | .reading call request _ => l.returns (some call) request [] (request.parse [])
  | _ => l

def answer (text : Text) (l : Link) : Link :=
  match l.asked with
  | [] => l
  | call :: rest =>
    { l with
      asked := rest
      answers := Function.update l.answers call (some text)
      wire := l.wire ++ text.map (Sent.mk call) }

def arrive (l : Link) : Link :=
  match l.wire with
  | [] => l
  | byte :: rest => { l with wire := rest, input := l.input ++ [byte] }

def step (specs : PlayerCommand → WireSpec) (l : Link) : Action → Link
  | .execute command argument => l.execute (specs command) argument
  | .sendRaw command response expectedReplies => l.sendRaw command response expectedReplies
  | .discardBuffers =>
    match l.phase with
    | .discarding request => { l with input := [], phase := .writing request }
    | _ => l
  | .write works => l.write works
  | .read count works => l.read count works
  | .timeOut => l.timeOut
  | .answer text => l.answer text
  | .ignore => { l with asked := l.asked.tail }
  | .arrive => l.arrive

end Link

def machine (specs : PlayerCommand → WireSpec) : Machine Link Action Unit :=
  ⟨fun l a => (l.step specs a, ())⟩

end PlayerSession
