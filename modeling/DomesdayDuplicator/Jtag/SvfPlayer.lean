import DomesdayDuplicator.Jtag.SvfFile

/-!
# The SVF player

`ddd-gui/src/capture/svf_player.cpp` over any JTAG cable. The player keeps the calls it has
made, each with the TAP state it had on record when it made it; the cable answers a call on
the strength of all of them.
-/

namespace Svf

open Manifest (Byte Text text)

/-! ## The TAP -/

structure Transition where
  onZero : TapState
  onOne : TapState

def transitions : TapState → Transition
  | .reset => ⟨.idle, .reset⟩
  | .idle => ⟨.idle, .drSelect⟩
  | .drSelect => ⟨.drCapture, .irSelect⟩
  | .drCapture => ⟨.drShift, .drExit1⟩
  | .drShift => ⟨.drShift, .drExit1⟩
  | .drExit1 => ⟨.drPause, .drUpdate⟩
  | .drPause => ⟨.drPause, .drExit2⟩
  | .drExit2 => ⟨.drShift, .drUpdate⟩
  | .drUpdate => ⟨.idle, .drSelect⟩
  | .irSelect => ⟨.irCapture, .reset⟩
  | .irCapture => ⟨.irShift, .irExit1⟩
  | .irShift => ⟨.irShift, .irExit1⟩
  | .irExit1 => ⟨.irPause, .irUpdate⟩
  | .irPause => ⟨.irPause, .irExit2⟩
  | .irExit2 => ⟨.irShift, .irUpdate⟩
  | .irUpdate => ⟨.idle, .drSelect⟩

/-- A state that was reached, with where from and on which TMS. -/
structure Reached where
  state : TapState
  cameFrom : TapState
  onOne : Bool

def walkBack (reached : List Reached) (origin : TapState) : Nat → TapState → List Bool
  | 0, _ => []
  | steps + 1, state =>
    if state = origin then []
    else
      match reached.find? fun r => r.state = state with
      | none => []
      | some r => walkBack reached origin steps r.cameFrom ++ [r.onOne]

/-- The neighbours of a frontier, taken in order: a path as soon as `target` is among them. -/
def visit (origin target : TapState) :
    List Reached → List Reached → List TapState → List Bool ⊕ (List Reached × List TapState)
  | [], reached, next => .inr (reached, next)
  | step :: rest, reached, next =>
    if step.state = origin ∨ reached.any (fun r => r.state = step.state) then
      visit origin target rest reached next
    else if step.state = .reset ∧ target ≠ .reset then visit origin target rest reached next
    else
      let reached := reached ++ [step]
      if step.state = target then .inl (walkBack reached origin 16 target)
      else visit origin target rest reached (next ++ [step.state])

def search (origin target : TapState) : Nat → List Reached → List TapState → List Bool
  | 0, _, _ => []
  | rounds + 1, reached, frontier =>
    if frontier = [] then []
    else
      let steps := frontier.flatMap fun state =>
        [⟨(transitions state).onZero, state, false⟩, ⟨(transitions state).onOne, state, true⟩]
      match visit origin target steps reached [] with
      | .inl path => path
      | .inr (reached, next) => search origin target rounds reached next

/-- Sixteen rounds are enough: each reaches a state more. -/
def pathBetween (origin target : TapState) : List Bool :=
  if origin = target then [] else search origin target 16 [] [origin]

/-! ## The cable -/

/-- The calls of `IJtagCable`; a bit run is the list of its bits. -/
inductive Request where
  | shift (tms tdi : List Bool) (capture : Bool)
  | runClock (count : Nat)
  | flush
  deriving DecidableEq

/-- What the cable says to the last of the requests it was given: nothing when it fails, else
the bits it captured. -/
abbrev Cable := List Request → Option (List Bool)

structure CableCall where
  /-- `current_` when the call was made. -/
  before : TapState
  request : Request
  went : Bool
  deriving DecidableEq

/-! ## The player -/

structure StickyScan where
  tdi : List Bool
  mask : List Bool
  smask : List Bool
  deriving DecidableEq

def StickyScan.blank : StickyScan := ⟨[], [], []⟩

/-- A remembered scan's `bit_count` is the length of its values. -/
def StickyScan.bitCount (sticky : StickyScan) : Nat := sticky.tdi.length

structure Player (D : Type) where
  calls : List CableCall
  current : TapState
  endDr : TapState
  endIr : TapState
  stickyDr : StickyScan
  stickyIr : StickyScan
  frequency : D
  statements : Nat
  shiftedBits : Nat
  runClocks : Nat

/-- What went wrong, and the line that is blamed. -/
structure Failure where
  line : Nat
  problem : Problem
  deriving DecidableEq

section Playing

variable {D : Type} (d : Doubles D) (cable : Cable) (deviceAttached : Bool)

abbrev Step (D : Type) := Player D × Option Failure

def Step.andThen (step : Step D) (next : Player D → Step D) : Step D :=
  match step with
  | (p, none) => next p
  | (p, some failure) => (p, some failure)

def Player.send (p : Player D) (request : Request) : Player D × Option (List Bool) :=
  let answer := cable (p.calls.map CableCall.request ++ [request])
  ({ p with calls := p.calls ++ [⟨p.current, request, answer.isSome⟩] }, answer)

/-- `line` is the reader's. -/
def moveTo (line : Nat) (target : TapState) (p : Player D) : Step D :=
  let path := pathBetween p.current target
  if path = [] then ({ p with current := target }, none)
  else
    match p.send cable (.shift path (List.replicate path.length false) false) with
    | (p, none) => (p, some ⟨line, .stoppedAnswering⟩)
    | (p, some _) => ({ p with current := target }, none)

/-- `Shift`: TMS is high for the last bit only. -/
def shift (line : Nat) (tdi : List Bool) (capture : Bool) (p : Player D) :
    Player D × Except Failure (List Bool) :=
  match p.send cable
    (.shift ((List.replicate tdi.length false).set (tdi.length - 1) true) tdi capture) with
  | (p, none) => (p, .error ⟨line, .stoppedAnswering⟩)
  | (p, some received) => ({ p with shiftedBits := p.shiftedBits + tdi.length },
      .ok ((List.range tdi.length).map fun i => received.getD i false))

def Player.sticky (p : Player D) (instruction : Bool) : StickyScan :=
  if instruction then p.stickyIr else p.stickyDr

def Player.setSticky (p : Player D) (instruction : Bool) (sticky : StickyScan) : Player D :=
  if instruction then { p with stickyIr := sticky } else { p with stickyDr := sticky }

def Player.endOf (p : Player D) (instruction : Bool) : TapState :=
  if instruction then p.endIr else p.endDr

def shiftState (instruction : Bool) : TapState := if instruction then .irShift else .drShift

def exitState (instruction : Bool) : TapState := if instruction then .irExit1 else .drExit1

/-- A remembered value, replaced where the scan gives one. -/
def replaceBits (given : Option Text) (bitCount : Nat) (old : List Bool) :
    Except Problem (List Bool) :=
  match given with
  | none => .ok old
  | some hex => (hexToBits hex bitCount).mapError .scanValue

/-- What a scan shifts and what it compares, out of its fields and the scan before it. -/
def resolveScan (bitCount : Nat) (fields : ScanFields) (sticky : StickyScan) :
    Except Problem (StickyScan × List Bool) := do
  if bitCount ≠ sticky.bitCount ∧ fields.tdi = none ∧ 0 < bitCount then
    throw .scanLengthChanged
  let sticky := if bitCount ≠ sticky.bitCount then
      ⟨List.replicate bitCount false, List.replicate bitCount true, List.replicate bitCount true⟩
    else sticky
  let tdi ← replaceBits fields.tdi bitCount sticky.tdi
  let mask ← replaceBits fields.mask bitCount sticky.mask
  let smask ← replaceBits fields.smask bitCount sticky.smask
  let expected ← replaceBits fields.tdo bitCount []
  return (⟨tdi, mask, smask⟩, expected)

def kMessageHexDigits : Nat := 32

/-- The comparison of what came back, up to the first bit that is wrong. -/
def compare (mask received expected : List Bool) : Option Problem :=
  ((List.range mask.length).find? fun i =>
    mask.getD i false && received.getD i false != expected.getD i false).map fun i =>
      .mismatch i mask.length (bitsToHexAround received i kMessageHexDigits)
        (bitsToHexAround expected i kMessageHexDigits)

def doScan (s : Statement) (arguments : List Token) (instruction : Bool) (p : Player D) : Step D :=
  match parseScan d arguments with
  | .error problem => (p, some ⟨s.line, problem⟩)
  | .ok (bitCount, fields) =>
    match resolveScan bitCount fields (p.sticky instruction) with
    | .error problem => (p, some ⟨s.line, problem⟩)
    | .ok (sticky, expected) =>
      let p := p.setSticky instruction sticky
      if bitCount = 0 then (p, none)
      else
        Step.andThen (moveTo cable s.readerLine (shiftState instruction) p) fun p =>
          let capture := fields.tdo.isSome && deviceAttached
          match shift cable s.readerLine sticky.tdi capture p with
          | (p, .error failure) => (p, some failure)
          | (p, .ok received) =>
            let p := { p with current := exitState instruction }
            match if capture then compare sticky.mask received expected else none with
            | some problem => (p, some ⟨s.line, problem⟩)
            | none => moveTo cable s.readerLine (p.endOf instruction) p

def runClock (line clocks : Nat) (p : Player D) : Step D :=
  if clocks = 0 then (p, none)
  else
    match p.send cable (.runClock clocks) with
    | (p, none) => (p, some ⟨line, .stoppedAnswering⟩)
    | (p, some _) => ({ p with runClocks := p.runClocks + clocks }, none)

/-- The flush before a wait is held open. -/
def flushNow (line : Nat) (p : Player D) : Step D :=
  match p.send cable .flush with
  | (p, none) => (p, some ⟨line, .stoppedAnswering⟩)
  | (p, some _) => (p, none)

def doRunTest (s : Statement) (arguments : List Token) (p : Player D) : Step D :=
  match parseRunTest d arguments with
  | .error problem => (p, some ⟨s.line, problem⟩)
  | .ok wait =>
    Step.andThen (moveTo cable s.readerLine wait.runState p) fun p =>
      Step.andThen (runClock cable s.readerLine wait.clocks p) fun p =>
        Step.andThen (if deviceAttached && d.waits wait.seconds wait.clocks p.frequency then
          flushNow cable s.readerLine p else (p, none)) fun p =>
          moveTo cable s.readerLine (wait.endState.getD wait.runState) p

/-- The loop of `DoState`. -/
def moveAlong (s : Statement) : List Token → Player D → Step D
  | [], p => (p, none)
  | name :: rest, p =>
    match stateNamed name.text with
    | none => (p, some ⟨s.line, .stateUnknown name.text⟩)
    | some state => Step.andThen (moveTo cable s.readerLine state p) (moveAlong s rest)

def doState (s : Statement) (arguments : List Token) (p : Player D) : Step D :=
  if arguments = [] then (p, some ⟨s.line, .stateMissing⟩) else moveAlong cable s arguments p

/-- The state an `ENDDR` or `ENDIR` names. -/
def parseEndState (arguments : List Token) : Except Problem TapState :=
  match arguments with
  | [name] =>
    match stateNamed name.text with
    | none => .error .endStateUnstable
    | some state => if isStableState state then .ok state else .error .endStateUnstable
  | _ => .error .endStateMalformed

def doEndState (s : Statement) (arguments : List Token) (instruction : Bool) (p : Player D) :
    Step D :=
  match parseEndState arguments with
  | .error problem => (p, some ⟨s.line, problem⟩)
  | .ok state =>
    (if instruction then { p with endIr := state } else { p with endDr := state }, none)

def doFrequency (s : Statement) (arguments : List Token) (p : Player D) : Step D :=
  match arguments with
  | [] => ({ p with frequency := d.zero }, none)
  | hertz :: _ =>
    match number d hertz with
    | none => (p, some ⟨s.line, .rateMalformed⟩)
    | some frequency => ({ p with frequency }, none)

/-- The statements the player knows. -/
inductive Command where
  | scan (instruction : Bool)
  | runTest
  | state
  | endState (instruction : Bool)
  | headerOrTrailer
  | frequency
  | trst
  deriving DecidableEq

def commands : List (Text × Command) :=
  [(text "SDR", .scan false), (text "SIR", .scan true), (text "RUNTEST", .runTest),
    (text "STATE", .state), (text "ENDDR", .endState false), (text "ENDIR", .endState true),
    (text "HIR", .headerOrTrailer), (text "HDR", .headerOrTrailer),
    (text "TIR", .headerOrTrailer), (text "TDR", .headerOrTrailer),
    (text "FREQUENCY", .frequency), (text "TRST", .trst)]

def Statement.keyword (s : Statement) : Text := (s.tokens.head?.map Token.text).getD []

def Statement.command (s : Statement) : Option Command := commands.lookup s.keyword

def Statement.arguments (s : Statement) : List Token := s.tokens.tail

def execute (s : Statement) (p : Player D) : Step D :=
  match s.command with
  | none => (p, some ⟨s.line, .unknownCommand s.keyword⟩)
  | some (.scan instruction) => doScan d cable deviceAttached s s.arguments instruction p
  | some .runTest => doRunTest d cable deviceAttached s s.arguments p
  | some .state => doState cable s s.arguments p
  | some (.endState instruction) => doEndState s s.arguments instruction p
  | some .headerOrTrailer => (p, (doHeaderOrTrailer d s.arguments).map (⟨s.line, ·⟩))
  | some .frequency => doFrequency d s s.arguments p
  | some .trst => (p, (doTrst s.arguments).map (⟨s.line, ·⟩))

/-! ## A play -/

/-- A statement that was executed: the player before and after it. -/
structure Turn (D : Type) where
  before : Player D
  statement : Statement
  after : Player D
  failure : Option Failure

/-- How a play ended. -/
inductive Ending where
  | succeeded
  | stopped (line : Nat)
  | failed (failure : Failure) (keyword : Text)
  deriving DecidableEq

structure Played (D : Type) where
  player : Player D
  turns : List (Turn D)
  ending : Ending

def Player.flushed (p : Player D) : Player D := (p.send cable .flush).1

/-- The loop of `Play`; `stop` is the stop callback at its next polls. -/
def playAll (file : SvfFile) (stop : Nat → Bool) : List Statement → Player D → Played D
  | [], p =>
    match file.problem with
    | some (line, problem) => ⟨p, [], .failed ⟨line, problem⟩ []⟩
    | none =>
      match flushNow cable file.lastLine p with
      | (p, some failure) => ⟨p, [], .failed failure []⟩
      | (p, none) => ⟨p, [], .succeeded⟩
  | s :: rest, p =>
    if stop p.statements then ⟨p.flushed cable, [], .stopped s.line⟩
    else
      match execute d cable deviceAttached s p with
      | (after, some failure) =>
        ⟨after.flushed cable, [⟨p, s, after, some failure⟩], .failed failure s.keyword⟩
      | (after, none) =>
        let more := playAll file stop rest { after with statements := after.statements + 1 }
        { more with turns := ⟨p, s, after, none⟩ :: more.turns }

def Player.start : Player D := ⟨[], .reset, .idle, .idle, .blank, .blank, d.zero, 0, 0, 0⟩

/-- Five clocks with TMS high, from wherever the TAP is. -/
def resetRequest : Request := .shift (List.replicate 5 true) (List.replicate 5 false) false

def play (stop : Nat → Bool) (contents : Text) : Played D :=
  let file := readText contents
  match (Player.start d).send cable resetRequest with
  | (p, none) => ⟨p, [], .failed ⟨1, .stoppedAnswering⟩ []⟩
  | (p, some _) => playAll d cable deviceAttached file stop file.statements p

/-- A play that succeeds has executed every statement of a file that could be read. -/
theorem playAll_succeeded {file : SvfFile} {stop : Nat → Bool} {statements : List Statement}
    {p : Player D}
    (won : (playAll d cable deviceAttached file stop statements p).ending = .succeeded) :
    file.problem = none ∧
      (playAll d cable deviceAttached file stop statements p).turns.map Turn.statement =
        statements ∧
      ∀ t ∈ (playAll d cable deviceAttached file stop statements p).turns, t.failure = none := by
  induction statements generalizing p with
  | nil =>
    rw [playAll] at won ⊢
    cases clean : file.problem with
    | some problem =>
      rw [clean] at won
      cases won
    | none =>
      refine ⟨rfl, ?_⟩
      cases flushNow cable file.lastLine p with
      | mk p' failure => cases failure <;> exact ⟨rfl, fun _ h => absurd h List.not_mem_nil⟩
  | cons s rest ih =>
    rw [playAll] at won ⊢
    split at won
    · cases won
    · rw [if_neg ‹_›]
      generalize execute d cable deviceAttached s p = step at won
      obtain ⟨after, _ | failure⟩ := step
      · obtain ⟨clean, all, went⟩ := ih won
        refine ⟨clean, congrArg _ all, ?_⟩
        rintro t (_ | ⟨_, later⟩)
        · rfl
        · exact went t later
      · cases won

theorem play_succeeded {stop : Nat → Bool} {contents : Text}
    (won : (play d cable deviceAttached stop contents).ending = .succeeded) :
    (readText contents).problem = none ∧
      (play d cable deviceAttached stop contents).turns.map Turn.statement =
        (readText contents).statements ∧
      ∀ t ∈ (play d cable deviceAttached stop contents).turns, t.failure = none := by
  simp only [play] at won ⊢
  cases sent : (Player.start d).send cable resetRequest with
  | mk p answer =>
    rw [sent] at won
    cases answer with
    | none => cases won
    | some received => exact playAll_succeeded d cable deviceAttached won

end Playing

end Svf
