import DomesdayDuplicator.Capture.CaptureController

/-!
# Stopping a capture over the control socket

`ddd-gui/src/gui/capture_control_server.cpp`, on the GUI thread beside the controller: a
client's bytes are put together to lines, a stop request is connected to the next
`CaptureFinished` of the controller and stops the capture, and that signal answers every
request that is connected to it. Reading a request's verb out of its JSON is left to a
parameter.
-/

namespace ControlServer

open CaptureController

universe u

variable {μ : Type u}

/-- A request that was taken up, with the file that was captured to at the time. -/
structure StopRequest where
  number : Nat
  client : Nat
  file : Nat
  deriving DecidableEq, Repr

/-- `stopped` also says which entry of the controller's record was announced. -/
inductive Reply where
  | stopped (request : StopRequest) (filePath : Path) (bytes : Nat) (record : Nat)
  | error (client : Nat) (message : String)
  deriving DecidableEq, Repr

/-- `partial_` is what each connected client has sent of a line; requests are `dropped` with
their client. -/
structure Server (μ : Type u) where
  desk : Desk μ
  partials : List (Nat × List Char)
  accepted : Nat
  waiting : List StopRequest
  dropped : List StopRequest
  replies : List Reply

inductive Action (μ : Type u) where
  | newConnection (client : Nat)
  | readyRead (client : Nat) (text : List Char)
  | nextLine (client : Nat)
  | disconnected (client : Nat)
  -- the controller, its user and the pipeline
  | controller (action : CaptureController.Action μ)

def kStopVerb : String := "stop"
def kMaximumRequestBytes : Nat := 4096

def start (metadata : Metadata μ) : Server μ := ⟨CaptureController.start metadata, [], 0, [], [], []⟩

namespace Server

def connected (client : Nat) (s : Server μ) : Bool := (s.partials.lookup client).isSome

def reply (client : Nat) (line : Reply) (s : Server μ) : Server μ :=
  if s.connected client then { s with replies := s.replies ++ [line] } else s

/-- A socket that closes takes its connections with it. -/
def forget (client : Nat) (s : Server μ) : Server μ :=
  { s with
    partials := s.partials.filter (·.1 ≠ client)
    waiting := s.waiting.filter (·.client ≠ client)
    dropped := s.dropped ++ s.waiting.filter (·.client = client) }

def handleStop (client : Nat) (s : Server μ) : Server μ :=
  if ¬ s.desk.capturing then s.reply client (.error client "No capture is running.")
  else
    { s with
      accepted := s.accepted + 1
      waiting := s.waiting ++ [⟨s.accepted, client, s.desk.files.length - 1⟩]
      desk := s.desk.step .stopCapture }

def handleRequest (verb : List Char → Option String) (client : Nat) (line : List Char)
    (s : Server μ) : Server μ :=
  match verb line with
  | none => s.reply client (.error client "That is not a request.")
  | some verb =>
    if verb = kStopVerb then s.handleStop client
    else s.reply client (.error client ("Unknown request '" ++ verb ++ "'."))

/-- One turn of the loop over a client's lines, or what comes after it. -/
def nextLine (verb : List Char → Option String) (client : Nat) (s : Server μ) : Server μ :=
  match s.partials.lookup client with
  | none => s
  | some buffered =>
    if '\n' ∈ buffered then
      handleRequest verb client (buffered.takeWhile (· ≠ '\n'))
        { s with
          partials := s.partials.map fun p =>
            if p.1 = client then (client, (buffered.dropWhile (· ≠ '\n')).drop 1) else p }
    else if kMaximumRequestBytes < buffered.length then
      (s.reply client (.error client "That is not a request.")).forget client
    else s

/-- `CaptureFinished` reaches every request that waits for it, once. -/
def captureFinished (filePath : Path) (bytes record : Nat) (s : Server μ) : Server μ :=
  { s with
    waiting := []
    replies := s.replies ++
      (s.waiting.filter fun r => s.connected r.client).map fun r =>
        .stopped r filePath bytes record }

/-- A step of the controller; `FinishCaptureFile` ends with the signal. -/
def controller (a : CaptureController.Action μ) (s : Server μ) : Server μ :=
  let desk := s.desk.step a
  match desk.finished[s.desk.finished.length]? with
  | none => { s with desk }
  | some record =>
    { s with desk }.captureFinished desk.capturePath record.bytes s.desk.finished.length

/-- The sockets are served between two calls of the GUI thread. -/
def step (verb : List Char → Option String) (s : Server μ) : Action μ → Server μ
  | .controller a => s.controller a
  | .newConnection client =>
    if s.desk.gui = .ready ∧ ¬ s.connected client then
      { s with partials := s.partials ++ [(client, [])] }
    else s
  | .readyRead client text =>
    if s.desk.gui = .ready then
      { s with
        partials := s.partials.map fun p => if p.1 = client then (client, p.2 ++ text) else p }
    else s
  | .nextLine client => if s.desk.gui = .ready then s.nextLine verb client else s
  | .disconnected client => if s.desk.gui = .ready then s.forget client else s

end Server

def machine (verb : List Char → Option String) : Execution.Machine (Server μ) (Action μ) Unit :=
  ⟨fun s a => (s.step verb a, ())⟩

end ControlServer
