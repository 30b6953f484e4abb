import DomesdayDuplicator.Capture.SinkChange

/-!
# The capture controller and its files

`CaptureController` on the GUI thread, over the pipeline whose sink it changes: a
file is opened and attached, detached again while the stream goes on, and finished
when the detach has been collected or when the run has ended. Files are numbered in
the order they are opened; what a sink has taken is counted with its file. A tick
that finds the duration limit reached is a `StopCapture` followed by the tick.
-/

namespace CaptureController

open SinkChange (Sink Pipeline Pass Caller)

universe u

variable {μ : Type u}

structure Path where
  directory : String
  fileName : String
  deriving DecidableEq, Repr

/-- `pending_metadata_`: the name, which a rename changes, and what else is settled
when the file is opened. -/
structure Metadata (μ : Type u) where
  captureFileName : String
  setup : μ
  deriving DecidableEq, Repr

/-- The metadata of a file that was renamed, where it was. -/
def Metadata.named (renamed : Option Path) (metadata : Metadata μ) : Metadata μ :=
  { metadata with
    captureFileName := (renamed.map Path.fileName).getD metadata.captureFileName }

/-- A capture file, with what its sink has been given and has put into it. -/
structure CaptureFile (μ : Type u) where
  path : Path
  metadata : Metadata μ
  samples : Nat
  bytes : Nat
  deriving DecidableEq, Repr

/-- What `FinishCaptureFile` puts on record: the file it took up, the sidecar it wrote. -/
structure Finished (μ : Type u) where
  path : Path
  metadata : Metadata μ
  renamed : Option Path
  samples : Nat
  bytes : Nat
  deriving DecidableEq, Repr

/-- Where the GUI thread is: inside a call of `AttachSink` or `DetachSink`, or in one
of the parts of `Tick`. -/
inductive Gui where
  | ready
  | starting
  | stopping
  | collecting
  | taking
  | checking
  deriving DecidableEq, Repr

structure Desk (μ : Type u) where
  monitoring : Bool
  capturing : Bool
  pendingSinkChange : Nat
  capturePath : Path
  pendingMetadata : Metadata μ
  gui : Gui
  running : Bool
  /-- The processing thread is in its loop. -/
  processing : Bool
  sinks : Pipeline Nat
  /-- Samples counted by the null sink in place, and by one that was retired. -/
  nullSamples : Nat
  retiredNullSamples : Nat
  publishedBytes : Nat
  publishedSamples : Nat
  files : List (CaptureFile μ)
  finished : List (Finished μ)

inductive Action (μ : Type u) where
  -- the GUI thread
  | startMonitoring (works : Bool)
  | startCapture (works : Bool) (file : Option (Path × μ))
  | stopCapture
  | stopMonitoring
  | tick
  | guiStep (renamed : Option Path)
  -- the pipeline
  | processingStep (flushed : Nat)
  | write (samples bytes : Nat)
  | leave
  | close (flushed : Nat)

def start (metadata : Metadata μ) : Desk μ where
  monitoring := false
  capturing := false
  pendingSinkChange := 0
  capturePath := ⟨"", ""⟩
  pendingMetadata := metadata
  gui := .ready
  running := false
  processing := false
  sinks := SinkChange.start none
  nullSamples := 0
  retiredNullSamples := 0
  publishedBytes := 0
  publishedSamples := 0
  files := []
  finished := []

namespace Desk

/-! ## What a sink reports -/

def bytesWritten (d : Desk μ) : Option (Sink Nat) → Nat
  | some (.attached f) => (d.files[f]?).elim 0 CaptureFile.bytes
  | _ => 0

/-- `SamplesWritten`, a null sink having counted `null`. -/
def samplesWritten (d : Desk μ) (null : Nat) : Option (Sink Nat) → Nat
  | some (.attached f) => (d.files[f]?).elim 0 CaptureFile.samples
  | some .null => null
  | none => 0

/-- A sink takes samples or is finished, and its file grows. -/
def grow (sink : Option (Sink Nat)) (samples bytes : Nat) (d : Desk μ) : Desk μ :=
  match sink with
  | some (.attached f) =>
    { d with
      files := d.files.modify f fun file =>
        { file with samples := file.samples + samples, bytes := file.bytes + bytes } }
  | _ => d

/-! ## The GUI thread -/

/-- `Start` forgets what a previous run left, its retired sink apart. -/
def startMonitoring (works : Bool) (d : Desk μ) : Desk μ :=
  if d.monitoring ∨ d.running ∨ ¬ works then d
  else
    { d with
      sinks := { SinkChange.start (some .null) with retiredSink := d.sinks.retiredSink }
      nullSamples := 0
      running := true
      processing := true
      monitoring := true }

/-- `OpenCaptureFile` with the path it settled on, if it could open it. -/
def openCaptureFile (path : Path) (setup : μ) (d : Desk μ) : Desk μ :=
  let metadata := { captureFileName := path.fileName, setup }
  { d with
    capturePath := path
    pendingMetadata := metadata
    files := d.files ++ [{ path, metadata, samples := 0, bytes := 0 }] }

def startCapture (works : Bool) (file : Option (Path × μ)) (d : Desk μ) : Desk μ :=
  if d.capturing then d
  else
    let d := d.startMonitoring works
    if d.monitoring then
      match file with
      | none => d
      | some (path, setup) =>
        { d.openCaptureFile path setup with
          sinks := (SinkChange.attachSink d.files.length d.sinks).1
          gui := .starting }
    else d

def stopCapture (d : Desk μ) : Desk μ :=
  if d.capturing then
    { d with sinks := (SinkChange.detachSink d.sinks).1, gui := .stopping }
  else d

/-- `FinishCaptureFile`; `renamed` is the name with the duration, where the naming
asks for it and the rename works. -/
def finishCaptureFile (renamed : Option Path) (bytes samples : Nat) (d : Desk μ) : Desk μ :=
  let metadata := d.pendingMetadata.named renamed
  { d with
    capturePath := renamed.getD d.capturePath
    pendingMetadata := metadata
    finished := d.finished ++ [⟨d.capturePath, metadata, renamed, samples, bytes⟩] }

def finishRun (renamed : Option Path) (d : Desk μ) : Desk μ :=
  let wasCapturing := d.capturing
  let d := { d with monitoring := false, capturing := false, pendingSinkChange := 0 }
  if wasCapturing then d.finishCaptureFile renamed d.publishedBytes d.publishedSamples else d

/-- The next part of the call the GUI thread is in. -/
def guiStep (renamed : Option Path) (d : Desk μ) : Desk μ :=
  match d.gui with
  | .ready => d
  | .starting =>
    let sinks := (SinkChange.callerStep d.sinks).1
    if sinks.caller = .idle then { d with sinks, capturing := true, gui := .ready }
    else { d with sinks }
  | .stopping =>
    match SinkChange.callerStep d.sinks with
    | (sinks, .numbered request) =>
      { d with sinks, pendingSinkChange := request, capturing := false, gui := .ready }
    | (sinks, _) => { d with sinks }
  | .collecting =>
    if d.pendingSinkChange = 0 ∨ d.sinks.sinkChangeCount < d.pendingSinkChange then
      { d with gui := .checking }
    else { d with pendingSinkChange := 0, gui := .taking }
  | .taking =>
    { d with sinks := { d.sinks with retiredSink := none }, gui := .checking }.finishCaptureFile
      renamed (d.bytesWritten d.sinks.retiredSink)
      (d.samplesWritten d.retiredNullSamples d.sinks.retiredSink)
  | .checking =>
    let d := { d with gui := .ready }
    if d.monitoring ∧ ¬ d.running then d.finishRun renamed else d

/-! ## The pipeline -/

/-- The swap of a pass finishes the outgoing sink and begins a new one. -/
def swap (replacement : Sink Nat) (flushed : Nat) (d : Desk μ) : Desk μ :=
  let d := d.grow d.sinks.sink 0 flushed
  { d with
    retiredNullSamples :=
      if d.sinks.sink = some .null then d.nullSamples else d.retiredNullSamples
    nullSamples := if replacement = .null then 0 else d.nullSamples }

def processingStep (flushed : Nat) (d : Desk μ) : Desk μ :=
  let next := SinkChange.processingStep d.sinks
  match d.sinks.pass with
  | .swapping _ replacement => { d.swap replacement flushed with sinks := next }
  | _ => { d with sinks := next }

/-- `Write` of a buffer, between two passes. -/
def write (samples bytes : Nat) (d : Desk μ) : Desk μ :=
  { d.grow d.sinks.sink samples bytes with
    nullSamples :=
      if d.sinks.sink = some .null then d.nullSamples + samples else d.nullSamples }

/-- The control thread finishes the sink, publishes the statistics and ends the run. -/
def close (flushed : Nat) (d : Desk μ) : Desk μ :=
  let d := d.grow d.sinks.sink 0 flushed
  { d with
    publishedBytes := d.bytesWritten d.sinks.sink
    publishedSamples := d.samplesWritten d.nullSamples d.sinks.sink
    running := false }

def step (d : Desk μ) : Action μ → Desk μ
  | .startMonitoring works => if d.gui = .ready then d.startMonitoring works else d
  | .startCapture works file => if d.gui = .ready then d.startCapture works file else d
  | .stopCapture => if d.gui = .ready then d.stopCapture else d
  -- a request to stop only lets the processing thread leave, which it may always do
  | .stopMonitoring => d
  | .tick => if d.gui = .ready then { d with gui := .collecting } else d
  | .guiStep renamed => d.guiStep renamed
  | .processingStep flushed =>
    if d.running ∧ d.processing then d.processingStep flushed else d
  | .write samples bytes =>
    if d.running ∧ d.processing ∧ d.sinks.pass = .idle then d.write samples bytes else d
  | .leave => if d.sinks.pass = .idle then { d with processing := false } else d
  | .close flushed => if d.running ∧ ¬ d.processing then d.close flushed else d

end Desk

def machine : Execution.Machine (Desk μ) (Action μ) Unit := ⟨fun d a => (d.step a, ())⟩

end CaptureController
