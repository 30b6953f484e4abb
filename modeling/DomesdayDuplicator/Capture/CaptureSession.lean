import DomesdayDuplicator.Capture.CaptureFiles
import DomesdayDuplicator.Capture.SpanAccount

/-!
# The controller's tick and the statistics it reads

`CaptureController` with the account of the processing thread beside it. A tick copies
the published statistics once; the limit on the duration and the figures of the sidecar
are taken from that copy, however late they come to it.
-/

namespace CaptureSession

open CaptureController SpanAccount
open SampleMetrics (Figures)
open SinkChange (Sink)

universe u

variable {μ : Type u}

/-- `kSampleRateHz`. -/
def sampleRateHz : Nat := 40000000

/-- The samples in a file after so many seconds. -/
def limitSamples (seconds : Int) (decimationFactor : Nat) : Nat :=
  seconds.toNat * sampleRateHz / decimationFactor

/-- Where `Tick` is, with its copy of the statistics. -/
inductive Tick where
  | out
  | read (stats : Stats)
  | checked (stats : Stats)
  | collecting (stats : Stats)

def Tick.stats : Tick → Option Stats
  | .out => none
  | .read stats | .checked stats | .collecting stats => some stats

/-- A capture that its limit has stopped: the limit, and what its own sink had written. -/
structure Stop where
  file : Nat
  limit : Nat
  given : Nat
  deriving DecidableEq, Repr

/-- `metadata.signal` of a sidecar. -/
structure Signal where
  known : Bool
  minimumValue : Nat
  maximumValue : Nat
  rms : Nat × Nat
  clippedLowSamples : Nat
  clippedHighSamples : Nat
  deriving DecidableEq, Repr

def signal (figures : Figures) : Signal where
  known := 0 < figures.sampleCount
  minimumValue := figures.minimumValue
  maximumValue := figures.maximumValue
  rms := figures.rms
  clippedLowSamples := figures.clippedLowCount
  clippedHighSamples := figures.clippedHighCount

structure Session (μ : Type u) where
  desk : Desk μ
  account : Account
  tick : Tick
  stops : List Stop
  /-- What the sidecars said of the signal, in the order the files were finished. -/
  sidecars : List Signal

inductive Action (μ : Type u) where
  -- the GUI thread
  | startMonitoring (works : Bool)
  | startCapture (works : Bool) (file : Option (Path × μ))
  | stopCapture
  | stopMonitoring
  | readStats
  | checkDurationLimit (seconds : Int) (decimationFactor : Nat)
  | collectFinishedCapture
  | guiStep (renamed : Option Path)
  -- the pipeline
  | processingStep (flushed : Nat)
  | buffer (values : List Nat) (fate : Fate) (bytes : Nat)
  | publish
  | leave
  | close (flushed : Nat)

namespace Session

/-- Outside of `Tick` and of any other call. -/
def idle (s : Session μ) : Prop := s.tick.stats = none ∧ s.desk.gui = .ready

instance (s : Session μ) : Decidable s.idle := inferInstanceAs (Decidable (_ ∧ _))

/-- The processing thread may go on to the next thing. -/
def ready (s : Session μ) : Bool :=
  s.desk.running && s.desk.processing && !s.account.due && !s.account.failed

/-- The account of a pipeline that `StartMonitoring` starts, if it does. -/
def started (works : Bool) (s : Session μ) : Account :=
  if s.desk.monitoring ∨ s.desk.running ∨ ¬ works then s.account
  else s.account.begin (some .null)

/-- `CheckDurationLimit` stops the capture. -/
def reached (seconds : Int) (decimationFactor : Nat) (stats : Stats) (s : Session μ) : Prop :=
  s.desk.capturing ∧ 0 < seconds ∧ limitSamples seconds decimationFactor ≤ stats.samplesWritten

instance (seconds : Int) (factor : Nat) (stats : Stats) (s : Session μ) :
    Decidable (s.reached seconds factor stats) := inferInstanceAs (Decidable (_ ∧ _))

def checkDurationLimit (seconds : Int) (decimationFactor : Nat) (s : Session μ) : Session μ :=
  match s.tick with
  | .read stats =>
    if s.reached seconds decimationFactor stats then
      let file := s.desk.files.length - 1
      { s with
        desk := s.desk.step .stopCapture
        tick := .checked stats
        stops := s.stops ++ [⟨file, limitSamples seconds decimationFactor,
          (s.account.contents file).length⟩] }
    else { s with tick := .checked stats }
  | _ => s

/-- The figures of a file that the next part of the GUI thread's call finishes. -/
def finishing (s : Session μ) : List Signal :=
  match s.desk.gui, s.tick.stats with
  | .taking, some stats => [signal stats.metrics.capture]
  | .checking, _ =>
    if s.desk.monitoring ∧ ¬ s.desk.running ∧ s.desk.capturing then
      [signal s.account.stats.metrics.capture]
    else []
  | _, _ => []

def guiStep (renamed : Option Path) (s : Session μ) : Session μ :=
  { s with
    desk := s.desk.step (.guiStep renamed)
    tick := if s.desk.gui = .checking then .out else s.tick
    sidecars := s.sidecars ++ s.finishing }

def step (s : Session μ) : Action μ → Session μ
  | .startMonitoring works =>
    if s.idle then
      { s with desk := s.desk.step (.startMonitoring works), account := s.started works }
    else s
  | .startCapture works file =>
    if s.idle then
      { s with
        desk := s.desk.step (.startCapture works file)
        account := if s.desk.capturing then s.account else s.started works }
    else s
  | .stopCapture => if s.idle then { s with desk := s.desk.step .stopCapture } else s
  -- a request to stop only lets the processing thread leave, which it may always do
  | .stopMonitoring => s
  | .readStats => if s.idle then { s with tick := .read s.account.stats } else s
  | .checkDurationLimit seconds factor =>
    if s.desk.gui = .ready then s.checkDurationLimit seconds factor else s
  | .collectFinishedCapture =>
    match s.tick with
    | .checked stats =>
      if s.desk.gui = .ready then { s with desk := s.desk.step .tick, tick := .collecting stats }
      else s
    | _ => s
  | .guiStep renamed => s.guiStep renamed
  | .processingStep flushed =>
    if s.ready then
      { s with
        desk := s.desk.step (.processingStep flushed)
        account := s.account.passStep s.desk.sinks }
    else s
  | .buffer values fate bytes =>
    if s.ready ∧ s.desk.sinks.pass = .idle ∧ possible s.desk.sinks.sink fate then
      { s with
        desk := s.desk.step (.write (fate.written values).length bytes)
        account := s.account.buffer s.desk.sinks.sink values fate }
    else s
  | .publish =>
    if s.desk.running ∧ s.account.due then
      { s with account := s.account.publish s.desk.sinks.sink }
    else s
  | .leave =>
    if s.desk.running ∧ s.desk.processing ∧ s.account.due = false ∧ s.desk.sinks.pass = .idle then
      { s with desk := s.desk.step .leave, account := { s.account with due := true } }
    else s
  | .close flushed =>
    if s.desk.running ∧ s.desk.processing = false ∧ s.account.due = false then
      { s with
        desk := s.desk.step (.close flushed)
        account := s.account.publish s.desk.sinks.sink }
    else s

end Session

/-- The controller before anything is asked of it. -/
def opening (metadata : Metadata μ) : Session μ :=
  ⟨CaptureController.start metadata, blank, .out, [], []⟩

def machine : Execution.Machine (Session μ) (Action μ) Unit := ⟨fun s a => (s.step a, ())⟩

/-! ## What a step of the pipeline leaves of the desk -/

structure Apart (d e : Desk μ) : Prop where
  gui : e.gui = d.gui
  capturing : e.capturing = d.capturing
  monitoring : e.monitoring = d.monitoring
  running : e.running = d.running
  processing : e.processing = d.processing
  files : e.files.length = d.files.length
  finished : e.finished = d.finished

theorem grow_apart (sink : Option (Sink Nat)) (samples bytes : Nat) (d : Desk μ) :
    Apart d (d.grow sink samples bytes) := by
  match sink with
  | some (.attached f) => exact ⟨rfl, rfl, rfl, rfl, rfl, by simp [Desk.grow], rfl⟩
  | some .null => exact ⟨rfl, rfl, rfl, rfl, rfl, rfl, rfl⟩
  | none => exact ⟨rfl, rfl, rfl, rfl, rfl, rfl, rfl⟩

theorem write_apart (samples bytes : Nat) (d : Desk μ) :
    Apart d (d.write samples bytes) ∧ (d.write samples bytes).sinks = d.sinks := by
  obtain ⟨gui, capturing, monitoring, running, processing, files, finished⟩ :=
    grow_apart d.sinks.sink samples bytes d
  exact ⟨⟨gui, capturing, monitoring, running, processing, files, finished⟩,
    CaptureFiles.grow_sinks d.sinks.sink samples bytes d⟩

theorem processingStep_apart (flushed : Nat) (d : Desk μ) :
    Apart d (d.processingStep flushed) ∧
      (d.processingStep flushed).sinks = SinkChange.processingStep d.sinks := by
  obtain ⟨gui, capturing, monitoring, running, processing, files, finished⟩ :=
    grow_apart d.sinks.sink 0 flushed d
  cases pass : d.sinks.pass with
  | swapping seen r =>
    simp only [Desk.processingStep, pass, and_true]
    exact ⟨gui, capturing, monitoring, running, processing, files, finished⟩
  | _ =>
    simp only [Desk.processingStep, pass, and_true]
    exact ⟨rfl, rfl, rfl, rfl, rfl, rfl, rfl⟩

end CaptureSession
