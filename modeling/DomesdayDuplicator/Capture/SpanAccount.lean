import DomesdayDuplicator.Capture.SampleMetrics
import DomesdayDuplicator.Capture.SinkChange
import Mathlib.Logic.Function.Basic

/-!
# What the processing thread keeps count of

The metrics and the sinks of `CapturePipeline::ProcessingThread`: a buffer is tallied
before the sink is given it, a swap of the sink opens or closes the span of the metrics,
and both are read together when statistics are published. Sinks that store data are
numbered; what each has written is kept under its number.
-/

namespace SpanAccount

open SampleMetrics SequenceValidator
open SinkChange (Sink Pipeline Pass)

/-- What becomes of a buffer: the sink takes it, its counter breaks after some samples,
its ramp breaks, or the sink fails after some samples. -/
inductive Fate where
  | whole
  | broken (counted : Nat)
  | altered
  | refused (taken : Nat)
  deriving DecidableEq, Repr

/-- The samples of a buffer that are tallied. -/
def Fate.counted (values : List Nat) : Fate → List Nat
  | .broken n => values.take n
  | _ => values

/-- The samples of a buffer that the sink writes. -/
def Fate.written (values : List Nat) : Fate → List Nat
  | .whole => values
  | .refused n => values.take n
  | _ => []

/-- `CaptureStats`. With it stands which sink it was published with, what the last sink
to store data had written by then, and how often the span had been moved on. -/
structure Stats where
  samplesWritten : Nat
  writing : Bool
  metrics : Snapshot
  sink : Option (Sink Nat)
  fileSamples : Nat
  spanTurns : Nat
  deriving DecidableEq

structure Account where
  metrics : Metrics
  contents : Nat → List Nat
  /-- `samples_written_` of the null sink in place. -/
  nullSamples : Nat
  /-- A publication is due before anything else happens. -/
  due : Bool
  /-- A result is latched, and the loop left. -/
  failed : Bool
  stats : Stats
  /-- The last sink of the run to store data. -/
  spanFile : Option Nat
  spanTurns : Nat

def storing : Option (Sink Nat) → Option Nat
  | some (.attached f) => some f
  | _ => none

/-- Only a sink that stores data can refuse samples. -/
def possible (sink : Option (Sink Nat)) : Fate → Bool
  | .refused _ => (storing sink).isSome
  | _ => true

theorem storing_eq {sink : Option (Sink Nat)} {f : Nat} :
    storing sink = some f ↔ sink = some (.attached f) := by
  match sink with
  | some (.attached g) => simp [storing]
  | some .null => simp [storing]
  | none => simp [storing]

namespace Account

/-- `SamplesWritten` of a sink. -/
def samplesWritten (a : Account) : Option (Sink Nat) → Nat
  | some (.attached f) => (a.contents f).length % 2 ^ 64
  | some .null => a.nullSamples % 2 ^ 64
  | none => 0

/-- What the last sink to store data has written. -/
def fileSamples (a : Account) : Nat := a.spanFile.elim 0 fun f => (a.contents f).length

/-- `Start`, with the sink it is given. -/
def begin (sink : Option (Sink Nat)) (a : Account) : Account :=
  { a with
    metrics := {}
    nullSamples := 0
    due := false
    failed := false
    spanFile := storing sink
    spanTurns := a.spanTurns + 1 }

/-- The sink is swapped for another. -/
def change (replacement : Sink Nat) (a : Account) : Account :=
  match replacement with
  | .attached f =>
    { a with
      metrics := a.metrics.beginCaptureSpan
      spanFile := some f
      spanTurns := a.spanTurns + 1 }
  | .null => { a with metrics := a.metrics.endCaptureSpan, nullSamples := 0 }

/-- One access of `PerformPendingSinkChange`. -/
def passStep (sinks : Pipeline Nat) (a : Account) : Account :=
  match sinks.pass with
  | .swapping _ replacement => a.change replacement
  | _ => a

/-- The sink, if there is one, writes samples. -/
def write (sink : Option (Sink Nat)) (values : List Nat) (a : Account) : Account :=
  match sink with
  | some (.attached f) =>
    { a with contents := Function.update a.contents f (a.contents f ++ values) }
  | some .null => { a with nullSamples := a.nullSamples + values.length }
  | none => a

/-- A buffer of the loop. -/
def buffer (sink : Option (Sink Nat)) (values : List Nat) (fate : Fate) (a : Account) : Account :=
  { a with
    metrics := a.metrics.accumulate (tallyOf (fate.counted values))
    due := decide (fate = Fate.whole)
    failed := decide (fate ≠ Fate.whole)
    spanTurns := if a.metrics.capturing then a.spanTurns + 1 else a.spanTurns }.write sink
      (fate.written values)

/-- `PublishStats`. -/
def publish (sink : Option (Sink Nat)) (a : Account) : Account :=
  { a with
    due := false
    stats :=
      { samplesWritten := a.samplesWritten sink
        writing := (storing sink).isSome
        metrics := a.metrics.snapshot
        sink
        fileSamples := a.fileSamples
        spanTurns := a.spanTurns } }

end Account

/-- Nothing counted and nothing published. -/
def blank : Account where
  metrics := {}
  contents := fun _ => []
  nullSamples := 0
  due := false
  failed := false
  stats := ⟨0, false, Metrics.snapshot {}, none, 0, 0⟩
  spanFile := none
  spanTurns := 0

/-! ## A sink is new when it is attached -/

/-- The sink a pass has in its hand. -/
def carried : Pass Nat → Option Nat
  | .taken _ incoming => incoming
  | .swapping _ (.attached f) => some f
  | _ => none

/-- Of the `opened` sinks those from `n` on have not been in place; any on its way in is
one of them, and what is pending is newer than what a pass has in its hand. -/
structure Ordered (opened n : Nat) (sinks : Pipeline Nat) (a : Account) : Prop where
  bound : n ≤ opened
  empty : ∀ k, n ≤ k → a.contents k = []
  held : ∀ f, storing sinks.sink = some f → f < n
  pass : ∀ f, carried sinks.pass = some f → n ≤ f ∧ f < opened
  pending : ∀ f, sinks.pendingSink = some f →
    n ≤ f ∧ f < opened ∧ ∀ g, carried sinks.pass = some g → g < f

/-- A buffer of which the sink gets what was tallied. -/
def Kept (values : List Nat) (fate : Fate) : Prop :=
  fate = .whole ∨ fate = .broken 0 ∨ values = []

/-- The span is open while a sink that stores data is in place, and its tally is of what
the last such sink has written. -/
structure Balanced (sinks : Pipeline Nat) (a : Account) : Prop where
  capturing : a.metrics.capturing = (storing sinks.sink).isSome
  spanned : ∀ f, storing sinks.sink = some f → a.spanFile = some f
  capture : a.metrics.capture = added {} (a.spanFile.elim [] a.contents)

/-- The statistics say of the span what the sink said of the file. -/
def Told (a : Account) : Prop :=
  a.stats.metrics.capture.sampleCount = a.stats.fileSamples % 2 ^ 64 ∧
    (a.stats.writing = true → a.stats.metrics.capture.sampleCount = a.stats.samplesWritten)

theorem added_sampleCount (values : List Nat) :
    (added {} values).sampleCount = values.length % 2 ^ 64 := by
  rw [added]
  split
  · rename_i none
    rw [none]
    rfl
  · have counted := tallyOf_sampleCount values
    simp only [merge, narrow, plus, counted, Nat.zero_add]

theorem kept_written {values : List Nat} {fate : Fate} (kept : Kept values fate) :
    fate.counted values = fate.written values := by
  rcases kept with rfl | rfl | rfl
  · rfl
  · simp [Fate.counted, Fate.written]
  · cases fate <;> simp [Fate.counted, Fate.written]

section Steps

variable {opened n : Nat} {sinks next : Pipeline Nat} {a : Account}

/-! ## Writing -/

theorem write_same (sink : Option (Sink Nat)) (values : List Nat) (a : Account) :
    (a.write sink values).metrics = a.metrics ∧ (a.write sink values).stats = a.stats ∧
      (a.write sink values).spanFile = a.spanFile ∧
      (a.write sink values).spanTurns = a.spanTurns := by
  match sink with
  | some (.attached f) => exact ⟨rfl, rfl, rfl, rfl⟩
  | some .null => exact ⟨rfl, rfl, rfl, rfl⟩
  | none => exact ⟨rfl, rfl, rfl, rfl⟩

theorem write_contents (sink : Option (Sink Nat)) (values : List Nat) (a : Account) (k : Nat) :
    (a.write sink values).contents k =
      if storing sink = some k then a.contents k ++ values else a.contents k := by
  match sink with
  | some (.attached f) =>
    by_cases hit : f = k
    · subst hit
      simp [Account.write, storing]
    · simp [Account.write, storing, hit, Ne.symm hit]
  | some .null => simp [Account.write, storing]
  | none => simp [Account.write, storing]

theorem buffer_contents (sink : Option (Sink Nat)) (values : List Nat) (fate : Fate)
    (a : Account) (k : Nat) :
    (a.buffer sink values fate).contents k =
      if storing sink = some k then a.contents k ++ fate.written values else a.contents k :=
  write_contents sink (fate.written values) _ k

/-- No file gets shorter. -/
theorem buffer_grows (sink : Option (Sink Nat)) (values : List Nat) (fate : Fate)
    (a : Account) (k : Nat) :
    (a.contents k).length ≤ ((a.buffer sink values fate).contents k).length := by
  rw [buffer_contents]
  split
  · simp
  · exact Nat.le_refl _

theorem buffer_stats (sink : Option (Sink Nat)) (values : List Nat) (fate : Fate)
    (a : Account) : (a.buffer sink values fate).stats = a.stats :=
  (write_same sink (fate.written values) _).2.1

theorem buffer_spanFile (sink : Option (Sink Nat)) (values : List Nat) (fate : Fate)
    (a : Account) : (a.buffer sink values fate).spanFile = a.spanFile :=
  (write_same sink (fate.written values) _).2.2.1

theorem change_same (replacement : Sink Nat) (a : Account) :
    (a.change replacement).contents = a.contents ∧ (a.change replacement).stats = a.stats := by
  cases replacement with
  | null => exact ⟨rfl, rfl⟩
  | attached f => exact ⟨rfl, rfl⟩

theorem passStep_same (sinks : Pipeline Nat) (a : Account) :
    (a.passStep sinks).contents = a.contents ∧ (a.passStep sinks).stats = a.stats := by
  cases pass : sinks.pass with
  | swapping seen r =>
    simp only [Account.passStep, pass]
    exact change_same r a
  | _ => simp only [Account.passStep, pass, and_self]

theorem told_of_stats {b : Account} (h : Told a) (same : b.stats = a.stats) : Told b := by
  rw [Told, same]
  exact h

/-! ## The order of the sinks -/

theorem callerStep_counts (p : Pipeline Nat) :
    (SinkChange.callerStep p).1.sinkChangeCount = p.sinkChangeCount ∧
    (SinkChange.callerStep p).1.retiredSink = p.retiredSink := by
  cases caller : p.caller <;> simp [SinkChange.callerStep, caller]

theorem Ordered.attach (h : Ordered opened n sinks a) :
    Ordered (opened + 1) n (SinkChange.attachSink opened sinks).1 a := by
  constructor
  · exact Nat.le_succ_of_le h.bound
  · exact h.empty
  · exact h.held
  · intro f carried
    obtain ⟨low, high⟩ := h.pass f carried
    exact ⟨low, Nat.lt_succ_of_lt high⟩
  · intro f pending
    obtain rfl : opened = f := by simpa [SinkChange.attachSink] using pending
    exact ⟨h.bound, Nat.lt_succ_self _, fun g carried => (h.pass g carried).2⟩

/-- Only the pending sink, the sink in place and the pass are looked at, and the contents. -/
theorem Ordered.of_eq {b : Account} (h : Ordered opened n sinks a)
    (contents : b.contents = a.contents) (sink : next.sink = sinks.sink)
    (pass : next.pass = sinks.pass)
    (pending : next.pendingSink = sinks.pendingSink ∨ next.pendingSink = none) :
    Ordered opened n next b := by
  constructor
  · exact h.bound
  · rw [contents]
    exact h.empty
  · rw [sink]
    exact h.held
  · rw [pass]
    exact h.pass
  · rw [pass]
    intro f present
    rcases pending with same | none
    · exact h.pending f (same.symm.trans present)
    · rw [none] at present
      cases present

theorem callerStep_same (p : Pipeline Nat) : (SinkChange.callerStep p).1.sink = p.sink ∧
    (SinkChange.callerStep p).1.pass = p.pass ∧
    (SinkChange.callerStep p).1.pendingSink = p.pendingSink := by
  cases caller : p.caller <;> simp [SinkChange.callerStep, caller]

/-- What a pass has in its hand after it has taken the flag. -/
theorem carried_taken {flag : Bool} {seen : Nat} {incoming : Option Nat} {f : Nat}
    (h : carried (if incoming.isNone && flag then .idle
      else .swapping seen (SinkChange.replacement incoming)) = some f) : incoming = some f := by
  cases incoming with
  | none =>
    cases flag with
    | true => cases h
    | false => cases h
  | some g => exact h

theorem Ordered.processingStep (h : Ordered opened n sinks a) :
    ∃ m, Ordered opened m (SinkChange.processingStep sinks) (a.passStep sinks) := by
  have pass := h.pass
  have pending := h.pending
  simp only [SinkChange.processingStep, Account.passStep]
  cases place : sinks.pass with
  | idle =>
    rw [place] at pending
    exact ⟨n, h.bound, h.empty, h.held, by rintro _ ⟨⟩, pending⟩
  | loaded seen =>
    refine ⟨n, h.bound, h.empty, h.held, ?_, by rintro _ ⟨⟩⟩
    intro f hand
    exact ⟨(pending f hand).1, (pending f hand).2.1⟩
  | taken seen incoming =>
    rw [place] at pass pending
    refine ⟨n, h.bound, h.empty, h.held, ?_, ?_⟩
    · exact fun f hand => pass f (carried_taken hand)
    · intro f waiting
      obtain ⟨low, high, newer⟩ := pending f waiting
      exact ⟨low, high, fun g hand => newer g (carried_taken hand)⟩
  | swapping seen r =>
    rw [place] at pass pending
    cases r with
    | null =>
      refine ⟨n, h.bound, h.empty, by rintro _ ⟨⟩, by rintro _ ⟨⟩, ?_⟩
      exact fun f waiting => ⟨(pending f waiting).1, (pending f waiting).2.1, by rintro _ ⟨⟩⟩
    | attached g =>
      -- the sinks that have not been in place are now those after it
      obtain ⟨low, high⟩ := pass g rfl
      refine ⟨g + 1, high, ?_, ?_, by rintro _ ⟨⟩, ?_⟩
      · exact fun k above => h.empty k (by omega)
      · intro f inPlace
        obtain rfl : g = f := Option.some.inj inPlace
        exact Nat.lt_succ_self _
      · intro f waiting
        obtain ⟨-, below, newer⟩ := pending f waiting
        exact ⟨newer g rfl, below, by rintro _ ⟨⟩⟩
  | swapped seen =>
    rw [place] at pending
    exact ⟨n, h.bound, h.empty, h.held, by rintro _ ⟨⟩, pending⟩

theorem Ordered.buffer (h : Ordered opened n sinks a) (values : List Nat) (fate : Fate) :
    Ordered opened n sinks (a.buffer sinks.sink values fate) := by
  refine ⟨h.bound, ?_, h.held, h.pass, h.pending⟩
  intro k above
  rw [buffer_contents, if_neg, h.empty k above]
  intro inPlace
  exact absurd (h.held k inPlace) (by omega)

/-- A run begins with none or the null sink, or with one that is new. -/
theorem Ordered.begin (h : Ordered opened n sinks a) (next : Pipeline Nat)
    (first : next.sink = none ∨ next.sink = some .null) (clear : next.pendingSink = none) (idle : next.pass = .idle) :
    Ordered opened n next (a.begin next.sink) := by
  refine ⟨h.bound, h.empty, ?_, ?_, ?_⟩
  · rcases first with none | null
    · simp [none, storing]
    · simp [null, storing]
  · simp [idle, carried]
  · simp [clear]

/-! ## The balance -/

theorem Balanced.of_eq {b : Account} (h : Balanced sinks a) (sink : next.sink = sinks.sink)
    (metrics : b.metrics = a.metrics) (spanFile : b.spanFile = a.spanFile)
    (contents : b.contents = a.contents) : Balanced next b := by
  constructor
  · rw [sink, metrics]
    exact h.capturing
  · rw [sink, spanFile]
    exact h.spanned
  · rw [metrics, spanFile, contents]
    exact h.capture

/-- A swap begins the span of a file that is empty. -/
theorem Balanced.processingStep (h : Balanced sinks a) (ordered : Ordered opened n sinks a) :
    Balanced (SinkChange.processingStep sinks) (a.passStep sinks) := by
  simp only [SinkChange.processingStep, Account.passStep]
  cases place : sinks.pass with
  | swapping seen r =>
    cases r with
    | null => exact ⟨rfl, by rintro _ ⟨⟩, h.capture⟩
    | attached f =>
      have low : n ≤ f := (ordered.pass f (by rw [place]; rfl)).1
      refine ⟨rfl, fun g same => same, ?_⟩
      have empty : a.contents f = [] := ordered.empty f low
      simp only [Account.change, Metrics.beginCaptureSpan, Option.elim_some, empty, added, if_true]
  | _ => exact ⟨h.capturing, h.spanned, h.capture⟩

theorem Balanced.buffer (h : Balanced sinks a) {values : List Nat} {fate : Fate}
    (kept : storing sinks.sink ≠ none → Kept values fate) :
    Balanced sinks (a.buffer sinks.sink values fate) := by
  obtain ⟨-, capture, capturing⟩ := accumulate_one a.metrics (fate.counted values)
  have metrics : (a.buffer sinks.sink values fate).metrics =
      a.metrics.accumulate (tallyOf (fate.counted values)) := (write_same _ _ _).1
  have spanFile := buffer_spanFile sinks.sink values fate a
  constructor
  · rw [metrics, capturing, h.capturing]
  · rw [spanFile]
    exact h.spanned
  · rw [metrics, capture, spanFile, h.capturing, h.capture]
    cases place : storing sinks.sink with
    | none =>
      rw [if_neg (by simp)]
      cases a.spanFile with
      | none => rfl
      | some f => rw [Option.elim_some, Option.elim_some, buffer_contents, place, if_neg (by simp)]
    | some f =>
      rw [Option.isSome_some, if_pos rfl, h.spanned f place, Option.elim_some, Option.elim_some,
        buffer_contents, if_pos place, added_append, kept_written (kept (by simp [place]))]

theorem Balanced.begin (sinks : Pipeline Nat)
    (first : sinks.sink = none ∨ sinks.sink = some .null) (a : Account) :
    Balanced sinks (a.begin sinks.sink) := by
  rcases first with none | null
  · rw [none]
    exact ⟨by rw [none]; rfl, by simp [none, storing], by simp [Account.begin, storing, added]⟩
  · rw [null]
    exact ⟨by rw [null]; rfl, by simp [null, storing], by simp [Account.begin, storing, added]⟩

/-- The statistics that are published tell what was written. -/
theorem Balanced.publish (h : Balanced sinks a) : Told (a.publish sinks.sink) := by
  have count : a.metrics.capture.sampleCount = a.fileSamples % 2 ^ 64 := by
    rw [h.capture, added_sampleCount, Account.fileSamples]
    cases a.spanFile with
    | none => rfl
    | some f => rfl
  refine ⟨count, fun writing => ?_⟩
  have stored : (storing sinks.sink).isSome = true := writing
  obtain ⟨f, place⟩ := Option.isSome_iff_exists.mp stored
  have sink : sinks.sink = some (.attached f) := storing_eq.mp place
  have told : (a.publish sinks.sink).stats.samplesWritten = (a.contents f).length % 2 ^ 64 := by
    rw [sink]
    rfl
  rw [told]
  refine count.trans ?_
  rw [Account.fileSamples, h.spanned f place, Option.elim_some]

end Steps

end SpanAccount
