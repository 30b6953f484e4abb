import DomesdayDuplicator.Capture.CaptureBookkeeping

/-!
# Every capture file is finished once

The controller keeps the path and the metadata of one file, and one number for the
detach it waits for. As long as no step needs a second set of them, every file is
finished once, as what it was opened as and with what its sink was given.
-/

namespace CaptureFiles

open Execution CaptureController CaptureBookkeeping
open SinkChange (Sink Pipeline Pass Caller)

universe u

variable {μ : Type u}

/-- The record is of this file: as it was opened, and with all its sink was given. -/
def OfFile (record : Finished μ) (file : CaptureFile μ) : Prop :=
  record.path = file.path ∧ record.metadata = file.metadata.named record.renamed ∧
    record.samples = file.samples ∧ record.bytes = file.bytes

/-- The files are finished in the order they were opened, each as what it is. -/
def Recorded (d : Desk μ) : Prop :=
  ∀ (k : Nat) (record : Finished μ), d.finished[k]? = some record →
    ∃ file, d.files[k]? = some file ∧ OfFile record file

/-- A step that neither needs the books of a second file nor reads a sink that is not
the file's. -/
def Careful (d : Desk μ) : Action μ → Prop
  | .startCapture _ (some _) => d.gui = .ready → d.capturing = false → d.pendingSinkChange = 0
  | .stopCapture => d.gui = .ready → d.capturing = true → d.sinks.pendingSink = none
  | .guiStep _ => d.gui = .checking → d.monitoring = true → d.running = false →
      d.pendingSinkChange = 0 ∧ (d.capturing = true → ∃ f, d.sinks.sink = some (.attached f))
  | .processingStep _ => Prompt d.sinks
  | _ => True

/-! ## Where the one file is -/

/-- Between two calls, or in a part of a tick that leaves the files alone. -/
def AtRest (gui : Gui) : Prop := gui = .ready ∨ gui = .collecting ∨ gui = .checking

/-- File `f` is open, all before it are finished, and the books are its own. -/
structure Open (f : Nat) (d : Desk μ) : Prop where
  monitoring : d.monitoring = true
  opened : d.files.length = f + 1
  finished : d.finished.length = f
  current : ∃ file : CaptureFile μ, d.files[f]? = some file ∧ d.capturePath = file.path ∧
    d.pendingMetadata = file.metadata

inductive Stage (d : Desk μ) : Prop
  | idle (gui : AtRest d.gui) (capturing : d.capturing = false)
      (pending : d.pendingSinkChange = 0) (finished : d.finished.length = d.files.length)
      (clear : d.monitoring = true → Clear d.sinks ∧ d.sinks.caller = .idle)
  | starting (f : Nat) (opened : Open f d) (gui : d.gui = .starting)
      (capturing : d.capturing = false) (pending : d.pendingSinkChange = 0)
      (caller : d.sinks.caller = .attaching ∨ d.sinks.caller = .attached)
      (held : Held f d.sinks) (flag : d.sinks.pendingDetach = false)
  | recording (f : Nat) (opened : Open f d) (gui : AtRest d.gui)
      (capturing : d.capturing = true) (pending : d.pendingSinkChange = 0)
      (caller : d.sinks.caller = .idle)
      (held : Held f d.sinks) (flag : d.sinks.pendingDetach = false)
  | stopping (f : Nat) (opened : Open f d) (gui : d.gui = .stopping)
      (pending : d.pendingSinkChange = 0)
      (held : Held f d.sinks) (none : d.sinks.pendingSink = none)
      (call : d.sinks.caller = .detaching ∧ d.sinks.pendingDetach = false ∨
        d.sinks.caller = .detached ∧ d.sinks.pendingDetach = true)
  | stopped (f : Nat) (opened : Open f d) (gui : AtRest d.gui)
      (capturing : d.capturing = false) (pending : d.pendingSinkChange ≠ 0)
      (numbered : d.pendingSinkChange = d.sinks.sinkChangeRequests)
      (caller : d.sinks.caller = .idle) (detached : Detached f d.pendingSinkChange d.sinks)
  | taking (f : Nat) (opened : Open f d) (gui : d.gui = .taking)
      (capturing : d.capturing = false) (pending : d.pendingSinkChange = 0)
      (caller : d.sinks.caller = .idle) (clear : Clear d.sinks)
      (retired : d.sinks.retiredSink = some (.attached f))

structure Book (d : Desk μ) : Prop where
  recorded : Recorded d
  bounded : Bounded d.sinks
  alive : d.running = true → d.monitoring = true
  published : d.running = false → ∀ (f : Nat) (file : CaptureFile μ), d.sinks.sink = some (.attached f) →
    d.files[f]? = some file → d.publishedBytes = file.bytes ∧ d.publishedSamples = file.samples
  stage : Stage d

theorem book_start (metadata : Metadata μ) : Book (start metadata) := by
  constructor
  · intro k record finished
    simp [start] at finished
  · exact ⟨Nat.le_refl 0, trivial⟩
  · simp [start]
  · simp [start, SinkChange.start]
  · exact .idle (Or.inl rfl) rfl rfl rfl (by simp [start])

/-! ## Steps that leave the books alone -/

/-- The books are untouched; of a file only what its sink was given may change. -/
structure Unmoved (d e : Desk μ) : Prop where
  monitoring : e.monitoring = d.monitoring
  capturing : e.capturing = d.capturing
  pending : e.pendingSinkChange = d.pendingSinkChange
  path : e.capturePath = d.capturePath
  metadata : e.pendingMetadata = d.pendingMetadata
  gui : e.gui = d.gui
  finished : e.finished = d.finished
  opened : e.files.length = d.files.length
  same : ∀ (k : Nat) (file : CaptureFile μ), d.files[k]? = some file →
    ∃ grown : CaptureFile μ, e.files[k]? = some grown ∧
    grown.path = file.path ∧ grown.metadata = file.metadata

section Moves

variable {d e : Desk μ}

theorem Unmoved.of_files (files : e.files = d.files) (monitoring : e.monitoring = d.monitoring)
    (capturing : e.capturing = d.capturing)
    (pending : e.pendingSinkChange = d.pendingSinkChange) (path : e.capturePath = d.capturePath)
    (metadata : e.pendingMetadata = d.pendingMetadata) (gui : e.gui = d.gui)
    (finished : e.finished = d.finished) : Unmoved d e := by
  refine ⟨monitoring, capturing, pending, path, metadata, gui, finished, by rw [files], ?_⟩
  intro k file present
  exact ⟨file, files ▸ present, rfl, rfl⟩

theorem Open.moved {f : Nat} (h : Open f d) (moved : Unmoved d e) : Open f e := by
  obtain ⟨file, present, path, metadata⟩ := h.current
  obtain ⟨grown, present', path', metadata'⟩ := moved.same f file present
  refine ⟨moved.monitoring.trans h.monitoring, moved.opened.trans h.opened,
    by rw [moved.finished, h.finished], grown, present', ?_, ?_⟩
  · rw [moved.path, path, path']
  · rw [moved.metadata, metadata, metadata']

theorem Stage.moved (h : Stage d) (moved : Unmoved d e) (carried : Carried d.sinks e.sinks) :
    Stage e := by
  cases h with
  | idle gui capturing pending finished clear =>
    refine .idle (moved.gui ▸ gui) (moved.capturing.trans capturing)
      (moved.pending.trans pending) (by rw [moved.finished, moved.opened, finished]) ?_
    intro on
    obtain ⟨clear, caller⟩ := clear (moved.monitoring.symm.trans on)
    exact ⟨(carried.clear clear).1, carried.caller.trans caller⟩
  | starting f opened gui capturing pending caller held flag =>
    obtain ⟨held', flag', -⟩ := carried.held f held (by simp [flag])
    exact .starting f (opened.moved moved) (moved.gui.trans gui)
      (moved.capturing.trans capturing) (moved.pending.trans pending)
      (carried.caller ▸ caller) held' (flag'.trans flag)
  | recording f opened gui capturing pending caller held flag =>
    obtain ⟨held', flag', -⟩ := carried.held f held (by simp [flag])
    exact .recording f (opened.moved moved) (moved.gui ▸ gui)
      (moved.capturing.trans capturing) (moved.pending.trans pending)
      (carried.caller.trans caller) held' (flag'.trans flag)
  | stopping f opened gui pending held none call =>
    have flagged : d.sinks.pendingDetach = true → d.sinks.caller = .detached := by
      intro up
      rcases call with ⟨-, low⟩ | ⟨detached, -⟩
      · simp [low] at up
      · exact detached
    obtain ⟨held', flag', none'⟩ := carried.held f held flagged
    exact .stopping f (opened.moved moved) (moved.gui.trans gui)
      (moved.pending.trans pending) held' (none' none)
      (by rw [carried.caller, flag']; exact call)
  | stopped f opened gui capturing pending numbered caller detached =>
    refine .stopped f (opened.moved moved) (moved.gui ▸ gui) (moved.capturing.trans capturing)
      (by rw [moved.pending]; exact pending) (by rw [moved.pending, carried.requests, numbered])
      (carried.caller.trans caller) ?_
    rw [moved.pending]
    exact carried.detached f _ detached caller numbered
  | taking f opened gui capturing pending caller clear retired =>
    exact .taking f (opened.moved moved) (moved.gui.trans gui) (moved.capturing.trans capturing)
      (moved.pending.trans pending) (carried.caller.trans caller) (carried.clear clear).1
      ((carried.clear clear).2.trans retired)

/-- A tick goes on, with the files left alone. -/
theorem Stage.turn (h : Stage d) (before : AtRest d.gui) {gui : Gui} (after : AtRest gui) :
    Stage { d with gui } := by
  cases h with
  | idle _ capturing pending finished clear => exact .idle after capturing pending finished clear
  | starting _ _ gui => simp [AtRest, gui] at before
  | recording f opened _ capturing pending caller held flag =>
    exact .recording f ⟨opened.monitoring, opened.opened, opened.finished, opened.current⟩ after
      capturing pending caller held flag
  | stopping _ _ gui => simp [AtRest, gui] at before
  | stopped f opened _ capturing pending numbered caller detached =>
    exact .stopped f ⟨opened.monitoring, opened.opened, opened.finished, opened.current⟩ after
      capturing pending numbered caller detached
  | taking _ _ gui => simp [AtRest, gui] at before

/-- While the stream runs only the file that is not finished can be attached. -/
theorem Stage.attached (h : Stage d) (on : d.monitoring = true) {f : Nat}
    (sink : d.sinks.sink = some (.attached f)) : f = d.finished.length := by
  cases h with
  | idle _ _ _ _ clear => simp [(clear on).1.sink] at sink
  | starting g opened _ _ _ _ held => rw [held.attached sink, opened.finished]
  | recording g opened _ _ _ _ held => rw [held.attached sink, opened.finished]
  | stopping g opened _ _ held => rw [held.attached sink, opened.finished]
  | stopped g opened _ _ _ _ _ detached => rw [detached.attached sink, opened.finished]
  | taking _ _ _ _ _ _ clear => simp [clear.sink] at sink

/-! ## A file grows -/

theorem grow_attached (f samples bytes : Nat) (d : Desk μ) :
    d.grow (some (.attached f)) samples bytes =
      { d with
        files := d.files.modify f fun file =>
          { file with samples := file.samples + samples, bytes := file.bytes + bytes } } :=
  rfl

theorem grow_running (sink : Option (Sink Nat)) (samples bytes : Nat) (d : Desk μ) :
    (d.grow sink samples bytes).running = d.running := by
  match sink with
  | some (.attached f) => rfl
  | some .null => rfl
  | none => rfl

theorem grow_sinks (sink : Option (Sink Nat)) (samples bytes : Nat) (d : Desk μ) :
    (d.grow sink samples bytes).sinks = d.sinks := by
  match sink with
  | some (.attached f) => rfl
  | some .null => rfl
  | none => rfl

theorem grow_unmoved (sink : Option (Sink Nat)) (samples bytes : Nat) (d : Desk μ) :
    Unmoved d (d.grow sink samples bytes) := by
  match sink with
  | some (.attached f) =>
    rw [grow_attached]
    refine ⟨rfl, rfl, rfl, rfl, rfl, rfl, rfl, by simp, ?_⟩
    intro k file present
    by_cases hit : f = k
    · exact ⟨{ file with samples := file.samples + samples, bytes := file.bytes + bytes },
        by simp [hit, present], rfl, rfl⟩
    · exact ⟨file, by simp [hit, present], rfl, rfl⟩
  | some .null => exact .of_files rfl rfl rfl rfl rfl rfl rfl rfl
  | none => exact .of_files rfl rfl rfl rfl rfl rfl rfl rfl

/-- What is on record is of files that grow no more. -/
theorem Recorded.grow (h : Recorded d) {sink : Option (Sink Nat)}
    (last : ∀ f, sink = some (.attached f) → f = d.finished.length) (samples bytes : Nat) :
    Recorded (d.grow sink samples bytes) := by
  match sink with
  | some (.attached f) =>
    intro k record finished
    obtain ⟨file, present, of⟩ := h k record finished
    have other : f ≠ k := by
      have := (List.getElem?_eq_some_iff.mp finished).1
      rw [last f rfl]
      exact Nat.ne_of_gt this
    exact ⟨file, by simp [grow_attached, other, present], of⟩
  | some .null => exact h
  | none => exact h

theorem Book.moved (h : Book d) (moved : Unmoved d e) (carried : Carried d.sinks e.sinks)
    (recorded : Recorded e) (alive : e.running = true → d.running = true)
    (published : e.running = false → ∀ (f : Nat) (file : CaptureFile μ),
      e.sinks.sink = some (.attached f) → e.files[f]? = some file →
        e.publishedBytes = file.bytes ∧ e.publishedSamples = file.samples) : Book e := by
  constructor
  · exact recorded
  · exact carried.bounded h.bounded
  · exact fun run => moved.monitoring.trans (h.alive (alive run))
  · exact published
  · exact h.stage.moved moved carried

/-! ## The pipeline -/

theorem Book.attached (h : Book d) (running : d.running = true) {f : Nat}
    (sink : d.sinks.sink = some (.attached f)) : f = d.finished.length :=
  h.stage.attached (h.alive running) sink

theorem Book.processingStep (h : Book d) (running : d.running = true) (prompt : Prompt d.sinks)
    (flushed : Nat) : Book (d.processingStep flushed) := by
  have carried := Carried.next prompt
  by_cases swapping : ∃ seen r, d.sinks.pass = .swapping seen r
  · obtain ⟨seen, r, pass⟩ := swapping
    have grown := grow_unmoved d.sinks.sink 0 flushed d
    have still := grow_running d.sinks.sink 0 flushed d
    simp only [Desk.processingStep, pass]
    apply h.moved
    · exact ⟨grown.monitoring, grown.capturing, grown.pending, grown.path, grown.metadata,
        grown.gui, grown.finished, grown.opened, grown.same⟩
    · exact carried
    · exact h.recorded.grow (fun f sink => h.attached running sink) 0 flushed
    · exact fun _ => running
    · intro down
      exact absurd (still.trans running) (by simp [show (d.grow _ _ _).running = false from down])
  · have same : d.processingStep flushed =
        { d with sinks := SinkChange.processingStep d.sinks } := by
      simp only [Desk.processingStep]
      split
      · rename_i seen r pass
        exact absurd ⟨seen, r, pass⟩ swapping
      · rfl
    rw [same]
    apply h.moved
    · exact .of_files rfl rfl rfl rfl rfl rfl rfl rfl
    · exact carried
    · exact h.recorded
    · exact fun run => run
    · intro down
      exact absurd running (by simp [show d.running = false from down])

theorem Book.write (h : Book d) (running : d.running = true) (samples bytes : Nat) :
    Book (d.write samples bytes) := by
  have grown := grow_unmoved d.sinks.sink samples bytes d
  have still := grow_running d.sinks.sink samples bytes d
  have sinks := grow_sinks d.sinks.sink samples bytes d
  apply h.moved
  · exact ⟨grown.monitoring, grown.capturing, grown.pending, grown.path, grown.metadata,
      grown.gui, grown.finished, grown.opened, grown.same⟩
  · have kept : (d.write samples bytes).sinks = d.sinks := sinks
    rw [kept]
    exact .refl _
  · exact h.recorded.grow (fun f sink => h.attached running sink) samples bytes
  · exact fun _ => running
  · intro down
    exact absurd (still.trans running) (by simp [show (d.grow _ _ _).running = false from down])

theorem Book.leave (h : Book d) : Book { d with processing := false } := by
  apply h.moved
  · exact .of_files rfl rfl rfl rfl rfl rfl rfl rfl
  · exact .refl _
  · exact h.recorded
  · exact fun run => run
  · exact h.published

/-- What is published at the end of a run is what the file was given. -/
theorem Book.close (h : Book d) (running : d.running = true) (flushed : Nat) :
    Book (d.close flushed) := by
  have grown := grow_unmoved d.sinks.sink 0 flushed d
  have sinks := grow_sinks d.sinks.sink 0 flushed d
  have kept : (d.close flushed).sinks = d.sinks := sinks
  apply h.moved
  · exact ⟨grown.monitoring, grown.capturing, grown.pending, grown.path, grown.metadata,
      grown.gui, grown.finished, grown.opened, grown.same⟩
  · rw [kept]
    exact .refl _
  · exact h.recorded.grow (fun f sink => h.attached running sink) 0 flushed
  · exact fun _ => running
  · intro _ f file sink present
    rw [kept] at sink
    have grown : (d.grow d.sinks.sink 0 flushed).files[f]? = some file := present
    simp only [Desk.close, sinks]
    rw [sink] at grown ⊢
    simp only [Desk.bytesWritten, Desk.samplesWritten, grown, Option.elim_some, and_self]

/-! ## The GUI thread -/

/-- Without a stream there is no file, and nothing to wait for. -/
theorem Stage.off (h : Stage d) (off : d.monitoring = false) :
    AtRest d.gui ∧ d.capturing = false ∧ d.pendingSinkChange = 0 ∧
      d.finished.length = d.files.length := by
  cases h with
  | idle gui capturing pending finished => exact ⟨gui, capturing, pending, finished⟩
  | starting _ opened => simp [opened.monitoring] at off
  | recording _ opened => simp [opened.monitoring] at off
  | stopping _ opened => simp [opened.monitoring] at off
  | stopped _ opened => simp [opened.monitoring] at off
  | taking _ opened => simp [opened.monitoring] at off

/-- Between two calls, with no recording and no detach to wait for, every file is
finished. -/
theorem Stage.free (h : Stage d) (ready : d.gui = .ready) (capturing : d.capturing = false)
    (pending : d.pendingSinkChange = 0) : d.finished.length = d.files.length ∧
      (d.monitoring = true → Clear d.sinks ∧ d.sinks.caller = .idle) := by
  cases h with
  | idle _ _ _ finished clear => exact ⟨finished, clear⟩
  | starting _ _ gui => simp [gui] at ready
  | recording _ _ _ on => simp [on] at capturing
  | stopping _ _ gui => simp [gui] at ready
  | stopped _ _ _ _ waiting => exact absurd pending waiting
  | taking _ _ gui => simp [gui] at ready

theorem startMonitoring_books (works : Bool) (d : Desk μ) :
    (d.startMonitoring works).gui = d.gui ∧
    (d.startMonitoring works).capturing = d.capturing ∧
    (d.startMonitoring works).pendingSinkChange = d.pendingSinkChange := by
  by_cases stays : d.monitoring ∨ d.running ∨ ¬ works
  · simp only [Desk.startMonitoring, if_pos stays, and_self]
  · simp only [Desk.startMonitoring, if_neg stays, and_self]

theorem Book.startMonitoring (h : Book d) (works : Bool) : Book (d.startMonitoring works) := by
  by_cases stays : d.monitoring ∨ d.running ∨ ¬ works
  · simpa only [Desk.startMonitoring, if_pos stays] using h
  · simp only [Desk.startMonitoring, if_neg stays]
    simp only [not_or, Bool.not_eq_true] at stays
    obtain ⟨off, -, -⟩ := stays
    obtain ⟨gui, capturing, pending, finished⟩ := h.stage.off off
    constructor
    · exact h.recorded
    · exact ⟨Nat.le_refl 0, trivial⟩
    · simp
    · simp
    · exact .idle gui capturing pending finished fun _ => ⟨⟨rfl, rfl, rfl, trivial⟩, rfl⟩

/-- A file is opened where none is open. -/
theorem Book.opens (h : Book d) (ready : d.gui = .ready) (capturing : d.capturing = false)
    (pending : d.pendingSinkChange = 0) (on : d.monitoring = true) (path : Path) (setup : μ) :
    Book { d.openCaptureFile path setup with
      sinks := (SinkChange.attachSink d.files.length d.sinks).1
      gui := .starting } := by
  obtain ⟨finished, clear⟩ := h.stage.free ready capturing pending
  obtain ⟨clear, -⟩ := clear on
  constructor
  · intro k record done
    obtain ⟨file, present, of⟩ := h.recorded k record done
    have below := (List.getElem?_eq_some_iff.mp present).1
    exact ⟨file, by simp [Desk.openCaptureFile, List.getElem?_append_left below, present], of⟩
  · exact h.bounded
  · exact h.alive
  · intro _ f file sink
    simp [SinkChange.attachSink, clear.sink] at sink
  · refine .starting d.files.length ⟨on, by simp [Desk.openCaptureFile], finished, ?_⟩ rfl
      capturing pending (Or.inl rfl) (.waiting rfl clear.sink clear.pass) clear.flag
    exact ⟨⟨path, ⟨path.fileName, setup⟩, 0, 0⟩, by simp [Desk.openCaptureFile], rfl, rfl⟩

theorem Book.startCapture (h : Book d) (ready : d.gui = .ready) (works : Bool)
    (file : Option (Path × μ))
    (careful : file ≠ none → d.capturing = false → d.pendingSinkChange = 0) :
    Book (d.startCapture works file) := by
  simp only [Desk.startCapture]
  cases capturing : d.capturing with
  | true => simpa using h
  | false =>
    obtain ⟨gui, capturing', pending⟩ := startMonitoring_books works d
    have started := h.startMonitoring works
    simp only [Bool.false_eq_true, if_false]
    cases on : (d.startMonitoring works).monitoring with
    | false => simpa using started
    | true =>
      match file with
      | none => simpa using started
      | some (path, setup) =>
        exact started.opens (gui.trans ready) (capturing'.trans capturing)
          (pending.trans (careful (by simp) capturing)) on path setup

theorem Book.stopCapture (h : Book d) (ready : d.gui = .ready)
    (careful : d.capturing = true → d.sinks.pendingSink = none) : Book d.stopCapture := by
  simp only [Desk.stopCapture]
  split
  · rename_i capturing
    have none := careful capturing
    constructor
    · exact h.recorded
    · exact h.bounded
    · exact h.alive
    · exact h.published
    · cases h.stage with
      | idle _ idle => simp [idle] at capturing
      | starting _ _ gui => simp [gui] at ready
      | recording f opened _ _ pending _ held flag =>
        exact .stopping f ⟨opened.monitoring, opened.opened, opened.finished, opened.current⟩ rfl
          pending (held.of_eq none.symm rfl rfl) rfl (Or.inl ⟨rfl, flag⟩)
      | stopping _ _ gui => simp [gui] at ready
      | stopped _ _ _ idle => simp [idle] at capturing
      | taking _ _ gui => simp [gui] at ready
  · exact h

theorem Book.starts (h : Book d) (starting : d.gui = .starting) (renamed : Option Path) :
    Book (d.guiStep renamed) := by
  cases h.stage with
  | starting f opened _ capturing pending caller held flag =>
    rcases caller with attaching | attached
    · simp only [Desk.guiStep, starting, SinkChange.callerStep, attaching, reduceCtorEq, if_false]
      constructor
      · exact h.recorded
      · exact h.bounded
      · exact h.alive
      · exact h.published
      · exact .starting f ⟨opened.monitoring, opened.opened, opened.finished, opened.current⟩
          rfl capturing pending (Or.inr rfl) (held.of_eq rfl rfl rfl) rfl
    · simp only [Desk.guiStep, starting, SinkChange.callerStep, attached, if_true]
      constructor
      · exact h.recorded
      · exact h.bounded.numbered
      · exact h.alive
      · exact h.published
      · exact .recording f ⟨opened.monitoring, opened.opened, opened.finished, opened.current⟩
          (Or.inl rfl) rfl pending rfl (held.of_eq rfl rfl rfl) flag
  | idle gui => simp [AtRest, starting] at gui
  | recording _ _ gui => simp [AtRest, starting] at gui
  | stopping _ _ gui => simp [starting] at gui
  | stopped _ _ gui => simp [AtRest, starting] at gui
  | taking _ _ gui => simp [starting] at gui

theorem Book.stops (h : Book d) (stopping : d.gui = .stopping) (renamed : Option Path) :
    Book (d.guiStep renamed) := by
  cases h.stage with
  | stopping f opened _ pending held none call =>
    rcases call with ⟨detaching, low⟩ | ⟨detached, up⟩
    · simp only [Desk.guiStep, stopping, SinkChange.callerStep, detaching]
      constructor
      · exact h.recorded
      · exact h.bounded
      · exact h.alive
      · exact h.published
      · exact .stopping f ⟨opened.monitoring, opened.opened, opened.finished, opened.current⟩
          rfl pending (held.of_eq rfl rfl rfl) none (Or.inr ⟨rfl, rfl⟩)
    · simp only [Desk.guiStep, stopping, SinkChange.callerStep, detached]
      constructor
      · exact h.recorded
      · exact h.bounded.numbered
      · exact h.alive
      · exact h.published
      · exact .stopped f ⟨opened.monitoring, opened.opened, opened.finished, opened.current⟩
          (Or.inl rfl) rfl (Nat.succ_ne_zero _) rfl rfl
          (.asked (held.of_eq rfl rfl rfl) none up h.bounded.behind)
  | idle gui => simp [AtRest, stopping] at gui
  | starting _ _ gui => simp [stopping] at gui
  | recording _ _ gui => simp [AtRest, stopping] at gui
  | stopped _ _ gui => simp [AtRest, stopping] at gui
  | taking _ _ gui => simp [stopping] at gui

/-- A detach is collected when it is counted: the sink it retired is the file's. -/
theorem Book.collects (h : Book d) (collecting : d.gui = .collecting) (renamed : Option Path) :
    Book (d.guiStep renamed) := by
  have rest : AtRest d.gui := Or.inr (Or.inl collecting)
  simp only [Desk.guiStep, collecting]
  split
  · exact ⟨h.recorded, h.bounded, h.alive, h.published, h.stage.turn rest (Or.inr (Or.inr rfl))⟩
  · rename_i counted
    simp only [not_or, Nat.not_lt] at counted
    refine ⟨h.recorded, h.bounded, h.alive, h.published, ?_⟩
    cases h.stage with
    | stopped f opened _ capturing _ _ caller detached =>
      obtain ⟨clear, retired⟩ := detached.counted counted.2
      exact .taking f ⟨opened.monitoring, opened.opened, opened.finished, opened.current⟩ rfl
        capturing rfl caller clear retired
    | idle _ _ pending => exact absurd pending counted.1
    | starting _ _ gui => simp [collecting] at gui
    | recording _ _ _ _ pending => exact absurd pending counted.1
    | stopping _ _ gui => simp [collecting] at gui
    | taking _ _ gui => simp [collecting] at gui

/-- The file the books are of goes on record. -/
theorem Recorded.finish {f : Nat} {file : CaptureFile μ} (h : Recorded d)
    (finished : d.finished.length = f) (present : d.files[f]? = some file)
    (path : d.capturePath = file.path) (metadata : d.pendingMetadata = file.metadata)
    (renamed : Option Path) :
    Recorded (d.finishCaptureFile renamed file.bytes file.samples) := by
  intro k record done
  simp only [Desk.finishCaptureFile, List.getElem?_append] at done
  split at done
  · exact h k record done
  · rename_i past
    obtain ⟨last, rfl⟩ : k - d.finished.length = 0 ∧ record =
        ⟨d.capturePath, d.pendingMetadata.named renamed, renamed, file.samples, file.bytes⟩ := by
      cases place : k - d.finished.length with
      | zero => simpa [place] using done.symm
      | succ n => simp [place] at done
    obtain rfl : k = f := by omega
    exact ⟨file, present, path, by rw [metadata], rfl, rfl⟩

theorem Book.takes (h : Book d) (taking : d.gui = .taking) (renamed : Option Path) :
    Book (d.guiStep renamed) := by
  simp only [Desk.guiStep, taking]
  cases h.stage with
  | taking f opened _ capturing pending caller clear retired =>
    obtain ⟨file, present, path, metadata⟩ := opened.current
    have bytes : d.bytesWritten d.sinks.retiredSink = file.bytes := by
      simp [Desk.bytesWritten, retired, present]
    have samples : d.samplesWritten d.retiredNullSamples d.sinks.retiredSink = file.samples := by
      simp [Desk.samplesWritten, retired, present]
    rw [bytes, samples]
    constructor
    · exact h.recorded.finish opened.finished present path metadata renamed
    · exact h.bounded
    · exact h.alive
    · exact h.published
    · refine .idle (Or.inr (Or.inr rfl)) capturing pending ?_ fun _ =>
        ⟨⟨clear.pending, clear.flag, clear.sink, clear.pass⟩, caller⟩
      simp [Desk.finishCaptureFile, opened.finished, opened.opened]
  | idle gui => simp [AtRest, taking] at gui
  | starting _ _ gui => simp [taking] at gui
  | recording _ _ gui => simp [AtRest, taking] at gui
  | stopping _ _ gui => simp [taking] at gui
  | stopped _ _ gui => simp [AtRest, taking] at gui

/-- The end of a run finishes the file it was recording from what was published. -/
theorem Book.checks (h : Book d) (checking : d.gui = .checking) (renamed : Option Path)
    (careful : d.monitoring = true → d.running = false → d.pendingSinkChange = 0 ∧
      (d.capturing = true → ∃ f, d.sinks.sink = some (.attached f))) :
    Book (d.guiStep renamed) := by
  have rest : AtRest d.gui := Or.inr (Or.inr checking)
  have turned : Book { d with gui := .ready } :=
    ⟨h.recorded, h.bounded, h.alive, h.published, h.stage.turn rest (Or.inl rfl)⟩
  simp only [Desk.guiStep, checking]
  split
  · rename_i ended
    simp only [Bool.not_eq_true] at ended
    obtain ⟨on, down⟩ := ended
    obtain ⟨waiting, attached⟩ := careful on down
    simp only [Desk.finishRun]
    cases h.stage with
    | idle _ capturing pending finished clear =>
      simp only [capturing, Bool.false_eq_true, if_false]
      exact ⟨h.recorded, h.bounded, by simp [down], h.published,
        .idle (Or.inl rfl) rfl rfl finished (by simp)⟩
    | recording f opened _ capturing pending caller held flag =>
      simp only [capturing, if_true]
      obtain ⟨g, sink⟩ := attached capturing
      obtain rfl := held.attached sink
      obtain ⟨file, present, path, metadata⟩ := opened.current
      obtain ⟨bytes, samples⟩ := h.published down g file sink present
      constructor
      · rw [bytes, samples]
        exact h.recorded.finish opened.finished present path metadata renamed
      · exact h.bounded
      · exact fun run => absurd (down.symm.trans run) (by simp)
      · exact h.published
      · refine .idle (Or.inl rfl) rfl rfl ?_ (by simp [Desk.finishCaptureFile])
        simp [Desk.finishCaptureFile, opened.finished, opened.opened]
    | starting _ _ gui => simp [checking] at gui
    | stopping _ _ gui => simp [checking] at gui
    | stopped _ _ _ _ pending => exact absurd waiting pending
    | taking _ _ gui => simp [checking] at gui
  · exact turned

theorem book_step (h : Book d) {a : Action μ} (careful : Careful d a) : Book (d.step a) := by
  cases a with
  | startMonitoring works =>
    simp only [Desk.step]
    split
    · exact h.startMonitoring works
    · exact h
  | startCapture works file =>
    simp only [Desk.step]
    split
    · rename_i ready
      apply h.startCapture ready
      cases file with
      | none => simp
      | some file => exact fun _ => careful ready
    · exact h
  | stopCapture =>
    simp only [Desk.step]
    split
    · rename_i ready
      exact h.stopCapture ready (careful ready)
    · exact h
  | stopMonitoring => exact h
  | tick =>
    simp only [Desk.step]
    split
    · rename_i ready
      exact ⟨h.recorded, h.bounded, h.alive, h.published,
        h.stage.turn (Or.inl ready) (Or.inr (Or.inl rfl))⟩
    · exact h
  | guiStep renamed =>
    simp only [Desk.step]
    cases gui : d.gui with
    | ready => simpa only [Desk.guiStep, gui] using h
    | starting => exact h.starts gui renamed
    | stopping => exact h.stops gui renamed
    | collecting => exact h.collects gui renamed
    | taking => exact h.takes gui renamed
    | checking => exact h.checks gui renamed (careful gui)
  | processingStep flushed =>
    simp only [Desk.step]
    split
    · rename_i runs
      exact h.processingStep runs.1 careful flushed
    · exact h
  | write samples bytes =>
    simp only [Desk.step]
    split
    · rename_i runs
      exact h.write runs.1 samples bytes
    · exact h
  | leave =>
    simp only [Desk.step]
    split
    · exact h.leave
    · exact h
  | close flushed =>
    simp only [Desk.step]
    split
    · rename_i runs
      exact h.close runs.1 flushed
    · exact h

end Moves

theorem book_run {metadata : Metadata μ} {events : List Unit} {d : Desk μ}
    (run : Run machine Careful (start metadata) events d) : Book d :=
  run.invariant (book_start metadata) fun _ _ book careful => book_step book careful

/-! ## Both endings -/

section Endings

variable {d : Desk μ}

/-- The tick that finds the detach counted finishes the file. -/
theorem Book.collected (h : Book d) (ready : d.gui = .ready) (pending : d.pendingSinkChange ≠ 0)
    (counted : d.pendingSinkChange ≤ d.sinks.sinkChangeCount) (renamed : Option Path) :
    (((d.step .tick).step (.guiStep renamed)).step (.guiStep renamed)).finished.length =
      d.files.length := by
  have due : ¬ (d.pendingSinkChange = 0 ∨ d.sinks.sinkChangeCount < d.pendingSinkChange) := by
    omega
  cases h.stage with
  | stopped f opened =>
    simp only [Desk.step, ready, if_true, Desk.guiStep, if_neg due, Desk.finishCaptureFile,
      List.length_append, opened.finished, opened.opened, List.length_singleton]
  | idle _ _ none => exact absurd none pending
  | starting _ _ gui => simp [ready] at gui
  | recording _ _ _ _ none => exact absurd none pending
  | stopping _ _ gui => simp [ready] at gui
  | taking _ _ gui => simp [ready] at gui

/-- The tick that finds the stream ended finishes the recording. -/
theorem Book.ended (h : Book d) (ready : d.gui = .ready) (capturing : d.capturing = true)
    (down : d.running = false) (renamed : Option Path) :
    (((d.step .tick).step (.guiStep renamed)).step (.guiStep renamed)).finished.length =
      d.files.length := by
  cases h.stage with
  | recording f opened _ _ pending =>
    simp [Desk.step, ready, Desk.guiStep, pending, Desk.finishRun, opened.monitoring, down,
      capturing, Desk.finishCaptureFile, opened.finished, opened.opened]
  | idle _ idle => simp [idle] at capturing
  | starting _ _ gui => simp [ready] at gui
  | stopping _ _ gui => simp [ready] at gui
  | stopped _ _ _ idle => simp [idle] at capturing
  | taking _ _ gui => simp [ready] at gui

theorem Book.waits (h : Book d) (pending : d.pendingSinkChange ≠ 0)
    (between : d.sinks.pass = .idle) {n : Nat} (positive : 0 < n)
    (complete : (SinkChange.processingStep^[n] d.sinks).pass = .idle) :
    d.pendingSinkChange ≤ (SinkChange.processingStep^[n] d.sinks).sinkChangeCount := by
  cases h.stage with
  | stopped f _ _ _ _ numbered caller detached =>
    exact detached.collected caller numbered between positive complete
  | idle _ _ none => exact absurd none pending
  | starting _ _ _ _ none => exact absurd none pending
  | recording _ _ _ _ none => exact absurd none pending
  | stopping _ _ _ none => exact absurd none pending
  | taking _ _ _ _ none => exact absurd none pending

/-- At most the last file is still to be finished. -/
theorem Book.counts (h : Book d) :
    d.finished.length ≤ d.files.length ∧ d.files.length ≤ d.finished.length + 1 := by
  cases h.stage with
  | idle _ _ _ finished => omega
  | starting _ opened => have := opened.opened; have := opened.finished; omega
  | recording _ opened => have := opened.opened; have := opened.finished; omega
  | stopping _ opened => have := opened.opened; have := opened.finished; omega
  | stopped _ opened => have := opened.opened; have := opened.finished; omega
  | taking _ opened => have := opened.opened; have := opened.finished; omega

end Endings

/-- In every careful run what is on record are the files in the order they were opened,
each once, as opened and as written, all but the last at most. The last file is on
record once nothing is recorded and no detach is waited for; a detach that is waited
for is counted by one complete pass, and the next tick finishes the file, as it does
where the stream ends with the file in place. -/
theorem files_finished_once {metadata : Metadata μ} {events : List Unit} {d : Desk μ}
    (run : Run machine Careful (start metadata) events d) :
    Recorded d ∧ d.finished.length ≤ d.files.length ∧
      d.files.length ≤ d.finished.length + 1 ∧
      (d.gui = .ready → d.capturing = false → d.pendingSinkChange = 0 →
        d.finished.length = d.files.length) ∧
      (d.pendingSinkChange ≠ 0 → d.sinks.pass = .idle → ∀ n, 0 < n →
        (SinkChange.processingStep^[n] d.sinks).pass = .idle →
        d.pendingSinkChange ≤ (SinkChange.processingStep^[n] d.sinks).sinkChangeCount) ∧
      (d.gui = .ready →
        d.pendingSinkChange ≠ 0 ∧ d.pendingSinkChange ≤ d.sinks.sinkChangeCount ∨
          d.capturing = true ∧ d.running = false →
        ∀ renamed,
          (((d.step .tick).step (.guiStep renamed)).step (.guiStep renamed)).finished.length =
            d.files.length) := by
  have book := book_run run
  refine ⟨book.recorded, book.counts.1, book.counts.2, ?_, ?_, ?_⟩
  · exact fun ready capturing pending => (book.stage.free ready capturing pending).1
  · exact fun pending between n positive complete => book.waits pending between positive complete
  · intro ready ending renamed
    rcases ending with ⟨pending, counted⟩ | ⟨capturing, down⟩
    · exact book.collected ready pending counted renamed
    · exact book.ended ready capturing down renamed

/-! ## Two runs -/

/-- `Prompt` as a check on computed runs. -/
def prompt (p : Pipeline Nat) : Bool :=
  match p.pass with
  | .taken seen _ => !p.pendingDetach ||
      (p.caller != .detached && (p.caller != .idle || seen == p.sinkChangeRequests))
  | _ => true

theorem prompt_sound {p : Pipeline Nat} (h : prompt p = true) : Prompt p := by
  cases pass : p.pass with
  | taken seen incoming =>
    simp only [Prompt, pass]
    intro up
    simp only [prompt, pass] at h
    simp_all [imp_iff_not_or]
  | _ => simp [Prompt, pass]

/-- `Careful` as a check on computed runs. -/
def careful (d : Desk μ) : Action μ → Bool
  | .startCapture _ _ => d.pendingSinkChange == 0
  | .stopCapture => d.sinks.pendingSink.isNone
  | .guiStep _ => d.gui != .checking || d.running
  | .processingStep _ => prompt d.sinks
  | _ => true

theorem careful_sound (d : Desk μ) (a : Action μ) (h : careful d a = true) : Careful d a := by
  cases a with
  | startCapture works file =>
    cases file with
    | none => trivial
    | some file =>
      intro _ _
      simpa [careful] using h
  | stopCapture =>
    intro _ _
    simpa [careful] using h
  | guiStep renamed =>
    intro checking _ down
    simp [careful, checking, down] at h
  | processingStep flushed => exact prompt_sound h
  | _ => trivial

/-- One file is attached by a complete pass, and given something. -/
def opening : List (Action Unit) :=
  [.startMonitoring true, .startCapture true (some (⟨"captures", "a"⟩, ())),
    .guiStep none, .guiStep none] ++ List.replicate 5 (.processingStep 0) ++ [.write 4 8]

/-- And it is detached, collected and renamed. -/
def recording : List (Action Unit) :=
  opening ++ [.stopCapture, .guiStep none, .guiStep none] ++
    List.replicate 5 (.processingStep 1) ++
    [.tick, .guiStep none, .guiStep (some ⟨"captures", "a-4"⟩), .guiStep none]

theorem recording_finished :
    Recorded (machine.trace (start ⟨"", ()⟩) recording).2 ∧
      (machine.trace (start ⟨"", ()⟩) recording).2.finished =
        [⟨⟨"captures", "a"⟩, ⟨"a-4", ()⟩, some ⟨"captures", "a-4"⟩, 4, 9⟩] := by
  have run := Run.of_trace machine careful (start ⟨"", ()⟩) recording (by decide) careful_sound
  exact ⟨(files_finished_once run).1, by decide⟩

/-- The next file is opened before the detach of the first is collected. -/
def hasty : List (Action Unit) :=
  opening ++ [.stopCapture, .guiStep none, .guiStep none,
    .startCapture true (some (⟨"captures", "b"⟩, ())), .guiStep none, .guiStep none] ++
    List.replicate 5 (.processingStep 1) ++ [.tick, .guiStep none, .guiStep none]

/-- The first file goes on record under the name of the second. -/
theorem hasty_misnamed : ¬ ∀ (metadata : Metadata Unit) (events : List Unit) (d : Desk Unit),
    Run machine Any (start metadata) events d → Recorded d := by
  intro claim
  have run := Run.of_trace machine (fun _ _ => true) (start ⟨"", ()⟩) hasty (by decide)
    (fun _ _ _ => trivial)
  obtain ⟨file, present, path, -⟩ := claim _ _ _ run 0
    ⟨⟨"captures", "b"⟩, ⟨"b", ()⟩, none, 4, 9⟩ (by decide)
  have first : (machine.trace (start ⟨"", ()⟩) hasty).2.files[0]? =
      some ⟨⟨"captures", "a"⟩, ⟨"a", ()⟩, 4, 9⟩ := by decide
  rw [first] at present
  cases present
  exact absurd path (by decide)

end CaptureFiles
