import DomesdayDuplicator.Capture.CaptureFiles
import DomesdayDuplicator.Capture.ControlServer

/-!
# Every stop request is answered for its own capture

A request is connected to the next file that is finished, whichever it is. From the stop
to the answer the controller and the pipeline are to be about that one file.
-/

namespace StopRequests

open Execution CaptureController CaptureBookkeeping CaptureFiles ControlServer
open SinkChange (Sink Pipeline Pass Caller Punctual)

universe u

variable {μ : Type u}

/-! ## Files that are out of the pipeline -/

/-- The pass under way has this file in hand. -/
def Carries (f : Nat) : Pass Nat → Prop
  | .taken _ incoming => incoming = some f
  | .swapping _ replacement => replacement = .attached f
  | _ => False

structure Out (f : Nat) (p : Pipeline Nat) : Prop where
  pending : p.pendingSink ≠ some f
  sink : p.sink ≠ some (.attached f)
  pass : ¬ Carries f p.pass

section Pipeline

open SinkChange

variable {f : Nat} {p : Pipeline Nat}

theorem Out.processingStep (h : Out f p) : Out f (processingStep p) := by
  obtain ⟨pending, sink, away⟩ := h
  cases pass : p.pass with
  | idle =>
    simp only [SinkChange.processingStep, pass]
    exact ⟨pending, sink, by rintro ⟨⟩⟩
  | loaded seen =>
    simp only [SinkChange.processingStep, pass]
    exact ⟨by rintro ⟨⟩, sink, pending⟩
  | taken seen incoming =>
    simp only [SinkChange.processingStep, pass]
    refine ⟨pending, sink, ?_⟩
    dsimp only
    split
    · rintro ⟨⟩
    · cases incoming with
      | none => rintro ⟨⟩
      | some g =>
        rw [pass] at away
        intro carries
        refine away ?_
        simpa [Carries, replacement] using carries
  | swapping seen r =>
    simp only [SinkChange.processingStep, pass]
    rw [pass] at away
    exact ⟨pending, fun same => away (Option.some.inj same), by rintro ⟨⟩⟩
  | swapped seen =>
    simp only [SinkChange.processingStep, pass]
    exact ⟨pending, sink, by rintro ⟨⟩⟩

theorem callerStep_pipeline (p : Pipeline Nat) :
    (callerStep p).1.pendingSink = p.pendingSink ∧ (callerStep p).1.sink = p.sink ∧
      (callerStep p).1.pass = p.pass ∧ (callerStep p).1.retiredSink = p.retiredSink := by
  cases caller : p.caller <;> simp [callerStep, caller]

theorem Out.callerStep (h : Out f p) : Out f (callerStep p).1 := by
  obtain ⟨pending, sink, pass, -⟩ := callerStep_pipeline p
  exact ⟨pending ▸ h.pending, sink ▸ h.sink, pass ▸ h.pass⟩

theorem out_of_clear (h : Clear p) : Out f p := by
  refine ⟨by simp [h.pending], by simp [h.sink], ?_⟩
  have empty := h.pass
  intro carries
  cases pass : p.pass with
  | taken seen incoming =>
    rw [pass] at carries empty
    obtain rfl : incoming = some f := carries
    exact empty
  | swapping seen r =>
    rw [pass] at empty
    exact empty
  | _ =>
    rw [pass] at carries
    exact carries

end Pipeline

/-- A file that is known, and grows no more. -/
structure Gone (f : Nat) (d : Desk μ) : Prop where
  known : f < d.files.length
  out : Out f d.sinks

section Desk

variable {d : Desk μ} {f : Nat}

theorem grow_else {sink : Option (Sink Nat)} (other : sink ≠ some (.attached f))
    (samples bytes : Nat) (d : Desk μ) : (d.grow sink samples bytes).files[f]? = d.files[f]? := by
  match sink with
  | some (.attached g) =>
    rw [grow_attached, List.getElem?_modify]
    have apart : g ≠ f := fun same => other (by rw [same])
    simp [apart]
  | some .null => rfl
  | none => rfl

theorem grow_length (sink : Option (Sink Nat)) (samples bytes : Nat) (d : Desk μ) :
    (d.grow sink samples bytes).files.length = d.files.length :=
  (grow_unmoved sink samples bytes d).opened

theorem grow_processing (sink : Option (Sink Nat)) (samples bytes : Nat) (d : Desk μ) :
    (d.grow sink samples bytes).processing = d.processing := by
  match sink with
  | some (.attached f) => rfl
  | some .null => rfl
  | none => rfl

/-- The state after a step is about the same file, which has not changed. -/
structure Still (f : Nat) (d e : Desk μ) : Prop where
  gone : Gone f e
  same : e.files[f]? = d.files[f]?

theorem Gone.of_files {e : Desk μ} (h : Gone f d) (files : e.files = d.files) (out : Out f e.sinks) :
    Still f d e :=
  ⟨⟨files ▸ h.known, out⟩, by rw [files]⟩

theorem Gone.startMonitoring (h : Gone f d) (works : Bool) : Still f d (d.startMonitoring works) := by
  rw [Desk.startMonitoring]
  split
  · exact h.of_files rfl h.out
  · exact h.of_files rfl ⟨by rintro ⟨⟩, by rintro ⟨⟩, by rintro ⟨⟩⟩

theorem Gone.startCapture (h : Gone f d) (works : Bool) (file : Option (Path × μ)) :
    Still f d (d.startCapture works file) := by
  have started := h.startMonitoring works
  rw [Desk.startCapture]
  split
  · exact h.of_files rfl h.out
  dsimp only
  split
  · cases file with
    | none => exact started
    | some opened =>
      have known := started.gone.known
      constructor
      · refine ⟨?_, ?_, started.gone.out.sink, started.gone.out.pass⟩
        · simp only [Desk.openCaptureFile, List.length_append]
          omega
        · intro same
          have : (d.startMonitoring works).files.length = f := Option.some.inj same
          omega
      · rw [← started.same]
        exact List.getElem?_append_left known
  · exact started

theorem Gone.guiStep (h : Gone f d) (renamed : Option Path) : Still f d (d.guiStep renamed) := by
  cases gui : d.gui with
  | ready =>
    simp only [Desk.guiStep, gui]
    exact h.of_files rfl h.out
  | starting =>
    simp only [Desk.guiStep, gui]
    split
    · exact h.of_files rfl h.out.callerStep
    · exact h.of_files rfl h.out.callerStep
  | stopping =>
    have out := h.out.callerStep
    simp only [Desk.guiStep, gui]
    split
    · rename_i sinks request call
      rw [call] at out
      exact h.of_files rfl out
    · rename_i sinks _ _ call
      rw [call] at out
      exact h.of_files rfl out
  | collecting =>
    simp only [Desk.guiStep, gui]
    split
    · exact h.of_files rfl h.out
    · exact h.of_files rfl h.out
  | taking =>
    simp only [Desk.guiStep, gui]
    exact h.of_files rfl ⟨h.out.pending, h.out.sink, h.out.pass⟩
  | checking =>
    simp only [Desk.guiStep, gui, Desk.finishRun]
    split
    · split
      · exact h.of_files rfl h.out
      · exact h.of_files rfl h.out
    · exact h.of_files rfl h.out

theorem Gone.processingStep (h : Gone f d) (flushed : Nat) : Still f d (d.processingStep flushed) := by
  have out := h.out.processingStep
  rw [Desk.processingStep]
  dsimp only
  split
  · refine ⟨⟨?_, out⟩, grow_else h.out.sink 0 flushed d⟩
    exact (grow_length d.sinks.sink 0 flushed d).symm ▸ h.known
  · exact h.of_files rfl out

theorem Gone.grow (h : Gone f d) (samples bytes : Nat) :
    Still f d (d.grow d.sinks.sink samples bytes) := by
  refine ⟨⟨?_, ?_⟩, grow_else h.out.sink samples bytes d⟩
  · rw [grow_length]
    exact h.known
  · rw [grow_sinks]
    exact h.out

/-- No step of anyone brings a file back into the pipeline. -/
theorem Gone.step (h : Gone f d) (a : CaptureController.Action μ) : Still f d (d.step a) := by
  have stays : Still f d d := h.of_files rfl h.out
  cases a with
  | startMonitoring works =>
    simp only [Desk.step]
    split
    · exact h.startMonitoring works
    · exact stays
  | startCapture works file =>
    simp only [Desk.step]
    split
    · exact h.startCapture works file
    · exact stays
  | stopCapture =>
    simp only [Desk.step, Desk.stopCapture]
    split
    · split
      · exact h.of_files rfl ⟨by rintro ⟨⟩, h.out.sink, h.out.pass⟩
      · exact stays
    · exact stays
  | stopMonitoring => exact stays
  | tick =>
    simp only [Desk.step]
    split
    · exact h.of_files rfl h.out
    · exact stays
  | guiStep renamed => exact h.guiStep renamed
  | processingStep flushed =>
    simp only [Desk.step]
    split
    · exact h.processingStep flushed
    · exact stays
  | write samples bytes =>
    simp only [Desk.step]
    split
    · obtain ⟨⟨known, out⟩, same⟩ := h.grow samples bytes
      exact ⟨⟨known, out⟩, same⟩
    · exact stays
  | leave =>
    simp only [Desk.step]
    split
    · exact h.of_files rfl h.out
    · exact stays
  | close flushed =>
    simp only [Desk.step]
    split
    · obtain ⟨⟨known, out⟩, same⟩ := h.grow 0 flushed
      exact ⟨⟨known, out⟩, same⟩
    · exact stays

end Desk

/-! ## What every run keeps -/

structure Basic (d : Desk μ) : Prop where
  bounded : Bounded d.sinks
  alive : d.running = true → d.monitoring = true

section Desk

variable {d : Desk μ} {f : Nat}

theorem bounded_callerStep {p : Pipeline Nat} (h : Bounded p) :
    Bounded (SinkChange.callerStep p).1 := by
  cases caller : p.caller with
  | idle => simpa [SinkChange.callerStep, caller] using h
  | attaching => simpa [SinkChange.callerStep, caller, Bounded] using h
  | detaching => simpa [SinkChange.callerStep, caller, Bounded] using h
  | attached => simpa [SinkChange.callerStep, caller] using h.numbered
  | detached => simpa [SinkChange.callerStep, caller] using h.numbered

theorem Basic.startMonitoring (h : Basic d) (works : Bool) : Basic (d.startMonitoring works) := by
  rw [Desk.startMonitoring]
  split
  · exact h
  · exact ⟨⟨Nat.le_refl 0, trivial⟩, fun _ => rfl⟩

theorem Basic.guiStep (h : Basic d) (renamed : Option Path) : Basic (d.guiStep renamed) := by
  have called := bounded_callerStep h.bounded
  cases gui : d.gui with
  | ready =>
    simp only [Desk.guiStep, gui]
    exact ⟨h.bounded, h.alive⟩
  | starting =>
    simp only [Desk.guiStep, gui]
    split
    · exact ⟨called, h.alive⟩
    · exact ⟨called, h.alive⟩
  | stopping =>
    simp only [Desk.guiStep, gui]
    split
    · rename_i call
      rw [call] at called
      exact ⟨called, h.alive⟩
    · rename_i call
      rw [call] at called
      exact ⟨called, h.alive⟩
  | collecting =>
    simp only [Desk.guiStep, gui]
    split
    · exact ⟨h.bounded, h.alive⟩
    · exact ⟨h.bounded, h.alive⟩
  | taking =>
    simp only [Desk.guiStep, gui]
    exact ⟨h.bounded, h.alive⟩
  | checking =>
    simp only [Desk.guiStep, gui]
    split
    · rename_i ended
      have down : d.running = false := by simpa using ended.2
      simp only [Desk.finishRun]
      split
      · exact ⟨h.bounded, fun run => absurd (down.symm.trans run) (by decide)⟩
      · exact ⟨h.bounded, fun run => absurd (down.symm.trans run) (by decide)⟩
    · exact ⟨h.bounded, h.alive⟩

theorem Basic.grow (h : Basic d) (samples bytes : Nat) :
    Basic (d.grow d.sinks.sink samples bytes) := by
  constructor
  · rw [grow_sinks]
    exact h.bounded
  · rw [grow_running, (grow_unmoved d.sinks.sink samples bytes d).monitoring]
    exact h.alive

theorem Basic.step (h : Basic d) (a : CaptureController.Action μ) : Basic (d.step a) := by
  cases a with
  | startMonitoring works =>
    simp only [Desk.step]
    split
    · exact h.startMonitoring works
    · exact h
  | startCapture works file =>
    have started := h.startMonitoring works
    simp only [Desk.step, Desk.startCapture]
    split
    · split
      · exact h
      · split
        · cases file with
          | none => exact started
          | some file => exact ⟨started.bounded, started.alive⟩
        · exact started
    · exact h
  | stopCapture =>
    simp only [Desk.step, Desk.stopCapture]
    split
    · split
      · exact ⟨h.bounded, h.alive⟩
      · exact h
    · exact h
  | stopMonitoring => exact h
  | tick =>
    simp only [Desk.step]
    split
    · exact ⟨h.bounded, h.alive⟩
    · exact h
  | guiStep renamed => exact h.guiStep renamed
  | processingStep flushed =>
    simp only [Desk.step]
    split
    · rename_i runs
      rw [Desk.processingStep]
      dsimp only
      split
      · have grown := h.grow 0 flushed
        exact ⟨h.bounded.next, grown.alive⟩
      · exact ⟨h.bounded.next, h.alive⟩
    · exact h
  | write samples bytes =>
    simp only [Desk.step]
    split
    · have grown := h.grow samples bytes
      exact ⟨grown.bounded, grown.alive⟩
    · exact h
  | leave =>
    simp only [Desk.step]
    split
    · exact ⟨h.bounded, h.alive⟩
    · exact h
  | close flushed =>
    simp only [Desk.step]
    split
    · have grown := h.grow 0 flushed
      exact ⟨grown.bounded, by rintro ⟨⟩⟩
    · exact h

/-! ## From the stop to the answer -/

/-- A pass that takes nothing that comes now. -/
def Past : Pass Nat → Prop
  | .loaded _ | .taken _ _ => False
  | _ => True

/-- While a request waits: no file is opened; no pass is between its look at the requests
and its two exchanges when the flag goes up, and none begins before the detach has its
number; the processing thread leaves when it has counted the detach, and the run does not
come to its end inside of a tick. -/
def Patient (d : Desk μ) : CaptureController.Action μ → Prop
  | .startCapture _ (some _) => d.gui = .ready → d.capturing = true
  | .guiStep _ => d.gui = .stopping → d.sinks.caller = .detaching → Past d.sinks.pass
  | .processingStep _ => d.sinks.caller = .detached → d.sinks.pass ≠ .idle
  | .leave => d.sinks.pass = .idle →
      d.gui ≠ .stopping ∧ d.pendingSinkChange ≤ d.sinks.sinkChangeCount
  | .close _ => d.running = true → d.processing = false → d.gui ≠ .checking
  | _ => True

/-- File `f` is the last one opened, and the controller's path is the one it has. -/
structure Named (f : Nat) (d : Desk μ) : Prop where
  monitoring : d.monitoring = true
  opened : d.files.length = f + 1
  path : ∃ file : CaptureFile μ, d.files[f]? = some file ∧ d.capturePath = file.path

/-- A stop of file `f` is under way, and will be answered. -/
inductive Attended (f : Nat) (d : Desk μ) : Prop
  | stopping (named : Named f d) (gui : d.gui = .stopping)
      (alive : d.running = true ∧ d.processing = true) (held : Held f d.sinks)
      (none : d.sinks.pendingSink = none)
      (call : d.sinks.caller = .detaching ∧ d.sinks.pendingDetach = false ∨
        d.sinks.caller = .detached ∧ d.sinks.pendingDetach = true ∧ Past d.sinks.pass)
  | stopped (named : Named f d) (gui : AtRest d.gui) (capturing : d.capturing = false)
      (pending : d.pendingSinkChange ≠ 0)
      (numbered : d.pendingSinkChange = d.sinks.sinkChangeRequests)
      (detached : Detached f d.pendingSinkChange d.sinks) (punctual : Punctual d.sinks)
      (alive : d.running = true ∧ d.processing = true ∨
        d.pendingSinkChange ≤ d.sinks.sinkChangeCount)
      (checking : d.gui = .checking → d.running = true)
  | taking (named : Named f d) (gui : d.gui = .taking) (capturing : d.capturing = false)
      (clear : Clear d.sinks) (retired : d.sinks.retiredSink = some (.attached f))

theorem Named.moved {e : Desk μ} (h : Named f d) (moved : Unmoved d e) : Named f e := by
  obtain ⟨file, present, path⟩ := h.path
  obtain ⟨grown, present', path', -⟩ := moved.same f file present
  exact ⟨moved.monitoring.trans h.monitoring, moved.opened.trans h.opened, grown, present',
    by rw [moved.path, path, path']⟩

theorem prompt_of_punctual {p : Pipeline Nat} (h : Punctual p) : Prompt p := by
  obtain ⟨idle, current⟩ := h
  cases pass : p.pass with
  | taken seen incoming =>
    simp only [Prompt, pass]
    rw [pass] at current
    exact fun _ => ⟨by simp [idle], fun _ => current⟩
  | _ => simp [Prompt, pass]

/-- Nothing of it changes but what the sinks were given. -/
theorem Attended.moved {e : Desk μ} (h : Attended f d) (moved : Unmoved d e)
    (sinks : e.sinks = d.sinks) (running : e.running = d.running)
    (processing : e.processing = d.processing) : Attended f e := by
  cases h with
  | stopping named gui alive held none call =>
    refine .stopping (named.moved moved) (moved.gui.trans gui) ?_ (sinks ▸ held) (sinks ▸ none)
      (sinks ▸ call)
    rwa [running, processing]
  | stopped named gui capturing pending numbered detached punctual alive checking =>
    refine .stopped (named.moved moved) (moved.gui ▸ gui) (moved.capturing.trans capturing) ?_ ?_ ?_
      (sinks ▸ punctual) ?_ ?_
    · rwa [moved.pending]
    · rwa [moved.pending, sinks]
    · rwa [moved.pending, sinks]
    · rwa [running, processing, moved.pending, sinks]
    · rwa [moved.gui, running]
  | taking named gui capturing clear retired =>
    exact .taking (named.moved moved) (moved.gui.trans gui) (moved.capturing.trans capturing)
      (sinks ▸ clear) (sinks ▸ retired)

theorem Past.next {p : Pipeline Nat} (past : Past p.pass) (begun : p.pass ≠ .idle) :
    Past (SinkChange.processingStep p).pass := by
  cases pass : p.pass with
  | idle => exact absurd pass begun
  | loaded seen =>
    rw [pass] at past
    exact past.elim
  | taken seen incoming =>
    rw [pass] at past
    exact past.elim
  | swapping seen r => simp [SinkChange.processingStep, pass, Past]
  | swapped seen => simp [SinkChange.processingStep, pass, Past]

/-- A step of the pass brings the detach on, or leaves it counted. -/
theorem Attended.processed {e : Desk μ} (h : Attended f d)
    (patient : d.sinks.caller = .detached → d.sinks.pass ≠ .idle) (moved : Unmoved d e)
    (sinks : e.sinks = SinkChange.processingStep d.sinks) (running : e.running = d.running)
    (processing : e.processing = d.processing) : Attended f e := by
  cases h with
  | stopping named gui alive held none call =>
    have quiet : d.sinks.pendingDetach = true → ∀ seen incoming,
        d.sinks.pass ≠ .taken seen incoming := by
      intro up seen incoming taken
      rcases call with ⟨-, low⟩ | ⟨-, -, past⟩
      · exact absurd (low.symm.trans up) (by decide)
      · rw [taken] at past
        exact past
    obtain ⟨held', flag, none'⟩ := held.next quiet
    refine .stopping (named.moved moved) (moved.gui.trans gui) (by rwa [running, processing])
      (sinks ▸ held') (sinks ▸ none' none) ?_
    rw [sinks, flag, SinkChange.processingStep_caller]
    rcases call with early | ⟨detached, up, past⟩
    · exact Or.inl early
    · exact Or.inr ⟨detached, up, past.next (patient detached)⟩
  | stopped named gui capturing pending numbered detached punctual alive checking =>
    have next := detached.next (prompt_of_punctual punctual) punctual.1 numbered
    refine .stopped (named.moved moved) (moved.gui ▸ gui) (moved.capturing.trans capturing) ?_ ?_ ?_
      ?_ ?_ ?_
    · rwa [moved.pending]
    · rw [moved.pending, sinks, processingStep_requests, numbered]
    · rw [moved.pending, sinks]
      exact next
    · rw [sinks]
      exact punctual.processingStep
    · rw [running, processing, moved.pending, sinks]
      rcases alive with on | counted
      · exact Or.inl on
      · obtain ⟨clear, -⟩ := detached.counted counted
        exact Or.inr (clear.next.2.1 ▸ counted)
    · rwa [moved.gui, running]
  | taking named gui capturing clear retired =>
    refine .taking (named.moved moved) (moved.gui.trans gui) (moved.capturing.trans capturing) ?_ ?_
    · rw [sinks]
      exact clear.next.1
    · rw [sinks]
      exact clear.next.2.2.trans retired

/-- The GUI thread goes on with the files and the pipeline left alone. -/
theorem Attended.turn (h : Attended f d) (before : AtRest d.gui) {gui : Gui} (after : AtRest gui)
    (running : gui = .checking → d.running = true) : Attended f { d with gui } := by
  cases h with
  | stopping _ gui => simp [AtRest, gui] at before
  | stopped named _ capturing pending numbered detached punctual alive _ =>
    exact .stopped ⟨named.monitoring, named.opened, named.path⟩ after capturing pending numbered
      detached punctual alive running
  | taking _ gui => simp [AtRest, gui] at before

/-- The call of `DetachSink` goes on: the flag, and the number. -/
theorem Attended.stops (h : Attended f d) (basic : Basic d) (gui : d.gui = .stopping)
    (patient : d.sinks.caller = .detaching → Past d.sinks.pass) (renamed : Option Path) :
    Attended f (d.guiStep renamed) := by
  cases h with
  | stopping named _ alive held none call =>
    rcases call with ⟨detaching, -⟩ | ⟨detached, up, past⟩
    · simp only [Desk.guiStep, gui, SinkChange.callerStep, detaching]
      exact .stopping ⟨named.monitoring, named.opened, named.path⟩ rfl alive
        (held.of_eq rfl rfl rfl) none (Or.inr ⟨rfl, rfl, patient detaching⟩)
    · have current : ∀ p : Pipeline Nat, p.caller = .idle → Past p.pass → Punctual p := by
        intro p idle past
        refine ⟨idle, ?_⟩
        cases pass : p.pass with
        | loaded seen =>
          rw [pass] at past
          exact past.elim
        | taken seen incoming =>
          rw [pass] at past
          exact past.elim
        | _ => trivial
      simp only [Desk.guiStep, gui, SinkChange.callerStep, detached]
      refine .stopped ⟨named.monitoring, named.opened, named.path⟩ (Or.inl rfl) rfl
        (Nat.succ_ne_zero _) rfl ?_ (current _ rfl past) (Or.inl alive) (by rintro ⟨⟩)
      exact .asked (held.of_eq rfl rfl rfl) none up basic.bounded.behind
  | stopped _ rest => simp [AtRest, gui] at rest
  | taking _ taking => simp [gui] at taking

/-- A tick looks whether the detach is counted. -/
theorem Attended.collects (h : Attended f d) (gui : d.gui = .collecting) (renamed : Option Path) :
    Attended f (d.guiStep renamed) := by
  cases h with
  | stopping _ stopping => simp [gui] at stopping
  | stopped named rest capturing pending numbered detached punctual alive checking =>
    simp only [Desk.guiStep, gui]
    split
    · rename_i waits
      have uncounted := waits.resolve_left pending
      refine .stopped ⟨named.monitoring, named.opened, named.path⟩ (Or.inr (Or.inr rfl)) capturing
        pending numbered detached punctual alive fun _ => ?_
      exact (alive.resolve_right (by omega)).left
    · rename_i counted
      simp only [not_or, Nat.not_lt] at counted
      obtain ⟨clear, retired⟩ := detached.counted counted.2
      exact .taking ⟨named.monitoring, named.opened, named.path⟩ rfl capturing clear retired
  | taking _ taking => simp [gui] at taking

theorem Attended.checks (h : Attended f d) (gui : d.gui = .checking) (renamed : Option Path) :
    Attended f (d.guiStep renamed) := by
  have turned := h.turn (Or.inr (Or.inr gui)) (Or.inl rfl) nofun
  cases h with
  | stopping _ stopping => simp [gui] at stopping
  | stopped named rest capturing pending numbered detached punctual alive checking =>
    have running := checking gui
    simp only [Desk.guiStep, gui]
    rw [if_neg (by simp [running])]
    exact turned
  | taking _ taking => simp [gui] at taking

theorem Attended.leaves (h : Attended f d) (counted : d.gui ≠ .stopping ∧
    d.pendingSinkChange ≤ d.sinks.sinkChangeCount) : Attended f { d with processing := false } := by
  cases h with
  | stopping _ gui => exact absurd gui counted.1
  | stopped named gui capturing pending numbered detached punctual alive checking =>
    exact .stopped ⟨named.monitoring, named.opened, named.path⟩ gui capturing pending numbered
      detached punctual (Or.inr counted.2) checking
  | taking named gui capturing clear retired =>
    exact .taking ⟨named.monitoring, named.opened, named.path⟩ gui capturing clear retired

theorem Attended.closes (h : Attended f d) (left : d.processing = false) (gui : d.gui ≠ .checking)
    (flushed : Nat) : Attended f (d.close flushed) := by
  have grown := grow_unmoved d.sinks.sink 0 flushed d
  have sinks : (d.close flushed).sinks = d.sinks := grow_sinks d.sinks.sink 0 flushed d
  have moved : Unmoved d (d.close flushed) := ⟨grown.monitoring, grown.capturing, grown.pending,
    grown.path, grown.metadata, grown.gui, grown.finished, grown.opened, grown.same⟩
  cases h with
  | stopping _ _ alive => exact absurd (left.symm.trans alive.2) (by decide)
  | stopped named rest capturing pending numbered detached punctual alive checking =>
    have counted := alive.resolve_left fun on => absurd (left.symm.trans on.2) (by decide)
    refine .stopped (named.moved moved) (moved.gui ▸ rest) (moved.capturing.trans capturing) ?_ ?_ ?_
      (sinks ▸ punctual) (Or.inr ?_) fun checks => absurd (moved.gui.symm.trans checks) gui
    · rwa [moved.pending]
    · rwa [moved.pending, sinks]
    · rwa [moved.pending, sinks]
    · rwa [moved.pending, sinks]
  | taking named taking capturing clear retired =>
    exact .taking (named.moved moved) (moved.gui.trans taking) (moved.capturing.trans capturing)
      (sinks ▸ clear) (sinks ▸ retired)

theorem Attended.monitoring (h : Attended f d) : d.monitoring = true := by
  cases h with
  | stopping named => exact named.monitoring
  | stopped named => exact named.monitoring
  | taking named => exact named.monitoring

/-- Between two calls nothing is recorded while the stop waits. -/
theorem Attended.idle (h : Attended f d) (ready : d.gui = .ready) : d.capturing = false := by
  cases h with
  | stopping _ gui => simp [gui] at ready
  | stopped _ _ capturing => exact capturing
  | taking _ gui => simp [gui] at ready

/-- While a stop waits every patient step but the last leaves it so, and finishes nothing. -/
theorem Attended.step (h : Attended f d) (basic : Basic d) {a : CaptureController.Action μ}
    (patient : Patient d a) (other : ∀ renamed, a = .guiStep renamed → d.gui ≠ .taking) :
    Attended f (d.step a) ∧ (d.step a).finished = d.finished := by
  cases a with
  | startMonitoring works =>
    have stays : d.startMonitoring works = d := by
      rw [Desk.startMonitoring, if_pos (Or.inl h.monitoring)]
    simp only [Desk.step, stays, ite_self]
    exact ⟨h, trivial⟩
  | startCapture works file =>
    simp only [Desk.step]
    split
    · rename_i ready
      have stays : d.startMonitoring works = d := by
        rw [Desk.startMonitoring, if_pos (Or.inl h.monitoring)]
      have idle := h.idle ready
      cases file with
      | none =>
        simp only [Desk.startCapture, idle, Bool.false_eq_true, if_false, stays, h.monitoring, if_true]
        exact ⟨h, trivial⟩
      | some file => exact absurd (idle.symm.trans (patient ready)) (by decide)
    · exact ⟨h, rfl⟩
  | stopCapture =>
    simp only [Desk.step, Desk.stopCapture]
    split
    · rename_i ready
      rw [if_neg (by simp [h.idle ready])]
      exact ⟨h, rfl⟩
    · exact ⟨h, rfl⟩
  | stopMonitoring => exact ⟨h, rfl⟩
  | tick =>
    simp only [Desk.step]
    split
    · rename_i ready
      exact ⟨h.turn (Or.inl ready) (Or.inr (Or.inl rfl)) (by rintro ⟨⟩), rfl⟩
    · exact ⟨h, rfl⟩
  | guiStep renamed =>
    simp only [Desk.step]
    have kept : Attended f (d.guiStep renamed) := by
      cases gui : d.gui with
      | ready =>
        simp only [Desk.guiStep, gui]
        exact h
      | starting =>
        cases h with
        | stopping _ stopping => simp [gui] at stopping
        | stopped _ rest => simp [AtRest, gui] at rest
        | taking _ taking => simp [gui] at taking
      | stopping => exact h.stops basic gui (patient gui) renamed
      | collecting => exact h.collects gui renamed
      | taking => exact absurd gui (other renamed rfl)
      | checking => exact h.checks gui renamed
    refine ⟨kept, ?_⟩
    cases gui : d.gui with
    | ready => simp only [Desk.guiStep, gui]
    | starting =>
      simp only [Desk.guiStep, gui]
      split <;> rfl
    | stopping =>
      simp only [Desk.guiStep, gui]
      split <;> rfl
    | collecting =>
      simp only [Desk.guiStep, gui]
      split <;> rfl
    | taking => exact absurd gui (other renamed rfl)
    | checking =>
      simp only [Desk.guiStep, gui]
      split
      · cases h with
        | stopping _ stopping => simp [gui] at stopping
        | stopped _ _ capturing => simp [Desk.finishRun, capturing]
        | taking _ taking => simp [gui] at taking
      · rfl
  | processingStep flushed =>
    simp only [Desk.step]
    split
    · rw [Desk.processingStep]
      dsimp only
      split
      · have grown := grow_unmoved d.sinks.sink 0 flushed d
        refine ⟨h.processed patient ⟨grown.monitoring, grown.capturing, grown.pending, grown.path,
          grown.metadata, grown.gui, grown.finished, grown.opened, grown.same⟩ rfl ?_ ?_,
          grown.finished⟩
        · exact grow_running d.sinks.sink 0 flushed d
        · exact grow_processing d.sinks.sink 0 flushed d
      · exact ⟨h.processed patient (.of_files rfl rfl rfl rfl rfl rfl rfl rfl) rfl rfl rfl, rfl⟩
    · exact ⟨h, rfl⟩
  | write samples bytes =>
    simp only [Desk.step]
    split
    · have grown := grow_unmoved d.sinks.sink samples bytes d
      refine ⟨h.moved ⟨grown.monitoring, grown.capturing, grown.pending, grown.path,
        grown.metadata, grown.gui, grown.finished, grown.opened, grown.same⟩ ?_ ?_ ?_,
        grown.finished⟩
      · exact grow_sinks d.sinks.sink samples bytes d
      · exact grow_running d.sinks.sink samples bytes d
      · exact grow_processing d.sinks.sink samples bytes d
    · exact ⟨h, rfl⟩
  | leave =>
    simp only [Desk.step]
    split
    · rename_i between
      exact ⟨h.leaves (patient between), rfl⟩
    · exact ⟨h, rfl⟩
  | close flushed =>
    simp only [Desk.step]
    split
    · rename_i ends
      have left : d.processing = false := by simpa using ends.2
      exact ⟨h.closes left (patient ends.1 left) flushed,
        (grow_unmoved d.sinks.sink 0 flushed d).finished⟩
    · exact ⟨h, rfl⟩

/-- The last step finishes the file, as what it was opened as and with all it was given. -/
theorem Attended.answers (h : Attended f d) (gui : d.gui = .taking) (renamed : Option Path) :
    ∃ (file : CaptureFile μ) (record : Finished μ), d.files[f]? = some file ∧
      (d.guiStep renamed).finished = d.finished ++ [record] ∧
      (d.guiStep renamed).capturePath = renamed.getD file.path ∧
      record.path = file.path ∧ record.renamed = renamed ∧ record.bytes = file.bytes ∧
      Gone f (d.guiStep renamed) ∧ (d.guiStep renamed).files = d.files := by
  cases h with
  | stopping _ stopping => simp [gui] at stopping
  | stopped _ rest => simp [AtRest, gui] at rest
  | taking named _ _ clear retired =>
    obtain ⟨file, present, path⟩ := named.path
    have bytes : d.bytesWritten d.sinks.retiredSink = file.bytes := by
      simp [Desk.bytesWritten, retired, present]
    have out : Out f d.sinks := out_of_clear clear
    simp only [Desk.guiStep, gui, bytes]
    refine ⟨file, _, present, rfl, by rw [← path]; rfl, path, rfl, rfl, ⟨?_, ?_⟩, rfl⟩
    · exact (List.getElem?_eq_some_iff.mp present).1
    · exact ⟨out.pending, out.sink, out.pass⟩

/-! ## The way to the answer -/

/-- A step the controller and the pipeline take by themselves. -/
def Mechanical : CaptureController.Action μ → Prop
  | .tick | .guiStep _ | .processingStep _ => True
  | _ => False

/-- Steps of the passes until the detach is counted. -/
def passes (p : Pipeline Nat) : Nat :=
  match p.pass with
  | .swapping _ _ => if p.pendingDetach then 9 else 4
  | .swapped _ => if p.pendingDetach then 8 else 3
  | .idle => 7
  | .loaded _ => 6
  | .taken _ _ => 5

/-- Steps of a pass that may take a flag too early. -/
def ahead : Pass Nat → Nat
  | .loaded _ => 2
  | .taken _ _ => 1
  | _ => 0

/-- Steps of the GUI thread until the count is collected. -/
def turns : Gui → Nat
  | .collecting => 1
  | .ready => 2
  | .checking => 3
  | _ => 0

def rank (d : Desk μ) : Nat :=
  if d.gui = .stopping then
    40 + if d.sinks.caller = .detaching then 10 + ahead d.sinks.pass else 0
  else if d.gui = .taking then 0
  else if d.pendingSinkChange ≤ d.sinks.sinkChangeCount then turns d.gui
  else 10 + passes d.sinks

theorem rank_le (d : Desk μ) (gui : d.gui ≠ .stopping) : rank d < 20 := by
  rw [rank, if_neg gui]
  split
  · decide
  split
  · cases d.gui <;> decide
  · rw [passes]
    split
    · split <;> decide
    · split <;> decide
    · decide
    · decide
    · decide

theorem processingStep_books (flushed : Nat) (d : Desk μ) :
    (d.processingStep flushed).gui = d.gui ∧
      (d.processingStep flushed).pendingSinkChange = d.pendingSinkChange ∧
      (d.processingStep flushed).sinks = SinkChange.processingStep d.sinks := by
  rw [Desk.processingStep]
  dsimp only
  split
  · have grown := grow_unmoved d.sinks.sink 0 flushed d
    exact ⟨grown.gui, grown.pending, rfl⟩
  · exact ⟨rfl, rfl, rfl⟩

/-- A step of the pass under way brings the count of the detach nearer. -/
theorem Detached.nearer {n : Nat} {p : Pipeline Nat} (h : Detached f n p)
    (uncounted : p.sinkChangeCount < n) :
    n ≤ (SinkChange.processingStep p).sinkChangeCount ∨
      passes (SinkChange.processingStep p) < passes p := by
  cases h with
  | asked held pending flag behind =>
    refine Or.inr ?_
    cases pass : p.pass with
    | taken seen incoming => cases incoming <;> simp [SinkChange.processingStep, pass, passes, flag]
    | _ => simp [SinkChange.processingStep, pass, passes, flag]
  | leaving pass _ _ flag => exact Or.inr (by simp [SinkChange.processingStep, pass, passes, flag])
  | retiring pass => exact Or.inl (by simp [SinkChange.processingStep, pass])
  | acknowledged _ _ count => omega

/-- There is always a step that answers, or comes nearer to it. -/
theorem Attended.progress (h : Attended f d) : ∃ a, Mechanical a ∧ Patient d a ∧
    (d.gui = .taking ∧ a = .guiStep none ∨
      d.gui ≠ .taking ∧ rank (d.step a) < rank d) := by
  cases h with
  | stopping named gui alive held none call =>
    have other : d.gui ≠ .taking := by simp [gui]
    by_cases early : d.sinks.caller = .detaching ∧ ¬ Past d.sinks.pass
    · obtain ⟨detaching, ahead'⟩ := early
      refine ⟨.processingStep 0, trivial, by simp [Patient, detaching], Or.inr ⟨other, ?_⟩⟩
      obtain ⟨gui', -, sinks⟩ := processingStep_books 0 d
      have caller : (SinkChange.processingStep d.sinks).caller = .detaching := by
        rw [SinkChange.processingStep_caller, detaching]
      simp only [Desk.step, alive, and_self, if_true, rank, gui', gui, sinks, caller, detaching]
      cases pass : d.sinks.pass with
      | loaded seen => simp [SinkChange.processingStep, pass, ahead]
      | taken seen incoming =>
        simp only [SinkChange.processingStep, pass, ahead]
        split
        · rename_i again
          split at again
          · cases again
          · cases again
        · rename_i again
          split at again
          · cases again
          · cases again
        · decide
      | _ =>
        rw [pass] at ahead'
        exact absurd trivial ahead'
    · refine ⟨.guiStep Option.none, trivial, ?_, Or.inr ⟨other, ?_⟩⟩
      · intro _ detaching
        by_contra ahead'
        exact early ⟨detaching, ahead'⟩
      · rcases call with ⟨detaching, -⟩ | ⟨detached, -, -⟩
        · have after : rank (d.step (.guiStep Option.none)) = 40 := by
            simp [Desk.step, Desk.guiStep, gui, SinkChange.callerStep, detaching, rank]
          rw [after, rank, if_pos gui, if_pos detaching]
          omega
        · have after : rank (d.step (.guiStep Option.none)) < 20 := by
            refine rank_le _ ?_
            simp [Desk.step, Desk.guiStep, gui, SinkChange.callerStep, detached]
          refine Nat.lt_of_lt_of_le after ?_
          rw [rank, if_pos gui]
          omega
  | stopped named gui capturing pending numbered detached punctual alive checking =>
    have resting : d.gui ≠ .taking ∧ d.gui ≠ .stopping := by
      rcases gui with gui | gui | gui <;> simp [gui]
    by_cases counted : d.pendingSinkChange ≤ d.sinks.sinkChangeCount
    · have waited : ¬ (d.pendingSinkChange = 0 ∨ d.sinks.sinkChangeCount < d.pendingSinkChange) := by
        omega
      rcases gui with gui | gui | gui
      · refine ⟨.tick, trivial, trivial, Or.inr ⟨resting.1, ?_⟩⟩
        simp [Desk.step, gui, rank, counted, turns]
      · refine ⟨.guiStep none, trivial, by simp [Patient, gui], Or.inr ⟨resting.1, ?_⟩⟩
        simp [Desk.step, Desk.guiStep, gui, rank, counted, waited, turns]
      · refine ⟨.guiStep none, trivial, by simp [Patient, gui], Or.inr ⟨resting.1, ?_⟩⟩
        simp [Desk.step, Desk.guiStep, gui, rank, counted, turns, checking gui]
    · have on := alive.resolve_right counted
      have idle : d.sinks.caller = .idle := punctual.1
      refine ⟨.processingStep 0, trivial, by simp [Patient, idle], Or.inr ⟨resting.1, ?_⟩⟩
      obtain ⟨gui', pending', sinks⟩ := processingStep_books 0 d
      simp only [Desk.step, on, and_self, if_true]
      have before : rank d = 10 + passes d.sinks := by
        rw [rank, if_neg resting.2, if_neg resting.1, if_neg counted]
      rw [before, rank, gui', if_neg resting.2, if_neg resting.1, pending', sinks]
      rcases Detached.nearer detached (Nat.lt_of_not_le counted) with done | nearer
      · rw [if_pos done]
        rcases gui with gui | gui | gui <;> simp [gui, turns] <;> omega
      · split
        · rcases gui with gui | gui | gui <;> simp [gui, turns] <;> omega
        · omega
  | taking named gui capturing clear retired =>
    exact ⟨.guiStep none, trivial, by simp [Patient, gui], Or.inl ⟨gui, rfl⟩⟩

end Desk

/-! ## The server -/

/-- A stop request finds the capture's own sink in place, or about to be, and nothing else
outstanding. -/
structure Settled (d : Desk μ) : Prop where
  alive : d.running = true ∧ d.processing = true
  path : ∃ file : CaptureFile μ, d.files[d.files.length - 1]? = some file ∧
    d.capturePath = file.path
  held : Held (d.files.length - 1) d.sinks
  taken : d.sinks.pendingSink = none
  flag : d.sinks.pendingDetach = false

/-- The next line of a client asks for a stop. -/
def AsksStop (verb : List Char → Option String) (client : Nat) (s : Server μ) : Prop :=
  ∃ buffered, s.partials.lookup client = some buffered ∧ '\n' ∈ buffered ∧
    verb (buffered.takeWhile (· ≠ '\n')) = some kStopVerb

def Prudent (verb : List Char → Option String) (s : Server μ) : ControlServer.Action μ → Prop
  | .controller a => s.waiting ≠ [] → Patient s.desk a
  | .nextLine client => s.desk.gui = .ready → s.desk.capturing = true → AsksStop verb client s →
      Settled s.desk
  | _ => True

/-- The requests that were answered. -/
def answered (replies : List Reply) : List StopRequest :=
  replies.filterMap fun
    | .stopped request _ _ _ => some request
    | .error _ _ => none

/-- The answer is the file that was captured to, as it went on record, and what it holds. -/
def Right (d : Desk μ) (r : StopRequest) (filePath : Path) (bytes record : Nat) : Prop :=
  ∃ (file : CaptureFile μ) (finished : Finished μ), d.files[r.file]? = some file ∧
    d.finished[record]? = some finished ∧ finished.path = file.path ∧
    finished.bytes = file.bytes ∧ filePath = finished.renamed.getD file.path ∧ bytes = file.bytes

theorem Right.still {d e : Desk μ} {r : StopRequest} {filePath : Path} {bytes record : Nat}
    (h : Right d r filePath bytes record) (same : e.files[r.file]? = d.files[r.file]?)
    (grown : d.finished <+: e.finished) : Right e r filePath bytes record := by
  obtain ⟨file, finished, present, there, rest⟩ := h
  refine ⟨file, finished, same.trans present, ?_, rest⟩
  obtain ⟨more, whole⟩ := grown
  rw [← whole, List.getElem?_append_left (List.getElem?_eq_some_iff.mp there).1]
  exact there

/-- A step puts one file on record at most. -/
theorem finished_step (d : Desk μ) (a : CaptureController.Action μ) :
    (d.step a).finished = d.finished ∨
      ∃ record, (d.step a).finished = d.finished ++ [record] := by
  have started : ∀ works, (d.startMonitoring works).finished = d.finished := by
    intro works
    rw [Desk.startMonitoring]
    split <;> rfl
  cases a with
  | startMonitoring works =>
    simp only [Desk.step]
    split
    · exact Or.inl (started works)
    · exact Or.inl rfl
  | startCapture works file =>
    simp only [Desk.step, Desk.startCapture]
    split
    · split
      · exact Or.inl rfl
      · split
        · cases file with
          | none => exact Or.inl (started works)
          | some file => exact Or.inl (started works)
        · exact Or.inl (started works)
    · exact Or.inl rfl
  | stopCapture =>
    simp only [Desk.step, Desk.stopCapture]
    split
    · split
      · exact Or.inl rfl
      · exact Or.inl rfl
    · exact Or.inl rfl
  | stopMonitoring => exact Or.inl rfl
  | tick =>
    simp only [Desk.step]
    split
    · exact Or.inl rfl
    · exact Or.inl rfl
  | guiStep renamed =>
    simp only [Desk.step]
    cases gui : d.gui with
    | taking =>
      simp only [Desk.guiStep, gui]
      exact Or.inr ⟨_, rfl⟩
    | checking =>
      simp only [Desk.guiStep, gui, Desk.finishRun]
      split
      · split
        · exact Or.inr ⟨_, rfl⟩
        · exact Or.inl rfl
      · exact Or.inl rfl
    | ready => exact Or.inl (by simp only [Desk.guiStep, gui])
    | starting =>
      simp only [Desk.guiStep, gui]
      split
      · exact Or.inl rfl
      · exact Or.inl rfl
    | stopping =>
      simp only [Desk.guiStep, gui]
      split
      · exact Or.inl rfl
      · exact Or.inl rfl
    | collecting =>
      simp only [Desk.guiStep, gui]
      split
      · exact Or.inl rfl
      · exact Or.inl rfl
  | processingStep flushed =>
    simp only [Desk.step]
    split
    · rw [Desk.processingStep]
      dsimp only
      split
      · exact Or.inl (grow_unmoved d.sinks.sink 0 flushed d).finished
      · exact Or.inl rfl
    · exact Or.inl rfl
  | write samples bytes =>
    simp only [Desk.step]
    split
    · exact Or.inl (grow_unmoved d.sinks.sink samples bytes d).finished
    · exact Or.inl rfl
  | leave =>
    simp only [Desk.step]
    split
    · exact Or.inl rfl
    · exact Or.inl rfl
  | close flushed =>
    simp only [Desk.step]
    split
    · exact Or.inl (grow_unmoved d.sinks.sink 0 flushed d).finished
    · exact Or.inl rfl

/-- Whoever waits does so for one file, which is attended to; who was answered was answered
rightly, and every request that was taken up is answered, waits, or went with its client. -/
structure Kept (s : Server μ) : Prop where
  basic : Basic s.desk
  attended : s.waiting = [] ∨
    ∃ f, (∀ r ∈ s.waiting, r.file = f ∧ s.connected r.client = true) ∧ Attended f s.desk
  right : ∀ r filePath bytes record, .stopped r filePath bytes record ∈ s.replies →
    Right s.desk r filePath bytes record ∧ Gone r.file s.desk
  once : ((answered s.replies ++ s.waiting ++ s.dropped).map StopRequest.number).Perm
    (List.range s.accepted)

section Serving

variable {s : Server μ}

theorem answered_append (first second : List Reply) :
    answered (first ++ second) = answered first ++ answered second :=
  List.filterMap_append ..

theorem answered_stopped (requests : List StopRequest) (filePath : Path) (bytes record : Nat) :
    answered (requests.map fun r => .stopped r filePath bytes record) = requests := by
  rw [answered, List.filterMap_map]
  exact List.filterMap_some

theorem controller_quiet {a : CaptureController.Action μ}
    (quiet : (s.desk.step a).finished = s.desk.finished) :
    s.controller a = { s with desk := s.desk.step a } := by
  rw [Server.controller, quiet, List.getElem?_eq_none (Nat.le_refl _)]

theorem controller_finish {a : CaptureController.Action μ} {record : Finished μ}
    (grown : (s.desk.step a).finished = s.desk.finished ++ [record]) :
    s.controller a = { s with desk := s.desk.step a }.captureFinished (s.desk.step a).capturePath
      record.bytes s.desk.finished.length := by
  have last : (s.desk.finished ++ [record])[s.desk.finished.length]? = some record :=
    List.getElem?_concat_length
  rw [Server.controller, grown, last]

theorem Kept.controller (h : Kept s) {a : CaptureController.Action μ}
    (prudent : s.waiting ≠ [] → Patient s.desk a) : Kept (s.controller a) := by
  have basic := h.basic.step a
  have known : ∀ r filePath bytes record, .stopped r filePath bytes record ∈ s.replies →
      Right (s.desk.step a) r filePath bytes record ∧ Gone r.file (s.desk.step a) := by
    intro r filePath bytes record member
    obtain ⟨right, gone⟩ := h.right r filePath bytes record member
    obtain ⟨gone', same⟩ := gone.step a
    refine ⟨right.still same ?_, gone'⟩
    rcases finished_step s.desk a with quiet | ⟨more, grown⟩
    · exact quiet ▸ List.prefix_rfl
    · rw [grown]
      exact List.prefix_append _ _
  rcases finished_step s.desk a with quiet | ⟨record, grown⟩
  · rw [controller_quiet quiet]
    refine ⟨basic, ?_, known, h.once⟩
    rcases h.attended with none | ⟨f, mine, attended⟩
    · exact Or.inl none
    by_cases some : s.waiting = []
    · exact Or.inl some
    refine Or.inr ⟨f, mine, (attended.step h.basic (prudent some) ?_).left⟩
    rintro renamed rfl taking
    obtain ⟨-, record, -, grown, -⟩ := attended.answers taking renamed
    have length := congrArg List.length (quiet.symm.trans grown)
    simp at length
  · rw [controller_finish grown]
    rcases h.attended with none | ⟨f, mine, attended⟩
    · refine ⟨basic, Or.inl rfl, ?_, ?_⟩
      · intro r filePath bytes k member
        simp only [Server.captureFinished, none, List.filter_nil, List.map_nil,
          List.append_nil] at member
        exact known r filePath bytes k member
      · simpa only [Server.captureFinished, none, List.filter_nil, List.map_nil,
          List.append_nil] using h.once
    by_cases some : s.waiting = []
    · refine ⟨basic, Or.inl rfl, ?_, ?_⟩
      · intro r filePath bytes k member
        simp only [Server.captureFinished, some, List.filter_nil, List.map_nil,
          List.append_nil] at member
        exact known r filePath bytes k member
      · simpa only [Server.captureFinished, some, List.filter_nil, List.map_nil,
          List.append_nil] using h.once
    -- a file goes on record while a request waits: it is the file that was stopped
    obtain ⟨renamed, rfl, taking⟩ : ∃ renamed, a = .guiStep renamed ∧ s.desk.gui = .taking := by
      by_contra other
      have quiet := (attended.step h.basic (prudent some) fun renamed same taking =>
        other ⟨renamed, same, taking⟩).right
      have length := congrArg List.length (quiet.symm.trans grown)
      simp at length
    obtain ⟨file, record', present, grown', path, own, name, bytes, gone, files⟩ :=
      attended.answers taking renamed
    obtain rfl : record = record' := by
      have same := List.append_cancel_left (grown.symm.trans grown')
      exact List.singleton_inj.mp same
    have everyone : (s.waiting.filter fun r => s.connected r.client) = s.waiting :=
      List.filter_eq_self.mpr fun r member => (mine r member).right
    have replies : (Server.captureFinished (s.desk.step (.guiStep renamed)).capturePath record.bytes
        s.desk.finished.length { s with desk := s.desk.step (.guiStep renamed) }).replies =
        s.replies ++ s.waiting.map fun r => .stopped r (s.desk.step (.guiStep renamed)).capturePath
          record.bytes s.desk.finished.length := by
      simp only [Server.captureFinished, Server.connected] at everyone ⊢
      rw [everyone]
    refine ⟨basic, Or.inl rfl, ?_, ?_⟩
    · intro r filePath bytes' k member
      rw [replies] at member
      rcases List.mem_append.mp member with old | new
      · exact known r filePath bytes' k old
      · obtain ⟨q, waits, same⟩ := List.mem_map.mp new
        obtain ⟨rfl, rfl, rfl, rfl⟩ := Reply.stopped.inj same
        obtain rfl := (mine q waits).left
        refine ⟨⟨file, record, ?_, ?_, own, bytes, ?_, bytes⟩, gone⟩
        · exact (congrArg (·[q.file]?) files).trans present
        · exact (congrArg (·[s.desk.finished.length]?) grown).trans List.getElem?_concat_length
        · rw [name]
          exact path
    · rw [replies, answered_append, answered_stopped]
      simpa [Server.captureFinished] using h.once

theorem Kept.reply (h : Kept s) (client : Nat) (about : Nat) (message : String) :
    Kept (s.reply client (.error about message)) := by
  rw [Server.reply]
  split
  · refine ⟨h.basic, h.attended, ?_, ?_⟩
    · intro r filePath bytes record member
      rcases List.mem_append.mp member with old | new
      · exact h.right r filePath bytes record old
      · cases List.mem_singleton.mp new
    · rw [answered_append]
      simpa [answered] using h.once
  · exact h

theorem Kept.partials (h : Kept s) {partials : List (Nat × List Char)}
    (stays : ∀ client, (s.partials.lookup client).isSome → (partials.lookup client).isSome) :
    Kept { s with partials } := by
  refine ⟨h.basic, ?_, h.right, h.once⟩
  rcases h.attended with none | ⟨f, mine, attended⟩
  · exact Or.inl none
  · exact Or.inr ⟨f, fun r member => ⟨(mine r member).left, stays _ (mine r member).right⟩, attended⟩

theorem lookup_filter_ne {α : Type} (l : List (Nat × α)) {client other : Nat} (apart : other ≠ client) :
    (l.filter (·.1 ≠ client)).lookup other = l.lookup other := by
  induction l with
  | nil => rfl
  | cons first rest ih =>
    by_cases same : first.1 = client
    · have skipped : (other == first.1) = false := by
        rw [same]
        exact beq_false_of_ne apart
      rw [List.filter_cons_of_neg (by simp [same]), ih, List.lookup_cons, skipped]
    · rw [List.filter_cons_of_pos (by simp [same]), List.lookup_cons, List.lookup_cons, ih]

theorem lookup_map_key {α : Type} (l : List (Nat × α)) (g : Nat × α → Nat × α)
    (keys : ∀ p, (g p).1 = p.1) (client : Nat) :
    ((l.map g).lookup client).isSome = (l.lookup client).isSome := by
  induction l with
  | nil => rfl
  | cons first rest ih =>
    rw [List.map_cons, List.lookup_cons, List.lookup_cons, keys]
    split
    · rfl
    · exact ih

/-- A client that goes takes its requests with it, and leaves the others'. -/
theorem Kept.forget (h : Kept s) (client : Nat) : Kept (s.forget client) := by
  refine ⟨h.basic, ?_, h.right, ?_⟩
  · rcases h.attended with none | ⟨f, mine, attended⟩
    · refine Or.inl ?_
      simp only [Server.forget, none, List.filter_nil]
    · refine Or.inr ⟨f, fun r member => ?_, attended⟩
      obtain ⟨waits, apart⟩ := List.mem_filter.mp member
      refine ⟨(mine r waits).left, ?_⟩
      have other : r.client ≠ client := of_decide_eq_true apart
      rw [Server.connected, Server.forget]
      dsimp only
      rw [lookup_filter_ne _ other]
      exact (mine r waits).right
  · have parts : (s.waiting.filter (·.client ≠ client) ++ s.waiting.filter (·.client = client)).Perm
        s.waiting := by
      have both := List.filter_append_perm (fun r : StopRequest => decide (r.client ≠ client)) s.waiting
      simpa using both
    have whole : (answered s.replies ++ s.waiting.filter (·.client ≠ client) ++
        (s.dropped ++ s.waiting.filter (·.client = client))).Perm
        (answered s.replies ++ s.waiting ++ s.dropped) := by
      rw [List.append_assoc, List.append_assoc]
      refine List.Perm.append_left _ ?_
      refine (List.Perm.append_left _ List.perm_append_comm).trans ?_
      rw [← List.append_assoc]
      exact parts.append_right _
    exact (whole.map _).trans h.once

/-- A capture that is settled is attended to from the stop on. -/
theorem Settled.attended {d : Desk μ} (settled : Settled d) (basic : Basic d)
    (ready : d.gui = .ready) (capturing : d.capturing = true) :
    Attended (d.files.length - 1) (d.step .stopCapture) := by
  obtain ⟨alive, path, held, taken, flag⟩ := settled
  have opened : d.files.length = d.files.length - 1 + 1 := by
    obtain ⟨file, present, -⟩ := path
    have := (List.getElem?_eq_some_iff.mp present).1
    omega
  simp only [Desk.step, ready, if_true, Desk.stopCapture, capturing]
  exact .stopping ⟨basic.alive alive.1, opened, path⟩ rfl alive
    (held.of_eq taken.symm rfl rfl) rfl (Or.inl ⟨rfl, flag⟩)

theorem stopCapture_finished (d : Desk μ) : (d.step .stopCapture).finished = d.finished := by
  simp only [Desk.step, Desk.stopCapture]
  split
  · split
    · rfl
    · rfl
  · rfl

theorem Kept.handleStop (h : Kept s) (client : Nat) (known : s.connected client = true)
    (ready : s.desk.gui = .ready) (settled : s.desk.capturing = true → Settled s.desk) :
    Kept (s.handleStop client) := by
  rw [Server.handleStop]
  split
  · exact h.reply client client _
  rename_i capturing
  rw [not_not] at capturing
  have nobody : s.waiting = [] := by
    rcases h.attended with none | ⟨f, -, attended⟩
    · exact none
    · exact absurd ((attended.idle ready).symm.trans capturing) (by decide)
  refine ⟨h.basic.step .stopCapture, Or.inr ⟨_, ?_, (settled capturing).attended h.basic ready capturing⟩,
    ?_, ?_⟩
  · intro r member
    rw [nobody, List.nil_append] at member
    obtain rfl := List.mem_singleton.mp member
    exact ⟨rfl, known⟩
  · intro r filePath bytes record member
    obtain ⟨right, gone⟩ := h.right r filePath bytes record member
    obtain ⟨gone', same⟩ := gone.step .stopCapture
    exact ⟨right.still same (stopCapture_finished s.desk ▸ List.prefix_rfl), gone'⟩
  · have before := h.once
    rw [nobody] at before ⊢
    rw [List.range_succ]
    refine List.Perm.trans ?_ (before.append_right _)
    simp only [List.append_nil, List.nil_append, List.map_append, List.map_cons, List.map_nil]
    rw [List.append_assoc, List.append_assoc]
    exact List.Perm.append_left _ List.perm_append_comm

theorem Kept.nextLine (h : Kept s) {verb : List Char → Option String} {client : Nat}
    (ready : s.desk.gui = .ready)
    (settled : s.desk.capturing = true → AsksStop verb client s → Settled s.desk) :
    Kept (s.nextLine verb client) := by
  rw [Server.nextLine]
  split
  · exact h
  rename_i buffered there
  split
  · rename_i line
    have keys : ∀ p : Nat × List Char, (if p.1 = client then
        (client, (buffered.dropWhile (· ≠ '\n')).drop 1) else p).1 = p.1 := by
      intro p
      split
      · rename_i same
        exact same.symm
      · rfl
    have read : Kept { s with
        partials := s.partials.map fun p => if p.1 = client then
          (client, (buffered.dropWhile (· ≠ '\n')).drop 1) else p } :=
      h.partials fun other known => by rwa [lookup_map_key _ _ keys]
    rw [Server.handleRequest]
    split
    · exact read.reply client client _
    rename_i v request
    split
    · rename_i stops
      subst stops
      refine read.handleStop client ?_ ready fun capturing =>
        settled capturing ⟨buffered, there, line, request⟩
      rw [Server.connected]
      rw [lookup_map_key _ _ keys, there]
      rfl
    · exact read.reply client client _
  split
  · exact (h.reply client client _).forget client
  · exact h

theorem Kept.step (h : Kept s) {verb : List Char → Option String} {a : ControlServer.Action μ}
    (prudent : Prudent verb s a) : Kept (s.step verb a) := by
  cases a with
  | controller a => exact h.controller prudent
  | newConnection client =>
    simp only [Server.step]
    split
    · refine h.partials fun other known => ?_
      rw [List.lookup_append]
      cases there : s.partials.lookup other with
      | none => simp [there] at known
      | some buffered => rfl
    · exact h
  | readyRead client text =>
    simp only [Server.step]
    split
    · refine h.partials fun other known => ?_
      rwa [lookup_map_key]
      intro p
      split
      · rename_i same
        exact same.symm
      · rfl
    · exact h
  | nextLine client =>
    simp only [Server.step]
    split
    · rename_i ready
      exact h.nextLine ready (prudent ready)
    · exact h
  | disconnected client =>
    simp only [Server.step]
    split
    · exact h.forget client
    · exact h

/-- A request that waits is answered by steps the controller and the pipeline take alone. -/
theorem Kept.answerable (h : Kept s) (verb : List Char → Option String) {r : StopRequest}
    (waits : r ∈ s.waiting) : ∃ actions : List (CaptureController.Action μ),
    (∀ a ∈ actions, Mechanical a) ∧
      r ∈ answered ((machine verb).trace s (actions.map .controller)).2.replies := by
  have some : s.waiting ≠ [] := List.ne_nil_of_mem waits
  obtain ⟨f, mine, attended⟩ := h.attended.resolve_left some
  generalize measure : rank s.desk = n
  induction n using Nat.strongRecOn generalizing s with
  | ind n ih =>
    obtain ⟨a, mechanical, patient, progress⟩ := attended.progress
    rcases progress with ⟨taking, rfl⟩ | ⟨other, nearer⟩
    · refine ⟨[.guiStep none], fun b member => ?_, ?_⟩
      · obtain rfl := List.mem_singleton.mp member
        trivial
      · obtain ⟨file, record, -, grown, -⟩ := attended.answers taking none
        have everyone : (s.waiting.filter fun r => s.connected r.client) = s.waiting :=
          List.filter_eq_self.mpr fun r member => (mine r member).right
        have after : ((machine verb).trace s ([.guiStep none].map .controller)).2 =
            s.controller (.guiStep none) := rfl
        have grown' : (s.desk.step (.guiStep none)).finished = s.desk.finished ++ [record] := grown
        rw [after, controller_finish grown']
        simp only [Server.captureFinished, Server.connected] at everyone ⊢
        rw [everyone, answered_append, answered_stopped]
        exact List.mem_append_right _ waits
    · obtain ⟨attended', quiet⟩ := attended.step h.basic patient fun _ _ => other
      have stays := controller_quiet quiet
      have kept : Kept (s.controller a) := h.controller fun _ => patient
      rw [stays] at kept
      obtain ⟨actions, all, answer⟩ := ih (rank (s.desk.step a)) (measure ▸ nearer) kept waits some mine
        attended' rfl
      refine ⟨a :: actions, fun b member => ?_, ?_⟩
      · rcases List.mem_cons.mp member with rfl | later
        · exact mechanical
        · exact all b later
      · have after : ((machine verb).trace s ((a :: actions).map .controller)).2 =
            ((machine verb).trace (s.controller a) (actions.map .controller)).2 := rfl
        rw [after, stays]
        exact answer

end Serving

theorem kept_run {verb : List Char → Option String} {metadata : Metadata μ} {events : List Unit}
    {s : Server μ} (run : Run (machine verb) (Prudent verb) (start metadata) events s) : Kept s :=
  run.invariant ⟨⟨⟨Nat.le_refl 0, trivial⟩, nofun⟩, Or.inl rfl, nofun, List.Perm.refl _⟩
    fun _ _ kept prudent => kept.step prudent

/-- In every prudent run each stop request that was taken up is answered once, waits, or went
with its client; an answer has the path and the bytes of the file that was captured to when
the request was made; and whoever waits is answered by steps that the controller and the
pipeline take alone. -/
theorem stops_answered {verb : List Char → Option String} {metadata : Metadata μ}
    {events : List Unit} {s : Server μ}
    (run : Run (machine verb) (Prudent verb) (start metadata) events s) :
    ((answered s.replies ++ s.waiting ++ s.dropped).map StopRequest.number).Perm
        (List.range s.accepted) ∧
      (∀ r filePath bytes record, .stopped r filePath bytes record ∈ s.replies →
        Right s.desk r filePath bytes record) ∧
      ∀ r ∈ s.waiting, ∃ actions : List (CaptureController.Action μ),
        (∀ a ∈ actions, Mechanical a) ∧
          r ∈ answered ((machine verb).trace s (actions.map .controller)).2.replies := by
  have kept := kept_run run
  refine ⟨kept.once, fun r filePath bytes record member => ?_, fun r waits => ?_⟩
  · exact (kept.right r filePath bytes record member).left
  · exact kept.answerable verb waits

/-! ## Two runs -/

/-- `Settled` as a check on computed runs, between two passes. -/
def settled (d : Desk μ) : Bool :=
  d.running && d.processing && (d.files[d.files.length - 1]?.map CaptureFile.path == some d.capturePath) &&
    d.sinks.sink == some (.attached (d.files.length - 1)) && d.sinks.pendingSink.isNone &&
    d.sinks.pass == .idle && !d.sinks.pendingDetach

theorem settled_sound (d : Desk μ) (h : settled d = true) : Settled d := by
  simp only [settled, Bool.and_eq_true, beq_iff_eq, Bool.not_eq_true', Option.isNone_iff_eq_none,
    Option.map_eq_some_iff] at h
  obtain ⟨⟨⟨⟨⟨alive, file, present, path⟩, sink⟩, pending⟩, pass⟩, flag⟩ := h
  exact ⟨alive, ⟨file, present, path.symm⟩, .installed sink pending (Or.inl (by rw [pass]; trivial)),
    pending, flag⟩

/-- `Prudent` as a check on computed runs. -/
def prudent (s : Server μ) : ControlServer.Action μ → Bool
  | .controller a => s.waiting.isEmpty ||
    match a with
    | .startCapture _ _ => s.desk.gui != .ready
    | .guiStep _ => s.desk.gui != .stopping || s.desk.sinks.pass == .idle
    | .processingStep _ => s.desk.sinks.caller != .detached
    | .leave | .close _ => false
    | _ => true
  | .nextLine _ => settled s.desk
  | _ => true

theorem prudent_sound (verb : List Char → Option String) (s : Server μ) (a : ControlServer.Action μ)
    (h : prudent s a = true) : Prudent verb s a := by
  cases a with
  | controller a =>
    intro some
    have checks := h
    simp only [prudent, Bool.or_eq_true, List.isEmpty_iff, some, false_or] at checks
    cases a with
    | startCapture works file =>
      cases file with
      | none => trivial
      | some file =>
        intro ready
        simp [ready] at checks
    | guiStep renamed =>
      intro stopping _
      rcases Bool.or_eq_true .. ▸ checks with other | idle
      · simp [stopping] at other
      · rw [beq_iff_eq.mp idle]
        trivial
    | processingStep flushed =>
      intro detached
      simp [detached] at checks
    | leave => cases checks
    | close flushed => cases checks
    | _ => trivial
  | nextLine client => exact fun _ _ _ => settled_sound s.desk h
  | _ => trivial

def stopLine : List Char := "\x7b\"verb\":\"stop\"\x7d".toList

/-- The verb of the one line that is sent here. -/
def sampleVerb (line : List Char) : Option String := if line = stopLine then some "stop" else none

/-- A file is captured to, and a client asks for a stop. -/
def asked : List (ControlServer.Action Unit) :=
  [.newConnection 1] ++ opening.map .controller ++
    [.readyRead 1 (stopLine ++ ['\n']), .nextLine 1, .controller (.guiStep none),
      .controller (.guiStep none)]

def collected : List (ControlServer.Action Unit) :=
  List.replicate 5 (.controller (.processingStep 1)) ++
    [.controller .tick, .controller (.guiStep none), .controller (.guiStep none)]

theorem asked_answered :
    ((machine sampleVerb).trace (start ⟨"", ()⟩) (asked ++ collected)).2.replies =
        [.stopped ⟨0, 1, 0⟩ ⟨"captures", "a"⟩ 9 0] ∧
      Right ((machine sampleVerb).trace (start ⟨"", ()⟩) (asked ++ collected)).2.desk ⟨0, 1, 0⟩
        ⟨"captures", "a"⟩ 9 0 := by
  have run := Run.of_trace (machine sampleVerb) prudent (start ⟨"", ()⟩) (asked ++ collected)
    (by decide +kernel) (prudent_sound sampleVerb)
  have replies : ((machine sampleVerb).trace (start ⟨"", ()⟩) (asked ++ collected)).2.replies =
      [.stopped ⟨0, 1, 0⟩ ⟨"captures", "a"⟩ 9 0] := by decide +kernel
  exact ⟨replies, (stops_answered run).right.left _ _ _ _ (by rw [replies]; exact List.mem_singleton_self _)⟩

/-- Before the tick the next capture is started. -/
def overtaken : List (ControlServer.Action Unit) :=
  asked ++ [.controller (.startCapture true (some (⟨"captures", "b"⟩, ()))),
    .controller (.guiStep none), .controller (.guiStep none)] ++ collected

/-- The answer has the path of the later capture. -/
theorem overtaken_misnamed : ¬ ∀ (verb : List Char → Option String) (metadata : Metadata Unit)
    (events : List Unit) (s : Server Unit),
    Run (machine verb) Any (start metadata) events s →
      ∀ r filePath bytes record, .stopped r filePath bytes record ∈ s.replies →
        Right s.desk r filePath bytes record := by
  intro claim
  have run := Run.of_trace (machine sampleVerb) (fun _ _ => true) (start ⟨"", ()⟩) overtaken
    (by decide) (fun _ _ _ => trivial)
  have replies : ((machine sampleVerb).trace (start ⟨"", ()⟩) overtaken).2.replies =
      [.stopped ⟨0, 1, 0⟩ ⟨"captures", "b"⟩ 9 0] := by decide +kernel
  obtain ⟨file, finished, present, there, own, -⟩ := claim sampleVerb ⟨"", ()⟩ _ _ run _ _ _ _
    (by rw [replies]; exact List.mem_singleton_self _)
  have first : ((machine sampleVerb).trace (start ⟨"", ()⟩) overtaken).2.desk.files[0]? =
      some ⟨⟨"captures", "a"⟩, ⟨"a", ()⟩, 4, 9⟩ := by decide +kernel
  have record : ((machine sampleVerb).trace (start ⟨"", ()⟩) overtaken).2.desk.finished[0]? =
      some ⟨⟨"captures", "b"⟩, ⟨"b", ()⟩, none, 4, 9⟩ := by decide +kernel
  obtain rfl := Option.some.inj (first.symm.trans present)
  obtain rfl := Option.some.inj (record.symm.trans there)
  exact absurd own (by decide)

end StopRequests
