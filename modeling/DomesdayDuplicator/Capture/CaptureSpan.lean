import DomesdayDuplicator.Capture.SpanAccount

/-!
# The span of a capture and the samples in its file

A pipeline under every order of its callers' requests, its passes, its buffers and its
publications. The span of the metrics is the file's as long as the run begins without a
file and no buffer is refused that was tallied.
-/

namespace CaptureSpan

open Execution SpanAccount
open SinkChange (Sink Pipeline Pass Caller)

structure State where
  sinks : Pipeline Nat
  /-- Sinks that store data, handed over so far. -/
  opened : Nat
  running : Bool
  /-- The processing thread is in its loop. -/
  processing : Bool
  account : Account

inductive Action where
  -- the callers
  | start (prepared : Bool) (sink : Option (Sink Unit))
  | attachSink
  | detachSink
  | callerStep
  -- the processing thread
  | processingStep
  | buffer (values : List Nat) (fate : Fate)
  | publish
  | leave
  -- the control thread
  | close

/-- A sink that stores data is a new one. -/
def handed (opened : Nat) : Option (Sink Unit) → Option (Sink Nat)
  | some (.attached _) => some (.attached opened)
  | some .null => some .null
  | none => none

namespace State

/-- The processing thread may go on to the next thing. -/
def ready (s : State) : Bool :=
  s.running && s.processing && !s.account.due && !s.account.failed

def start (prepared : Bool) (sink : Option (Sink Unit)) (s : State) : State :=
  let first := if prepared then handed s.opened sink else none
  { sinks := { SinkChange.start first with retiredSink := s.sinks.retiredSink }
    opened := if sink.isSome then s.opened + 1 else s.opened
    running := prepared
    processing := prepared
    account := s.account.begin first }

/-- The control thread finishes the sink and publishes what it has come to. -/
def close (s : State) : State :=
  { s with running := false, account := s.account.publish s.sinks.sink }

def step (s : State) : Action → State
  | .start prepared sink =>
    if s.running = false ∧ s.sinks.caller = .idle then s.start prepared sink else s
  | .attachSink =>
    if s.sinks.caller = .idle then
      { s with sinks := (SinkChange.attachSink s.opened s.sinks).1, opened := s.opened + 1 }
    else s
  | .detachSink =>
    if s.sinks.caller = .idle then { s with sinks := (SinkChange.detachSink s.sinks).1 } else s
  | .callerStep => { s with sinks := (SinkChange.callerStep s.sinks).1 }
  | .processingStep =>
    if s.ready then
      { s with
        sinks := SinkChange.processingStep s.sinks
        account := s.account.passStep s.sinks }
    else s
  | .buffer values fate =>
    if s.ready ∧ s.sinks.pass = .idle ∧ possible s.sinks.sink fate then
      { s with account := s.account.buffer s.sinks.sink values fate }
    else s
  | .publish =>
    if s.running ∧ s.account.due then { s with account := s.account.publish s.sinks.sink } else s
  | .leave =>
    if s.running ∧ s.processing ∧ s.account.due = false ∧ s.sinks.pass = .idle then
      { s with processing := false, account := { s.account with due := true } }
    else s
  | .close => if s.running ∧ s.processing = false ∧ s.account.due = false then s.close else s

end State

/-- A pipeline that has not been started. -/
def fresh : State := ⟨SinkChange.start none, 0, false, false, blank⟩

def machine : Machine State Action Unit := ⟨fun s a => (s.step a, ())⟩

/-- No run begins with a sink that stores data, and such a sink is given what was tallied. -/
def Faithful (s : State) : Action → Prop
  | .start prepared sink => s.running = false → prepared = true → ∀ u, sink ≠ some (.attached u)
  | .buffer values fate => storing s.sinks.sink ≠ none → Kept values fate
  | _ => True

structure Sound (s : State) : Prop where
  ordered : ∃ n, Ordered s.opened n s.sinks s.account
  balanced : Balanced s.sinks s.account
  told : Told s.account

theorem sound_fresh : Sound fresh := by
  constructor
  · exact ⟨0, Nat.le_refl _, fun _ _ => rfl, nofun, nofun, nofun⟩
  · exact ⟨rfl, nofun, rfl⟩
  · exact ⟨rfl, nofun⟩

theorem Sound.start {s : State} (h : Sound s) {prepared : Bool} {sink : Option (Sink Unit)}
    (faithful : prepared = true → ∀ u, sink ≠ some (.attached u)) :
    Sound (s.start prepared sink) := by
  obtain ⟨n, ordered⟩ := h.ordered
  have first : (if prepared then handed s.opened sink else none) = none ∨
      (if prepared then handed s.opened sink else none) = some .null := by
    cases prepared with
    | false => exact Or.inl rfl
    | true =>
      match sink, faithful rfl with
      | none, _ => exact Or.inl rfl
      | some .null, _ => exact Or.inr rfl
      | some (.attached u), not => exact absurd rfl (not u)
  constructor
  · have begun := ordered.begin (s.start prepared sink).sinks first rfl rfl
    refine ⟨n, ?_, begun.empty, begun.held, ?_, ?_⟩
    · have bound := ordered.bound
      simp only [State.start]
      split
      · omega
      · exact bound
    · exact nofun
    · exact nofun
  · exact Balanced.begin (s.start prepared sink).sinks first s.account
  · exact h.told

theorem sound_step {s : State} (h : Sound s) {a : Action} (faithful : Faithful s a) :
    Sound (s.step a) := by
  obtain ⟨n, ordered⟩ := h.ordered
  cases a with
  | start prepared sink =>
    simp only [State.step]
    split
    · rename_i idle
      exact h.start (faithful idle.1)
    · exact h
  | attachSink =>
    simp only [State.step]
    split
    · exact ⟨⟨n, ordered.attach⟩, h.balanced.of_eq rfl rfl rfl rfl, h.told⟩
    · exact h
  | detachSink =>
    simp only [State.step]
    split
    · exact ⟨⟨n, ordered.of_eq rfl rfl rfl (Or.inr rfl)⟩, h.balanced.of_eq rfl rfl rfl rfl, h.told⟩
    · exact h
  | callerStep =>
    obtain ⟨sink, pass, pending⟩ := callerStep_same s.sinks
    exact ⟨⟨n, ordered.of_eq rfl sink pass (Or.inl pending)⟩, h.balanced.of_eq sink rfl rfl rfl,
      h.told⟩
  | processingStep =>
    simp only [State.step]
    split
    · refine ⟨ordered.processingStep, h.balanced.processingStep ordered, ?_⟩
      exact told_of_stats h.told (passStep_same s.sinks s.account).2
    · exact h
  | buffer values fate =>
    simp only [State.step]
    split
    · refine ⟨⟨n, ordered.buffer values fate⟩, h.balanced.buffer faithful, ?_⟩
      exact told_of_stats h.told (buffer_stats s.sinks.sink values fate s.account)
    · exact h
  | publish =>
    simp only [State.step]
    split
    · exact ⟨⟨n, ordered.of_eq rfl rfl rfl (Or.inl rfl)⟩, h.balanced.of_eq rfl rfl rfl rfl,
        h.balanced.publish⟩
    · exact h
  | leave =>
    simp only [State.step]
    split
    · exact ⟨⟨n, ordered.of_eq rfl rfl rfl (Or.inl rfl)⟩, h.balanced.of_eq rfl rfl rfl rfl, h.told⟩
    · exact h
  | close =>
    simp only [State.step]
    split
    · exact ⟨⟨n, ordered.of_eq rfl rfl rfl (Or.inl rfl)⟩, h.balanced.of_eq rfl rfl rfl rfl,
        h.balanced.publish⟩
    · exact h

/-- What was published last, and what would be published at any moment, counts the samples
in the file of the sink in place, or of the last one to have been. -/
theorem span_counts {events : List Unit} {s : State} (run : Run machine Faithful fresh events s) :
    Told s.account ∧ Told (s.account.publish s.sinks.sink) := by
  have sound : Sound s := run.invariant sound_fresh fun _ _ sound ok => sound_step sound ok
  exact ⟨sound.told, sound.balanced.publish⟩

/-- `Faithful` as a check on computed runs. -/
def faithful (s : State) : Action → Bool
  | .start _ sink => sink != some (.attached ())
  | .buffer _ fate => fate == .whole || (storing s.sinks.sink).isNone
  | _ => true

theorem faithful_sound (s : State) (a : Action) (h : faithful s a = true) : Faithful s a := by
  cases a with
  | start prepared sink =>
    intro _ _ u same
    subst same
    simp [faithful] at h
  | buffer values fate =>
    intro inPlace
    rw [faithful, Bool.or_eq_true, beq_iff_eq, Option.isNone_iff_eq_none] at h
    rcases h with whole | none
    · exact Or.inl whole
    · exact absurd none inPlace
  | _ => trivial

/-- Monitoring, then a file is attached by a pass. -/
def attaching : List Action :=
  [.start true (some .null), .buffer [512, 513] .whole, .publish, .attachSink, .callerStep,
    .callerStep] ++ List.replicate 5 .processingStep

/-- The file is given three samples and detached. -/
def recording : List Action :=
  attaching ++ [.buffer [0, 600, 1023] .whole, .publish, .detachSink, .callerStep, .callerStep] ++
    List.replicate 5 .processingStep ++ [.buffer [7] .whole, .publish]

theorem recording_counts : Told (machine.trace fresh recording).2.account ∧
    (machine.trace fresh recording).2.account.stats.metrics.capture.sampleCount = 3 := by
  have run := Run.of_trace machine faithful fresh recording (by decide) faithful_sound
  exact ⟨(span_counts run).1, by decide⟩

/-- The disk is full: the sink takes one sample of three. -/
def full : List Action := attaching ++ [.buffer [0, 600, 1023] (.refused 1), .leave, .publish]

/-- Three samples are published of a file that holds one. -/
theorem full_miscounted : ¬ ∀ (events : List Unit) (s : State),
    Run machine Any fresh events s → Told s.account := by
  intro claim
  have run := Run.of_trace machine (fun _ _ => true) fresh full (by decide) fun _ _ _ => trivial
  have told := (claim _ _ run).2 (by decide)
  exact absurd told (by decide)

end CaptureSpan
