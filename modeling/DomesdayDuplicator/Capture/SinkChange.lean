import DomesdayDuplicator.Foundations.Execution
import Mathlib.Logic.Function.Iterate
import Mathlib.Tactic.ByContra

/-!
# Changing the sink of a running capture

`AttachSink` and `DetachSink` of `capture_pipeline.cpp` on the caller's thread and
`PerformPendingSinkChange` on the processing thread, one atomic access at a time.
The pointer and the flag are exchanged at different moments on both sides, so a
request can come between the two exchanges of one pass: the pass then takes the
flag of the request and the pointer of the one before it.
-/

namespace SinkChange

open Execution

universe u

variable {σ : Type u}

inductive Sink (σ : Type u) where
  | null
  | attached (sink : σ)
  deriving DecidableEq

inductive Request (σ : Type u) where
  | attach (sink : σ)
  | detach
  deriving DecidableEq

/-- Where the caller is: each call is an exchange, a store and a count. -/
inductive Caller where
  | idle
  | attaching
  | attached
  | detaching
  | detached
  deriving DecidableEq

/-- Where the processing thread is in `PerformPendingSinkChange`. -/
inductive Pass (σ : Type u) where
  | idle
  | loaded (requestsSeen : Nat)
  | taken (requestsSeen : Nat) (incoming : Option σ)
  | swapping (requestsSeen : Nat) (replacement : Sink σ)
  | swapped (requestsSeen : Nat)
  deriving DecidableEq

structure Pipeline (σ : Type u) where
  pendingSink : Option σ
  pendingDetach : Bool
  sinkChangeRequests : Nat
  sinkChangeCount : Nat
  sink : Option (Sink σ)
  retiredSink : Option (Sink σ)
  caller : Caller
  pass : Pass σ
  deriving DecidableEq

inductive Action (σ : Type u) where
  | attachSink (sink : σ)
  | detachSink
  | callerStep
  | processingStep

inductive Event (σ : Type u) where
  | quiet
  | requested (request : Request σ) (superseded : Option σ)
  | numbered (request : Nat)
  deriving DecidableEq

/-- `Start`, with the sink the capture begins with. -/
def start (sink : Option (Sink σ)) : Pipeline σ where
  pendingSink := none
  pendingDetach := false
  sinkChangeRequests := 0
  sinkChangeCount := 0
  sink := sink
  retiredSink := none
  caller := .idle
  pass := .idle

def attachSink (sink : σ) (p : Pipeline σ) : Pipeline σ × Event σ :=
  ({ p with pendingSink := some sink, caller := .attaching },
    .requested (.attach sink) p.pendingSink)

def detachSink (p : Pipeline σ) : Pipeline σ × Event σ :=
  ({ p with pendingSink := none, caller := .detaching }, .requested .detach p.pendingSink)

/-- What is left of a call after its exchange. -/
def callerStep (p : Pipeline σ) : Pipeline σ × Event σ :=
  match p.caller with
  | .idle => (p, .quiet)
  | .attaching => ({ p with pendingDetach := false, caller := .attached }, .quiet)
  | .detaching => ({ p with pendingDetach := true, caller := .detached }, .quiet)
  | .attached | .detached =>
    ({ p with sinkChangeRequests := p.sinkChangeRequests + 1, caller := .idle },
      .numbered (p.sinkChangeRequests + 1))

def replacement : Option σ → Sink σ
  | some sink => .attached sink
  | none => .null

/-- One access of `PerformPendingSinkChange`. -/
def processingStep (p : Pipeline σ) : Pipeline σ :=
  match p.pass with
  | .idle => { p with pass := .loaded p.sinkChangeRequests }
  | .loaded seen => { p with pendingSink := none, pass := .taken seen p.pendingSink }
  | .taken seen incoming =>
    { p with
      pendingDetach := false
      pass := if incoming.isNone && !p.pendingDetach then .idle
        else .swapping seen (replacement incoming) }
  | .swapping seen replacement =>
    { p with
      retiredSink := if p.sink.isSome then p.sink else p.retiredSink
      sink := some replacement
      pass := .swapped seen }
  | .swapped seen => { p with sinkChangeCount := seen, pass := .idle }

def step (p : Pipeline σ) : Action σ → Pipeline σ × Event σ
  | .attachSink sink => if p.caller = .idle then attachSink sink p else (p, .quiet)
  | .detachSink => if p.caller = .idle then detachSink p else (p, .quiet)
  | .callerStep => callerStep p
  | .processingStep => (processingStep p, .quiet)

def machine : Machine (Pipeline σ) (Action σ) (Event σ) := ⟨step⟩

/-! ## What was asked for -/

def Request.outcome : Request σ → Sink σ
  | .attach sink => .attached sink
  | .detach => .null

def Event.asked : Event σ → List (Option (Sink σ))
  | .requested request _ => [some request.outcome]
  | _ => []

/-- The sink to begin with, and what each request so far is to leave. -/
def outcomes (sink : Option (Sink σ)) (events : List (Event σ)) : List (Option (Sink σ)) :=
  sink :: events.flatMap Event.asked

/-- What the last request is to leave. -/
def wanted (sink : Option (Sink σ)) (events : List (Event σ)) : Option (Sink σ) :=
  (outcomes sink events).getLast (by simp [outcomes])

theorem wanted_append_quiet (sink : Option (Sink σ)) (events : List (Event σ)) {e : Event σ}
    (h : e.asked = []) : wanted sink (events ++ [e]) = wanted sink events := by
  simp [wanted, outcomes, h]

theorem wanted_append_requested (sink : Option (Sink σ)) (events : List (Event σ))
    (request : Request σ) (superseded : Option σ) :
    wanted sink (events ++ [.requested request superseded]) = some request.outcome := by
  simp only [wanted, outcomes, List.flatMap_append, List.flatMap_singleton, Event.asked,
    ← List.cons_append, List.getLast_append_singleton]

/-! ## A complete pass -/

section Pass

variable {p : Pipeline σ}

/-- Nothing is pending, and the processing thread alone makes nothing pending. -/
def Cleared (p : Pipeline σ) : Prop := p.pendingSink = none ∧ p.pendingDetach = false

theorem Cleared.iterate (h : Cleared p) (n : Nat) : Cleared (processingStep^[n] p) := by
  induction n with
  | zero => exact h
  | succ n ih =>
    rw [Function.iterate_succ_apply']
    generalize processingStep^[n] p = q at ih
    obtain ⟨pending, flag⟩ := ih
    cases pass : q.pass <;> simp [processingStep, pass, Cleared, pending, flag]

/-- A pass takes both marks before it can be over. -/
theorem cleared_of_pass (between : p.pass = .idle) {n : Nat} (positive : 0 < n)
    (complete : (processingStep^[n] p).pass = .idle) : Cleared (processingStep^[n] p) := by
  have loaded : (processingStep p).pass = .loaded p.sinkChangeRequests := by
    simp [processingStep, between]
  have taken : ∃ seen incoming, (processingStep (processingStep p)).pass = .taken seen incoming ∧
      (processingStep (processingStep p)).pendingSink = none := by
    simp [processingStep, between]
  obtain ⟨seen, incoming, taken, empty⟩ := taken
  match n with
  | 1 =>
    simp only [Function.iterate_one, loaded] at complete
    cases complete
  | 2 =>
    simp only [Function.iterate_succ_apply, Function.iterate_zero_apply, taken] at complete
    cases complete
  | n + 3 =>
    have both : Cleared (processingStep (processingStep (processingStep p))) := by
      generalize processingStep (processingStep p) = q at taken empty
      simp [processingStep, taken, Cleared, empty]
    simpa only [Function.iterate_succ_apply] using both.iterate n

end Pass

/-! ## The last request -/

/-- The sink a pass has taken and will install whatever the flag says. -/
def Pipeline.inHand (p : Pipeline σ) : Option σ :=
  match p.pass with
  | .taken _ incoming => incoming
  | _ => none

/-- The sink once the swap of the pass is made. -/
def Pipeline.settled (p : Pipeline σ) : Option (Sink σ) :=
  match p.pass with
  | .swapping _ replacement => some replacement
  | _ => p.sink

/-- What the passes leave if no further request comes. -/
def upcoming (p : Pipeline σ) : Option (Sink σ) :=
  match p.pendingSink.or p.inHand with
  | some sink => some (.attached sink)
  | none => if p.pendingDetach then some .null else p.settled

theorem upcoming_of_held {p : Pipeline σ} {sink : σ}
    (held : p.pendingSink.or p.inHand = some sink) : upcoming p = some (.attached sink) := by
  simp only [upcoming, held]

theorem upcoming_of_none {p : Pipeline σ} (held : p.pendingSink.or p.inHand = none) :
    upcoming p = if p.pendingDetach then some .null else p.settled := by
  simp only [upcoming, held]

structure Heading (w : Option (Sink σ)) (p : Pipeline σ) : Prop where
  upcoming : p.caller ≠ .detaching → upcoming p = w
  attaching : p.caller = .attaching → ∃ sink, w = some (.attached sink)
  detaching : p.caller = .detaching ∨ p.caller = .detached → w = some .null ∧ p.pendingSink = none

/-- No flag is stored while a pass holds a sink and has the flag still to take. -/
def Calm (p : Pipeline σ) : Action σ → Prop
  | .callerStep => p.caller = .detaching → p.inHand = none
  | _ => True

theorem heading_start (sink : Option (Sink σ)) : Heading sink (start sink) := by
  constructor
  · intro _
    rfl
  · simp [start]
  · simp [start]

variable {w : Option (Sink σ)} {p : Pipeline σ}

theorem Heading.callerStep (h : Heading w p) (calm : Calm p .callerStep) :
    Heading w (callerStep p).1 := by
  cases state : p.caller with
  | idle => simpa [SinkChange.callerStep, state] using h
  | attaching =>
    obtain ⟨sink, asked⟩ := h.attaching state
    have before := h.upcoming (by simp [state])
    constructor
    · intro _
      have cleared : (SinkChange.callerStep p).1 =
          { p with pendingDetach := false, caller := .attached } := by
        simp only [SinkChange.callerStep, state]
      rw [cleared, ← before]
      cases held : p.pendingSink.or p.inHand with
      | some taken => rw [upcoming_of_held held, upcoming_of_held (by exact held)]
      | none =>
        rw [upcoming_of_none held] at before ⊢
        rw [upcoming_of_none (by exact held)]
        cases flag : p.pendingDetach with
        | true => simp [flag, asked] at before
        | false => rfl
    · simp [SinkChange.callerStep, state]
    · simp [SinkChange.callerStep, state]
  | attached =>
    constructor
    · intro _
      rw [← h.upcoming (by simp [state])]
      simp [SinkChange.upcoming, SinkChange.callerStep, state, Pipeline.inHand, Pipeline.settled]
    · simp [SinkChange.callerStep, state]
    · simp [SinkChange.callerStep, state]
  | detaching =>
    obtain ⟨asked, empty⟩ := h.detaching (Or.inl state)
    have free := calm state
    constructor
    · intro _
      simp only [Pipeline.inHand] at free
      simp [SinkChange.upcoming, SinkChange.callerStep, state, Pipeline.inHand, empty, free, asked]
    · simp [SinkChange.callerStep, state]
    · simp [SinkChange.callerStep, state, asked, empty]
  | detached =>
    constructor
    · intro _
      rw [← h.upcoming (by simp [state])]
      simp [SinkChange.upcoming, SinkChange.callerStep, state, Pipeline.inHand, Pipeline.settled]
    · simp [SinkChange.callerStep, state]
    · simp [SinkChange.callerStep, state]

/-- A pass moves the marks along and changes nothing about where they lead. -/
theorem upcoming_processingStep (p : Pipeline σ) : upcoming (processingStep p) = upcoming p := by
  cases pass : p.pass with
  | idle => simp [upcoming, processingStep, pass, Pipeline.inHand, Pipeline.settled]
  | loaded seen =>
    cases pending : p.pendingSink <;>
      simp [upcoming, processingStep, pass, Pipeline.inHand, Pipeline.settled, pending]
  | taken seen incoming =>
    cases pending : p.pendingSink with
    | some sink => simp [upcoming, processingStep, pass, pending]
    | none =>
      cases incoming with
      | some sink => simp [upcoming, processingStep, pass, Pipeline.inHand, Pipeline.settled,
          pending, replacement]
      | none =>
        cases flag : p.pendingDetach <;>
          simp [upcoming, processingStep, pass, Pipeline.inHand, Pipeline.settled, pending, flag,
            replacement]
  | swapping seen r =>
    cases pending : p.pendingSink <;>
      simp [upcoming, processingStep, pass, Pipeline.inHand, Pipeline.settled, pending]
  | swapped seen =>
    cases pending : p.pendingSink <;>
      simp [upcoming, processingStep, pass, Pipeline.inHand, Pipeline.settled, pending]

theorem processingStep_caller (p : Pipeline σ) : (processingStep p).caller = p.caller := by
  cases pass : p.pass <;> simp [processingStep, pass]

theorem processingStep_pendingSink (p : Pipeline σ) (h : p.pendingSink = none) :
    (processingStep p).pendingSink = none := by
  cases pass : p.pass <;> simp [processingStep, pass, h]

theorem Heading.processingStep (h : Heading w p) : Heading w (processingStep p) := by
  constructor
  · rw [processingStep_caller, upcoming_processingStep]
    exact h.upcoming
  · rw [processingStep_caller]
    exact h.attaching
  · rw [processingStep_caller]
    intro state
    obtain ⟨asked, empty⟩ := h.detaching state
    exact ⟨asked, processingStep_pendingSink p empty⟩

theorem heading_run {sink : Option (Sink σ)} {events : List (Event σ)} {p : Pipeline σ}
    (run : Run machine Calm (start sink) events p) : Heading (wanted sink events) p := by
  apply run.invariant_events (fun events p => Heading (wanted sink events) p)
  · exact heading_start sink
  · rintro events p action heading calm
    cases action with
    | attachSink incoming =>
      by_cases idle : p.caller = .idle
      · simp only [machine, step, idle, if_true, attachSink, wanted_append_requested]
        constructor
        · simp [upcoming, Request.outcome]
        · exact fun _ => ⟨incoming, rfl⟩
        · simp
      · simp only [machine, step, idle, if_false]
        rwa [wanted_append_quiet sink events rfl]
    | detachSink =>
      by_cases idle : p.caller = .idle
      · simp only [machine, step, idle, if_true, detachSink, wanted_append_requested]
        constructor
        · simp
        · simp
        · simp [Request.outcome]
      · simp only [machine, step, idle, if_false]
        rwa [wanted_append_quiet sink events rfl]
    | callerStep =>
      have quiet : (callerStep p).2.asked = [] := by
        cases state : p.caller <;> simp [callerStep, state, Event.asked]
      simp only [machine, step, wanted_append_quiet sink events quiet]
      exact heading.callerStep calm
    | processingStep =>
      simp only [machine, step, wanted_append_quiet sink events (e := .quiet) rfl]
      exact heading.processingStep

/-- In a run without such a store, one complete pass after the caller's last call
leaves the sink that call asked for. -/
theorem last_request_wins {sink : Option (Sink σ)} {events : List (Event σ)} {p : Pipeline σ}
    (run : Run machine Calm (start sink) events p) (stopped : p.caller = .idle)
    (between : p.pass = .idle) {n : Nat} (positive : 0 < n)
    (complete : (processingStep^[n] p).pass = .idle) :
    (processingStep^[n] p).sink = wanted sink events := by
  obtain ⟨pending, flag⟩ := cleared_of_pass between positive complete
  have kept : upcoming (processingStep^[n] p) = upcoming p := by
    clear complete pending flag positive
    induction n with
    | zero => rfl
    | succ n ih => rw [Function.iterate_succ_apply', upcoming_processingStep, ih]
  rw [← (heading_run run).upcoming (by simp [stopped]), ← kept]
  simp [upcoming, pending, flag, Pipeline.inHand, Pipeline.settled, complete]

/-- `Calm` as a check on computed runs. -/
def calm (p : Pipeline σ) : Action σ → Bool
  | .callerStep => p.caller != .detaching || p.inHand.isNone
  | _ => true

theorem calm_sound (p : Pipeline σ) (a : Action σ) (h : calm p a = true) : Calm p a := by
  cases a with
  | callerStep =>
    intro state
    simpa [calm, state] using h
  | _ => trivial

/-- An attach that is applied, then a detach. -/
def recording (sink : σ) : List (Action σ) :=
  [.attachSink sink, .callerStep, .callerStep] ++ List.replicate 5 .processingStep ++
    [.detachSink, .callerStep, .callerStep]

theorem recording_detached : (processingStep^[5]
    (machine.trace (start (some .null)) (recording 7)).2).sink = some (.null : Sink Nat) := by
  have run := Run.of_trace machine calm (start (some (.null : Sink Nat))) (recording 7)
    (by decide) calm_sound
  exact last_request_wins run rfl rfl (by decide) rfl

/-- A detach whose flag is taken by the pass that already holds the sink of the
attach before it. -/
def crossed (sink : σ) : List (Action σ) :=
  [.attachSink sink, .callerStep, .callerStep, .processingStep, .processingStep, .detachSink,
    .callerStep, .callerStep, .processingStep, .processingStep, .processingStep]

theorem detach_swallowed : ¬ ∀ (sink : Option (Sink Nat)) (events : List (Event Nat))
    (p : Pipeline Nat), Run machine Any (start sink) events p → p.caller = .idle →
      p.pass = .idle → ∀ n, 0 < n → (processingStep^[n] p).pass = .idle →
        (processingStep^[n] p).sink = wanted sink events := by
  intro claim
  have run := Run.of_trace machine (fun _ _ => true)
    (start (some (.null : Sink Nat))) (crossed 7) (by decide) (fun _ _ _ => trivial)
  have installed := claim _ _ _ run rfl rfl 3 (by decide) rfl
  exact absurd installed (by decide)

/-! ## The acknowledged count -/

/-- What request `n` or a later one is to leave. -/
def LeftFrom (asked : List (Option (Sink σ))) (n : Nat) (outcome : Option (Sink σ)) : Prop :=
  ∃ k, n ≤ k ∧ asked[k]? = some outcome

theorem LeftFrom.append {asked : List (Option (Sink σ))} {n : Nat} {outcome : Option (Sink σ)}
    (h : LeftFrom asked n outcome) (more : List (Option (Sink σ))) :
    LeftFrom (asked ++ more) n outcome := by
  obtain ⟨k, le, at_k⟩ := h
  refine ⟨k, le, ?_⟩
  rw [List.getElem?_append_left]
  · exact at_k
  · exact (List.getElem?_eq_some_iff.mp at_k).1

theorem LeftFrom.mono {asked : List (Option (Sink σ))} {n m : Nat} {outcome : Option (Sink σ)}
    (h : LeftFrom asked n outcome) (le : m ≤ n) : LeftFrom asked m outcome := by
  obtain ⟨k, above, at_k⟩ := h
  exact ⟨k, Nat.le_trans le above, at_k⟩

/-- The count a pass has loaded is one of requests numbered before it, and what the
pass takes is what such a request or a later one asked for. -/
def Pass.Accounted (asked : List (Option (Sink σ))) (p : Pipeline σ) : Pass σ → Prop
  | .idle => True
  | .loaded seen => p.sinkChangeCount ≤ seen ∧ seen ≤ p.sinkChangeRequests
  | .taken seen incoming => p.sinkChangeCount ≤ seen ∧ seen ≤ p.sinkChangeRequests ∧
      ∀ sink, incoming = some sink → LeftFrom asked seen (some (.attached sink))
  | .swapping seen replacement => p.sinkChangeCount ≤ seen ∧ seen ≤ p.sinkChangeRequests ∧
      LeftFrom asked seen (some replacement)
  | .swapped seen => seen ≤ p.sinkChangeRequests ∧ LeftFrom asked seen p.sink

/-- The calls that have begun and not been numbered. -/
def Caller.unnumbered : Caller → Nat
  | .idle => 0
  | _ => 1

structure Accounted (asked : List (Option (Sink σ))) (p : Pipeline σ) : Prop where
  started : asked.length = p.sinkChangeRequests + p.caller.unnumbered + 1
  count : p.sinkChangeCount ≤ p.sinkChangeRequests
  pending : ∀ sink, p.pendingSink = some sink → asked.getLast? = some (some (.attached sink))
  detaching : p.caller = .detaching ∨ p.caller = .detached → asked.getLast? = some (some .null)
  cleared : p.caller = .attached → p.pendingDetach = false
  flag : p.pendingDetach = true → LeftFrom asked p.sinkChangeRequests (some .null)
  installed : LeftFrom asked p.sinkChangeCount p.sink
  pass : p.pass.Accounted asked p

theorem leftFrom_last {asked : List (Option (Sink σ))} {outcome : Option (Sink σ)} {n : Nat}
    (last : asked.getLast? = some outcome) (within : n < asked.length) :
    LeftFrom asked n outcome := by
  refine ⟨asked.length - 1, by omega, ?_⟩
  rwa [← List.getLast?_eq_getElem?]

theorem accounted_start (sink : Option (Sink σ)) : Accounted [sink] (start sink) := by
  constructor
  · rfl
  · exact Nat.le_refl _
  · simp [start]
  · simp [start]
  · simp [start]
  · simp [start]
  · exact leftFrom_last rfl Nat.zero_lt_one
  · trivial

theorem Pass.Accounted.append {asked : List (Option (Sink σ))} {p : Pipeline σ} {pass : Pass σ}
    (h : pass.Accounted asked p) (more : List (Option (Sink σ))) :
    pass.Accounted (asked ++ more) p := by
  cases pass with
  | idle => trivial
  | loaded seen => exact h
  | taken seen incoming => exact ⟨h.1, h.2.1, fun sink taken => (h.2.2 sink taken).append more⟩
  | swapping seen r => exact ⟨h.1, h.2.1, h.2.2.append more⟩
  | swapped seen => exact ⟨h.1, h.2.append more⟩

/-- Numbering a request only loosens what is required of a pass. -/
theorem Pass.Accounted.of_le {asked : List (Option (Sink σ))} {p q : Pipeline σ} {pass : Pass σ}
    (h : pass.Accounted asked p) (count : q.sinkChangeCount = p.sinkChangeCount)
    (sink : q.sink = p.sink) (more : p.sinkChangeRequests ≤ q.sinkChangeRequests) :
    pass.Accounted asked q := by
  cases pass with
  | idle => trivial
  | loaded seen => exact ⟨by rw [count]; exact h.1, Nat.le_trans h.2 more⟩
  | taken seen incoming => exact ⟨by rw [count]; exact h.1, Nat.le_trans h.2.1 more, h.2.2⟩
  | swapping seen r => exact ⟨by rw [count]; exact h.1, Nat.le_trans h.2.1 more, h.2.2⟩
  | swapped seen => exact ⟨Nat.le_trans h.1 more, by rw [sink]; exact h.2⟩

section Steps

variable {asked : List (Option (Sink σ))} {p : Pipeline σ}

theorem Accounted.attachSink (h : Accounted asked p) (idle : p.caller = .idle) (sink : σ) :
    Accounted (asked ++ [some (.attached sink)]) (attachSink sink p).1 := by
  have started := h.started
  constructor
  · simp [SinkChange.attachSink, started, idle, Caller.unnumbered]
  · exact h.count
  · simp [SinkChange.attachSink]
  · simp [SinkChange.attachSink]
  · simp [SinkChange.attachSink]
  · exact fun up => (h.flag up).append _
  · exact h.installed.append _
  · exact (h.pass.append _).of_le rfl rfl (Nat.le_refl _)

theorem Accounted.detachSink (h : Accounted asked p) (idle : p.caller = .idle) :
    Accounted (asked ++ [some .null]) (detachSink p).1 := by
  have started := h.started
  constructor
  · simp [SinkChange.detachSink, started, idle, Caller.unnumbered]
  · exact h.count
  · simp [SinkChange.detachSink]
  · simp
  · simp [SinkChange.detachSink]
  · exact fun up => (h.flag up).append _
  · exact h.installed.append _
  · exact (h.pass.append _).of_le rfl rfl (Nat.le_refl _)

theorem Accounted.callerStep (h : Accounted asked p) : Accounted asked (callerStep p).1 := by
  have started := h.started
  have count := h.count
  cases state : p.caller with
  | idle => simpa [SinkChange.callerStep, state] using h
  | attaching =>
    simp only [SinkChange.callerStep, state, Caller.unnumbered] at started ⊢
    exact ⟨started, count, h.pending, by simp, by simp, by simp, h.installed,
      h.pass.of_le rfl rfl (Nat.le_refl _)⟩
  | detaching =>
    simp only [SinkChange.callerStep, state, Caller.unnumbered] at started ⊢
    have last := h.detaching (Or.inl state)
    have left : LeftFrom asked p.sinkChangeRequests (some .null) := leftFrom_last last (by omega)
    exact ⟨started, count, h.pending, fun _ => last, by simp, fun _ => left, h.installed,
      h.pass.of_le rfl rfl (Nat.le_refl _)⟩
  | attached =>
    have low := h.cleared state
    simp only [SinkChange.callerStep, state, Caller.unnumbered] at started ⊢
    exact ⟨started, Nat.le_succ_of_le count, h.pending, by simp, by simp, by simp [low], h.installed,
      h.pass.of_le rfl rfl (Nat.le_succ _)⟩
  | detached =>
    simp only [SinkChange.callerStep, state, Caller.unnumbered] at started ⊢
    have left : LeftFrom asked (p.sinkChangeRequests + 1) (some .null) :=
      leftFrom_last (h.detaching (Or.inr state)) (by omega)
    exact ⟨started, Nat.le_succ_of_le count, h.pending, by simp, by simp, fun _ => left,
      h.installed, h.pass.of_le rfl rfl (Nat.le_succ _)⟩

theorem Accounted.processingStep (h : Accounted asked p) :
    Accounted asked (processingStep p) := by
  obtain ⟨started, count, pending, detaching, cleared, flag, installed, accounted⟩ := h
  cases pass : p.pass with
  | idle =>
    simp only [SinkChange.processingStep, pass]
    exact ⟨started, count, pending, detaching, cleared, flag, installed, count, Nat.le_refl _⟩
  | loaded seen =>
    simp only [pass] at accounted
    simp only [SinkChange.processingStep, pass]
    refine ⟨started, count, by simp, detaching, cleared, flag, installed, accounted.1,
      accounted.2, ?_⟩
    intro sink taken
    exact leftFrom_last (pending sink taken) (by have := accounted.2; omega)
  | taken seen incoming =>
    simp only [pass] at accounted
    obtain ⟨counted, numbered, taken⟩ := accounted
    simp only [SinkChange.processingStep, pass]
    refine ⟨started, count, pending, detaching, by simp, by simp, installed, ?_⟩
    cases incoming with
    | some sink => exact ⟨counted, numbered, taken sink rfl⟩
    | none =>
      cases up : p.pendingDetach with
      | false => trivial
      | true => exact ⟨counted, numbered, (flag up).mono numbered⟩
  | swapping seen r =>
    simp only [pass] at accounted
    obtain ⟨counted, numbered, left⟩ := accounted
    simp only [SinkChange.processingStep, pass]
    exact ⟨started, count, pending, detaching, cleared, flag, left.mono counted, numbered, left⟩
  | swapped seen =>
    simp only [pass] at accounted
    obtain ⟨numbered, left⟩ := accounted
    simp only [SinkChange.processingStep, pass]
    exact ⟨started, numbered, pending, detaching, cleared, flag, left, trivial⟩

end Steps

theorem outcomes_append (sink : Option (Sink σ)) (events : List (Event σ)) (e : Event σ) :
    outcomes sink (events ++ [e]) = outcomes sink events ++ e.asked := by
  simp [outcomes]

theorem accounted_run {sink : Option (Sink σ)} {events : List (Event σ)} {p : Pipeline σ}
    (run : Run machine Any (start sink) events p) : Accounted (outcomes sink events) p := by
  apply run.invariant_events (fun events p => Accounted (outcomes sink events) p)
  · exact accounted_start sink
  · rintro events p action accounted -
    rw [outcomes_append]
    cases action with
    | attachSink incoming =>
      by_cases idle : p.caller = .idle
      · simp only [machine, step, if_pos idle]
        exact accounted.attachSink idle incoming
      · simpa [machine, step, idle, Event.asked] using accounted
    | detachSink =>
      by_cases idle : p.caller = .idle
      · simp only [machine, step, if_pos idle]
        exact accounted.detachSink idle
      · simpa [machine, step, idle, Event.asked] using accounted
    | callerStep =>
      have quiet : (callerStep p).2.asked = [] := by
        cases state : p.caller <;> simp [callerStep, state, Event.asked]
      simpa [machine, step, quiet] using accounted.callerStep
    | processingStep => simpa [machine, step, Event.asked] using accounted.processingStep

/-! ### Every request is acknowledged -/

/-- A pass takes the mark of a request only if it has begun after the request was
numbered. A flag of an earlier detach may go while an attach is under way. -/
def Timely (p : Pipeline σ) : Action σ → Prop
  | .processingStep =>
    match p.pass with
    | .loaded seen => p.pendingSink ≠ none → p.caller = .idle ∧ seen = p.sinkChangeRequests
    | .taken seen _ => p.pendingDetach = true →
        p.caller ≠ .detached ∧ (p.caller = .idle → seen = p.sinkChangeRequests)
    | _ => True
  | _ => True

/-- All requests numbered so far are counted, or are about to be by the pass under way. -/
def Pass.Counts (p : Pipeline σ) : Pass σ → Prop
  | .idle | .loaded _ | .taken _ none => p.sinkChangeCount = p.sinkChangeRequests
  | .taken seen (some _) | .swapping seen _ | .swapped seen => seen = p.sinkChangeRequests

/-- The mark of the last request is still to be taken, or its count is on the way. -/
structure Owed (p : Pipeline σ) : Prop where
  attaching : p.caller = .attaching ∨ p.caller = .attached → p.pendingSink ≠ none
  detached : p.caller = .detached → p.pendingDetach = true
  idle : p.caller = .idle → p.pendingSink ≠ none ∨ p.pendingDetach = true ∨ p.pass.Counts p

theorem Owed.callerStep {p : Pipeline σ} (h : Owed p) : Owed (callerStep p).1 := by
  cases state : p.caller with
  | idle => simpa [SinkChange.callerStep, state] using h
  | attaching =>
    simp only [SinkChange.callerStep, state]
    exact ⟨fun _ => h.attaching (Or.inl state), by simp, by simp⟩
  | detaching =>
    simp only [SinkChange.callerStep, state]
    exact ⟨by simp, by simp, by simp⟩
  | attached =>
    simp only [SinkChange.callerStep, state]
    exact ⟨by simp, by simp, fun _ => Or.inl (h.attaching (Or.inr state))⟩
  | detached =>
    simp only [SinkChange.callerStep, state]
    exact ⟨by simp, by simp, fun _ => Or.inr (Or.inl (h.detached state))⟩

theorem Owed.processingStep {p : Pipeline σ} (h : Owed p) (timely : Timely p .processingStep) :
    Owed (processingStep p) := by
  obtain ⟨attaching, detached, idle⟩ := h
  cases pass : p.pass with
  | idle =>
    simp only [SinkChange.processingStep, pass] at idle ⊢
    exact ⟨attaching, detached, idle⟩
  | loaded seen =>
    simp only [Timely, pass] at timely
    simp only [SinkChange.processingStep, pass] at idle ⊢
    cases pending : p.pendingSink with
    | some sink =>
      obtain ⟨alone, current⟩ := timely (by simp [pending])
      exact ⟨by simp [alone], by simp [alone], fun _ => Or.inr (Or.inr current)⟩
    | none =>
      refine ⟨fun state => absurd pending (attaching state), detached, fun state => ?_⟩
      rcases idle state with sink | flag | counts
      · exact absurd pending sink
      · exact Or.inr (Or.inl flag)
      · exact Or.inr (Or.inr counts)
  | taken seen incoming =>
    simp only [Timely, pass] at timely
    simp only [SinkChange.processingStep, pass] at idle ⊢
    cases up : p.pendingDetach with
    | true =>
      obtain ⟨numbered, current⟩ := timely up
      exact ⟨attaching, fun state => absurd state numbered,
        fun state => Or.inr (Or.inr (by simpa [Pass.Counts] using current state))⟩
    | false =>
      refine ⟨attaching, fun state => ?_, fun state => ?_⟩
      · exact absurd (detached state) (by simp [up])
      · rcases idle state with sink | flag | counts
        · exact Or.inl sink
        · simp [up] at flag
        · refine Or.inr (Or.inr ?_)
          cases incoming with
          | none => exact counts
          | some sink => exact counts
  | swapping seen r =>
    simp only [SinkChange.processingStep, pass] at idle ⊢
    exact ⟨attaching, detached, idle⟩
  | swapped seen =>
    simp only [SinkChange.processingStep, pass] at idle ⊢
    exact ⟨attaching, detached, idle⟩

theorem owed_run {sink : Option (Sink σ)} {events : List (Event σ)} {p : Pipeline σ}
    (run : Run machine Timely (start sink) events p) : Owed p := by
  apply run.invariant
  · exact ⟨by simp [start], by simp [start], fun _ => Or.inr (Or.inr rfl)⟩
  · rintro p action owed timely
    cases action with
    | attachSink incoming =>
      by_cases idle : p.caller = .idle
      · simp only [machine, step, if_pos idle, attachSink]
        exact ⟨by simp, by simp, by simp⟩
      · simpa only [machine, step, if_neg idle] using owed
    | detachSink =>
      by_cases idle : p.caller = .idle
      · simp only [machine, step, if_pos idle, detachSink]
        exact ⟨by simp, by simp, by simp⟩
      · simpa only [machine, step, if_neg idle] using owed
    | callerStep => exact owed.callerStep
    | processingStep => exact owed.processingStep timely

/-- With the caller idle a pass that begins now is a timely one. -/
def Punctual (p : Pipeline σ) : Prop :=
  p.caller = .idle ∧ match p.pass with
    | .loaded seen | .taken seen _ => seen = p.sinkChangeRequests
    | _ => True

theorem Punctual.processingStep {p : Pipeline σ} (h : Punctual p) :
    Punctual (processingStep p) := by
  obtain ⟨idle, current⟩ := h
  cases pass : p.pass with
  | taken seen incoming =>
    simp only [SinkChange.processingStep, pass, Punctual]
    refine ⟨idle, ?_⟩
    cases incoming <;> cases p.pendingDetach <;> trivial
  | _ => simp_all [SinkChange.processingStep, Punctual]

theorem Punctual.timely {p : Pipeline σ} (h : Punctual p) : Timely p .processingStep := by
  obtain ⟨idle, current⟩ := h
  cases pass : p.pass <;> simp_all [Timely]

/-- The acknowledged count stays below every request that neither it nor a later one
has taken effect; and where no pass takes a mark early, one complete pass after the
last call acknowledges it. -/
theorem changes_acknowledged (sink : Option (Sink σ)) :
    (∀ events p, Run machine Any (start sink) events p →
      LeftFrom (outcomes sink events) p.sinkChangeCount p.sink) ∧
    (∀ events p, Run machine Timely (start sink) events p → p.caller = .idle →
      p.pass = .idle → ∀ n, 0 < n → (processingStep^[n] p).pass = .idle →
        p.sinkChangeRequests ≤ (processingStep^[n] p).sinkChangeCount) := by
  constructor
  · exact fun events p run => (accounted_run run).installed
  · intro events p run stopped between n positive complete
    have kept : Owed (processingStep^[n] p) ∧ Punctual (processingStep^[n] p) ∧
        (processingStep^[n] p).sinkChangeRequests = p.sinkChangeRequests := by
      clear complete positive
      induction n with
      | zero => exact ⟨owed_run run, ⟨stopped, by simp [between]⟩, rfl⟩
      | succ n ih =>
        obtain ⟨owed, punctual, same⟩ := ih
        rw [Function.iterate_succ_apply', ← same]
        refine ⟨owed.processingStep punctual.timely, punctual.processingStep, ?_⟩
        generalize processingStep^[n] p = q
        cases pass : q.pass <;> simp [processingStep, pass]
    obtain ⟨owed, ⟨idle, -⟩, same⟩ := kept
    obtain ⟨pending, flag⟩ := cleared_of_pass between positive complete
    rcases owed.idle idle with sink | up | counts
    · exact absurd pending sink
    · simp [flag] at up
    · simp only [complete, Pass.Counts] at counts
      omega

/-- `Timely` as a check on computed runs. -/
def timely [DecidableEq σ] (p : Pipeline σ) : Action σ → Bool
  | .processingStep =>
    match p.pass with
    | .loaded seen => p.pendingSink.isNone || (p.caller == .idle && seen == p.sinkChangeRequests)
    | .taken seen _ => !p.pendingDetach ||
        (p.caller != .detached && (p.caller != .idle || seen == p.sinkChangeRequests))
    | _ => true
  | _ => true

theorem timely_sound [DecidableEq σ] (p : Pipeline σ) (a : Action σ) (h : timely p a = true) :
    Timely p a := by
  cases a with
  | processingStep =>
    cases pass : p.pass with
    | loaded seen =>
      simp only [Timely, pass]
      intro some
      simp only [timely, pass] at h
      simp_all
    | taken seen incoming =>
      simp only [Timely, pass]
      intro up
      simp only [timely, pass] at h
      simp_all [imp_iff_not_or]
    | _ => simp [Timely, pass]
  | _ => trivial

theorem recording_acknowledged : 2 ≤ (processingStep^[5]
    (machine.trace (start (some (.null : Sink Nat))) (recording 7)).2).sinkChangeCount := by
  have run := Run.of_trace machine timely (start (some (.null : Sink Nat))) (recording 7)
    (by decide) timely_sound
  exact (changes_acknowledged _).2 _ _ run rfl rfl 5 (by decide) rfl

/-- A recording is ended by a detach that begins when a pass has just loaded the count. -/
def early (sink : σ) : List (Action σ) :=
  [.attachSink sink, .callerStep, .callerStep] ++ List.replicate 6 .processingStep ++
    [.detachSink, .callerStep, .callerStep] ++ List.replicate 4 .processingStep

theorem detach_unacknowledged : ¬ ∀ (sink : Option (Sink Nat)) (events : List (Event Nat))
    (p : Pipeline Nat), Run machine Any (start sink) events p → p.caller = .idle →
      p.pass = .idle → ∀ n, 0 < n → (processingStep^[n] p).pass = .idle →
        p.sinkChangeRequests ≤ (processingStep^[n] p).sinkChangeCount := by
  intro claim
  have run := Run.of_trace machine (fun _ _ => true)
    (start (some (.null : Sink Nat))) (early 7) (by decide) (fun _ _ _ => trivial)
  have counted := claim _ _ _ run rfl rfl 3 (by decide) rfl
  exact absurd counted (by decide)

end SinkChange
