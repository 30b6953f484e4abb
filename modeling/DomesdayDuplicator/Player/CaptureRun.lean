import DomesdayDuplicator.Player.CaptureTeardown

/-!
# Runs of the automatic capture

What a run has done so far is read off its log: what was handed out, and what was
answered. The state keeps up with the log, and whatever was started stays ahead in the
tail until it has been undone.
-/

namespace CaptureRun

open Player AutoCapture Dialogue EventLog Execution

abbrev CaptureEvent := Event CaptureCall AutoCaptureStep StepResult

/-! ## What the log says -/

def StartAcknowledged : CaptureEvent → Prop
  | .answered st result => st.action = .startCapture ∧ result.captureOk = true
  | _ => False

def StopAnswered : CaptureEvent → Prop
  | .answered st _ => st.action = .stopCapture
  | _ => False

def HandsStop : CaptureEvent → Prop
  | .handed st => st.action = .stopCapture
  | _ => False

def LockAcknowledged : CaptureEvent → Prop
  | .answered st result =>
    st.action = .sendCommand ∧ st.command = .keyLockOn ∧ result.reply.ok = true
  | _ => False

def HandsUnlock : CaptureEvent → Prop
  | .handed st => st.action = .sendCommand ∧ st.command = .keyLockOff
  | _ => False

/-- A reply to a command that is about the link; the capture actions have none. -/
def LinkLost : CaptureEvent → Prop
  | .answered st result => st.action = .sendCommand ∧ result.reply.linkDown = true
  | _ => False

/-- A command is handed out or answered. -/
def CommandExchange : CaptureEvent → Prop
  | .handed st | .answered st _ => st.action = .sendCommand
  | _ => False

variable (c : Settings)

/-- The last of the commands was the question whether the disc turns, and the reply said so. -/
def Asked (es : List CaptureEvent) : Prop :=
  ∃ q result, Latest CommandExchange es (.answered q result) ∧ q.command = .queryActiveMode ∧
    reportsSpinning c.definition result.reply = true

/-! ## The invariant -/

def inHead : AutoCaptureStage → Bool
  | .lockingFrontPanel | .confirmingDisc | .checkingTransport | .spinningDown | .seekingStart
  | .startingCapture | .spinningUp | .watching | .checkingStall => true
  | _ => false

/-- The capture has been started by now. -/
def started : AutoCaptureStage → Bool
  | .spinningUp | .watching | .checkingStall => true
  | _ => false

/-- The head has yet to ask whether the disc turns. -/
def unasked : AutoCaptureStage → Bool
  | .lockingFrontPanel | .confirmingDisc | .checkingTransport => true
  | _ => false

/-- The flags are what the log says. -/
structure Told (es : List CaptureEvent) (s : AutoCaptureSequence) : Prop where
  started : s.captureStarted = true ↔ Happened StartAcknowledged es
  stopped : s.captureStopped = true ↔ Happened StopAnswered es
  locked : Owing LockAcknowledged HandsUnlock es → s.keyLockTaken = true

/-- The constructor refused the plan or the player. -/
structure Refused (s : AutoCaptureSequence) : Prop where
  closed : s.isFinished = true
  pending : s.pending = none
  started : s.captureStarted = false
  lock : s.keyLockTaken = false

structure Head (s : AutoCaptureSequence) : Prop where
  proper : s.finishing = false
  «open» : s.outcome = .inProgress
  stage : inHead s.stage = true
  started : s.captureStarted = CaptureRun.started s.stage
  stopped : s.captureStopped = false
  link : s.linkFailed = false
  unasked : CaptureRun.unasked s.stage = true → s.discTurning = false
  unlocked : s.stage = .lockingFrontPanel → s.keyLockTaken = false

/-- In the tail, whatever is left to undo lies ahead. -/
structure Tail (s : AutoCaptureSequence) : Prop where
  finishing : s.finishing = true
  stage : inTail s.stage = true
  reason : s.pendingOutcome ≠ .inProgress
  capture : s.captureRunning = true → s.pendingOutcome ≠ .linkFailed →
    place c s.stage ≤ place c .stoppingCapture
  turning : s.discTurning = true → place c .stoppingPlayer ≤ place c s.stage
  settled : (s.stage = .finished ∧ s.outcome = s.pendingOutcome ∧ s.pending = none) ∨
    (s.stage ≠ .finished ∧ s.outcome = .inProgress ∧ teardownStepApplies c s s.stage = true)

structure Inv (es : List CaptureEvent) (s : AutoCaptureSequence) : Prop where
  told : Told es s
  link : s.linkFailed = true ↔ Happened LinkLost es
  phase : Refused s ∨ Head s ∨ Tail c s
  pending : ∀ st, s.pending = some st → st = stepFor c s.stage
  stopOnce : Happened HandsStop es →
    s.captureStopped = true ∨ (s.stage = .stoppingCapture ∧ s.pending.isSome = true)
  unlock : Owing LockAcknowledged HandsUnlock es → s.finishing = true → s.linkFailed = false →
    c.has .keyLockOff = true → place c s.stage ≤ 3 ∧
      ¬ (s.stage = .unlockingFrontPanel ∧ s.pending.isSome = true)
  asked : s.pending = none → s.discTurning = true →
    s.stage = .spinningDown ∨ s.stage = .stoppingPlayer → Asked c es

/-- On the way into the next step of the tail. -/
structure Entering (es : List CaptureEvent) (s : AutoCaptureSequence) : Prop where
  told : Told es s
  link : s.linkFailed = true ↔ Happened LinkLost es
  «open» : s.outcome = .inProgress
  pending : s.pending = none
  finishing : s.finishing = true
  stage : inTail s.stage = true
  reason : s.pendingOutcome ≠ .inProgress
  capture : s.captureRunning = true → s.pendingOutcome ≠ .linkFailed →
    place c s.stage ≤ place c .stoppingCapture
  turning : s.discTurning = true → place c .stoppingPlayer ≤ place c s.stage
  stopOnce : Happened HandsStop es → s.captureStopped = true
  unlock : Owing LockAcknowledged HandsUnlock es → s.linkFailed = false →
    c.has .keyLockOff = true → place c s.stage ≤ 3
  asked : s.discTurning = true → s.stage = .stoppingPlayer → Asked c es

variable {c} {es : List CaptureEvent} {s : AutoCaptureSequence}

theorem advanceTeardown_inv (h : Entering c es s) : Inv c es (advanceTeardown c s) := by
  obtain ⟨stage, walked, inside, later, stops, first⟩ :=
    walk_spec c h.stage (by omega : 4 < 5 + place c s.stage)
  rw [advanceTeardown, walked]
  have apart : s.discTurning = true → stage = .stoppingPlayer → s.stage = .stoppingPlayer := by
    intro turning here
    subst here
    exact place_inj c h.stage rfl (le_antisymm later (h.turning turning))
  have running : s.captureRunning = true → s.pendingOutcome ≠ .linkFailed →
      place c stage ≤ place c .stoppingCapture := by
    intro running reason
    refine first _ rfl ?_ (h.capture running reason)
    simp [teardownStepApplies, running, reason]
  constructor
  case told => exact ⟨h.told.started, h.told.stopped, h.told.locked⟩
  case link => exact h.link
  case phase =>
    refine Or.inr (Or.inr ⟨h.finishing, inside, h.reason, running,
      fun turning => le_trans (h.turning turning) later, ?_⟩)
    by_cases done : stage = .finished
    · exact Or.inl ⟨done, by simp [settle, done], h.pending⟩
    · exact Or.inr ⟨done, by simp [settle, done, h.open], stops.resolve_left done⟩
  case pending =>
    intro st out
    simp [settle, h.pending] at out
  case stopOnce => exact fun handed => Or.inl (h.stopOnce handed)
  case unlock =>
    intro owing _ link able
    refine ⟨le_trans (first .unlockingFrontPanel rfl ?_ (h.unlock owing link able)) le_rfl, ?_⟩
    · have link : s.linkFailed = false := link
      simp [teardownStepApplies, h.told.locked owing, link, able]
    · simp [settle, h.pending]
  case asked =>
    rintro - turning (here | here)
    · have here : stage = .spinningDown := here
      simp [here, inTail] at inside
    · exact h.asked turning (apart turning here)

/-- Ending the run proper, from whatever it had reached. -/
theorem finish_inv {outcome : AutoCaptureOutcome} (told : Told es s)
    (proper : s.finishing = false) («open» : s.outcome = .inProgress)
    (reason : outcome ≠ .inProgress)
    (link : s.linkFailed = true ∨ outcome = .linkFailed ↔ Happened LinkLost es)
    (stopOnce : Happened HandsStop es → s.captureStopped = true) :
    Inv c es (finish c s outcome) := by
  obtain ⟨inside, start⟩ := place_first c
  rw [finish, if_neg (by simp [proper])]
  apply advanceTeardown_inv
  constructor
  case told => exact ⟨told.started, told.stopped, told.locked⟩
  case link => simpa using link
  case «open» => exact «open»
  case pending => rfl
  case finishing => rfl
  case stage => exact inside
  case reason => exact reason
  case capture =>
    intro _ _
    simp [start]
  case turning => simp
  case stopOnce => exact stopOnce
  case unlock =>
    intro _ _ _
    simp [start]
  case asked => simp

/-! ## The head -/

theorem finish_finishing (proper : s.finishing = false) {outcome : AutoCaptureOutcome} :
    (finish c s outcome).finishing = true := by
  rw [finish, if_neg (by simp [proper]), advanceTeardown]
  generalize entered : AutoCaptureSequence.mk _ _ _ _ _ _ _ _ _ _ _ _ _ _ = u
  have inside : inTail u.stage = true := by
    rw [← entered]
    exact (place_first c).1
  obtain ⟨stage, walked, -⟩ := walk_spec c inside (by omega : 4 < 5 + place c u.stage)
  rw [walked, ← entered]
  rfl

variable (c s) in
/-- What a reply in the head may change besides the stage. -/
structure Learns (reply : Reply) (t : AutoCaptureSequence) : Prop where
  proper : t.finishing = s.finishing
  «open» : t.outcome = s.outcome
  pending : t.pending = s.pending
  started : t.captureStarted = s.captureStarted
  stopped : t.captureStopped = s.captureStopped
  link : t.linkFailed = s.linkFailed
  locked : t.keyLockTaken = if s.stage = .lockingFrontPanel then reply.ok else s.keyLockTaken
  turning : t.discTurning = s.discTurning ∨
    (s.stage = .checkingTransport ∧ t.discTurning = reportsSpinning c.definition reply)

/-- The order of the head's stages, as far as it matters. -/
structure Follows (a b : AutoCaptureStage) : Prop where
  stage : inHead b = true
  started : started b = started a
  unasked : unasked b = true → unasked a = true ∧ a ≠ .checkingTransport
  asks : b = .spinningDown → a = .checkingTransport
  unlocked : b ≠ .lockingFrontPanel

theorem follows_stageAfter {stage : AutoCaptureStage} (head : inHead stage = true)
    (command : stage ≠ .startingCapture) : Follows stage (stageAfter c stage) := by
  cases stage <;> simp only [inHead, reduceCtorEq, ne_eq, not_true_eq_false] at head command <;>
    constructor <;> simp only [stageAfter] <;> (try split) <;>
    simp [inHead, CaptureRun.started, CaptureRun.unasked]

theorem learns_same {reply : Reply} (unlocked : s.stage ≠ .lockingFrontPanel)
    (stage : AutoCaptureStage) (address : Option Int) (readings : Nat) :
    Learns c s reply
      { s with stage := stage, lastAddress := address, readingsWithoutAdvance := readings } :=
  ⟨rfl, rfl, rfl, rfl, rfl, rfl, by simp [unlocked], Or.inl rfl⟩

variable (c s) in
/-- A reply in the head moves the run on or ends it. -/
def Moves (reply : Reply) (u : AutoCaptureSequence) : Prop :=
  ∃ t, Learns c s reply t ∧ ((u = t ∧ Follows s.stage t.stage) ∨
    ∃ outcome, outcome ≠ .inProgress ∧ outcome ≠ .linkFailed ∧ u = finish c t outcome)

theorem moves_advance {reply : Reply} (head : inHead s.stage = true)
    (command : s.stage ≠ .startingCapture) (unlocked : s.stage ≠ .lockingFrontPanel) :
    Moves c s reply (advance c s) :=
  ⟨advance c s, learns_same unlocked _ _ _, Or.inl ⟨rfl, follows_stageAfter head command⟩⟩

theorem moves_finish {reply : Reply} {outcome : AutoCaptureOutcome}
    (unlocked : s.stage ≠ .lockingFrontPanel) (address : Option Int)
    (reason : outcome ≠ .inProgress) (link : outcome ≠ .linkFailed) :
    Moves c s reply (finish c { s with lastAddress := address } outcome) :=
  ⟨_, learns_same unlocked s.stage address s.readingsWithoutAdvance,
    Or.inr ⟨outcome, reason, link, rfl⟩⟩

theorem moves_watch {reply : Reply} (here : s.stage = .watching ∨ s.stage = .checkingStall)
    {stage : AutoCaptureStage} (there : stage = .watching ∨ stage = .checkingStall)
    (address : Option Int) (readings : Nat) :
    Moves c s reply
      { s with stage := stage, lastAddress := address, readingsWithoutAdvance := readings } := by
  refine ⟨_, learns_same ?_ stage address readings, Or.inl ⟨rfl, ?_⟩⟩
  · rcases here with here | here <;> simp [here]
  · rcases here with here | here <;> rcases there with rfl | rfl <;> rw [here] <;>
      constructor <;> simp [inHead, CaptureRun.started, CaptureRun.unasked]

theorem moves_countReading {reply : Reply} (here : s.stage = .watching) :
    Moves c s reply (countReading s) := by
  refine moves_watch (Or.inl here) ?_ s.lastAddress _
  split
  · exact Or.inr rfl
  · exact Or.inl here

theorem moves_watching {reply : Reply} (here : s.stage = .watching) :
    Moves c s reply (applyWatching c s reply) := by
  have unlocked : s.stage ≠ .lockingFrontPanel := by simp [here]
  simp only [applyWatching]
  split_ifs
  · exact moves_countReading here
  · exact moves_finish unlocked s.lastAddress (by decide) (by decide)
  · exact moves_watch (Or.inl here) (Or.inl here) s.lastAddress 0
  · exact moves_countReading here
  · exact moves_finish unlocked _ (by decide) (by decide)
  · exact moves_watch (Or.inl here) (Or.inl here) _ 0
  · exact moves_countReading here

theorem moves_checkingStall {reply : Reply} (here : s.stage = .checkingStall) :
    Moves c s reply (applyCheckingStall c s reply) := by
  have unlocked : s.stage ≠ .lockingFrontPanel := by simp [here]
  simp only [applyCheckingStall]
  split
  · exact moves_watch (Or.inr here) (Or.inl rfl) s.lastAddress 0
  · exact moves_watch (Or.inr here) (Or.inl rfl) s.lastAddress 0
  all_goals exact moves_finish unlocked s.lastAddress (by decide) (by decide)

theorem applyReply_moves (reply : Reply) (head : inHead s.stage = true)
    (command : s.stage ≠ .startingCapture) :
    Moves c s reply (applyReply c s s.stage reply) := by
  have onward (unlocked : s.stage ≠ .lockingFrontPanel) : Moves c s reply (advance c s) :=
    moves_advance head command unlocked
  have ends (unlocked : s.stage ≠ .lockingFrontPanel) {outcome : AutoCaptureOutcome}
      (reason : outcome ≠ .inProgress) (link : outcome ≠ .linkFailed) :
      Moves c s reply (finish c s outcome) :=
    moves_finish unlocked s.lastAddress reason link
  unfold applyReply
  split <;> rename_i here
  · refine ⟨applyLockingFrontPanel c s reply,
      ⟨rfl, rfl, rfl, rfl, rfl, rfl, ?_, Or.inl rfl⟩,
      Or.inl ⟨rfl, follows_stageAfter head command⟩⟩
    simp [here, applyLockingFrontPanel, advance]
  · simp only [applyConfirmingDisc]
    split_ifs
    · exact onward (by simp [here])
    · exact onward (by simp [here])
    · exact ends (by simp [here]) (by decide) (by decide)
    · exact onward (by simp [here])
  · have follows := follows_stageAfter (c := c) head command
    simp only [applyCheckingTransportAndAdvance, applyCheckingTransport]
    split_ifs with refused
    · exact onward (by simp [here])
    · let turning := isSpinning (parsePlayerState reply.text c.definition.stateDecode)
      refine ⟨advance c { s with discTurning := turning },
        ⟨rfl, rfl, rfl, rfl, rfl, rfl, by simp [here, advance], Or.inr ⟨here, ?_⟩⟩,
        Or.inl ⟨rfl, follows⟩⟩
      simp only [Bool.not_eq_true, Bool.not_eq_false'] at refused
      simp [advance, turning, reportsSpinning, refused]
  · exact onward (by simp [here])
  · simp only [applySeekingStart]
    split_ifs
    · exact ends (by simp [here]) (by decide) (by decide)
    · exact onward (by simp [here])
  · simp only [applySpinningUp]
    split_ifs
    · exact ends (by simp [here]) (by decide) (by decide)
    · exact onward (by simp [here])
  · exact moves_watching here
  · exact moves_checkingStall here
  · cases there : s.stage <;> simp_all [inHead]

/-! ## Single steps -/

theorem stepFor_start {stage : AutoCaptureStage}
    (h : (stepFor c stage).action = .startCapture) : stage = .startingCapture := by
  cases stage <;> simp [stepFor] at h ⊢

theorem stepFor_stop {stage : AutoCaptureStage}
    (h : (stepFor c stage).action = .stopCapture) : stage = .stoppingCapture := by
  cases stage <;> simp [stepFor] at h ⊢

@[simp] theorem stepFor_stage (stage : AutoCaptureStage) : (stepFor c stage).stage = stage := by
  cases stage <;> rfl

/-- Which stage sends a command that only one of them sends. -/
theorem stage_of_command (stage : AutoCaptureStage) {command : PlayerCommand}
    (h : (stepFor c stage).command = command) :
    (command = .keyLockOn → stage = .lockingFrontPanel) ∧
      (command = .stop → stage = .spinningDown ∨ stage = .stoppingPlayer) ∧
      (command = .play ∨ command = .playWithoutStopCodes → stage = .spinningUp) := by
  subst h
  cases stage <;> simp [stepFor, seekCommand, playCommand, addressQueryFor] <;> split <;> simp

/-- An event that none of the kinds looks at. -/
def Quiet : CaptureEvent → Prop
  | .handed _ | .answered _ _ => False
  | _ => True

theorem Inv.quiet (inv : Inv c es s) {e : CaptureEvent} (quiet : Quiet e) :
    Inv c (es ++ [e]) s := by
  have none' : ¬ StartAcknowledged e ∧ ¬ StopAnswered e ∧ ¬ HandsStop e ∧ ¬ LinkLost e ∧
      ¬ LockAcknowledged e ∧ ¬ CommandExchange e := by
    cases e <;> simp_all [Quiet, StartAcknowledged, StopAnswered, HandsStop, LinkLost,
      LockAcknowledged, CommandExchange]
  obtain ⟨start, stop, hands, lost, lock, exchange⟩ := none'
  have owing (owing : Owing LockAcknowledged HandsUnlock (es ++ [e])) :
      Owing LockAcknowledged HandsUnlock es :=
    ((owing_snoc.mp owing).resolve_left lock).1
  constructor
  case told =>
    refine ⟨?_, ?_, fun h => inv.told.locked (owing h)⟩
    · rw [happened_snoc, inv.told.started]
      simp [start]
    · rw [happened_snoc, inv.told.stopped]
      simp [stop]
  case link =>
    rw [happened_snoc, inv.link]
    simp [lost]
  case phase => exact inv.phase
  case pending => exact inv.pending
  case stopOnce =>
    intro handed
    exact inv.stopOnce ((happened_snoc.mp handed).resolve_right hands)
  case unlock => exact fun h => inv.unlock (owing h)
  case asked =>
    intro free turning here
    obtain ⟨q, result, latest, query, spinning⟩ := inv.asked free turning here
    exact ⟨q, result, latest_snoc.mpr (Or.inr ⟨exchange, latest⟩), query, spinning⟩

theorem Inv.of_head (inv : Inv c es s) («open» : s.isFinished = false)
    (proper : s.finishing = false) : Head s := by
  rcases inv.phase with refused | head | tail
  · simp [refused.closed] at «open»
  · exact head
  · simp [tail.finishing] at proper

theorem honourCancel_inv (inv : Inv c es s) («open» : s.isFinished = false)
    (free : s.pending = none) : Inv c es (honourCancel c s) := by
  unfold honourCancel
  split_ifs with cancelled
  · simp only [Bool.and_eq_true, Bool.not_eq_true'] at cancelled
    have head := inv.of_head «open» cancelled.2
    refine finish_inv inv.told cancelled.2 head.open (by decide) ?_ ?_
    · simpa using inv.link
    · intro handed
      simpa [free] using inv.stopOnce handed
  · exact inv

/-- What an answer leaves of the log's kinds: only its own. -/
theorem owing_answered {st : AutoCaptureStep} {result : StepResult} :
    Owing LockAcknowledged HandsUnlock (es ++ [.answered st result]) ↔
      LockAcknowledged (.answered st result) ∨ Owing LockAcknowledged HandsUnlock es := by
  rw [owing_snoc]
  simp [HandsUnlock]

theorem stopOnce_answered {st : AutoCaptureStep} {result : StepResult} :
    Happened HandsStop (es ++ [.answered st result]) ↔ Happened HandsStop es := by
  rw [happened_snoc]
  simp [HandsStop]

/-- A reply in the head that is not about the link. -/
theorem answer_head (inv : Inv c es s) (head : Head s) {result : StepResult}
    (command : (stepFor c s.stage).action = .sendCommand)
    (up : result.reply.linkDown = false) :
    Inv c (es ++ [.answered (stepFor c s.stage) result])
      (honourCancel c (applyReply c { s with pending := none } s.stage result.reply)) := by
  have started : s.stage ≠ .startingCapture := by
    intro here
    simp [here, stepFor] at command
  obtain ⟨t, learns, moved⟩ := applyReply_moves (c := c) (s := { s with pending := none })
    result.reply head.stage started
  have told : Told (es ++ [.answered (stepFor c s.stage) result]) t := by
    refine ⟨?_, ?_, ?_⟩
    · rw [learns.started, happened_snoc]
      simpa [StartAcknowledged, command] using inv.told.started
    · rw [learns.stopped, happened_snoc]
      simpa [StopAnswered, command] using inv.told.stopped
    · intro owing
      rw [learns.locked]
      rcases owing_answered.mp owing with ⟨-, lock, ok⟩ | owing
      · rw [if_pos ((stage_of_command _ lock).1 rfl)]
        exact ok
      · have taken := inv.told.locked owing
        rw [if_neg (fun here => by simp [head.unlocked here] at taken)]
        exact taken
  have lost : Happened LinkLost (es ++ [.answered (stepFor c s.stage) result]) ↔
      s.linkFailed = true := by
    rw [happened_snoc, inv.link]
    simp [LinkLost, up]
  have stopOnce : Happened HandsStop (es ++ [.answered (stepFor c s.stage) result]) →
      s.captureStopped = true := by
    intro handed
    rcases inv.stopOnce (stopOnce_answered.mp handed) with stopped | ⟨here, -⟩
    · exact stopped
    · have := head.stage
      simp [here, inHead] at this
  rcases moved with ⟨moved, follows⟩ | ⟨outcome, reason, link, moved⟩
  · rw [moved]
    have head' : Head t := by
      refine ⟨learns.proper.trans head.proper, learns.open.trans head.open, follows.stage, ?_,
        learns.stopped.trans head.stopped, learns.link.trans head.link, ?_,
        fun here => absurd here follows.unlocked⟩
      · rw [learns.started, follows.started]
        exact head.started
      · intro unasked
        obtain ⟨before, other⟩ := follows.unasked unasked
        rcases learns.turning with same | ⟨here, -⟩
        · exact same.trans (head.unasked before)
        · exact absurd here other
    refine honourCancel_inv ⟨told, ?_, Or.inr (Or.inl head'), ?_, ?_, ?_, ?_⟩
      (by simp [AutoCaptureSequence.isFinished, head'.open]) learns.pending
    · rw [lost, learns.link]
    · intro st out
      simp [learns.pending] at out
    · intro handed
      exact Or.inl (learns.stopped.trans (stopOnce handed))
    · intro _ finishing
      simp [head'.proper] at finishing
    · intro _ turning here
      have here : s.stage = .checkingTransport := by
        rcases here with here | here
        · exact follows.asks here
        · have := follows.stage
          simp [here, inHead] at this
      have quiet := head.unasked (by simp [here, CaptureRun.unasked])
      rcases learns.turning with same | ⟨-, spinning⟩
      · rw [same] at turning
        exact absurd turning (by simp [quiet])
      · refine ⟨_, result, latest_snoc.mpr (Or.inl ⟨?_, rfl⟩), ?_, spinning ▸ turning⟩
        · simpa [CommandExchange] using command
        · simp [here, stepFor]
  · rw [moved]
    have ended : Inv c (es ++ [.answered (stepFor c s.stage) result]) (finish c t outcome) := by
      refine finish_inv told (learns.proper.trans head.proper) (learns.open.trans head.open)
        reason ?_ (fun handed => learns.stopped.trans (stopOnce handed))
      rw [lost, learns.link]
      simp [link]
    have finishing : (finish c t outcome).finishing = true := by
      have proper : t.finishing = false := learns.proper.trans head.proper
      exact finish_finishing proper
    simpa [honourCancel, finishing] using ended

/-- An answer in the tail: the step is behind, and the walk goes on after it. -/
theorem answer_tail (inv : Inv c es s) (tail : Tail c s) {result : StepResult}
    (command : (stepFor c s.stage).action = .sendCommand) (out : s.pending.isSome = true)
    (link turning : Bool)
    (lost : link = true ↔ s.linkFailed = true ∨ result.reply.linkDown = true)
    (asked : turning = true → s.discTurning = true ∨
      (s.stage = .checkingBeforeStopping ∧ reportsSpinning c.definition result.reply = true)) :
    Inv c (es ++ [.answered (stepFor c s.stage) result])
      (completeTeardownStep c
        { s with pending := none, linkFailed := link, discTurning := turning } s.stage) := by
  have unfinished : s.stage ≠ .finished ∧ s.outcome = .inProgress := by
    rcases tail.settled with ⟨-, -, free⟩ | ⟨unfinished, running, -⟩
    · simp [free] at out
    · exact ⟨unfinished, running⟩
  have capture : s.stage ≠ .stoppingCapture := by
    intro here
    simp [here, stepFor] at command
  obtain ⟨inside, further⟩ := place_successor c tail.stage unfinished.1
  apply advanceTeardown_inv
  constructor
  case told =>
    refine ⟨?_, ?_, ?_⟩
    · rw [happened_snoc]
      simpa [StartAcknowledged, command] using inv.told.started
    · rw [happened_snoc]
      simpa [StopAnswered, command] using inv.told.stopped
    · intro owing
      rcases owing_answered.mp owing with ⟨-, lock, -⟩ | owing
      · have here := (stage_of_command _ lock).1 rfl
        have := tail.stage
        simp [here, inTail] at this
      · exact inv.told.locked owing
  case link =>
    rw [happened_snoc, ← inv.link]
    simpa [LinkLost, command] using lost
  case «open» => exact unfinished.2
  case pending => rfl
  case finishing => exact tail.finishing
  case stage => exact inside
  case reason => exact tail.reason
  case capture =>
    intro running reason
    have before := tail.capture running reason
    have : place c s.stage ≠ place c .stoppingCapture := by
      intro same
      exact capture (place_inj c tail.stage rfl same)
    change place c (teardownSuccessor c s.stage) ≤ _
    omega
  case turning =>
    intro spins
    change _ ≤ place c (teardownSuccessor c s.stage)
    rcases asked spins with before | ⟨here, -⟩
    · have := tail.turning before
      omega
    · rw [further, here, place_check]
  case stopOnce =>
    intro handed
    exact (inv.stopOnce (stopOnce_answered.mp handed)).resolve_right fun h => capture h.1
  case unlock =>
    intro owing link' able
    change place c (teardownSuccessor c s.stage) ≤ 3
    have up : s.linkFailed = false := by
      by_contra down
      simp only [Bool.not_eq_false] at down
      rw [lost.mpr (Or.inl down)] at link'
      cases link'
    rcases owing_answered.mp owing with ⟨-, lock, -⟩ | owing
    · have here := (stage_of_command _ lock).1 rfl
      have := tail.stage
      simp [here, inTail] at this
    · obtain ⟨ahead, unhanded⟩ := inv.unlock owing tail.finishing up able
      have : place c s.stage ≠ place c .unlockingFrontPanel := by
        intro same
        exact unhanded ⟨place_inj c tail.stage rfl same, out⟩
      have : place c .unlockingFrontPanel = 3 := rfl
      omega
  case asked =>
    intro spins here
    change teardownSuccessor c s.stage = .stoppingPlayer at here
    rcases asked spins with before | ⟨check, spinning⟩
    · have := tail.turning before
      rw [here] at further
      omega
    · refine ⟨_, result, latest_snoc.mpr (Or.inl ⟨?_, rfl⟩), ?_, spinning⟩
      · simpa [CommandExchange] using command
      · simp [check, stepFor]

theorem answer_start (inv : Inv c es s) (head : Head s) (here : s.stage = .startingCapture)
    (result : StepResult) :
    Inv c (es ++ [.answered (stepFor c s.stage) result])
      (applyStart c { s with pending := none } result.captureOk) := by
  have lost : Happened LinkLost (es ++ [.answered (stepFor c s.stage) result]) ↔
      s.linkFailed = true := by
    rw [happened_snoc, inv.link]
    simp [LinkLost, here, stepFor]
  have stopOnce : Happened HandsStop (es ++ [.answered (stepFor c s.stage) result]) →
      s.captureStopped = true := by
    intro handed
    refine (inv.stopOnce (stopOnce_answered.mp handed)).resolve_right fun h => ?_
    simp [here] at h
  have stopped : s.captureStopped = true ↔
      Happened StopAnswered (es ++ [.answered (stepFor c s.stage) result]) := by
    rw [happened_snoc]
    simpa [StopAnswered, here, stepFor] using inv.told.stopped
  have locked : Owing LockAcknowledged HandsUnlock
      (es ++ [.answered (stepFor c s.stage) result]) → s.keyLockTaken = true := by
    intro owing
    rcases owing_answered.mp owing with ⟨other, -⟩ | owing
    · simp [here, stepFor] at other
    · exact inv.told.locked owing
  have unstarted : s.captureStarted = false := by
    rw [head.started, here]
    rfl
  have before : ¬ Happened StartAcknowledged es := by
    rw [← inv.told.started]
    simp [unstarted]
  unfold applyStart
  split_ifs with failed
  · simp only [Bool.not_eq_true'] at failed
    refine finish_inv ⟨?_, stopped, locked⟩ head.proper head.open (by decide) ?_ stopOnce
    · rw [happened_snoc]
      simp [StartAcknowledged, failed, unstarted, before]
    · rw [lost]
      simp
  · simp only [Bool.not_eq_true', Bool.not_eq_false] at failed
    have head' : Head (advance c { s with pending := none, captureStarted := true }) := by
      refine ⟨head.proper, head.open, ?_, ?_, head.stopped, head.link, ?_, ?_⟩ <;>
        simp [advance, stageAfter, here, inHead, CaptureRun.started, CaptureRun.unasked]
    refine ⟨⟨?_, stopped, locked⟩, lost.symm, Or.inr (Or.inl head'), ?_,
      fun handed => Or.inl (stopOnce handed), ?_, ?_⟩
    · rw [happened_snoc]
      simp [StartAcknowledged, failed, here, stepFor, advance]
    · intro st out
      simp [advance] at out
    · intro _ finishing
      exact absurd finishing (by simp [head'.proper])
    · intro _ _ there
      simp [advance, stageAfter, here] at there

theorem answer_stop (inv : Inv c es s) (tail : Tail c s) (here : s.stage = .stoppingCapture)
    (result : StepResult) :
    Inv c (es ++ [.answered (stepFor c s.stage) result])
      (applyStop c { s with pending := none } result.captureOk) := by
  have running : s.outcome = .inProgress := by
    rcases tail.settled with ⟨done, -⟩ | ⟨-, running, -⟩
    · simp [here] at done
    · exact running
  obtain ⟨inside, further⟩ := place_successor c (rfl : inTail .stoppingCapture = true) (by decide)
  have passed (turning : s.discTurning = true) :
      place c .stoppingPlayer ≤ place c .stoppingCapture := here ▸ tail.turning turning
  have early : place c .stoppingCapture ≤ 2 := by
    simp only [place]
    split <;> omega
  apply advanceTeardown_inv
  constructor
  case told =>
    refine ⟨?_, ?_, ?_⟩
    · rw [happened_snoc]
      simpa [StartAcknowledged, here, stepFor] using inv.told.started
    · rw [happened_snoc]
      simp [StopAnswered, here, stepFor]
    · intro owing
      rcases owing_answered.mp owing with ⟨other, -⟩ | owing
      · simp [here, stepFor] at other
      · exact inv.told.locked owing
  case link =>
    rw [happened_snoc, ← inv.link]
    simp [LinkLost, here, stepFor]
  case «open» => exact running
  case pending => rfl
  case finishing => exact tail.finishing
  case stage => exact inside
  case reason =>
    dsimp only
    split_ifs
    · decide
    · exact tail.reason
  case capture => simp [AutoCaptureSequence.captureRunning]
  case turning =>
    intro turning
    have := passed turning
    change _ ≤ place c (teardownSuccessor c .stoppingCapture)
    omega
  case stopOnce => exact fun _ => rfl
  case unlock =>
    intro _ _ _
    change place c (teardownSuccessor c .stoppingCapture) ≤ 3
    omega
  case asked =>
    intro turning there
    change teardownSuccessor c .stoppingCapture = .stoppingPlayer at there
    have := passed turning
    rw [there] at further
    omega

theorem command_tail (inv : Inv c es s) (tail : Tail c s) {result : StepResult}
    (command : (stepFor c s.stage).action = .sendCommand) (out : s.pending.isSome = true) :
    Inv c (es ++ [.answered (stepFor c s.stage) result])
      (applyCommand c { s with pending := none } s.stage result.reply) := by
  unfold applyCommand
  split_ifs with down finishing
  · exact answer_tail inv tail command out _ _ (by simp [down]) (fun h => Or.inl h)
  · exact absurd tail.finishing finishing
  simp only [Bool.not_eq_true] at down
  have same : s.linkFailed = true ↔ s.linkFailed = true ∨ result.reply.linkDown = true := by
    simp [down]
  have carriesOn := answer_tail inv tail command out _ _ same (fun h => Or.inl h)
  split <;> rename_i here
  · rw [here] at carriesOn ⊢
    unfold applyCheckingTransport
    split_ifs with refused
    · exact carriesOn
    · simp only [Bool.not_eq_true, Bool.not_eq_false'] at refused
      have asks := answer_tail inv tail command out _
        (isSpinning (parsePlayerState result.reply.text c.definition.stateDecode)) same
        (fun h => Or.inr ⟨here, by simpa [reportsSpinning, refused] using h⟩)
      rwa [here] at asks
  · exact here ▸ carriesOn
  · exact here ▸ carriesOn
  · exfalso
    have inside := tail.stage
    rcases tail.settled with ⟨-, -, free⟩ | ⟨unfinished, -⟩
    · simp [free] at out
    · cases here : s.stage <;> simp_all [inTail, stepFor]

theorem command_head (inv : Inv c es s) (head : Head s) {result : StepResult}
    (command : (stepFor c s.stage).action = .sendCommand) :
    Inv c (es ++ [.answered (stepFor c s.stage) result])
      (applyCommand c { s with pending := none } s.stage result.reply) := by
  have inside := head.stage
  unfold applyCommand
  split_ifs with down finishing
  · exact absurd finishing (by simp [head.proper])
  · refine finish_inv ⟨?_, ?_, ?_⟩ head.proper head.open (by decide) ?_ ?_
    · rw [happened_snoc]
      simpa [StartAcknowledged, command] using inv.told.started
    · rw [happened_snoc]
      simpa [StopAnswered, command] using inv.told.stopped
    · intro owing
      rcases owing_answered.mp owing with ⟨-, -, ok⟩ | owing
      · simp only [Reply.ok, beq_iff_eq] at ok
        simp [Reply.linkDown, ok] at down
      · exact inv.told.locked owing
    · rw [happened_snoc]
      simp [LinkLost, command, down]
    · intro handed
      refine (inv.stopOnce (stopOnce_answered.mp handed)).resolve_right fun h => ?_
      simp [h.1, inHead] at inside
  · simp only [Bool.not_eq_true] at down
    split <;> rename_i here
    · simp [here, inHead] at inside
    · simp [here, inHead] at inside
    · simp [here, inHead] at inside
    · exact answer_head inv head command down

/-- What every answer keeps. -/
theorem apply_inv (inv : Inv c es s) («open» : s.isFinished = false) {st : AutoCaptureStep}
    (out : s.pending = some st) (result : StepResult) :
    Inv c (es ++ [.answered st result]) (apply c s result) := by
  obtain rfl := inv.pending st out
  have waiting : s.pending.isSome = true := by simp [out]
  have phase : Head s ∨ Tail c s := by
    refine inv.phase.resolve_left fun refused => ?_
    simp [refused.closed] at «open»
  rw [apply, if_neg (by simp [«open»]), out]
  dsimp only
  cases action : (stepFor c s.stage).action with
  | startCapture =>
    have here := stepFor_start action
    rcases phase with head | tail
    · exact answer_start inv head here result
    · have inside := tail.stage
      simp [here, inTail] at inside
  | stopCapture =>
    have here := stepFor_stop action
    rcases phase with head | tail
    · have inside := head.stage
      simp [here, inHead] at inside
    · exact answer_stop inv tail here result
  | sendCommand =>
    rw [stepFor_stage]
    rcases phase with head | tail
    · exact command_head inv head action
    · exact command_tail inv tail action waiting

/-! ## Steps are handed out -/

theorem advance_head (head : Head s) (command : s.stage ≠ .startingCapture) :
    Head (advance c s) := by
  have follows := follows_stageAfter (c := c) head.stage command
  refine ⟨head.proper, head.open, follows.stage, head.started.trans follows.started.symm,
    head.stopped, head.link, ?_, fun here => absurd here follows.unlocked⟩
  intro unasked
  exact head.unasked (follows.unasked unasked).1

theorem skipUnless_head (stage : AutoCaptureStage) (head : Head s)
    (command : stage ≠ .startingCapture) (able : AutoCaptureSequence → Bool) :
    Head (skipUnless c stage able s) := by
  unfold skipUnless
  split_ifs with skipped
  · exact advance_head head (skipped.1 ▸ command)
  · exact head

theorem skips_head (head : Head s) : Head (skips c s) := by
  have lock : Head (skipLock c s) := by
    unfold skipLock
    split_ifs with skipped
    · refine ⟨head.proper, head.open, rfl, ?_, head.stopped, head.link, ?_, by simp⟩
      · rw [head.started, skipped.1]
        rfl
      · intro _
        exact head.unasked (by simp [skipped.1, CaptureRun.unasked])
    · exact head
  have status := skipUnless_head (c := c) .confirmingDisc lock (by decide)
    fun _ => c.has .queryDiscStatus
  have transport := skipUnless_head (c := c) .checkingTransport status (by decide)
    fun _ => c.has .queryActiveMode
  have stop := skipUnless_head (c := c) .spinningDown transport (by decide)
    fun u => c.has .stop && u.discTurning
  exact stop

/-- The stop of the head is reached only where the question was just answered with yes. -/
theorem skips_stop (head : Head s) (here : (skips c s).stage = .spinningDown) :
    s.stage = .spinningDown ∧ s.discTurning = true := by
  have turning : s.discTurning = true := by
    generalize inner : skipUnless c .checkingTransport (fun _ => c.has .queryActiveMode)
      (skipUnless c .confirmingDisc (fun _ => c.has .queryDiscStatus) (skipLock c s)) = u
    have same : u.discTurning = s.discTurning := by
      rw [← inner]
      simp only [skipUnless, skipLock, advance]
      split_ifs <;> rfl
    simp only [skips, inner] at here
    unfold skipUnless at here
    split_ifs at here with skipped
    · simp [advance, stageAfter, skipped.1] at here
    · simp only [here, true_and, Bool.not_eq_true', Bool.not_eq_false, Bool.and_eq_true] at skipped
      rw [← same]
      exact skipped.2
  refine ⟨?_, turning⟩
  have asked : CaptureRun.unasked s.stage = false := by
    by_contra unasked
    simp only [Bool.not_eq_false] at unasked
    rw [head.unasked unasked] at turning
    cases turning
  cases stage : s.stage <;> simp [stage, CaptureRun.unasked] at asked <;>
    simp [skips, skipLock, skipUnless, stage] at here
  rfl

theorem skips_tail (tail : Tail c s) : skips c s = s := by
  have inside := tail.stage
  cases stage : s.stage <;> simp [stage, inTail] at inside <;>
    simp [skips, skipLock, skipUnless, stage]

/-- Passing over stages keeps the invariant, and a stop that is reached was asked for. -/
theorem skips_inv (inv : Inv c es s) («open» : s.isFinished = false) (free : s.pending = none) :
    Inv c es (skips c s) ∧
      ((skips c s).stage = .spinningDown ∨ (skips c s).stage = .stoppingPlayer →
        Asked c es) := by
  rcases inv.phase with refused | head | tail
  · simp [refused.closed] at «open»
  · have head' := skips_head (c := c) head
    have stops (here : (skips c s).stage = .spinningDown ∨ (skips c s).stage = .stoppingPlayer) :
        Asked c es := by
      rcases here with here | here
      · obtain ⟨before, turning⟩ := skips_stop head here
        exact inv.asked free turning (Or.inl before)
      · have inside := head'.stage
        simp [here, inHead] at inside
    refine ⟨?_, stops⟩
    rw [skips_eq] at head' stops ⊢
    refine ⟨⟨inv.told.started, inv.told.stopped, inv.told.locked⟩, inv.link,
      Or.inr (Or.inl head'), ?_, ?_, ?_, fun _ _ here => stops here⟩
    · intro st out
      simp [free] at out
    · intro handed
      rcases inv.stopOnce handed with stopped | ⟨-, out⟩
      · exact Or.inl stopped
      · simp [free] at out
    · intro _ finishing
      exact absurd finishing (by simp [head.proper])
  · rw [skips_tail tail]
    refine ⟨inv, ?_⟩
    rintro (here | here)
    · have inside := tail.stage
      simp [here, inTail] at inside
    · rcases tail.settled with ⟨done, -⟩ | ⟨-, -, applies⟩
      · simp [here] at done
      · simp only [here, teardownStepApplies, Bool.and_eq_true] at applies
        exact inv.asked free applies.2 (Or.inr here)

theorem hand_inv (inv : Inv c es s) («open» : s.isFinished = false) (free : s.pending = none) :
    Inv c (es ++ [.handed (stepFor c s.stage)]) (hand c s) := by
  have owing (h : Owing LockAcknowledged HandsUnlock (es ++ [.handed (stepFor c s.stage)])) :
      Owing LockAcknowledged HandsUnlock es ∧
        ¬ HandsUnlock (.handed (stepFor c s.stage) : CaptureEvent) := by
    rcases owing_snoc.mp h with lock | owing
    · exact lock.elim
    · exact owing
  constructor
  case told =>
    refine ⟨?_, ?_, fun h => inv.told.locked (owing h).1⟩
    · rw [happened_snoc]
      simpa [StartAcknowledged, hand] using inv.told.started
    · rw [happened_snoc]
      simpa [StopAnswered, hand] using inv.told.stopped
  case link =>
    rw [happened_snoc]
    simpa [LinkLost, hand] using inv.link
  case phase =>
    rcases inv.phase with refused | head | tail
    · simp [refused.closed] at «open»
    · exact Or.inr (Or.inl ⟨head.proper, head.open, head.stage, head.started, head.stopped,
        head.link, head.unasked, head.unlocked⟩)
    · refine Or.inr (Or.inr ⟨tail.finishing, tail.stage, tail.reason, tail.capture,
        tail.turning, ?_⟩)
      have settled := tail.settled
      simp only [AutoCaptureSequence.isFinished, bne_eq_false_iff_eq] at «open»
      rcases settled with ⟨-, done, -⟩ | ⟨unfinished, running, applies⟩
      · exact absurd («open».symm.trans done).symm tail.reason
      · refine Or.inr ⟨unfinished, running, ?_⟩
        have inside := tail.stage
        rw [← applies]
        cases stage : s.stage <;> simp [stage, inTail] at inside <;>
          simp [hand, stage, teardownStepApplies, wouldStopPlayer,
            AutoCaptureSequence.captureRunning]
  case pending =>
    intro st out
    simpa [hand] using out.symm
  case stopOnce =>
    intro handed
    rcases happened_snoc.mp handed with earlier | now
    · rcases inv.stopOnce earlier with stopped | ⟨-, out⟩
      · exact Or.inl stopped
      · simp [free] at out
    · exact Or.inr ⟨stepFor_stop now, rfl⟩
  case unlock =>
    intro h finishing link able
    obtain ⟨owed, other⟩ := owing h
    refine ⟨(inv.unlock owed finishing link able).1, fun here => other ?_⟩
    have here : s.stage = .unlockingFrontPanel := here.1
    simp [HandsUnlock, here, stepFor]
  case asked => simp [hand]

/-- What every call of `Next` keeps. -/
theorem next_inv (inv : Inv c es s) (idle : awaiting s = none) :
    (∃ t, next c s = (none, t) ∧ Inv c es t) ∨
    (∃ t, Inv c es t ∧ t.isFinished = false ∧ t.pending = none ∧
      (t.stage = .spinningDown ∨ t.stage = .stoppingPlayer → Asked c es) ∧
      next c s = (some (stepFor c t.stage), hand c t)) := by
  unfold next
  split_ifs with finished
  · exact Or.inl ⟨s, rfl, inv⟩
  have «open» : s.isFinished = false := by simpa using finished
  have free : s.pending = none := by simpa [awaiting, finished] using idle
  have inv' := honourCancel_inv inv «open» free
  have free' := honourCancel_pending c free
  rw [free]
  dsimp only
  generalize honourCancel c s = u at inv' free'
  split_ifs with ended
  · exact Or.inl ⟨u, rfl, inv'⟩
  have open' : u.isFinished = false := by simpa using ended
  obtain ⟨skipped, stops⟩ := skips_inv inv' open' free'
  refine Or.inr ⟨skips c u, skipped, ?_, ?_, stops, rfl⟩
  · rw [skips_eq]
    exact open'
  · rw [skips_eq]
    exact free'

theorem cancel_inv (inv : Inv c es s) : Inv c es (cancel c s) := by
  unfold cancel
  split_ifs with finished
  · exact inv
  have «open» : s.isFinished = false := by simpa using finished
  have asked : Inv c es { s with cancelRequested := true } := by
    refine ⟨⟨inv.told.started, inv.told.stopped, inv.told.locked⟩, inv.link, ?_, inv.pending,
      inv.stopOnce, inv.unlock, inv.asked⟩
    rcases inv.phase with refused | head | tail
    · simp [refused.closed] at «open»
    · exact Or.inr (Or.inl ⟨head.proper, head.open, head.stage, head.started, head.stopped,
        head.link, head.unasked, head.unlocked⟩)
    · exact Or.inr (Or.inr ⟨tail.finishing, tail.stage, tail.reason, tail.capture, tail.turning,
        tail.settled⟩)
  dsimp only
  split_ifs with idle
  · simp only [Bool.and_eq_true, Option.isNone_iff_eq_none, Bool.not_eq_true'] at idle
    have ended := honourCancel_inv asked «open» idle.1
    simpa [honourCancel, idle.2] using ended
  · exact asked

theorem begin_inv : Inv c [] (begin c) := by
  have flags : (begin c).captureStarted = false ∧ (begin c).captureStopped = false ∧
      (begin c).linkFailed = false ∧ (begin c).pending = none ∧
      (begin c).discTurning = false ∧ (begin c).finishing = false := by
    unfold begin
    dsimp only
    split_ifs <;> simp
  obtain ⟨started, stopped, link, pending, turning, proper⟩ := flags
  constructor
  case told => exact ⟨by simp [started], by simp [stopped], by simp⟩
  case link => simp [link]
  case phase =>
    unfold begin
    dsimp only
    split_ifs
    · exact Or.inl ⟨rfl, rfl, rfl, rfl⟩
    · exact Or.inl ⟨rfl, rfl, rfl, rfl⟩
    · exact Or.inr (Or.inl ⟨rfl, rfl, rfl, rfl, rfl, rfl, fun _ => rfl, fun _ => rfl⟩)
  case pending => simp [pending]
  case stopOnce => simp
  case unlock => simp
  case asked => simp [turning]

/-- What every action of the caller keeps. -/
theorem step_inv (inv : Inv c es s) (a : Dialogue.Action CaptureCall StepResult) :
    Inv c (es ++ [((sequence c).step s a).2]) ((sequence c).step s a).1 := by
  rcases (sequence c).step_cases s a with ⟨st, -, step⟩ | ⟨idle, st, t, given, -, step⟩ |
      ⟨idle, t, given, -, step⟩ | ⟨st, result, out, step⟩ | ⟨result, -, step⟩ | ⟨which, -, step⟩ <;>
    rw [step]
  · exact inv.quiet trivial
  · rcases next_inv inv idle with ⟨u, none', -⟩ | ⟨u, inv', open', free, -, handed⟩
    · cases given.symm.trans none'
    · cases given.symm.trans handed
      exact hand_inv inv' open' free
  · rcases next_inv inv idle with ⟨u, none', inv'⟩ | ⟨u, -, -, -, -, handed⟩
    · cases given.symm.trans none'
      exact inv'.quiet trivial
    · cases given.symm.trans handed
  · change awaiting s = some st at out
    unfold awaiting at out
    split_ifs at out with finished
    exact apply_inv inv (by simpa using finished) out result
  · exact inv.quiet trivial
  · exact (cancel_inv inv).quiet trivial

variable (c) in
/-- Every sequence of calls that a caller can make. -/
abbrev CaptureLog (es : List CaptureEvent) (s : AutoCaptureSequence) : Prop :=
  Run (sequence c).machine Any (begin c) es s

theorem inv_of_run (run : CaptureLog c es s) : Inv c es s :=
  run.invariant_events (Inv c) begin_inv fun _ _ a inv _ => step_inv inv a

end CaptureRun
