import DomesdayDuplicator.Capture.HeadlessCapture

/-!
# What a script is told of a headless capture

There is one capture: one that has not begun, one that runs, one that is to be collected
or one whose path is printed. The runner says once how it ended, says that it went well
only then, and until it has said so something is left that will make it go on.
-/

namespace HeadlessExit

open Execution HeadlessCapture HeadlessCapture.World

def early : RunnerState → Nat
  | .idle | .waitingForDevice | .starting => 1
  | _ => 0

/-- The captures that are still to come, run, are to be collected or have been printed. -/
def captures (w : World) : Nat :=
  early w.runner.state + w.controller.capturing.toNat +
    w.controller.pendingSinkChange.toNat + w.out.length

def Failure : Signal → Prop
  | .failed _ _ => True
  | _ => False

def Arrival : Signal → Prop
  | .captureFinished _ _ => True
  | _ => False

def emission : Queued → Bool
  | .emitFinished _ => true
  | _ => false

/-- What a success stands for. -/
structure Earned (out : List String) (heard : List Signal) : Prop where
  printed : out ≠ []
  arrived : ∃ signal ∈ heard, Arrival signal
  clean : ∀ signal ∈ heard, ¬ Failure signal

/-- The state between two slots; `opening` where it may be one in which a capture is
just being asked for. -/
structure Sound (options : Options) (opening : Prop) (w : World) : Prop where
  given : w.options = options
  opens : w.runner.state = .starting → opening
  connected : w.runner.state ≠ .idle → w.runner.state ≠ .done → w.runner.connected = true
  idle : w.runner.state = .idle → w.runner.connected = false
  captures : w.runner.state ≠ .done → captures w ≤ 1
  runs : w.runner.state = .capturing → w.controller.capturing = true
  once : w.out.length ≤ 1
  waiting : w.runner.state = .waitingForDevice → 0 < w.options.deviceWaitMilliseconds →
    w.runner.deviceTimer = true
  finishing : w.runner.state = .finishing → w.runner.finishScheduled = true ∨
    (0 < w.options.finishWaitMilliseconds → w.runner.finishTimer = true)
  scheduled : w.runner.finishScheduled = true → w.runner.state ≠ .done → .finish ∈ w.queue
  printed : w.runner.finishScheduled = true →
    w.out ≠ [] ∧ ∃ signal ∈ w.heard, Arrival signal
  clean : w.runner.exitCode = .success → ∀ signal ∈ w.heard, ¬ Failure signal
  queued : .finish ∈ w.queue → w.runner.finishScheduled = true
  emissions : w.finished.length + w.queue.countP emission =
    if w.runner.state = .done then 1 else 0
  earned : .success ∈ w.finished ∨ .emitFinished .success ∈ w.queue → Earned w.out w.heard

theorem sound_launch (options : Options) (present usable : Bool) :
    Sound options False (launch options present usable) := by
  constructor <;> simp [launch, captures, early]

section Steps

variable {options : Options} {opening : Prop} {w : World}

/-- Nobody has been told anything before the runner is done. -/
theorem Sound.untold (h : Sound options opening w) (going : w.runner.state ≠ .done) :
    w.finished = [] ∧ ∀ code, .emitFinished code ∉ w.queue := by
  have none := h.emissions
  rw [if_neg going] at none
  refine ⟨List.length_eq_zero_iff.mp (by omega), ?_⟩
  intro code among
  have some : 0 < w.queue.countP emission := List.countP_pos_iff.mpr ⟨_, among, rfl⟩
  omega

/-! ## Lines and signals -/

theorem Sound.say (h : Sound options opening w) (line : String) :
    Sound options opening (w.say line) :=
  ⟨h.given, h.opens, h.connected, h.idle, h.captures, h.runs, h.once, h.waiting, h.finishing,
    h.scheduled, h.printed, h.clean, h.queued, h.emissions, h.earned⟩

theorem hear_done (signal : Signal) (ended : w.runner.state = .done) : w.hear signal = w := by
  rw [World.hear, if_neg fun heard => heard.2 ended]

theorem hear_going (signal : Signal) (connected : w.runner.connected = true)
    (going : w.runner.state ≠ .done) :
    w.hear signal = { w with heard := w.heard ++ [signal] } := by
  rw [World.hear, if_pos ⟨connected, going⟩]

theorem hear_controller (signal : Signal) (controller : Controller) (w : World) :
    { w with controller }.hear signal = { w.hear signal with controller } := by
  simp only [World.hear]
  split <;> rfl

theorem hear_same (signal : Signal) (w : World) : (w.hear signal).runner = w.runner ∧
    (w.hear signal).controller = w.controller ∧ (w.hear signal).out = w.out := by
  rw [World.hear]
  split
  · exact ⟨rfl, rfl, rfl⟩
  · exact ⟨rfl, rfl, rfl⟩

theorem Sound.hear (h : Sound options opening w) {signal : Signal} (fine : ¬ Failure signal) :
    Sound options opening (w.hear signal) := by
  have quiet : (∀ other ∈ w.heard, ¬ Failure other) →
      ∀ other ∈ w.heard ++ [signal], ¬ Failure other := by
    intro clean other among
    rcases List.mem_append.mp among with before | now
    · exact clean other before
    · rw [List.mem_singleton.mp now]
      exact fine
  rw [World.hear]
  split
  · refine ⟨h.given, h.opens, h.connected, h.idle, h.captures, h.runs, h.once, h.waiting,
      h.finishing, h.scheduled, ?_, fun success => quiet (h.clean success), h.queued,
      h.emissions, ?_⟩
    · intro scheduled
      obtain ⟨out, arrival, among, arrived⟩ := h.printed scheduled
      exact ⟨out, arrival, List.mem_append_left _ among, arrived⟩
    · intro success
      obtain ⟨out, ⟨arrival, among, arrived⟩, clean⟩ := h.earned success
      exact ⟨out, ⟨arrival, List.mem_append_left _ among, arrived⟩, quiet clean⟩
  · exact h

theorem Sound.onRemark (h : Sound options opening w) {signal : Signal} (fine : ¬ Failure signal)
    (line : String) : Sound options opening (w.onRemark signal line) := by
  rw [World.onRemark]
  split
  · exact (h.hear fine).say line
  · exact h

theorem onRemark_same (signal : Signal) (line : String) (w : World) :
    (w.onRemark signal line).runner = w.runner ∧
      (w.onRemark signal line).controller = w.controller ∧
      (w.onRemark signal line).out = w.out := by
  rw [World.onRemark]
  split
  · exact hear_same signal w
  · exact ⟨rfl, rfl, rfl⟩

section Remarks

variable {α : Type} (said : Option α) (signal : α → Signal) (line : α → String)

theorem Sound.remarks (h : Sound options opening w) (fine : ∀ a, ¬ Failure (signal a)) :
    Sound options opening (said.elim w fun a => w.onRemark (signal a) (line a)) := by
  cases said with
  | none => exact h
  | some a => exact h.onRemark (fine a) (line a)

theorem remarks_same (w : World) :
    (said.elim w fun a => w.onRemark (signal a) (line a)).runner = w.runner ∧
      (said.elim w fun a => w.onRemark (signal a) (line a)).controller = w.controller ∧
      (said.elim w fun a => w.onRemark (signal a) (line a)).out = w.out := by
  cases said with
  | none => exact ⟨rfl, rfl, rfl⟩
  | some a => exact onRemark_same (signal a) (line a) w

end Remarks

/-- What only the controller knows changes: the captures stay, or get fewer. -/
theorem Sound.controls (h : Sound options opening w) (controller : Controller)
    (same : controller.capturing = w.controller.capturing)
    (fewer : controller.pendingSinkChange.toNat ≤ w.controller.pendingSinkChange.toNat) :
    Sound options opening { w with controller } := by
  refine ⟨h.given, h.opens, h.connected, h.idle, ?_, fun is => same.trans (h.runs is), h.once,
    h.waiting, h.finishing, h.scheduled, h.printed, h.clean, h.queued, h.emissions, h.earned⟩
  intro going
  have before := h.captures going
  simp only [HeadlessExit.captures, same] at before ⊢
  omega

/-! ## The end -/

theorem Sound.finish (h : Sound options opening w) {code : ExitCode}
    (earned : code = .success → Earned w.out w.heard) : Sound options opening (w.finish code) := by
  rw [World.finish]
  split
  · exact h
  · rename_i going
    have none := h.emissions
    rw [if_neg going] at none
    constructor
    · exact h.given
    · simp
    · simp
    · simp
    · simp
    · simp
    · exact h.once
    · simp
    · simp
    · simp
    · exact h.printed
    · exact h.clean
    · intro queued
      rcases List.mem_append.mp queued with before | now
      · exact h.queued before
      · cases List.mem_singleton.mp now
    · rw [List.countP_append]
      simp only [if_true]
      have one : [Queued.emitFinished code].countP emission = 1 := rfl
      omega
    · intro success
      have either : code = .success ∨ .success ∈ w.finished ∨ .emitFinished .success ∈ w.queue := by
        rcases success with out | queued
        · exact Or.inr (Or.inl out)
        · rcases List.mem_append.mp queued with before | now
          · exact Or.inr (Or.inr before)
          · have same := List.mem_singleton.mp now
            exact Or.inl (Queued.emitFinished.inj same).symm
      exact either.elim earned h.earned

theorem finish_state (code : ExitCode) (w : World) : (w.finish code).runner.state = .done := by
  rw [World.finish]
  split
  · assumption
  · rfl

/-- The timers do not matter to an end that stops them both. -/
theorem finish_timers (code : ExitCode) (w : World) (deviceTimer finishTimer : Bool)
    (going : w.runner.state ≠ .done) :
    ({ w with runner := { w.runner with deviceTimer, finishTimer } }).finish code =
      w.finish code := by
  rw [World.finish, World.finish, if_neg going, if_neg going]

/-! ## The capture ends -/

theorem onCapturingChanged_still (w : World) (path : String)
    (still : ¬ (w.runner.state = .capturing ∨ w.runner.state = .starting)) :
    w.onCapturingChanged false path = w := by
  rw [onCapturingChanged, if_neg Bool.false_ne_true, if_pos (not_or.mp still), ite_self]

theorem Sound.onStopped (h : Sound options opening w) (controller : Controller)
    (was : w.controller.capturing = true) (off : controller.capturing = false) (path : String) :
    Sound options opening ({ w with controller }.onCapturingChanged false path) := by
  have only : w.runner.state ≠ .done → early w.runner.state + controller.capturing.toNat +
      controller.pendingSinkChange.toNat + w.out.length ≤ 1 := by
    intro going
    have before := h.captures going
    simp only [HeadlessExit.captures, was, off, Bool.toNat_true, Bool.toNat_false] at before ⊢
    have := Bool.toNat_le controller.pendingSinkChange
    omega
  by_cases running : w.runner.state = .capturing ∨ w.runner.state = .starting
  · have going : w.runner.state ≠ .done := by
      rcases running with is | is <;> simp [is]
    have ends : { w with controller }.onCapturingChanged false path =
        { w with
          controller
          runner := { w.runner with
            state := .finishing
            finishTimer := w.runner.finishTimer || 0 < w.options.finishWaitMilliseconds } }.say
          "Stopped. Finishing the file." := by
      rw [onCapturingChanged, if_neg going, if_neg Bool.false_ne_true, if_neg]
      rcases running with is | is <;> simp [is]
    rw [ends]
    apply Sound.say
    refine ⟨h.given, ?_, ?_, ?_, ?_, ?_, ?_, ?_, ?_, ?_, h.printed, h.clean, h.queued, ?_, h.earned⟩
    · simp
    · intro _ _
      refine h.connected ?_ going
      rcases running with is | is <;> simp [is]
    · simp
    · intro _
      have before := only going
      simp only [HeadlessExit.captures]
      have none : early .finishing = 0 := rfl
      omega
    · simp
    · exact h.once
    · simp
    · intro _
      exact Or.inr fun waits => by simp [waits]
    · intro scheduled _
      exact h.scheduled scheduled going
    · have none := h.emissions
      rw [if_neg going] at none
      simpa using none
  · rw [onCapturingChanged_still { w with controller } path running]
    exact ⟨h.given, h.opens, h.connected, h.idle, only, fun is => absurd (Or.inl is) running,
      h.once, h.waiting, h.finishing, h.scheduled, h.printed, h.clean, h.queued, h.emissions,
      h.earned⟩

/-- The controller stops capturing and says so, whether the file is still to be collected
or not. -/
theorem Sound.stopped (h : Sound options opening w) (controller : Controller)
    (was : w.controller.capturing = true) (off : controller.capturing = false) (path : String) :
    Sound options opening ({ w with controller }.emitCapturingChanged false path) := by
  rw [emitCapturingChanged]
  split
  · obtain ⟨_, same, _⟩ := hear_same (.capturingChanged false path) w
    have heard : Sound options opening (w.hear (.capturingChanged false path)) := h.hear nofun
    rw [hear_controller]
    exact heard.onStopped controller (same ▸ was) off path
  · rename_i deaf
    have idle : w.runner.state = .idle ∨ w.runner.state = .done := by
      by_contra neither
      exact deaf (h.connected (fun is => neither (Or.inl is)) fun is => neither (Or.inr is))
    have ends := h.onStopped controller was off path
    rw [onCapturingChanged_still] at ends
    · exact ends
    · rcases idle with is | is <;> simp [is]

theorem Sound.stopCapture (h : Sound options opening w) : Sound options opening w.stopCapture := by
  rw [World.stopCapture]
  split
  · rename_i was
    exact h.stopped _ was rfl ""
  · exact h

/-! ## A failure -/

theorem Sound.fails (h : Sound options opening w) (title detail : String)
    (going : w.runner.state ≠ .done) :
    Sound options opening { w with
      heard := w.heard ++ [.failed title detail]
      runner := { w.runner with exitCode := .captureFailed } } := by
  refine ⟨h.given, h.opens, h.connected, h.idle, h.captures, h.runs, h.once, h.waiting,
    h.finishing, h.scheduled, ?_, nofun, h.queued, h.emissions, ?_⟩
  · intro scheduled
    obtain ⟨out, arrival, among, arrived⟩ := h.printed scheduled
    exact ⟨out, arrival, List.mem_append_left _ among, arrived⟩
  · intro success
    obtain ⟨none, nothing⟩ := h.untold going
    rcases success with out | queued
    · rw [none] at out
      cases out
    · exact absurd queued (nothing _)

theorem Sound.emitFailed (h : Sound options opening w) (title detail : String) :
    Sound options opening (w.emitFailed title detail) := by
  rw [World.emitFailed]
  by_cases connected : w.runner.connected = true
  · rw [if_pos connected]
    by_cases ended : w.runner.state = .done
    · rw [hear_done _ ended, onFailed, if_pos ended]
      exact h
    · have failed := (h.fails title detail ended).say ("Error: " ++ title ++ ". " ++ detail)
      rw [hear_going _ connected ended, onFailed, if_neg ended]
      simp only
      split
      · exact failed
      · split
        · exact failed.stopCapture
        · split
          · exact failed
          · exact failed.finish nofun
  · rw [if_neg connected]
    exact h

/-! ## The file arrives -/

/-- The file is reported once: nothing else is left of the capture. -/
theorem Sound.emitCaptureFinished (h : Sound options opening w) (path : String) (bytes : Nat)
    (last : w.runner.state ≠ .done → HeadlessExit.captures w = 0) :
    Sound options opening (w.emitCaptureFinished path bytes) := by
  rw [World.emitCaptureFinished]
  by_cases connected : w.runner.connected = true
  · rw [if_pos connected]
    by_cases ended : w.runner.state = .done
    · rw [hear_done _ ended, onCaptureFinished, if_pos ended]
      exact h
    · have none := last ended
      have heard : Sound options opening (w.hear (.captureFinished path bytes)) := h.hear nofun
      rw [hear_going _ connected ended] at heard ⊢
      simp only [HeadlessExit.captures, Nat.add_eq_zero_iff] at none
      have empty : w.out = [] := List.length_eq_zero_iff.mp none.2
      have unscheduled : w.runner.finishScheduled = false := by
        by_contra scheduled
        rw [Bool.not_eq_false] at scheduled
        exact (h.printed scheduled).1 empty
      have arrived : ∃ signal ∈ w.heard ++ [Signal.captureFinished path bytes], Arrival signal :=
        ⟨_, List.mem_append_right _ (List.mem_singleton_self _), trivial⟩
      rw [onCaptureFinished, if_neg ended, scheduleFinish, if_neg (by simpa [World.say])]
      constructor
      · exact h.given
      · simp [World.say]
      · intro _ _
        exact connected
      · simp [World.say]
      · intro _
        simp [HeadlessExit.captures, World.say, early, empty, Bool.toNat_eq_zero.mp none.1.1.2,
          Bool.toNat_eq_zero.mp none.1.2]
      · simp [World.say]
      · simp [World.say, empty]
      · simp [World.say]
      · simp
      · simp [World.say]
      · intro _
        exact ⟨by simp [World.say], arrived⟩
      · exact heard.clean
      · simp
      · have before := h.emissions
        rw [if_neg ended] at before
        simpa [World.say, emission] using before
      · intro success
        obtain ⟨untold, nothing⟩ := h.untold ended
        simp [World.say, untold, nothing] at success
  · rw [if_neg connected]
    exact h

theorem Sound.finishCaptureFile (h : Sound options opening w) (finishing : Finishing)
    (last : w.runner.state ≠ .done → HeadlessExit.captures w = 0) :
    Sound options opening (w.finishCaptureFile finishing) := by
  let renamed := finishing.renamed.elim w fun names => w.emitCaptureRenamed names.1 names.2
  have first : Sound options opening renamed := h.remarks finishing.renamed _ _ nofun
  obtain ⟨runner, controller, out⟩ := remarks_same finishing.renamed
    (fun names => .captureRenamed names.1 names.2) _ w
  let named := { renamed with
    controller := { renamed.controller with
      capturePath := finishing.path.getD renamed.controller.capturePath } }
  have second : Sound options opening named := first.controls _ rfl (Nat.le_refl _)
  have third := second.remarks finishing.sidecarFailure (fun detail => .metadataWriteFailed detail)
    (fun detail => "The metadata file could not be written: " ++ detail) fun _ failure => failure
  refine third.emitCaptureFinished _ finishing.bytes ?_
  obtain ⟨runner', controller', out'⟩ := remarks_same finishing.sidecarFailure
    (fun detail => .metadataWriteFailed detail)
    (fun detail => "The metadata file could not be written: " ++ detail) named
  rw [HeadlessExit.captures, runner', controller', out']
  have kept : named.runner = w.runner := runner
  have counted : HeadlessExit.captures named = HeadlessExit.captures w := by
    have capturing : named.controller.capturing = w.controller.capturing := by
      change renamed.controller.capturing = _
      rw [show renamed.controller = w.controller from controller]
    have pending : named.controller.pendingSinkChange = w.controller.pendingSinkChange := by
      change renamed.controller.pendingSinkChange = _
      rw [show renamed.controller = w.controller from controller]
    have printed : named.out = w.out := out
    rw [HeadlessExit.captures, HeadlessExit.captures, kept, capturing, pending, printed]
  intro going
  rw [kept] at going
  exact counted.trans (last going)

theorem Sound.collectFinishedCapture (h : Sound options opening w) (found : Findings) :
    Sound options opening (w.collectFinishedCapture found) := by
  rw [World.collectFinishedCapture]
  split
  · exact h
  · rename_i pending
    have was : w.controller.pendingSinkChange = true := by
      by_contra none
      exact pending (Or.inl (Bool.not_eq_true _ ▸ none))
    refine (h.controls { w.controller with pendingSinkChange := false } rfl
      (Nat.zero_le _)).finishCaptureFile _ fun going => ?_
    have before := h.captures going
    simp only [HeadlessExit.captures, was, Bool.toNat_true, Bool.toNat_false] at before ⊢
    omega

/-! ## The run ends -/

theorem early_stopped (w : World) (path : String) :
    ((w.emitCapturingChanged false path).runner.state ≠ .done → w.runner.state ≠ .done) ∧
      early (w.emitCapturingChanged false path).runner.state ≤ early w.runner.state ∧
      (w.emitCapturingChanged false path).controller = w.controller ∧
      (w.emitCapturingChanged false path).out = w.out := by
  rw [emitCapturingChanged]
  split
  · rename_i connected
    by_cases ended : w.runner.state = .done
    · rw [hear_done _ ended, onCapturingChanged, if_pos ended]
      exact ⟨fun going => going, Nat.le_refl _, rfl, rfl⟩
    · rw [hear_going _ connected ended, onCapturingChanged, if_neg ended,
        if_neg Bool.false_ne_true]
      split
      · exact ⟨fun going => going, Nat.le_refl _, rfl, rfl⟩
      · exact ⟨fun _ => ended, Nat.zero_le _, rfl, rfl⟩
  · exact ⟨fun going => going, Nat.le_refl _, rfl, rfl⟩

theorem Sound.finishRun (h : Sound options opening w) (found : Findings) :
    Sound options opening (w.finishRun found) := by
  let quiet := { w with controller := { w.controller with monitoring := false } }
  have first : Sound options opening quiet := h.controls _ rfl (Nat.le_refl _)
  have failing : ∀ v, Sound options opening v → Sound options opening
      (found.failure.elim v fun failure => v.emitFailed failure.1 failure.2) := by
    intro v sound
    cases found.failure with
    | none => exact sound
    | some failure => exact sound.emitFailed _ _
  apply failing
  by_cases was : w.controller.capturing = true
  · rw [if_pos was, if_pos was]
    let controller := { quiet.controller with capturing := false }
    let stopped := { quiet with controller }.emitCapturingChanged false ""
    have second : Sound options opening stopped := first.stopped controller was rfl ""
    obtain ⟨going, sooner, same, out⟩ := early_stopped { quiet with controller } ""
    have off : stopped.controller = controller := same
    refine (second.controls { stopped.controller with pendingSinkChange := false } rfl
      (Nat.zero_le _)).finishCaptureFile found.finishing fun open' => ?_
    have before := h.captures (going open')
    simp only [HeadlessExit.captures, was, Bool.toNat_true] at before
    have none : stopped.out.length = w.out.length := congrArg List.length out
    have earlier : early stopped.runner.state ≤ early w.runner.state := sooner
    simp only [HeadlessExit.captures, off, controller, Bool.toNat_false]
    omega
  · rw [if_neg was, if_neg was]
    exact first.controls { quiet.controller with pendingSinkChange := false } rfl (Nat.zero_le _)

theorem Sound.tick (h : Sound options opening w) (found : Findings) :
    Sound options opening (w.tick found) := by
  rw [World.tick]
  split
  · exact h
  · have limited : Sound options opening
        (if w.controller.capturing ∧ found.limitReached then w.stopCapture else w) := by
      split
      · exact h.stopCapture
      · exact h
    have warned : ∀ v, Sound options opening v → Sound options opening
        (if v.controller.capturing then
          found.lowSpace.elim v fun message => v.onRemark (.lowSpaceWarning message) message
        else v) := by
      intro v sound
      split
      · exact sound.remarks found.lowSpace (fun message => .lowSpaceWarning message)
          (fun message => message) fun _ failure => failure
      · exact sound
    have ended : ∀ v, Sound options opening v → Sound options opening
        (if v.controller.monitoring ∧ found.ended then v.finishRun found else v) := by
      intro v sound
      split
      · exact sound.finishRun found
      · exact sound
    exact ended _ ((warned _ limited).collectFinishedCapture found)

/-! ## The capture starts -/

theorem emitCapturingChanged_controller (path : String) (w : World) :
    (w.emitCapturingChanged false path).controller = w.controller :=
  (early_stopped w path).2.2.1

theorem stopCapture_monitoring (w : World) :
    w.stopCapture.controller.monitoring = w.controller.monitoring := by
  rw [World.stopCapture]
  split
  · rw [emitCapturingChanged_controller]
  · rfl

theorem finish_controller (code : ExitCode) (w : World) :
    (w.finish code).controller = w.controller := by
  rw [World.finish]
  split <;> rfl

theorem emitFailed_monitoring (title detail : String) (w : World) :
    (w.emitFailed title detail).controller.monitoring = w.controller.monitoring := by
  rw [World.emitFailed]
  split
  · rename_i connected
    by_cases ended : w.runner.state = .done
    · rw [hear_done _ ended, onFailed, if_pos ended]
    · rw [hear_going _ connected ended, onFailed, if_neg ended]
      simp only
      split
      · rfl
      · split
        · rw [stopCapture_monitoring]
          rfl
        · split
          · rfl
          · rw [finish_controller]
            rfl
  · rfl

theorem Sound.startMonitoring (h : Sound options opening w) (outcome : Monitoring) :
    Sound options opening (w.startMonitoring outcome) := by
  unfold World.startMonitoring
  split
  · exact h
  · cases outcome with
    | fails title detail => exact h.emitFailed title detail
    | works => exact h.controls _ rfl (Nat.le_refl _)

theorem startMonitoring_runner {outcome : Monitoring}
    (works : (w.startMonitoring outcome).controller.monitoring = true)
    (off : w.controller.monitoring = false) :
    (w.startMonitoring outcome).runner = w.runner ∧
      (w.startMonitoring outcome).controller.capturing = w.controller.capturing := by
  unfold World.startMonitoring at works ⊢
  split at works
  · rw [off] at works
    cases works
  · rename_i usable
    rw [if_neg usable]
    cases outcome with
    | fails title detail =>
      rw [emitFailed_monitoring, off] at works
      cases works
    | works => exact ⟨rfl, rfl⟩

/-- The capture that was asked for is the one that runs. -/
theorem Sound.started (h : Sound options opening w) (path : String)
    (asked : w.runner.state = .starting) : Sound options opening ({ w with
      controller := { w.controller with capturePath := path, capturing := true }
      }.emitCapturingChanged true path) := by
  have connected : w.runner.connected = true := h.connected (by simp [asked]) (by simp [asked])
  obtain ⟨runner, same, out⟩ := hear_same (.capturingChanged true path) w
  have heard : Sound options opening (w.hear (.capturingChanged true path)) := h.hear nofun
  rw [emitCapturingChanged, if_pos connected, hear_controller, onCapturingChanged]
  generalize w.hear (.capturingChanged true path) = v at *
  have going : v.runner.state ≠ .done := by simp [runner, asked]
  rw [if_neg going, if_pos rfl]
  apply Sound.say
  have only := heard.captures going
  simp only [HeadlessExit.captures, runner, asked, early, same] at only
  refine ⟨heard.given, ?_, ?_, ?_, ?_, ?_, heard.once, ?_, ?_, ?_, heard.printed, heard.clean,
    heard.queued, ?_, heard.earned⟩
  · simp
  · intro _ _
    exact runner ▸ connected
  · simp
  · intro _
    simp only [HeadlessExit.captures, early, Bool.toNat_true]
    omega
  · simp
  · simp
  · simp
  · intro scheduled _
    exact heard.scheduled scheduled going
  · have none := heard.emissions
    rw [if_neg going] at none
    simpa using none

theorem Sound.opened (h : Sound options opening w) (opens : Opening)
    (asked : w.runner.state = .starting) :
    Sound options opening
      (match opens.file with
      | .error (title, detail) => w.emitFailed title detail
      | .ok path =>
        { w with
          controller := { w.controller with capturePath := path, capturing := true }
          }.emitCapturingChanged true path) := by
  cases opens.file with
  | error why => exact h.emitFailed why.1 why.2
  | ok path => exact h.started path asked

theorem Sound.startCapture (h : Sound options opening w) (monitoring : Monitoring) (opens : Opening)
    (asked : w.runner.state = .starting) :
    Sound options opening (w.startCapture monitoring opens) := by
  have named : ∀ v, Sound options opening v → v.runner.state = .starting → Sound options opening
      (opens.renamed.elim v fun names => v.emitCaptureRenamed names.1 names.2) ∧
        (opens.renamed.elim v fun names => v.emitCaptureRenamed names.1 names.2).runner.state =
          .starting := by
    intro v sound still
    refine ⟨sound.remarks opens.renamed (fun names => .captureRenamed names.1 names.2) _
      (by rintro _ ⟨⟩), ?_⟩
    obtain ⟨runner, _⟩ := remarks_same opens.renamed
      (fun names => .captureRenamed names.1 names.2) _ v
    exact (congrArg Runner.state runner).trans still
  unfold World.startCapture
  split
  · exact h
  · by_cases on : w.controller.monitoring = true
    · rw [if_pos on]
      simp only [on, Bool.true_eq_false, if_false]
      exact (named w h asked).1.opened opens (named w h asked).2
    · rw [if_neg on]
      have sound := h.startMonitoring monitoring
      simp only
      split
      · exact sound
      · rename_i works
        rw [Bool.not_eq_false] at works
        have runner := (startMonitoring_runner works (Bool.eq_false_iff.mpr on)).1
        have still : (w.startMonitoring monitoring).runner.state = .starting := runner ▸ asked
        exact (named _ sound still).1.opened opens (named _ sound still).2

/-- Whatever the controller answers, the runner does not stay between states. -/
theorem Sound.runCapture (h : Sound options False w) (monitoring : Monitoring) (opens : Opening)
    (waiting : w.runner.state = .waitingForDevice) :
    Sound options False (w.runCapture monitoring opens) := by
  let asked := { w with runner := { w.runner with deviceTimer := false, state := .starting } }
  have going : w.runner.state ≠ .done := by simp [waiting]
  have before : Sound options True asked := by
    refine ⟨h.given, fun _ => trivial, ?_, nofun, ?_, nofun, h.once, nofun, nofun, ?_, h.printed,
      h.clean, h.queued, ?_, h.earned⟩
    · intro _ _
      exact h.connected (by simp [waiting]) going
    · intro _
      have one := h.captures going
      rw [HeadlessExit.captures, waiting] at one
      exact one
    · intro scheduled _
      exact h.scheduled scheduled going
    · have none := h.emissions
      rw [if_neg going] at none
      exact none
  have after : Sound options True (asked.startCapture monitoring opens) :=
    before.startCapture monitoring opens rfl
  have settled : ∀ v, Sound options True v → v.runner.state ≠ .starting →
      Sound options False v := by
    intro v sound settled
    exact ⟨sound.given, settled, sound.connected, sound.idle, sound.captures, sound.runs,
      sound.once, sound.waiting, sound.finishing, sound.scheduled, sound.printed, sound.clean,
      sound.queued, sound.emissions, sound.earned⟩
  unfold World.runCapture
  simp only
  split
  · refine settled _ ((after.say _).finish nofun) ?_
    rw [finish_state]
    simp
  · rename_i ended
    exact settled _ after ended

/-! ## The actions -/

theorem Sound.begin (h : Sound options False w) : Sound options False w.begin := by
  rw [World.begin]
  split
  · exact (h.say _).finish nofun
  · split
    · exact h
    · rename_i idle
      have idle : w.runner.state = .idle := not_not.mp idle
      have going : w.runner.state ≠ .done := by simp [idle]
      refine ⟨h.given, nofun, fun _ _ => rfl, nofun, ?_, nofun, h.once, ?_, nofun, ?_, h.printed,
        h.clean, ?_, ?_, ?_⟩
      · intro _
        have one := h.captures going
        rw [HeadlessExit.captures, idle] at one
        exact one
      · intro _ waits
        simp [waits]
      · intro scheduled _
        exact List.mem_append_left _ (h.scheduled scheduled going)
      · intro queued
        rcases List.mem_append.mp queued with before | now
        · exact h.queued before
        · cases List.mem_singleton.mp now
      · have none := h.emissions
        rw [if_neg going] at none
        rw [List.countP_append]
        simpa [emission] using none
      · intro success
        obtain ⟨untold, nothing⟩ := h.untold going
        simp [untold, nothing] at success

theorem Sound.devicesChanged (h : Sound options False w) (devices : Nat) (monitoring : Monitoring)
    (opens : Opening) : Sound options False (w.devicesChanged devices monitoring opens) := by
  have told := h.controls { w.controller with devices } rfl (Nat.le_refl _)
  unfold World.devicesChanged
  simp only
  split
  · exact told
  · have fine : ¬ Failure (.devicesChanged devices) := nofun
    have heard := told.hear fine
    split
    · exact heard
    · rename_i ready
      obtain ⟨runner, _⟩ := hear_same (.devicesChanged devices)
        { w with controller := { w.controller with devices } }
      exact heard.runCapture monitoring opens (not_not.mp (not_or.mp ready).1)

theorem Sound.requestStop (h : Sound options False w) : Sound options False w.requestStop := by
  unfold World.requestStop
  split
  · exact h
  · exact h.say _
  · exact (h.say _).stopCapture
  · exact (h.say _).finish nofun

theorem Sound.deviceTimeout (h : Sound options False w) : Sound options False w.deviceTimeout := by
  unfold World.deviceTimeout
  split
  · exact h
  · simp only
    split
    · rename_i elsewhere
      exact ⟨h.given, h.opens, h.connected, h.idle, h.captures, h.runs, h.once,
        fun waiting => absurd waiting elsewhere, h.finishing, h.scheduled, h.printed, h.clean,
        h.queued, h.emissions, h.earned⟩
    · rename_i waiting
      have waiting : w.runner.state = .waitingForDevice := not_not.mp waiting
      have ends := finish_timers .noDevice (w.say ("No Domesday Duplicator was found within " ++
        toString (w.options.deviceWaitMilliseconds / 1000) ++
        " seconds. Nothing was captured.")) false w.runner.finishTimer
        (by simp [World.say, waiting])
      exact ends ▸ (h.say _).finish nofun

theorem Sound.finishTimeout (h : Sound options False w) : Sound options False w.finishTimeout := by
  unfold World.finishTimeout
  split
  · exact h
  · simp only
    split
    · rename_i ended
      exact ⟨h.given, h.opens, h.connected, h.idle, h.captures, h.runs, h.once, h.waiting,
        fun finishing => by simp [ended] at finishing, h.scheduled, h.printed, h.clean,
        h.queued, h.emissions, h.earned⟩
    · rename_i going
      have ends := finish_timers .captureFailed (w.say
        ("The capture was stopped but the file was never reported as finished. " ++
          "Whatever was written is on disk and may be incomplete.")) w.runner.deviceTimer false
        (by simpa [World.say])
      exact ends ▸ (h.say _).finish nofun

/-- What is taken off the queue, where it is not the end that the runner waits for. -/
theorem Sound.taken (h : Sound options opening w) {head : Queued} {rest : List Queued}
    (queue : w.queue = head :: rest) (silent : emission head = false)
    (spare : w.runner.finishScheduled = true → w.runner.state ≠ .done → head ≠ .finish) :
    Sound options opening { w with queue := rest } := by
  refine ⟨h.given, h.opens, h.connected, h.idle, h.captures, h.runs, h.once, h.waiting,
    h.finishing, ?_, h.printed, h.clean, ?_, ?_, ?_⟩
  · intro scheduled going
    have among := h.scheduled scheduled going
    rw [queue] at among
    rcases List.mem_cons.mp among with now | later
    · exact absurd now.symm (spare scheduled going)
    · exact later
  · intro queued
    exact h.queued (queue ▸ List.mem_cons_of_mem _ queued)
  · have total := h.emissions
    rw [queue, List.countP_cons_of_neg (by simp [silent])] at total
    exact total
  · intro success
    exact h.earned (success.imp_right fun queued => queue ▸ List.mem_cons_of_mem _ queued)

theorem finish_queue (code : ExitCode) (w : World) (queue : List Queued)
    (going : w.runner.state ≠ .done) : { w with queue }.finish code =
      { w.finish code with queue := queue ++ [.emitFinished code] } := by
  rw [World.finish, World.finish, if_neg going, if_neg going]

theorem Sound.runQueued (h : Sound options False w) (monitoring : Monitoring) (opens : Opening) :
    Sound options False (w.runQueued monitoring opens) := by
  unfold World.runQueued
  split
  · exact h
  · rename_i rest queue
    have left : Sound options False { w with queue := rest } := h.taken queue rfl fun _ _ => nofun
    simp only
    split
    · exact left
    · rename_i ready
      split
      · exact left
      · exact left.runCapture monitoring opens (not_not.mp (not_or.mp ready).1)
  · rename_i rest queue
    have scheduled : w.runner.finishScheduled = true := h.queued (queue ▸ List.mem_cons_self)
    by_cases ended : w.runner.state = .done
    · have left : Sound options False { w with queue := rest } :=
        h.taken queue rfl fun _ going => absurd ended going
      exact left.finish fun success => ⟨(h.printed scheduled).1, (h.printed scheduled).2,
        h.clean success⟩
    · rw [finish_queue _ _ _ ended]
      have finished : Sound options False (w.finish w.runner.exitCode) :=
        h.finish fun success => ⟨(h.printed scheduled).1, (h.printed scheduled).2, h.clean success⟩
      have queued : (w.finish w.runner.exitCode).queue =
          .finish :: (rest ++ [.emitFinished w.runner.exitCode]) := by
        rw [World.finish, if_neg ended, queue]
        rfl
      exact finished.taken queued rfl fun _ going => absurd (finish_state _ _) going
  · rename_i code rest queue
    refine ⟨h.given, h.opens, h.connected, h.idle, h.captures, h.runs, h.once, h.waiting,
      h.finishing, ?_, h.printed, h.clean, ?_, ?_, ?_⟩
    · intro scheduled going
      have among := h.scheduled scheduled going
      rw [queue] at among
      exact (List.mem_cons.mp among).resolve_left nofun
    · intro queued
      exact h.queued (queue ▸ List.mem_cons_of_mem _ queued)
    · have total := h.emissions
      rw [queue, List.countP_cons_of_pos rfl] at total
      simp only [List.length_append, List.length_singleton]
      omega
    · intro success
      apply h.earned
      rw [queue]
      rcases success with out | queued
      · rcases List.mem_append.mp out with before | now
        · exact Or.inl before
        · rw [List.mem_singleton.mp now]
          exact Or.inr List.mem_cons_self
      · exact Or.inr (List.mem_cons_of_mem _ queued)

theorem Sound.start (h : Sound options False w) : Sound options False w.start := by
  rw [World.start]
  split
  · exact h
  · exact h.emitFailed _ _

theorem Sound.step (h : Sound options False w) (action : Action) :
    Sound options False (w.step action) := by
  cases action with
  | begin => exact h.begin
  | start => exact h.start
  | devicesChanged devices monitoring opens => exact h.devicesChanged devices monitoring opens
  | runQueued monitoring opens => exact h.runQueued monitoring opens
  | deviceTimeout => exact h.deviceTimeout
  | finishTimeout => exact h.finishTimeout
  | requestStop => exact h.requestStop
  | stopCapture => exact h.stopCapture
  | tick found => exact h.tick found

/-- The capture that runs is one an interrupt ends: the runner comes to wait for its file,
for a limited time. -/
theorem Sound.interrupted (h : Sound options opening w) (running : w.runner.state = .capturing)
    (waits : 0 < w.options.finishWaitMilliseconds) :
    w.requestStop.controller.capturing = false ∧ w.requestStop.runner.state = .finishing ∧
      w.requestStop.runner.finishTimer = true := by
  have capturing : w.controller.capturing = true := h.runs running
  have connected : w.runner.connected = true := h.connected (by simp [running]) (by simp [running])
  simp [World.requestStop, running, World.stopCapture, World.say, capturing, emitCapturingChanged,
    connected, World.hear, onCapturingChanged, waits]

end Steps

/-- Something that makes the runner go on: a call that is queued, a wait that ends, or a
capture that a stop ends. -/
def GoesOn (w : World) : Prop :=
  w.queue ≠ [] ∨ w.runner.deviceTimer = true ∨ w.runner.finishTimer = true ∨
    (w.controller.capturing = true ∧ w.requestStop.controller.capturing = false ∧
      w.requestStop.runner.state = .finishing ∧ w.requestStop.runner.finishTimer = true)

theorem Sound.goesOn {options : Options} {w : World} (h : Sound options False w)
    (device : 0 < w.options.deviceWaitMilliseconds)
    (file : 0 < w.options.finishWaitMilliseconds) (begun : w.runner.state ≠ .idle)
    (going : w.runner.state ≠ .done) : GoesOn w := by
  cases state : w.runner.state with
  | idle => exact absurd state begun
  | waitingForDevice => exact Or.inr (Or.inl (h.waiting state device))
  | starting => exact (h.opens state).elim
  | capturing =>
    exact Or.inr (Or.inr (Or.inr ⟨h.runs state, h.interrupted state file⟩))
  | finishing =>
    rcases h.finishing state with scheduled | timer
    · exact Or.inl (List.ne_nil_of_mem (h.scheduled scheduled going))
    · exact Or.inr (Or.inr (Or.inl (timer file)))
  | done => exact absurd state going

/-- A script is told once how the run ended, is told of a success only for a file that
arrived and a run that nothing went wrong with, reads at most one path and reads it before
a success; and it never waits for a runner that nothing will make go on. -/
theorem told_once {options : Options} {present usable : Bool} {events : List Unit} {w : World}
    (run : Run machine Any (launch options present usable) events w) :
    w.finished.length ≤ 1 ∧
      (.success ∈ w.finished →
        (∃ signal ∈ w.heard, Arrival signal) ∧ ∀ signal ∈ w.heard, ¬ Failure signal) ∧
      w.out.length ≤ 1 ∧ (.success ∈ w.finished → w.out ≠ []) ∧
      (0 < options.deviceWaitMilliseconds → 0 < options.finishWaitMilliseconds →
        w.runner.state ≠ .idle → w.runner.state ≠ .done → GoesOn w) := by
  have sound : Sound options False w := run.invariant (sound_launch options present usable)
    fun _ action sound _ => sound.step action
  refine ⟨?_, ?_, sound.once, fun success => (sound.earned (Or.inl success)).printed, ?_⟩
  · have total := sound.emissions
    split at total <;> omega
  · intro success
    have why := sound.earned (Or.inl success)
    exact ⟨why.arrived, why.clean⟩
  · intro device file
    exact sound.goesOn (sound.given ▸ device) (sound.given ▸ file)

def noFile : Finishing := ⟨none, none, none, 0⟩

/-- A device that comes, a capture that is interrupted, and a tick that collects its file. -/
def interrupted : List Action :=
  [.begin, .devicesChanged 1 .works ⟨none, .ok "side-1.flac"⟩,
    .runQueued .works ⟨none, .ok ""⟩, .requestStop,
    .tick ⟨false, none, true, ⟨some "side-1_00-10-00.flac", none, none, 4096⟩, false, noFile, none⟩,
    .runQueued .works ⟨none, .ok ""⟩, .runQueued .works ⟨none, .ok ""⟩]

def afterInterrupt : World :=
  (machine.trace (launch ⟨10000, 30000⟩ true true) interrupted).2

theorem interrupted_told : afterInterrupt.finished.length ≤ 1 ∧ .success ∈ afterInterrupt.finished ∧
    afterInterrupt.out ≠ [] ∧ ∀ signal ∈ afterInterrupt.heard, ¬ Failure signal :=
  have told := told_once (Run.of_trace machine (fun _ _ => true)
    (launch ⟨10000, 30000⟩ true true) interrupted rfl fun _ _ _ => trivial)
  have success : .success ∈ afterInterrupt.finished := by decide
  ⟨told.1, success, told.2.2.2.1 success, (told.2.1 success).2⟩

end HeadlessExit
