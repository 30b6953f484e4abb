import DomesdayDuplicator.Player.CaptureSafety
import DomesdayDuplicator.Player.ExaminerRun

/-!
# Asking before stopping

On a Pioneer player the stop command is Reject, and a Reject sent to a disc that is not
turning opens the tray. Both procedures ask first. What an examination remembers of its
own spin-up and of the last answer outlives a restart, so a restart over a disc that it
spun up itself sends the stop on the strength of the examination before.
-/

namespace StopPermission

open Player Dialogue EventLog Execution

/-- Every stop of an automatic capture was asked for by the command before it. -/
def CapturesAsk : Prop :=
  ∀ c es s, CaptureRun.CaptureLog c es s →
    Each (fun before e => CaptureSafety.HandsReject e → CaptureRun.Asked c before) es

/-- Every stop of an examination was asked for by the command before it, and the
examination's own play was accepted; over the runs whose calls are allowed. -/
def ExaminationsAsk
    (allowed : DiscExaminer.Examiner → Action DiscExaminer.ExamineCall Reply → Prop) : Prop :=
  ∀ c es s, Run (DiscExaminer.examiner c).machine allowed ({} : DiscExaminer.Examiner) es s →
    Each (fun before e => DiscExaminer.HandsReject e →
      DiscExaminer.Asked c before ∧
        Owing DiscExaminer.PlayAccepted DiscExaminer.Restarted before) es

open DiscExaminer (Examination)

def plainPlayer : PlayerDefinition where
  commands := fun command =>
    if command = .play ∨ command = .stop ∨ command = .queryActiveMode then { start := ['C'] }
    else {}
  stateDecode := { start := ['P'], mappings := [⟨['P', '0', '4'], .playing⟩] }

def identify : Examination where
  definition := plainPlayer
  firmware := []
  scope := .identify

def yes : Reply := { status := .ok, text := ['R'] }

def turning : Reply := { status := .ok, text := ['P', '0', '4'] }

def refused : Reply := { status := .refused, text := ['E', '0', '4'] }

def reject : DiscExaminer.ExamineStep := { stage := .spinningDown, command := .stop }

/-- No stop without having just asked, as long as no restart comes while the disc turns on
account of the examination. -/
theorem stops_only_after_asking
    {allowed : DiscExaminer.Examiner → Action DiscExaminer.ExamineCall Reply → Prop}
    (unspun : ∀ s a, allowed s a → DiscExaminer.RestartsUnspun s a) :
    CapturesAsk ∧ ExaminationsAsk allowed := by
  constructor
  · intro c es s run before e after split
    exact (CaptureSafety.rules_of_run run before e after split).reject
  · intro c es s run
    exact DiscExaminer.rejects_of_run (run.mono _ unspun)

/-- The disc is spun up, seen turning, and stopped. -/
def plainRun : List (Action DiscExaminer.ExamineCall Reply) :=
  [.next, .apply yes, .next, .apply yes, .next, .apply yes, .next, .apply turning, .next]

def restarts : Action DiscExaminer.ExamineCall Reply → Bool
  | .call .restart => true
  | _ => false

theorem plain_stop_asked :
    DiscExaminer.Asked identify
      (((DiscExaminer.examiner identify).machine.trace {} plainRun).1.take 8) := by
  have run : Run (DiscExaminer.examiner identify).machine DiscExaminer.RestartsUnspun
      ({} : DiscExaminer.Examiner)
      ((DiscExaminer.examiner identify).machine.trace {} plainRun).1
      ((DiscExaminer.examiner identify).machine.trace {} plainRun).2 := by
    refine Run.of_trace _ (fun _ a => !restarts a) _ _
      (Machine.passes_of_all _ (by decide +kernel) _) ?_
    rintro s _ none' rfl
    cases none'
  have split : ((DiscExaminer.examiner identify).machine.trace {} plainRun).1 =
      ((DiscExaminer.examiner identify).machine.trace {} plainRun).1.take 8 ++
        .handed reject :: [] := by
    decide +kernel
  exact ((stops_only_after_asking fun _ _ allowed => allowed).2 _ _ _ run _ _ _ split ⟨_, rfl, rfl⟩).1

/-! ## A restart over a disc that was spun up -/

/-- The first examination spins the disc up and sees it turning; the second finds it
turning, and its own question is refused. -/
def restartedRun : List (Action DiscExaminer.ExamineCall Reply) :=
  [.next, .apply yes, .next, .apply yes, .next, .apply yes, .next, .apply turning,
    .call .restart,
    .next, .apply turning, .next, .apply yes, .next, .apply refused, .next]

instance : DecidablePred DiscExaminer.PlayAccepted
  | .answered _ _ => inferInstanceAs (Decidable (_ ∧ _))
  | .handed _ | .repeated _ | .over | .ignored _ | .called _ => .isFalse id

instance : DecidablePred DiscExaminer.Restarted
  | .called .restart => .isTrue trivial
  | .called .cancel | .handed _ | .repeated _ | .over | .answered _ _ | .ignored _ => .isFalse id

theorem restart_stops_unasked : ¬ (CapturesAsk ∧ ExaminationsAsk Any) := by
  rintro ⟨-, asks⟩
  have run : Run (DiscExaminer.examiner identify).machine Any ({} : DiscExaminer.Examiner)
      ((DiscExaminer.examiner identify).machine.trace {} restartedRun).1
      ((DiscExaminer.examiner identify).machine.trace {} restartedRun).2 :=
    Run.of_trace _ (fun _ _ => true) _ _ (Machine.passes_of_all _ (fun _ _ => rfl) _)
      fun _ _ _ => trivial
  have split : ((DiscExaminer.examiner identify).machine.trace {} restartedRun).1 =
      ((DiscExaminer.examiner identify).machine.trace {} restartedRun).1.take 15 ++
        .handed reject :: [] := by
    decide +kernel
  have played := (asks _ _ _ run _ _ _ split ⟨_, rfl, rfl⟩).2
  exact absurd played (by decide +kernel)

end StopPermission
