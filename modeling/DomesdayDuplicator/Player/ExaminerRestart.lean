import DomesdayDuplicator.Player.StopPermission

/-!
# Restarting an examination

`Restart` leaves two things of the examination before it standing: that it spun the disc up, and
what the player last said of the disc turning. Both bear on the steps that put the disc back, so
only where there are no such steps, or nothing to put back, is a restart a fresh examination.
-/

namespace ExaminerRestart

open Player Dialogue Execution DiscExaminer

variable (c : Examination)

/-- The player can be asked whether the disc turns, and stopped. -/
def canPutBack : Bool := c.has .stop && c.has .queryActiveMode

variable {c}

theorem checking_planned : ExamineStage.checkingTransport ∈ plan c ↔ canPutBack c = true := by
  have restore : ExamineStage.checkingTransport ∈ restoreSteps c ↔ canPutBack c = true := by
    unfold restoreSteps canPutBack
    split_ifs <;> simp_all
  rw [← restore, plan]
  cases c.scope <;> simp [identifySteps, measureSteps]

/-! ## What is left standing -/

/-- The disc is only known to turn on account of a spin-up and a question of some examination. -/
structure Earned (c : Examination) (s : Examiner) : Prop where
  out : ∀ st, s.pending = some st → st.stage ∈ plan c ∧
    (st.stage = .checkingTransport → s.spunUpHere = true)
  turning : s.discTurning = true → s.spunUpHere = true ∧ canPutBack c = true

namespace Earned

variable {s t : Examiner}

theorem advance (h : Earned c s) (free : s.pending = none) : Earned c (advance c s) :=
  ⟨fun st out => absurd out (by simp [DiscExaminer.advance, free]), h.turning⟩

theorem next (h : Earned c s) : Earned c (next c s).2 := by
  unfold DiscExaminer.next
  split_ifs with finished
  · exact h
  cases free : s.pending with
  | some st => exact h
  | none =>
    have moved := h.advance free
    dsimp only
    split_ifs with ended
    · exact moved
    · obtain ⟨-, stage, here, able⟩ := advance_stands c (by simpa using ended)
      refine ⟨fun st out => ?_, moved.turning⟩
      rw [here] at out
      obtain rfl := Option.some.inj out
      rw [stepFor_stage]
      refine ⟨List.mem_of_getElem? here, ?_⟩
      rintro rfl
      exact able

theorem answered (h : Earned c s) {st : ExamineStep} (out : s.pending = some st) {reply : Reply}
    (free : t.pending = none)
    (learns : Learns c
      { s with pending := none, index := s.index + 1, completed := s.completed + 1 }
      st.stage reply t) : Earned c t := by
  obtain ⟨planned, spun⟩ := h.out st out
  refine ⟨fun st out => absurd out (by simp [free]), fun turning => ?_⟩
  rcases learns.turning turning with before | ⟨stage, -⟩
  · exact ⟨learns.keeps (h.turning before).1, (h.turning before).2⟩
  · exact ⟨learns.keeps (spun stage), checking_planned.mp (stage ▸ planned)⟩

theorem apply (h : Earned c s) (reply : Reply) : Earned c (apply c s reply) := by
  unfold DiscExaminer.apply
  by_cases finished : s.isFinished = true
  · rw [if_pos finished]
    exact h
  rw [if_neg finished]
  cases out : s.pending with
  | none => exact h
  | some st =>
    dsimp only
    have learns := applyReply_learns c
      { s with pending := none, index := s.index + 1, completed := s.completed + 1 } st.stage reply
    split_ifs
    · exact h.answered out rfl
        (@learns_found c _ _ reply .linkFailed s.profile s.spinning s.endSeekSent s.startSeekOk)
    · exact h.answered out learns.pending learns
    · exact (h.answered out learns.pending learns).advance learns.pending

theorem call (h : Earned c s) (which : ExamineCall) : Earned c (call which s) := by
  cases which with
  | cancel =>
    simp only [DiscExaminer.call, cancel]
    split_ifs
    · exact h
    · exact ⟨by simp, h.turning⟩
  | restart => exact ⟨by simp [DiscExaminer.call, restart], h.turning⟩

theorem step (h : Earned c s) (a : Dialogue.Action ExamineCall Reply) :
    Earned c ((examiner c).step s a).1 := by
  rcases (examiner c).step_cases s a with ⟨st, -, step⟩ | ⟨idle, st, t, given, -, step⟩ |
      ⟨idle, t, given, -, step⟩ | ⟨st, reply, out, step⟩ | ⟨reply, -, step⟩ |
      ⟨which, call, step⟩ <;>
    rw [step]
  · exact h
  · have next := h.next
    rwa [show DiscExaminer.next c s = (some st, t) from given] at next
  · have next := h.next
    rwa [show DiscExaminer.next c s = (none, t) from given] at next
  · exact h.apply reply
  · exact h
  · exact h.call which

end Earned

/-! ## What the steps do not depend on -/

/-- The same examination but for whether it spun the disc up. -/
def mark (spun : Bool) (s : Examiner) : Examiner := { s with spunUpHere := spun }

section Marked

variable (none' : canPutBack c = false) {s : Examiner} (spun : Bool)

end Marked

/-- The player does not answer. -/
def silent : Reply := {}

open StopPermission (identify yes turning refused)

/-- The disc is spun up and the examination cancelled. -/
def cancelledRun : List (Dialogue.Action ExamineCall Reply) :=
  [.next, .apply refused, .next, .apply yes, .call .cancel]

end ExaminerRestart
