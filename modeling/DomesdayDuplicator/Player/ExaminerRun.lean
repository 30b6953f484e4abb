import DomesdayDuplicator.Player.DiscExaminer

/-!
# Runs of the disc examination

The stop is the last stage of every plan and the question whether the disc turns stands
immediately before it, so an answer is fresh when the stop is reached. What says that
this examination started the disc is fresh only while no restart leaves it behind.
-/

namespace DiscExaminer

open Player Dialogue EventLog Execution

variable (c : Examination)

def awaiting (s : Examiner) : Option ExamineStep :=
  if s.isFinished then none else s.pending

/-! ## Advancing -/

theorem drop_advance (s : Examiner) :
    (plan c).drop (advance c s).index =
      ((plan c).drop s.index).dropWhile fun stage => !applies c s stage := by
  simp only [advance, ← List.drop_drop]
  generalize (plan c).drop s.index = rest
  generalize (fun stage => !applies c s stage) = p
  calc rest.drop (rest.takeWhile p).length
      = (rest.takeWhile p ++ rest.dropWhile p).drop (rest.takeWhile p).length := by
        rw [List.takeWhile_append_dropWhile]
    _ = rest.dropWhile p := List.drop_left

/-- Where an examination that goes on stands after advancing. -/
theorem advance_stands {s : Examiner} («open» : (advance c s).isFinished = false) :
    s.isFinished = false ∧ ∃ stage, (plan c)[(advance c s).index]? = some stage ∧
      applies c s stage = true := by
  have inside : s.isFinished = false ∧ (advance c s).index < (plan c).length := by
    simp only [advance, Examiner.isFinished, bne_eq_false_iff_eq] at «open» ⊢
    split_ifs at «open» with done
    refine ⟨«open», ?_⟩
    by_contra beyond
    exact done ⟨by omega, «open»⟩
  refine ⟨inside.1, _, List.getElem?_eq_getElem inside.2, ?_⟩
  have stands := @List.head?_dropWhile_not _ (fun stage => !applies c s stage)
    ((plan c).drop s.index)
  rw [← drop_advance, List.head?_drop, List.getElem?_eq_getElem inside.2] at stands
  simpa using stands

/-! ## Replies -/

/-- What a reply may change of what the restore steps depend on. -/
structure Learns (s : Examiner) (stage : ExamineStage) (reply : Reply) (t : Examiner) : Prop where
  pending : t.pending = s.pending
  index : t.index = s.index
  keeps : s.spunUpHere = true → t.spunUpHere = true
  spun : t.spunUpHere = true →
    s.spunUpHere = true ∨ (stage = .spinningUp ∧ reply.ok = true)
  turning : t.discTurning = true →
    s.discTurning = true ∨
      (stage = .checkingTransport ∧ reportsSpinning c.definition reply = true)

variable {c} in
/-- A finding about the disc changes none of it. -/
theorem learns_found {s : Examiner} {stage : ExamineStage} {reply : Reply}
    (outcome : ExamineOutcome) (profile : DiscProfile) (spinning endSeek startSeek : Bool) :
    Learns c s stage reply
      { s with
        outcome := outcome, profile := profile, spinning := spinning
        endSeekSent := endSeek, startSeekOk := startSeek } :=
  ⟨rfl, rfl, id, Or.inl, Or.inl⟩

theorem applyReply_learns (s : Examiner) (stage : ExamineStage) (reply : Reply) :
    Learns c s stage reply (applyReply c s stage reply) := by
  have found := @learns_found c s stage reply
  unfold applyReply
  split
  · simp only [applyCheckingPlayer]
    split_ifs <;> exact found _ _ _ _ _
  · simp only [applySpinningUp]
    split_ifs with refused ok
    · exact found _ _ _ _ _
    · exact ⟨rfl, rfl, fun _ => rfl, fun _ => Or.inr ⟨rfl, ok⟩, Or.inl⟩
    · exact found _ _ _ _ _
  · simp only [applyDiscStatus]
    split_ifs <;> exact found _ _ _ _ _
  · simp only [applyTvSystem]
    split_ifs <;> exact found _ _ _ _ _
  · exact found _ _ _ _ _
  · exact found _ _ _ _ _
  · simp only [applyChapters]
    split_ifs <;> exact found _ _ _ _ _
  · exact found _ _ _ _ _
  · simp only [applyEndAddress]
    split_ifs <;> exact found _ _ _ _ _
  · exact found _ _ _ _ _
  · simp only [applyStartAddress]
    split_ifs <;> exact found _ _ _ _ _
  · split_ifs with ok
    · refine ⟨rfl, rfl, id, Or.inl, fun turning => Or.inr ⟨rfl, ?_⟩⟩
      simpa [reportsSpinning, ok] using turning
    · exact found _ _ _ _ _
  all_goals exact found _ _ _ _ _

theorem apply_pending {s : Examiner} {reply : Reply} («open» : s.isFinished = false) :
    (apply c s reply).pending = none := by
  unfold apply
  rw [«open»]
  split
  · contradiction
  split
  · assumption
  dsimp only
  split_ifs
  · rfl
  · exact (applyReply_learns c _ _ _).pending
  · exact (applyReply_learns c _ _ _).pending

def examiner : Procedure Examiner ExamineCall ExamineStep Reply where
  awaiting := awaiting
  next := next c
  apply := apply c
  call := call
  next_awaiting := by
    intro s st h
    unfold awaiting at h
    split_ifs at h with finished
    simp [next, finished, h]
  next_fresh := by
    intro s h
    unfold next
    split_ifs with finished
    · exact h
    have free : s.pending = none := by simpa [awaiting, finished] using h
    simp only [free]
    split_ifs with ended
    · simp [awaiting, ended]
    · have «open» : (advance c s).isFinished = false := by simpa using ended
      simp only [Examiner.isFinished] at «open»
      simp [awaiting, Examiner.isFinished, «open»]
  apply_idle := by
    intro s r h
    unfold apply
    by_cases finished : s.isFinished = true
    · rw [if_pos finished]
    · have free : s.pending = none := by simpa [awaiting, finished] using h
      simp [finished, free]
  apply_answers := by
    intro s st r h
    unfold awaiting at h ⊢
    split_ifs at h with finished
    split_ifs
    · rfl
    · exact apply_pending c (by simpa using finished)
  call_awaiting := by
    intro k s
    cases k with
    | cancel =>
      simp only [call, cancel]
      split_ifs with finished
      · exact Or.inl rfl
      · exact Or.inr (by simp [awaiting, Examiner.isFinished])
    | restart => exact Or.inr (by simp [call, restart, awaiting, Examiner.isFinished])

/-! ## The end of a plan -/

theorem restore_last : ∃ front back, plan c = front ++ back ∧
    ExamineStage.checkingTransport ∉ front ∧ ExamineStage.spinningDown ∉ front ∧
    (back = [] ∨ back = [.spinningDown] ∨ back = [.checkingTransport, .spinningDown]) := by
  have settle : plan c = (identifySteps c ++
      (if c.scope = .full then measureSteps c else []) ++
      if c.has .pause then [.settling] else []) ++
      if c.has .stop then
        (if c.has .queryActiveMode then [.checkingTransport] else []) ++ [.spinningDown]
      else [] := by
    cases scope : c.scope <;> simp [plan, restoreSteps, scope]
  refine ⟨_, _, settle, ?_, ?_, ?_⟩
  · cases c.scope <;> simp [identifySteps, measureSteps]
  · cases c.scope <;> simp [identifySteps, measureSteps]
  · split_ifs <;> simp

theorem stage_at {i : Nat} {stage : ExamineStage} (here : (plan c)[i]? = some stage) :
    (stage = .checkingTransport → (plan c).drop (i + 1) = [.spinningDown]) ∧
      (stage = .spinningDown → (plan c).drop (i + 1) = []) := by
  obtain ⟨front, back, split, noCheck, noStop, last⟩ := restore_last c
  rw [split] at here ⊢
  rcases Nat.lt_or_ge i front.length with inside | beyond
  · rw [List.getElem?_append_left inside] at here
    have member := List.mem_of_getElem? here
    constructor
    · rintro rfl
      exact absurd member noCheck
    · rintro rfl
      exact absurd member noStop
  · obtain ⟨j, rfl⟩ := Nat.exists_eq_add_of_le beyond
    rw [List.getElem?_append_right (by omega), Nat.add_sub_cancel_left] at here
    rw [Nat.add_assoc, List.drop_append]
    rcases last with rfl | rfl | rfl
    · simp at here
    · rcases j with _ | j
      · simp at here
        subst here
        simp
      · simp at here
    · rcases j with _ | _ | j
      · simp at here
        subst here
        simp
      · simp at here
        subst here
        simp
      · simp at here

/-! ## What the log says -/

abbrev ExamineEvent := Event ExamineCall ExamineStep Reply

/-- A command of this examination, or the restart that began it. -/
def Ours : ExamineEvent → Prop
  | .handed _ | .answered _ _ | .called .restart => True
  | _ => False

def PlayAccepted : ExamineEvent → Prop
  | .answered st reply => st.command = .play ∧ reply.ok = true
  | _ => False

def Restarted : ExamineEvent → Prop
  | .called .restart => True
  | _ => False

def HandsReject (e : ExamineEvent) : Prop :=
  ∃ st, e = .handed st ∧ st.command = .stop

/-- The last command of this examination was the question whether the disc turns, and the
reply said so. -/
def Asked (es : List ExamineEvent) : Prop :=
  ∃ q reply, Latest Ours es (.answered q reply) ∧ q.command = .queryActiveMode ∧
    reportsSpinning c.definition reply = true

/-- A restart leaves nothing behind that the examination before it started. -/
def RestartsUnspun (s : Examiner) (a : Dialogue.Action ExamineCall Reply) : Prop :=
  a = .call .restart → s.spunUpHere = false

/-! ## The invariant -/

structure Inv (es : List ExamineEvent) (s : Examiner) : Prop where
  out : ∀ st, s.pending = some st → (plan c)[s.index]? = some st.stage ∧
    st = stepFor c s st.stage ∧ applies c s st.stage = true
  turning : s.discTurning = true → s.spunUpHere = true ∧
    ((plan c).drop s.index = [.spinningDown] ∨ (plan c).drop s.index = [])
  spun : s.spunUpHere = true → Owing PlayAccepted Restarted es
  asked : s.isFinished = false → s.pending = none → s.discTurning = true →
    (plan c).drop s.index = [.spinningDown] → Asked c es

variable {c} {es : List ExamineEvent} {s : Examiner}

theorem Inv.quiet (inv : Inv c es s) {e : ExamineEvent} (ours : ¬ Ours e) : Inv c (es ++ [e]) s := by
  have play : ¬ PlayAccepted e := by
    intro play
    cases e <;> simp_all [Ours, PlayAccepted]
  have restart : ¬ Restarted e := by
    intro restart
    cases e <;> simp_all [Ours, Restarted]
    split at restart <;> simp_all
  refine ⟨inv.out, inv.turning, fun spun => ?_, fun «open» free turning last => ?_⟩
  · exact owing_snoc.mpr (Or.inr ⟨inv.spun spun, restart⟩)
  · obtain ⟨q, reply, latest, rest⟩ := inv.asked «open» free turning last
    exact ⟨q, reply, latest_snoc.mpr (Or.inr ⟨ours, latest⟩), rest⟩

/-- Once the disc was seen turning there is nothing left to pass over. -/
theorem advance_turning (turning : s.discTurning = true) (spun : s.spunUpHere = true)
    (last : (plan c).drop s.index = [.spinningDown] ∨ (plan c).drop s.index = []) :
    (advance c s).index = s.index := by
  rcases last with last | last <;> simp [advance, last, applies, turning, spun]

theorem stepFor_command {stage : ExamineStage} :
    ((stepFor c s stage).command = .stop → stage = .spinningDown) ∧
      (stage = .spinningUp → (stepFor c s stage).command = .play) ∧
      (stage = .checkingTransport → (stepFor c s stage).command = .queryActiveMode) := by
  cases stage <;> simp [stepFor] <;> (try unfold addressQueryFor) <;> (try split) <;> simp

@[simp] theorem stepFor_stage (stage : ExamineStage) : (stepFor c s stage).stage = stage := by
  cases stage <;> rfl

theorem advance_inv (inv : Inv c es s) (free : s.pending = none) : Inv c es (advance c s) := by
  have same (turning : s.discTurning = true) : (advance c s).index = s.index :=
    advance_turning turning (inv.turning turning).1 (inv.turning turning).2
  refine ⟨?_, ?_, inv.spun, ?_⟩
  · intro st out
    exact absurd out (by simp [advance, free])
  · intro turning
    rw [same turning]
    exact inv.turning turning
  · intro «open» _ turning last
    rw [same turning] at last
    exact inv.asked (advance_stands c «open»).1 free turning last

/-- What every call of `Next` does. -/
theorem next_cases (inv : Inv c es s) (idle : awaiting s = none) :
    (∃ t, next c s = (none, t) ∧ Inv c es t) ∨
    (∃ stage t, next c s = (some (stepFor c t stage), t) ∧ t.isFinished = false ∧
      Inv c (es ++ [.handed (stepFor c t stage)]) t ∧
      (stage = .spinningDown → Asked c es ∧ Owing PlayAccepted Restarted es)) := by
  unfold next
  split_ifs with finished
  · exact Or.inl ⟨s, rfl, inv⟩
  have free : s.pending = none := by simpa [awaiting, finished] using idle
  have inv' := advance_inv inv free
  rw [free]
  dsimp only
  split_ifs with ended
  · exact Or.inl ⟨_, rfl, inv'⟩
  have «open» : (advance c s).isFinished = false := by simpa using ended
  obtain ⟨-, stage, here, able⟩ := advance_stands c «open»
  rw [here]
  refine Or.inr ⟨stage, { advance c s with pending := some (stepFor c (advance c s) stage) },
    ?_, «open», ⟨?_, inv'.turning, ?_, ?_⟩, ?_⟩
  · rfl
  · intro st out
    cases out
    rw [stepFor_stage]
    exact ⟨here, rfl, able⟩
  · intro spun
    exact owing_snoc.mpr (Or.inr ⟨inv'.spun spun, fun h => h.elim⟩)
  · intro _ pending
    cases pending
  · rintro rfl
    have stops : s.spunUpHere = true ∧ s.discTurning = true := by simpa [applies] using able
    have last := (stage_at c here).2 rfl
    refine ⟨inv'.asked «open» free stops.2 ?_, inv.spun stops.1⟩
    obtain ⟨inside, at'⟩ := List.getElem?_eq_some_iff.mp here
    rw [List.drop_eq_getElem_cons inside, at', last]

/-- An answer moves on to the next stage and is taken note of. -/
theorem answered_inv (inv : Inv c es s) {st : ExamineStep} (out : s.pending = some st)
    {reply : Reply} {t : Examiner}
    (learns : Learns c
      { s with pending := none, index := s.index + 1, completed := s.completed + 1 }
      st.stage reply t) : Inv c (es ++ [.answered st reply]) t := by
  obtain ⟨here, step, able⟩ := inv.out st out
  have after := stage_at c here
  have turned (turning : t.discTurning = true) :
      (st.stage = .spinningDown ∧ s.discTurning = true) ∨
        (st.stage = .checkingTransport ∧ reportsSpinning c.definition reply = true) := by
    rcases learns.turning turning with before | now
    · -- only the stop can be out once the disc was seen turning
      obtain ⟨inside, at'⟩ := List.getElem?_eq_some_iff.mp here
      rcases (inv.turning before).2 with last | last <;>
        rw [List.drop_eq_getElem_cons inside, at'] at last
      · exact Or.inl ⟨(List.cons.inj last).1, before⟩
      · cases last
    · exact Or.inr now
  refine ⟨?_, ?_, ?_, ?_⟩
  · intro st' out'
    rw [learns.pending] at out'
    cases out'
  · intro turning
    rw [learns.index]
    rcases turned turning with ⟨stage, before⟩ | ⟨stage, -⟩
    · exact ⟨learns.keeps (inv.turning before).1, Or.inr (after.2 stage)⟩
    · refine ⟨learns.keeps ?_, Or.inl (after.1 stage)⟩
      simpa [stage, applies] using able
  · intro spun
    rcases learns.spun spun with before | ⟨stage, ok⟩
    · exact owing_snoc.mpr (Or.inr ⟨inv.spun before, fun h => h.elim⟩)
    · refine owing_snoc.mpr (Or.inl ⟨?_, ok⟩)
      rw [step]
      exact stepFor_command.2.1 stage
  · intro _ _ turning last
    rw [learns.index] at last
    rcases turned turning with ⟨stage, -⟩ | ⟨stage, spinning⟩
    · rw [after.2 stage] at last
      cases last
    · refine ⟨st, reply, latest_snoc.mpr (Or.inl ⟨trivial, rfl⟩), ?_, spinning⟩
      rw [step]
      exact stepFor_command.2.2 stage

/-- What every answer keeps. -/
theorem apply_inv (inv : Inv c es s) («open» : s.isFinished = false) {st : ExamineStep}
    (out : s.pending = some st) (reply : Reply) :
    Inv c (es ++ [.answered st reply]) (apply c s reply) := by
  rw [apply, if_neg (by simp [«open»]), out]
  dsimp only
  split_ifs
  · exact answered_inv inv out ⟨rfl, rfl, id, Or.inl, Or.inl⟩
  · exact answered_inv inv out (applyReply_learns c _ _ _)
  · have learns := applyReply_learns c
      { s with pending := none, index := s.index + 1, completed := s.completed + 1 }
      st.stage reply
    exact advance_inv (answered_inv inv out learns) learns.pending

theorem cancel_inv (inv : Inv c es s) : Inv c es (cancel s) := by
  unfold cancel
  split_ifs
  · exact inv
  · refine ⟨fun st out => ?_, inv.turning, inv.spun, fun «open» => ?_⟩
    · cases out
    · simp [Examiner.isFinished] at «open»

theorem restart_inv (inv : Inv c es s) (unspun : s.spunUpHere = false) :
    Inv c (es ++ [.called .restart]) (restart s) := by
  have still : s.discTurning = false := by
    by_contra turning
    simp only [Bool.not_eq_false] at turning
    have spun := (inv.turning turning).1
    simp [unspun] at spun
  refine ⟨fun st out => ?_, fun turning => ?_, fun spun => ?_, fun _ _ turning => ?_⟩
  · cases out
  · exact absurd turning (by simp [restart, still])
  · exact absurd spun (by simp [restart, unspun])
  · exact absurd turning (by simp [restart, still])

/-- What every action keeps that does not restart over a disc this examination started. -/
theorem step_inv (inv : Inv c es s) (a : Dialogue.Action ExamineCall Reply)
    (unspun : RestartsUnspun s a) :
    Inv c (es ++ [((examiner c).step s a).2]) ((examiner c).step s a).1 := by
  rcases (examiner c).step_cases s a with ⟨st, -, step⟩ | ⟨idle, st, t, given, -, step⟩ |
      ⟨idle, t, given, -, step⟩ | ⟨st, reply, out, step⟩ | ⟨reply, -, step⟩ |
      ⟨which, call, step⟩ <;>
    rw [step]
  · exact inv.quiet id
  · rcases next_cases inv idle with ⟨u, none', -⟩ | ⟨stage, u, handed, -, inv', -⟩
    · cases given.symm.trans none'
    · cases given.symm.trans handed
      exact inv'
  · rcases next_cases inv idle with ⟨u, none', inv'⟩ | ⟨stage, u, handed, -⟩
    · cases given.symm.trans none'
      exact inv'.quiet id
    · cases given.symm.trans handed
  · change awaiting s = some st at out
    unfold awaiting at out
    split_ifs at out with finished
    exact apply_inv inv (by simpa using finished) out reply
  · exact inv.quiet id
  · cases which with
    | cancel => exact (cancel_inv inv).quiet id
    | restart => exact restart_inv inv (unspun call)

theorem start_inv : Inv c [] ({} : Examiner) := by
  refine ⟨fun st out => ?_, fun turning => ?_, fun spun => ?_, fun _ _ turning => ?_⟩
  · cases out
  · cases turning
  · cases spun
  · cases turning

/-- A stop is handed out after its question, by an examination whose play was accepted. -/
theorem step_reject (inv : Inv c es s) (a : Dialogue.Action ExamineCall Reply)
    (reject : HandsReject ((examiner c).step s a).2) :
    Asked c es ∧ Owing PlayAccepted Restarted es := by
  obtain ⟨st, handed, command⟩ := reject
  rcases (examiner c).step_cases s a with ⟨st', -, step⟩ | ⟨idle, st', t, given, -, step⟩ |
      ⟨idle, t, given, -, step⟩ | ⟨st', reply, out, step⟩ | ⟨reply, -, step⟩ |
      ⟨which, -, step⟩ <;>
    rw [step] at handed <;> cases handed
  rcases next_cases inv idle with ⟨u, none', -⟩ | ⟨stage, u, handed, -, -, stops⟩
  · cases given.symm.trans none'
  · cases given.symm.trans handed
    exact stops (stepFor_command.1 command)

/-- Every stop of a run whose restarts leave no disc turning. -/
theorem rejects_of_run {t : Examiner}
    (run : Run (examiner c).machine RestartsUnspun ({} : Examiner) es t) :
    Each (fun before e => HandsReject e → Asked c before ∧ Owing PlayAccepted Restarted before)
      es :=
  each_of_run (Inv c) run start_inv (fun _ _ a inv ok => step_inv inv a ok)
    fun _ _ a inv _ => step_reject inv a

end DiscExaminer
