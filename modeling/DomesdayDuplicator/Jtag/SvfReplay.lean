import DomesdayDuplicator.Jtag.SvfGaps

/-!
# The same play

The player looks at the lines of a statement only to say which of them is to blame. Two files
whose statements have the same tokens are played the same way: statement by statement with the
same calls, the same settings and the same problems.
-/

namespace Svf

open Manifest (Byte Text text)

section Replay

variable {D : Type} (d : Doubles D) (cable : Cable) (deviceAttached : Bool)

/-- The same player, and the same problem on whatever line. -/
structure SameStep (step step' : Step D) : Prop where
  player : step'.1 = step.1
  problem : step'.2.map Failure.problem = step.2.map Failure.problem

theorem SameStep.refl (step : Step D) : SameStep step step := ⟨rfl, rfl⟩

theorem sameStep_failure (p : Player D) (line line' : Nat) (problem : Problem) :
    SameStep (p, some ⟨line, problem⟩) (p, some ⟨line', problem⟩) := ⟨rfl, rfl⟩

theorem SameStep.andThen {step step' : Step D} {next next' : Player D → Step D}
    (same : SameStep step step') (then_ : ∀ p, SameStep (next p) (next' p)) :
    SameStep (step.andThen next) (step'.andThen next') := by
  obtain ⟨p, failure⟩ := step
  obtain ⟨p', failure'⟩ := step'
  obtain ⟨player, problem⟩ := same
  obtain rfl : p' = p := player
  cases failure with
  | none =>
    obtain rfl : failure' = none := Option.map_eq_none_iff.mp problem
    exact then_ p'
  | some failure =>
    obtain ⟨there, rfl, blamed⟩ := Option.map_eq_some_iff.mp problem
    exact ⟨rfl, congrArg some blamed⟩

theorem moveTo_line (line line' : Nat) (target : TapState) (p : Player D) :
    SameStep (moveTo cable line target p) (moveTo cable line' target p) := by
  unfold moveTo
  dsimp only
  split
  · exact SameStep.refl _
  · rcases p.send cable _ with ⟨sent, _ | answer⟩
    · exact sameStep_failure _ _ _ _
    · exact SameStep.refl _

theorem runClock_line (line line' clocks : Nat) (p : Player D) :
    SameStep (runClock cable line clocks p) (runClock cable line' clocks p) := by
  unfold runClock
  split
  · exact SameStep.refl _
  · rcases p.send cable _ with ⟨sent, _ | answer⟩
    · exact sameStep_failure _ _ _ _
    · exact SameStep.refl _

theorem flushNow_line (line line' : Nat) (p : Player D) :
    SameStep (flushNow cable line p) (flushNow cable line' p) := by
  unfold flushNow
  rcases p.send cable _ with ⟨sent, _ | answer⟩
  · exact sameStep_failure _ _ _ _
  · exact SameStep.refl _

variable {s s' : Statement}

theorem doScan_line (arguments : List Token) (instruction : Bool) (p : Player D) :
    SameStep (doScan d cable deviceAttached s arguments instruction p)
      (doScan d cable deviceAttached s' arguments instruction p) := by
  unfold doScan
  split
  · exact sameStep_failure _ _ _ _
  split
  · exact sameStep_failure _ _ _ _
  dsimp only
  split
  · exact SameStep.refl _
  refine (moveTo_line cable _ _ _ _).andThen fun p₁ => ?_
  unfold shift
  rcases p₁.send cable _ with ⟨sent, _ | answer⟩
  · exact sameStep_failure _ _ _ _
  · dsimp only
    split
    · exact sameStep_failure _ _ _ _
    · exact moveTo_line cable _ _ _ _

theorem doRunTest_line (arguments : List Token) (p : Player D) :
    SameStep (doRunTest d cable deviceAttached s arguments p)
      (doRunTest d cable deviceAttached s' arguments p) := by
  unfold doRunTest
  split
  · exact sameStep_failure _ _ _ _
  refine (moveTo_line cable _ _ _ _).andThen fun p₁ => ?_
  refine (runClock_line cable _ _ _ _).andThen fun p₂ => ?_
  refine SameStep.andThen ?_ fun p₃ => moveTo_line cable _ _ _ _
  split
  · exact flushNow_line cable _ _ _
  · exact SameStep.refl _

theorem moveAlong_line (arguments : List Token) (p : Player D) :
    SameStep (moveAlong cable s arguments p) (moveAlong cable s' arguments p) := by
  induction arguments generalizing p with
  | nil => exact SameStep.refl _
  | cons name rest ih =>
    rw [moveAlong, moveAlong]
    split
    · exact sameStep_failure _ _ _ _
    · exact (moveTo_line cable _ _ _ _).andThen ih

theorem sameStep_blamed (p : Player D) (problem : Option Problem) (line line' : Nat) :
    SameStep (p, problem.map (⟨line, ·⟩)) (p, problem.map (⟨line', ·⟩)) := by
  refine ⟨rfl, ?_⟩
  rw [Option.map_map, Option.map_map]
  rfl

/-- A statement does what its tokens say. -/
theorem execute_line (same : s'.tokens = s.tokens) (p : Player D) :
    SameStep (execute d cable deviceAttached s p) (execute d cable deviceAttached s' p) := by
  have keyword : s'.keyword = s.keyword := by rw [Statement.keyword, Statement.keyword, same]
  have command : s'.command = s.command := by rw [Statement.command, Statement.command, keyword]
  have arguments : s'.arguments = s.arguments := by
    rw [Statement.arguments, Statement.arguments, same]
  rw [execute, execute, command, arguments, keyword]
  split
  · exact sameStep_failure _ _ _ _
  · exact doScan_line d cable deviceAttached _ _ _
  · exact doRunTest_line d cable deviceAttached _ _
  · unfold doState
    split
    · exact sameStep_failure _ _ _ _
    · exact moveAlong_line cable _ _
  · unfold doEndState
    split
    · exact sameStep_failure _ _ _ _
    · exact SameStep.refl _
  · exact sameStep_blamed _ _ _ _
  · unfold doFrequency
    split
    · exact SameStep.refl _
    · split
      · exact sameStep_failure _ _ _ _
      · exact SameStep.refl _
  · exact sameStep_blamed _ _ _ _

/-! ## Plays -/

/-- The same statement, executed by the same player and with the same outcome. -/
structure SameTurn (t t' : Turn D) : Prop where
  tokens : t'.statement.tokens = t.statement.tokens
  before : t'.before = t.before
  after : t'.after = t.after
  problem : t'.failure.map Failure.problem = t.failure.map Failure.problem

/-- Without the line. -/
def Ending.gist : Ending → Option (Problem × Text)
  | .succeeded => none
  | .stopped _ => some (.stopped, [])
  | .failed failure keyword => some (failure.problem, keyword)

/-- The same statements were executed, to the same end. -/
structure SameRun (played played' : Played D) : Prop where
  player : played'.player = played.player
  turns : List.Forall₂ SameTurn played.turns played'.turns
  ending : played'.ending.gist = played.ending.gist

variable {d cable deviceAttached}

theorem playAll_line {file file' : SvfFile} (problem : file'.problem.map Prod.snd =
    file.problem.map Prod.snd) (stop : Nat → Bool) {statements statements' : List Statement}
    (tokens : List.Forall₂ (fun s s' => s'.tokens = s.tokens) statements statements')
    (p : Player D) :
    SameRun (playAll d cable deviceAttached file stop statements p)
      (playAll d cable deviceAttached file' stop statements' p) := by
  induction tokens generalizing p with
  | nil =>
    rw [playAll, playAll]
    cases here : file.problem with
    | some blamed =>
      rw [here] at problem
      obtain ⟨there, found, named⟩ := Option.map_eq_some_iff.mp problem
      rw [found]
      exact ⟨rfl, .nil, congrArg (fun problem => some (problem, [])) named⟩
    | none =>
      rw [here] at problem
      rw [Option.map_eq_none_iff.mp problem]
      have flushes := flushNow_line cable file.lastLine file'.lastLine p
      dsimp only
      generalize flushNow cable file.lastLine p = flushed at flushes
      generalize flushNow cable file'.lastLine p = flushed' at flushes
      obtain ⟨p₁, _ | failure⟩ := flushed <;> obtain ⟨p₂, _ | failure'⟩ := flushed' <;>
        obtain ⟨player, same⟩ := flushes
      · exact ⟨player, .nil, rfl⟩
      · cases same
      · cases same
      · have blamed : failure'.problem = failure.problem := Option.some.inj same
        exact ⟨player, .nil, congrArg (fun problem => some (problem, [])) blamed⟩
  | @cons s s' rest rest' first _ ih =>
    rw [playAll, playAll]
    split
    · exact ⟨rfl, .nil, rfl⟩
    · have step := execute_line d cable deviceAttached first p
      have keyword : s'.keyword = s.keyword := by rw [Statement.keyword, Statement.keyword, first]
      generalize execute d cable deviceAttached s p = done at step
      generalize execute d cable deviceAttached s' p = done' at step
      obtain ⟨after, _ | failure⟩ := done <;> obtain ⟨after', _ | failure'⟩ := done' <;>
        obtain ⟨player, same⟩ := step
      · obtain rfl : after' = after := player
        obtain ⟨player, turns, ending⟩ := ih { after' with statements := after'.statements + 1 }
        exact ⟨player, .cons ⟨first, rfl, rfl, rfl⟩ turns, ending⟩
      · cases same
      · cases same
      · obtain rfl : after' = after := player
        refine ⟨rfl, .cons ⟨first, rfl, rfl, same⟩ .nil, ?_⟩
        simp only [Ending.gist, keyword]
        rw [Option.some.inj same]

/-- Files with the same gist are played the same way. -/
theorem play_gist (stop : Nat → Bool) {contents contents' : Text}
    (gist : (readText contents').gist = (readText contents).gist) :
    SameRun (play d cable deviceAttached stop contents)
      (play d cable deviceAttached stop contents') := by
  obtain ⟨tokens, problem⟩ := Prod.mk.inj gist
  have statements : List.Forall₂ (fun s s' : Statement => s'.tokens = s.tokens)
      (readText contents).statements (readText contents').statements := by
    have lists : List.Forall₂ Eq ((readText contents').statements.map Statement.tokens)
        ((readText contents).statements.map Statement.tokens) := by
      rw [tokens, List.forall₂_eq_eq_eq]
    rw [List.forall₂_map_left_iff, List.forall₂_map_right_iff] at lists
    exact lists.flip
  rw [play, play]
  rcases (Player.start d).send cable resetRequest with ⟨p, _ | answer⟩
  · exact ⟨rfl, .nil, rfl⟩
  · exact playAll_line problem stop statements p

/-- White space and comments between the tokens change nothing a player does. -/
theorem play_respaced (stop : Nat → Bool) {contents contents' : Text}
    (respaced : Respaced contents contents') :
    SameRun (play d cable deviceAttached stop contents)
      (play d cable deviceAttached stop contents') :=
  play_gist stop (readText_respaced respaced)

end Replay

end Svf
