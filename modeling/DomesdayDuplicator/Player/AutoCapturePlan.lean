import DomesdayDuplicator.Player.PlayerDefinition
import Mathlib.Tactic.SplitIfs

/-!
# Disc profiles and capture plans

What an examination found, field by field and with where each came from, and the plan
that is checked against it before anything is sent.
-/

namespace Player

inductive Provenance where
  | unknown | reported | measured | inferred | declared
  deriving DecidableEq, Repr

structure Fact (α : Type) where
  value : α
  provenance : Provenance := .unknown
  deriving DecidableEq

def Fact.known {α : Type} (fact : Fact α) : Bool := fact.provenance != .unknown

inductive UserCodeOutcome where
  | notRead | read | notEncoded | refused
  deriving DecidableEq, Repr

structure UserCodeReading where
  outcome : UserCodeOutcome := .notRead
  text : Text := []
  deriving DecidableEq

structure DiscProfile where
  discPresent : Fact Bool := ⟨false, .unknown⟩
  tray : Fact TrayState := ⟨.unknown, .unknown⟩
  discType : Fact DiscType := ⟨.unknown, .unknown⟩
  addressing : Fact AddressMode := ⟨.frame, .unknown⟩
  discSize : Fact DiscSize := ⟨.unknown, .unknown⟩
  discSide : Fact Int := ⟨0, .unknown⟩
  programmeStart : Fact Int := ⟨0, .unknown⟩
  programmeEnd : Fact Int := ⟨0, .unknown⟩
  leadInReachable : Fact Bool := ⟨false, .unknown⟩
  chapters : Fact Bool := ⟨false, .unknown⟩
  standardUserCode : UserCodeReading := {}
  pioneerUserCode : UserCodeReading := {}
  videoStandard : Fact VideoStandard := ⟨.unknown, .unknown⟩
  discStatusReply : Text := []
  deriving DecidableEq

inductive CaptureShape where
  | wholeSide | range | fromSpinUp
  deriving DecidableEq, Repr

def beginsWithSpinUp : CaptureShape → Bool
  | .wholeSide | .fromSpinUp => true
  | .range => false

def endsWithSpinDown : CaptureShape → Bool
  | .wholeSide => true
  | .range | .fromSpinUp => false

structure AutoCapturePlan where
  shape : CaptureShape := .wholeSide
  addressing : AddressMode := .frame
  startAddress : Int := 0
  endAddress : Int := 0
  keyLock : Bool := false
  deriving DecidableEq, Repr

inductive PlanProblem where
  | none | noDisc | unknownDiscType | addressingMismatch | unknownLength | malformedAddress
  | endBeforeStart | startBeforeProgramme | endBeyondProgramme
  deriving DecidableEq, Repr

def validateAutoCapturePlan (plan : AutoCapturePlan) (disc : DiscProfile) : PlanProblem :=
  if disc.discPresent.known && !disc.discPresent.value then .noDisc
  else if !disc.discType.known then .unknownDiscType
  else if plan.addressing ≠ addressModeFor disc.discType.value then .addressingMismatch
  else if !disc.programmeEnd.known then .unknownLength
  else if plan.startAddress < 0 ∨ plan.endAddress < 0 then .malformedAddress
  else if plan.endAddress ≤ plan.startAddress then .endBeforeStart
  else if disc.programmeStart.known ∧ plan.startAddress < disc.programmeStart.value then
    .startBeforeProgramme
  else if disc.programmeEnd.value < plan.endAddress then .endBeyondProgramme
  else .none

/-- A plan that passes asks for a stretch of the measured programme. -/
theorem within_of_valid {plan : AutoCapturePlan} {disc : DiscProfile}
    (valid : validateAutoCapturePlan plan disc = .none) :
    0 ≤ plan.startAddress ∧ plan.startAddress < plan.endAddress ∧
      plan.endAddress ≤ disc.programmeEnd.value ∧
      plan.addressing = addressModeFor disc.discType.value := by
  unfold validateAutoCapturePlan at valid
  split_ifs at valid with _ _ mode _ negative order _ beyond
  simp only [ne_eq, Decidable.not_not] at mode
  refine ⟨?_, ?_, ?_, mode⟩ <;> omega

end Player
