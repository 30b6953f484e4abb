import DomesdayDuplicator.Foundations.Dialogue
import DomesdayDuplicator.Player.AutoCapturePlan
import DomesdayDuplicator.Player.ResponseParser

/-!
# The disc examination

`DiscExaminer`, one step at a time: a plan built from what the player can be asked, whose
stages are taken or passed over as the answers come in, and a profile filled on the way.
What the constructor settles and nothing changes is `Examination`.
-/

namespace DiscExaminer

open Player

inductive ExamineStage where
  | idle | checkingPlayer | spinningUp | readingDiscStatus | readingTvSystem
  | readingPioneerUserCode | readingStandardUserCode | checkingChapters | findingEnd | readingEnd
  | findingStart | readingStart | settling | checkingTransport | spinningDown | finished
  deriving DecidableEq, Repr

inductive ExamineScope where
  | full | identify
  deriving DecidableEq, Repr

inductive ExamineOutcome where
  | inProgress | completed | trayOpen | noDisc | linkFailed | cancelled
  deriving DecidableEq, Repr

structure ExamineStep where
  stage : ExamineStage
  command : PlayerCommand := .queryActiveMode
  argument : Option Int := none
  deriving DecidableEq, Repr

structure Examination where
  definition : PlayerDefinition
  firmware : Text
  scope : ExamineScope := .full

def Examination.has (c : Examination) (command : PlayerCommand) : Bool :=
  (controlsFor c.definition c.firmware).has command

structure Examiner where
  index : Nat := 0
  completed : Nat := 0
  pending : Option ExamineStep := none
  outcome : ExamineOutcome := .inProgress
  profile : DiscProfile := {}
  spinning : Bool := false
  spunUpHere : Bool := false
  discTurning : Bool := false
  endSeekSent : Bool := false
  startSeekOk : Bool := false
  deriving DecidableEq

def Examiner.isFinished (s : Examiner) : Bool := s.outcome != .inProgress

def impossibleFrame : Int := 60000

def impossibleTimeCode : Int := 1595900

def firstAddress : Int := 1

variable (c : Examination)

/-! ## The plan -/

def restoreSteps : List ExamineStage :=
  (if c.has .pause then [.settling] else []) ++
    if c.has .stop then
      (if c.has .queryActiveMode then [.checkingTransport] else []) ++ [.spinningDown]
    else []

/-- What is read off the disc without driving it. -/
def identifySteps : List ExamineStage :=
  [.checkingPlayer] ++ (if c.has .play then [.spinningUp] else []) ++ [.readingDiscStatus] ++
    if c.has .queryTvSystem then [.readingTvSystem] else []

/-- What moves the disc. -/
def measureSteps : List ExamineStage :=
  (if c.has .queryPioneerUserCode then [.readingPioneerUserCode] else []) ++
    (if c.has .queryStandardUserCode then [.readingStandardUserCode] else []) ++
    (if c.definition.discStatus.chapters.isNone && c.has .seekChapter then [.checkingChapters]
      else []) ++
    if c.has .seekFrame || c.has .seekTimeCode then
      [.findingEnd, .readingEnd, .findingStart, .readingStart]
    else []

/-- `BuildPlan`. -/
def plan : List ExamineStage :=
  match c.scope with
  | .identify => identifySteps c ++ restoreSteps c
  | .full => identifySteps c ++ measureSteps c ++ restoreSteps c

def addressing (s : Examiner) : AddressMode :=
  if s.profile.addressing.known then s.profile.addressing.value else .frame

def applies (s : Examiner) : ExamineStage → Bool
  | .spinningUp => !s.spinning
  | .checkingTransport => s.spunUpHere
  | .spinningDown => s.spunUpHere && s.discTurning
  | .findingEnd | .findingStart =>
    s.profile.discType.known &&
      c.has (if s.profile.discType.value = .clv then .seekTimeCode else .seekFrame)
  | .readingEnd => s.endSeekSent
  | .readingStart => s.startSeekOk
  | _ => true

def stepFor (s : Examiner) (stage : ExamineStage) : ExamineStep :=
  let clv := s.profile.discType.known && s.profile.discType.value == .clv
  let seek := if clv then PlayerCommand.seekTimeCode else .seekFrame
  match stage with
  | .checkingPlayer => { stage := stage, command := .queryActiveMode }
  | .spinningUp => { stage := stage, command := .play }
  | .readingDiscStatus => { stage := stage, command := .queryDiscStatus }
  | .readingTvSystem => { stage := stage, command := .queryTvSystem }
  | .readingPioneerUserCode => { stage := stage, command := .queryPioneerUserCode }
  | .readingStandardUserCode => { stage := stage, command := .queryStandardUserCode }
  | .checkingChapters => { stage := stage, command := .seekChapter, argument := some 1 }
  | .findingEnd =>
    { stage := stage, command := seek
      argument := some (if clv then impossibleTimeCode else impossibleFrame) }
  | .findingStart => { stage := stage, command := seek, argument := some firstAddress }
  | .readingEnd | .readingStart =>
    { stage := stage, command := addressQueryFor c.definition (addressing s) }
  | .settling => { stage := stage, command := .pause }
  | .checkingTransport => { stage := stage, command := .queryActiveMode }
  | .spinningDown => { stage := stage, command := .stop }
  | .idle | .finished => { stage := stage }

/-- Pass over what does not apply; a plan that is at its end is completed. -/
def advance (s : Examiner) : Examiner :=
  let passed := ((plan c).drop s.index).takeWhile fun stage => !applies c s stage
  let index := s.index + passed.length
  { s with
    index := index
    completed := s.completed + passed.length
    outcome :=
      if (plan c).length ≤ index ∧ s.isFinished = false then .completed else s.outcome }

def next (s : Examiner) : Option ExamineStep × Examiner :=
  if s.isFinished then (none, s)
  else
    match s.pending with
    | some step => (some step, s)
    | none =>
      let s := advance c s
      if s.isFinished then (none, s)
      else
        let s := { s with pending := (plan c)[s.index]?.map (stepFor c s) }
        (s.pending, s)

/-! ## Replies -/

def applyCheckingPlayer (s : Examiner) (reply : Reply) : Examiner :=
  if !reply.ok then s
  else
    let state := parsePlayerState reply.text c.definition.stateDecode
    if state = .unknown then s
    else
      let s := { s with profile.tray := ⟨trayStateFor state, .reported⟩ }
      if state = .doorOpen then { s with outcome := .trayOpen }
      else if isSpinning state then
        { s with spinning := true, profile.discPresent := ⟨true, .reported⟩ }
      else s

def applySpinningUp (s : Examiner) (reply : Reply) : Examiner :=
  if reply.status = .refused then
    { s with outcome := .noDisc, profile.discPresent := ⟨false, .measured⟩ }
  else if reply.ok then
    { s with
      spunUpHere := true
      profile.discPresent := ⟨true, .measured⟩
      profile.tray := ⟨.closed, .inferred⟩ }
  else s

/-- The profile with what the disc-status reply says. -/
def recordStatus (status : DiscStatus) (profile : DiscProfile) : DiscProfile :=
  let loaded := status.loaded.getD false
  let profile :=
    if loaded || !profile.discPresent.known then
      { profile with discPresent := ⟨loaded, .reported⟩ }
    else profile
  let profile :=
    if status.size ≠ .unknown then { profile with discSize := ⟨status.size, .reported⟩ }
    else profile
  let profile := match status.side with
    | some side => { profile with discSide := ⟨side, .reported⟩ }
    | none => profile
  let profile := match status.chapters with
    | some chapters => { profile with chapters := ⟨chapters, .reported⟩ }
    | none => profile
  if status.type = .unknown then profile
  else
    { profile with
      discType := ⟨status.type, .reported⟩
      addressing := ⟨addressModeFor status.type, .inferred⟩ }

def applyDiscStatus (s : Examiner) (reply : Reply) : Examiner :=
  if !reply.ok then s
  else
    let profile := { s.profile with discStatusReply := reply.text }
    let status := parseDiscStatus reply.text c.definition.discStatus
    { s with profile := if status.valid then recordStatus status profile else profile }

def applyTvSystem (s : Examiner) (reply : Reply) : Examiner :=
  let system := parseTvSystem reply.text c.definition.tvSystem
  if !reply.ok || !system.valid || system.disc == .unknown then s
  else { s with profile.videoStandard := ⟨system.disc, .reported⟩ }

def userCodeReading (reply : Reply) : UserCodeReading :=
  if reply.ok && isErrorCode reply.text then
    { outcome :=
        if c.definition.userCodeErrorPolicy = .notEncoded then .notEncoded else .refused
      text := reply.text }
  else if reply.ok && !reply.text.isEmpty then { outcome := .read, text := reply.text }
  else { outcome := .refused, text := reply.text }

def applyChapters (s : Examiner) (reply : Reply) : Examiner :=
  if reply.ok then { s with profile.chapters := ⟨true, .measured⟩ }
  else if reply.status = .refused then { s with profile.chapters := ⟨false, .measured⟩ }
  else s

def applyEndAddress (s : Examiner) (reply : Reply) : Examiner :=
  let address := parseAddress reply.text (addressing s) c.definition.timeCodeFormat
  if reply.ok && address.valid then
    { s with profile.programmeEnd := ⟨address.value, .measured⟩ }
  else s

def applyStartAddress (s : Examiner) (reply : Reply) : Examiner :=
  if !reply.ok then s
  else
    let address := parseAddress reply.text (addressing s) c.definition.timeCodeFormat
    let s :=
      if address.valid || address.inLeadIn then
        { s with profile.leadInReachable := ⟨address.inLeadIn, .measured⟩ }
      else s
    if address.valid then { s with profile.programmeStart := ⟨address.value, .measured⟩ } else s

def applyReply (s : Examiner) (stage : ExamineStage) (reply : Reply) : Examiner :=
  match stage with
  | .checkingPlayer => applyCheckingPlayer c s reply
  | .spinningUp => applySpinningUp s reply
  | .readingDiscStatus => applyDiscStatus c s reply
  | .readingTvSystem => applyTvSystem c s reply
  | .readingPioneerUserCode => { s with profile.pioneerUserCode := userCodeReading c reply }
  | .readingStandardUserCode => { s with profile.standardUserCode := userCodeReading c reply }
  | .checkingChapters => applyChapters s reply
  | .findingEnd => { s with endSeekSent := true }
  | .readingEnd => applyEndAddress c s reply
  | .findingStart => { s with startSeekOk := reply.ok }
  | .readingStart => applyStartAddress c s reply
  | .checkingTransport =>
    if reply.ok then
      { s with
        discTurning := isSpinning (parsePlayerState reply.text c.definition.stateDecode) }
    else s
  | .settling | .spinningDown | .idle | .finished => s

def apply (s : Examiner) (reply : Reply) : Examiner :=
  if s.isFinished then s
  else
    match s.pending with
    | none => s
    | some step =>
      let s :=
        { s with pending := none, index := s.index + 1, completed := s.completed + 1 }
      if reply.linkDown then { s with outcome := .linkFailed }
      else
        let s := applyReply c s step.stage reply
        if s.isFinished then s else advance c s

inductive ExamineCall where
  | cancel | restart
  deriving DecidableEq

def cancel (s : Examiner) : Examiner :=
  if s.isFinished then s else { s with pending := none, outcome := .cancelled }

def restart (s : Examiner) : Examiner :=
  { s with
    index := 0
    completed := 0
    pending := none
    outcome := .inProgress
    profile := {}
    spinning := false
    endSeekSent := false
    startSeekOk := false }

def call (which : ExamineCall) (s : Examiner) : Examiner :=
  match which with
  | .cancel => cancel s
  | .restart => restart s

end DiscExaminer
