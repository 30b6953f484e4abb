import DomesdayDuplicator.Player.ExaminerRestart

/-!
# What a disc profile rests on

Every field of the profile is an answer to some step of the examination. A field is found where
a reply said what it holds; the steps that do not ask about it leave it alone. The one field that
can be filled without such a reply is whether there is a disc: a disc status that could not tell
is recorded as no.
-/

namespace ExaminerEvidence

open Player Dialogue EventLog Execution DiscExaminer

inductive Finding where
  | discPresent | tray | discType | addressing | discSize | discSide | programmeStart
  | programmeEnd | leadInReachable | chapters | standardUserCode | pioneerUserCode
  | videoStandard | discStatusReply
  deriving DecidableEq

/-- What the reply to a step may tell. -/
def asksAbout : ExamineStage → List Finding
  | .checkingPlayer | .spinningUp => [.discPresent, .tray]
  | .readingDiscStatus =>
    [.discPresent, .discSize, .discSide, .chapters, .discType, .addressing, .discStatusReply]
  | .readingTvSystem => [.videoStandard]
  | .readingPioneerUserCode => [.pioneerUserCode]
  | .readingStandardUserCode => [.standardUserCode]
  | .checkingChapters => [.chapters]
  | .readingEnd => [.programmeEnd]
  | .readingStart => [.leadInReachable, .programmeStart]
  | .idle | .findingEnd | .findingStart | .settling | .checkingTransport | .spinningDown
  | .finished => []

/-- A user code that is on the disc, or said not to be. -/
def codeFound (reading : UserCodeReading) : Bool :=
  reading.outcome == .read || reading.outcome == .notEncoded

namespace Finding

def known (p : DiscProfile) : Finding → Bool
  | discPresent => p.discPresent.known
  | tray => p.tray.known
  | discType => p.discType.known
  | addressing => p.addressing.known
  | discSize => p.discSize.known
  | discSide => p.discSide.known
  | programmeStart => p.programmeStart.known
  | programmeEnd => p.programmeEnd.known
  | leadInReachable => p.leadInReachable.known
  | chapters => p.chapters.known
  | standardUserCode => codeFound p.standardUserCode
  | pioneerUserCode => codeFound p.pioneerUserCode
  | videoStandard => p.videoStandard.known
  | discStatusReply => !p.discStatusReply.isEmpty

/-- Two profiles say the same of it. -/
def Same (p q : DiscProfile) : Finding → Prop
  | discPresent => p.discPresent = q.discPresent
  | tray => p.tray = q.tray
  | discType => p.discType = q.discType
  | addressing => p.addressing = q.addressing
  | discSize => p.discSize = q.discSize
  | discSide => p.discSide = q.discSide
  | programmeStart => p.programmeStart = q.programmeStart
  | programmeEnd => p.programmeEnd = q.programmeEnd
  | leadInReachable => p.leadInReachable = q.leadInReachable
  | chapters => p.chapters = q.chapters
  | standardUserCode => p.standardUserCode = q.standardUserCode
  | pioneerUserCode => p.pioneerUserCode = q.pioneerUserCode
  | videoStandard => p.videoStandard = q.videoStandard
  | discStatusReply => p.discStatusReply = q.discStatusReply

/-- Read as an address, in the mode the disc is addressed in. -/
def measured : Finding → Bool
  | programmeStart | programmeEnd | leadInReachable => true
  | _ => false

variable {p q : DiscProfile} {f : Finding}

theorem same_refl : Same p p f := by
  cases f <;> rfl

@[simp] theorem known_empty : known {} f = false := by
  cases f <;> rfl

theorem known_congr (same : Same p q f) : f.known p = f.known q := by
  cases f <;> simp only [Same] at same <;> simp only [known, same]

end Finding

/-! ## Evidence -/

variable (c : Examination)

def status (reply : Reply) : DiscStatus := parseDiscStatus reply.text c.definition.discStatus

def stateIn (reply : Reply) : PlayerState :=
  parsePlayerState reply.text c.definition.stateDecode

def modeOf (p : DiscProfile) : AddressMode :=
  if p.addressing.known then p.addressing.value else .frame

def addressIn (p : DiscProfile) (reply : Reply) : DiscAddress :=
  parseAddress reply.text (modeOf p) c.definition.timeCodeFormat

/-- A refused play, or a status whose field for it reads no. -/
def SaysNoDisc (st : ExamineStep) (reply : Reply) : Prop :=
  (st.command = .play ∧ reply.status = .refused) ∨
    (st.command = .queryDiscStatus ∧ reply.ok = true ∧ (status c reply).loaded = some false)

/-- The player says that it turns a disc, plays one, or reports one loaded. -/
def SaysDisc (st : ExamineStep) (reply : Reply) : Prop :=
  (st.stage = .checkingPlayer ∧ st.command = .queryActiveMode ∧
      reportsSpinning c.definition reply = true) ∨
    (st.command = .play ∧ reply.ok = true) ∨
    (st.command = .queryDiscStatus ∧ reply.ok = true ∧ (status c reply).loaded = some true)

/-- The code the player sent, or the error code documented to say that there is none. -/
def ShowsUserCode (reading : UserCodeReading) (reply : Reply) : Prop :=
  reply.ok = true ∧ reading.text = reply.text ∧
    ((reading.outcome = .read ∧ isErrorCode reply.text = false ∧ reply.text ≠ []) ∨
      (reading.outcome = .notEncoded ∧ isErrorCode reply.text = true ∧
        c.definition.userCodeErrorPolicy = .notEncoded))

/-- The reply to this step says what the profile holds. -/
def Shows (p : DiscProfile) (st : ExamineStep) (reply : Reply) : Finding → Prop
  | .discPresent => if p.discPresent.value then SaysDisc c st reply else SaysNoDisc c st reply
  | .tray =>
    (st.stage = .checkingPlayer ∧ st.command = .queryActiveMode ∧ reply.ok = true ∧
        stateIn c reply ≠ .unknown ∧ p.tray.value = trayStateFor (stateIn c reply)) ∨
      (st.command = .play ∧ reply.ok = true ∧ p.tray.value = .closed)
  | .discType =>
    st.command = .queryDiscStatus ∧ reply.ok = true ∧ (status c reply).type ≠ .unknown ∧
      p.discType.value = (status c reply).type
  | .addressing =>
    st.command = .queryDiscStatus ∧ reply.ok = true ∧ (status c reply).type ≠ .unknown ∧
      p.addressing.value = addressModeFor (status c reply).type
  | .discSize =>
    st.command = .queryDiscStatus ∧ reply.ok = true ∧ (status c reply).size ≠ .unknown ∧
      p.discSize.value = (status c reply).size
  | .discSide =>
    st.command = .queryDiscStatus ∧ reply.ok = true ∧
      (status c reply).side = some p.discSide.value
  | .chapters =>
    (st.command = .queryDiscStatus ∧ reply.ok = true ∧
        (status c reply).chapters = some p.chapters.value) ∨
      (st.command = .seekChapter ∧
        if p.chapters.value then reply.ok = true else reply.status = .refused)
  | .standardUserCode =>
    st.command = .queryStandardUserCode ∧ ShowsUserCode c p.standardUserCode reply
  | .pioneerUserCode =>
    st.command = .queryPioneerUserCode ∧ ShowsUserCode c p.pioneerUserCode reply
  | .videoStandard =>
    st.command = .queryTvSystem ∧ reply.ok = true ∧
      (parseTvSystem reply.text c.definition.tvSystem).disc ≠ .unknown ∧
      p.videoStandard.value = (parseTvSystem reply.text c.definition.tvSystem).disc
  | .programmeEnd =>
    st.stage = .readingEnd ∧ reply.ok = true ∧ (addressIn c p reply).valid = true ∧
      p.programmeEnd.value = (addressIn c p reply).value
  | .programmeStart =>
    st.stage = .readingStart ∧ reply.ok = true ∧ (addressIn c p reply).valid = true ∧
      p.programmeStart.value = (addressIn c p reply).value
  | .leadInReachable =>
    st.stage = .readingStart ∧ reply.ok = true ∧
      ((addressIn c p reply).valid = true ∨ (addressIn c p reply).inLeadIn = true) ∧
      p.leadInReachable.value = (addressIn c p reply).inLeadIn
  | .discStatusReply =>
    st.command = .queryDiscStatus ∧ reply.ok = true ∧ p.discStatusReply = reply.text

def Determines (p : DiscProfile) (f : Finding) : ExamineEvent → Prop
  | .answered st reply => Shows c p st reply f
  | _ => False

def SaidNoDisc : ExamineEvent → Prop
  | .answered st reply => SaysNoDisc c st reply
  | _ => False

/-- The reply is not a status that cannot tell whether there is a disc, or that is known. -/
def Told (s : Examiner) (stage : ExamineStage) (reply : Reply) : Prop :=
  stage = .readingDiscStatus → reply.ok = true → (status c reply).valid = true →
    (status c reply).loaded = none → s.profile.discPresent.known = true

def StepTold (s : Examiner) (a : Dialogue.Action ExamineCall Reply) : Prop :=
  ∀ st reply, awaiting s = some st → a = .apply reply → Told c s st.stage reply

/-! ## What one reply changes -/

variable {c} {p q : DiscProfile} {f : Finding} {s t : Examiner} {reply : Reply}

/-- Everything a step may have changed is something it asks about, and what it left known the
reply shows, where it could tell. -/
def Finds (c : Examination) (s : Examiner) (stage : ExamineStage) (reply : Reply)
    (q : DiscProfile) : Prop :=
  ∀ f : Finding, f.Same s.profile q ∨
    (f ∈ asksAbout stage ∧
      (f.known q = true → Told c s stage reply → Shows c q (stepFor c s stage) reply f))

theorem finds_nothing {stage : ExamineStage} : Finds c s stage reply s.profile :=
  fun _ => Or.inl Finding.same_refl

theorem checkingPlayer_finds :
    Finds c s .checkingPlayer reply (applyCheckingPlayer c s reply).profile := by
  unfold applyCheckingPlayer
  dsimp only
  split_ifs with silent unknown open' spinning
  · exact finds_nothing
  · exact finds_nothing
  all_goals
    have ok : reply.ok = true := by simpa using silent
    intro f
    cases f with
    | tray =>
      exact Or.inr ⟨by simp [asksAbout], fun _ _ => Or.inl ⟨rfl, rfl, ok, unknown, rfl⟩⟩
    | discPresent =>
      first
      | exact Or.inl rfl
      | refine Or.inr ⟨by simp [asksAbout], fun _ _ => Or.inl ⟨rfl, rfl, ?_⟩⟩
        simp [reportsSpinning, ok, spinning]
    | _ => exact Or.inl rfl

theorem spinningUp_finds : Finds c s .spinningUp reply (applySpinningUp s reply).profile := by
  unfold applySpinningUp
  split_ifs with refused ok
  · intro f
    cases f with
    | discPresent => exact Or.inr ⟨by simp [asksAbout], fun _ _ => Or.inl ⟨rfl, refused⟩⟩
    | _ => exact Or.inl rfl
  · intro f
    cases f with
    | discPresent =>
      exact Or.inr ⟨by simp [asksAbout], fun _ _ => Or.inr (Or.inl ⟨rfl, ok⟩)⟩
    | tray => exact Or.inr ⟨by simp [asksAbout], fun _ _ => Or.inr ⟨rfl, ok, rfl⟩⟩
    | _ => exact Or.inl rfl
  · exact finds_nothing

section Status

variable (found : DiscStatus)

/-- A status sets the fields it reports, each from its own part of the reply. -/
theorem recordStatus_eq : recordStatus found p =
    { p with
      discPresent :=
        if found.loaded.getD false || !p.discPresent.known then
          ⟨found.loaded.getD false, .reported⟩
        else p.discPresent
      discSize := if found.size ≠ .unknown then ⟨found.size, .reported⟩ else p.discSize
      discSide := found.side.elim p.discSide fun side => ⟨side, .reported⟩
      chapters := found.chapters.elim p.chapters fun chapters => ⟨chapters, .reported⟩
      discType := if found.type = .unknown then p.discType else ⟨found.type, .reported⟩
      addressing :=
        if found.type = .unknown then p.addressing
        else ⟨addressModeFor found.type, .inferred⟩ } := by
  unfold recordStatus
  dsimp only
  split_ifs <;> cases found.side <;> cases found.chapters <;> rfl

theorem recordStatus_discPresent : (recordStatus found p).discPresent =
    if found.loaded.getD false || !p.discPresent.known then ⟨found.loaded.getD false, .reported⟩
    else p.discPresent := by
  rw [recordStatus_eq]

theorem recordStatus_discSize : (recordStatus found p).discSize =
    if found.size ≠ .unknown then ⟨found.size, .reported⟩ else p.discSize := by
  rw [recordStatus_eq]

theorem recordStatus_discSide : (recordStatus found p).discSide =
    found.side.elim p.discSide fun side => ⟨side, .reported⟩ := by
  rw [recordStatus_eq]

theorem recordStatus_chapters : (recordStatus found p).chapters =
    found.chapters.elim p.chapters fun chapters => ⟨chapters, .reported⟩ := by
  rw [recordStatus_eq]

theorem recordStatus_type : (recordStatus found p).discType =
      (if found.type = .unknown then p.discType else ⟨found.type, .reported⟩) ∧
    (recordStatus found p).addressing =
      if found.type = .unknown then p.addressing
      else ⟨addressModeFor found.type, .inferred⟩ := by
  rw [recordStatus_eq]
  exact ⟨rfl, rfl⟩

/-- What a status does not report is as it was. -/
theorem recordStatus_rest : recordStatus found p =
    { p with
      discPresent := (recordStatus found p).discPresent
      discSize := (recordStatus found p).discSize
      discSide := (recordStatus found p).discSide
      chapters := (recordStatus found p).chapters
      discType := (recordStatus found p).discType
      addressing := (recordStatus found p).addressing } := by
  rw [recordStatus_eq]

end Status

theorem discStatus_finds :
    Finds c s .readingDiscStatus reply (applyDiscStatus c s reply).profile := by
  unfold applyDiscStatus
  dsimp only
  by_cases silent : (!reply.ok) = true
  · rw [if_pos silent]
    exact finds_nothing
  rw [if_neg silent]
  have ok : reply.ok = true := by simpa using silent
  change Finds c s .readingDiscStatus reply
    (if (status c reply).valid = true then recordStatus (status c reply)
      { s.profile with discStatusReply := reply.text }
    else { s.profile with discStatusReply := reply.text })
  by_cases valid : (status c reply).valid = true
  swap
  · rw [if_neg valid]
    intro f
    cases f with
    | discStatusReply => exact Or.inr ⟨by simp [asksAbout], fun _ _ => ⟨rfl, ok, rfl⟩⟩
    | _ => exact Or.inl rfl
  rw [if_pos valid]
  intro f
  cases f with
  | discPresent =>
    simp only [Finding.Same, Finding.known, Shows, recordStatus_discPresent]
    cases loaded : (status c reply).loaded with
    | none =>
      by_cases known : s.profile.discPresent.known = true
      · left
        simp [known]
      · right
        exact ⟨by simp [asksAbout], fun _ told => absurd (told rfl ok valid loaded) known⟩
    | some yes =>
      cases yes with
      | true =>
        exact Or.inr ⟨by simp [asksAbout], fun _ _ => Or.inr (Or.inr ⟨rfl, ok, loaded⟩)⟩
      | false =>
        by_cases known : s.profile.discPresent.known = true
        · left
          simp [known]
        · right
          simp only [known, Option.getD_some, Bool.not_false, Bool.or_true, if_true]
          exact ⟨by simp [asksAbout], fun _ _ => Or.inr ⟨rfl, ok, loaded⟩⟩
  | discSize =>
    simp only [Finding.Same, Finding.known, Shows, recordStatus_discSize]
    split_ifs with sized
    · exact Or.inr ⟨by simp [asksAbout], fun _ _ => ⟨rfl, ok, sized, rfl⟩⟩
    · exact Or.inl rfl
  | discSide =>
    simp only [Finding.Same, Finding.known, Shows, recordStatus_discSide]
    cases side : (status c reply).side with
    | none => exact Or.inl rfl
    | some side => exact Or.inr ⟨by simp [asksAbout], fun _ _ => ⟨rfl, ok, rfl⟩⟩
  | chapters =>
    simp only [Finding.Same, Finding.known, Shows, recordStatus_chapters]
    cases chapters : (status c reply).chapters with
    | none => exact Or.inl rfl
    | some chapters => exact Or.inr ⟨by simp [asksAbout], fun _ _ => Or.inl ⟨rfl, ok, rfl⟩⟩
  | discType =>
    simp only [Finding.Same, Finding.known, Shows, (recordStatus_type _).1]
    split_ifs with untyped
    · exact Or.inl rfl
    · exact Or.inr ⟨by simp [asksAbout], fun _ _ => ⟨rfl, ok, untyped, rfl⟩⟩
  | addressing =>
    simp only [Finding.Same, Finding.known, Shows, (recordStatus_type _).2]
    split_ifs with untyped
    · exact Or.inl rfl
    · exact Or.inr ⟨by simp [asksAbout], fun _ _ => ⟨rfl, ok, untyped, rfl⟩⟩
  | discStatusReply =>
    refine Or.inr ⟨by simp [asksAbout], fun _ _ => ⟨rfl, ok, ?_⟩⟩
    rw [recordStatus_rest]
  | _ =>
    left
    rw [recordStatus_rest]
    rfl

theorem tvSystem_finds : Finds c s .readingTvSystem reply (applyTvSystem c s reply).profile := by
  unfold applyTvSystem
  dsimp only
  split_ifs with unusable
  · exact finds_nothing
  · simp only [Bool.or_eq_true, Bool.not_eq_true', beq_iff_eq, not_or, Bool.not_eq_false]
      at unusable
    intro f
    cases f with
    | videoStandard =>
      exact Or.inr ⟨by simp [asksAbout], fun _ _ => ⟨rfl, unusable.1.1, unusable.2, rfl⟩⟩
    | _ => exact Or.inl rfl

theorem userCode_shows (found : codeFound (userCodeReading c reply) = true) :
    ShowsUserCode c (userCodeReading c reply) reply := by
  revert found
  unfold userCodeReading
  split_ifs with error documented read
  · simp only [Bool.and_eq_true] at error
    exact fun _ => ⟨error.1, rfl, Or.inr ⟨rfl, error.2, documented⟩⟩
  · exact fun found => nomatch found
  · simp only [Bool.and_eq_true, Bool.not_eq_true', List.isEmpty_eq_false_iff] at read
    exact fun _ => ⟨read.1, rfl, Or.inl ⟨rfl, by simpa [read.1] using error, read.2⟩⟩
  · exact fun found => nomatch found

theorem chapters_finds : Finds c s .checkingChapters reply (applyChapters s reply).profile := by
  unfold applyChapters
  split_ifs with ok refused
  · intro f
    cases f with
    | chapters => exact Or.inr ⟨by simp [asksAbout], fun _ _ => Or.inr ⟨rfl, ok⟩⟩
    | _ => exact Or.inl rfl
  · intro f
    cases f with
    | chapters => exact Or.inr ⟨by simp [asksAbout], fun _ _ => Or.inr ⟨rfl, refused⟩⟩
    | _ => exact Or.inl rfl
  · exact finds_nothing

theorem endAddress_finds : Finds c s .readingEnd reply (applyEndAddress c s reply).profile := by
  unfold applyEndAddress
  dsimp only
  split_ifs with usable
  · simp only [Bool.and_eq_true] at usable
    intro f
    cases f with
    | programmeEnd =>
      exact Or.inr ⟨by simp [asksAbout], fun _ _ => ⟨rfl, usable.1, usable.2, rfl⟩⟩
    | _ => exact Or.inl rfl
  · exact finds_nothing

theorem startAddress_finds :
    Finds c s .readingStart reply (applyStartAddress c s reply).profile := by
  unfold applyStartAddress
  by_cases silent : (!reply.ok) = true
  · rw [if_pos silent]
    exact finds_nothing
  rw [if_neg silent]
  have ok : reply.ok = true := by simpa using silent
  dsimp only
  intro f
  cases valid : (parseAddress reply.text (addressing s) c.definition.timeCodeFormat).valid with
  | true =>
    simp only [Bool.true_or, if_true]
    cases f with
    | leadInReachable =>
      exact Or.inr ⟨by simp [asksAbout], fun _ _ => ⟨rfl, ok, Or.inl valid, rfl⟩⟩
    | programmeStart => exact Or.inr ⟨by simp [asksAbout], fun _ _ => ⟨rfl, ok, valid, rfl⟩⟩
    | _ => exact Or.inl rfl
  | false =>
    simp only [Bool.false_or, Bool.false_eq_true, if_false]
    split_ifs with leadIn
    · cases f with
      | leadInReachable =>
        exact Or.inr ⟨by simp [asksAbout], fun _ _ => ⟨rfl, ok, Or.inr leadIn, rfl⟩⟩
      | _ => exact Or.inl rfl
    · exact Or.inl Finding.same_refl

/-- What any reply finds. -/
theorem applyReply_finds {stage : ExamineStage} :
    Finds c s stage reply (applyReply c s stage reply).profile := by
  cases stage with
  | checkingPlayer => exact checkingPlayer_finds
  | spinningUp => exact spinningUp_finds
  | readingDiscStatus => exact discStatus_finds
  | readingTvSystem => exact tvSystem_finds
  | readingPioneerUserCode =>
    intro f
    cases f with
    | pioneerUserCode =>
      exact Or.inr ⟨by simp [asksAbout], fun found _ => ⟨rfl, userCode_shows found⟩⟩
    | _ => exact Or.inl rfl
  | readingStandardUserCode =>
    intro f
    cases f with
    | standardUserCode =>
      exact Or.inr ⟨by simp [asksAbout], fun found _ => ⟨rfl, userCode_shows found⟩⟩
    | _ => exact Or.inl rfl
  | checkingChapters => exact chapters_finds
  | readingEnd => exact endAddress_finds
  | readingStart => exact startAddress_finds
  | checkingTransport =>
    simp only [applyReply]
    split_ifs <;> exact finds_nothing
  | _ => exact finds_nothing

/-! ## Runs -/

/-- Once the disc status is behind, the mode the disc is addressed in is settled. -/
theorem plan_split (c : Examination) : ∃ rest, plan c = identifySteps c ++ rest ∧
    ExamineStage.readingDiscStatus ∉ rest := by
  cases scope : c.scope with
  | identify =>
    refine ⟨restoreSteps c, by simp [plan, scope], ?_⟩
    unfold restoreSteps
    split_ifs <;> simp
  | full =>
    refine ⟨measureSteps c ++ restoreSteps c, by simp [plan, scope], ?_⟩
    unfold measureSteps restoreSteps
    split_ifs <;> simp

theorem identify_unmeasured (c : Examination) {stage : ExamineStage}
    (identifies : stage ∈ identifySteps c) {f : Finding} (measured : f.measured = true) :
    f ∉ asksAbout stage := by
  have early : stage = .checkingPlayer ∨ stage = .spinningUp ∨ stage = .readingDiscStatus ∨
      stage = .readingTvSystem := by
    unfold identifySteps at identifies
    split_ifs at identifies <;> simp at identifies <;> grind
  rcases early with rfl | rfl | rfl | rfl <;> cases f <;> simp_all [asksAbout, Finding.measured]

theorem determines_congr {e : ExamineEvent} (same : f.Same p q)
    (mode : f.measured = true → p.addressing = q.addressing) (h : Determines c p f e) :
    Determines c q f e := by
  cases e with
  | answered st reply =>
    have address (measured : f.measured = true) : addressIn c p reply = addressIn c q reply := by
      simp only [addressIn, modeOf, mode measured]
    cases f <;> simp only [Finding.Same] at same <;>
      simp only [Determines, Shows, same] at h ⊢ <;>
      first | exact h | (rw [address rfl] at h; exact h)
  | _ => exact h

structure Sound (c : Examination) (es : List ExamineEvent) (s : Examiner) : Prop where
  out : ∀ st, s.pending = some st → (plan c)[s.index]? = some st.stage ∧
    st = stepFor c s st.stage
  found : ∀ f : Finding, f.known s.profile = true →
    Owing (Determines c s.profile f) Restarted es
  measured : ∀ f : Finding, f.measured = true → f.known s.profile = true →
    (identifySteps c).length ≤ s.index

namespace Sound

variable {es : List ExamineEvent}

theorem quiet (h : Sound c es s) {e : ExamineEvent} (other : ¬ Restarted e) :
    Sound c (es ++ [e]) s :=
  ⟨h.out, fun f known => owing_snoc.mpr (Or.inr ⟨h.found f known, other⟩), h.measured⟩

theorem advance (h : Sound c es s) (free : s.pending = none) : Sound c es (advance c s) :=
  ⟨fun st out => absurd out (by simp [DiscExaminer.advance, free]), h.found,
    fun f measured known => (h.measured f measured known).trans (Nat.le_add_right _ _)⟩

theorem next (h : Sound c es s) : Sound c es (next c s).2 := by
  unfold DiscExaminer.next
  split_ifs with finished
  · exact h
  cases free : s.pending with
  | some st => exact h
  | none =>
    have moved := h.advance free
    dsimp only
    split_ifs with ended
    · exact moved
    · obtain ⟨-, stage, here, -⟩ := advance_stands c (by simpa using ended)
      refine ⟨fun st out => ?_, moved.found, moved.measured⟩
      rw [here] at out
      obtain rfl := Option.some.inj out
      rw [stepFor_stage]
      exact ⟨here, rfl⟩

/-- An answer that finds what its step asks about. -/
theorem answered (h : Sound c es s) {st : ExamineStep} (out : s.pending = some st)
    (free : t.pending = none) (index : t.index = s.index + 1)
    (finds : Finds c s st.stage reply t.profile) (told : Told c s st.stage reply) :
    Sound c (es ++ [.answered st reply]) t := by
  obtain ⟨here, step⟩ := h.out st out
  obtain ⟨rest, split, identified⟩ := plan_split c
  rw [split] at here
  refine ⟨fun _ given => absurd given (by simp [free]), fun f known => ?_,
    fun f measured known => ?_⟩
  · rcases finds f with same | ⟨asks, shows'⟩
    · have before := h.found f ((Finding.known_congr same).trans known)
      refine owing_snoc.mpr (Or.inr ⟨before.mono fun e => determines_congr same ?_, id⟩)
      intro measured
      have beyond := h.measured f measured ((Finding.known_congr same).trans known)
      rcases finds .addressing with kept | ⟨asks, -⟩
      · exact kept
      · -- the disc status is not asked for once something was measured
        rw [List.getElem?_append_right beyond] at here
        have status : st.stage = .readingDiscStatus := by
          cases stage : st.stage <;> simp [stage, asksAbout] at asks ⊢
        exact absurd (status ▸ List.mem_of_getElem? here) identified
    · refine owing_snoc.mpr (Or.inl ?_)
      have shown := shows' known told
      rwa [← step] at shown
  · rw [index]
    rcases finds f with same | ⟨asks, -⟩
    · have := h.measured f measured ((Finding.known_congr same).trans known)
      omega
    · by_contra before
      rw [List.getElem?_append_left (by omega)] at here
      exact identify_unmeasured c (List.mem_of_getElem? here) measured asks

theorem apply (h : Sound c es s) («open» : s.isFinished = false) {st : ExamineStep}
    (out : s.pending = some st) (told : Told c s st.stage reply) :
    Sound c (es ++ [.answered st reply]) (apply c s reply) := by
  rw [DiscExaminer.apply, if_neg (by simp [«open»]), out]
  dsimp only
  let moved := { s with pending := none, index := s.index + 1, completed := s.completed + 1 }
  have learns := applyReply_learns c moved st.stage reply
  have finds : Finds c moved st.stage reply (applyReply c moved st.stage reply).profile :=
    applyReply_finds
  split_ifs
  · exact h.answered out rfl rfl finds_nothing told
  · exact h.answered out learns.pending learns.index finds told
  · exact (h.answered out learns.pending learns.index finds told).advance learns.pending

theorem start : Sound c es {} := by
  refine ⟨by simp, fun f known => ?_, fun f _ known => ?_⟩
  · simp at known
  · simp at known

theorem step (h : Sound c es s) (a : Dialogue.Action ExamineCall Reply) (told : StepTold c s a) :
    Sound c (es ++ [((examiner c).step s a).2]) ((examiner c).step s a).1 := by
  rcases (examiner c).step_cases s a with ⟨st, -, step⟩ | ⟨idle, st, t, given, -, step⟩ |
      ⟨idle, t, given, -, step⟩ | ⟨st, reply, out, step⟩ | ⟨reply, -, step⟩ |
      ⟨which, call, step⟩ <;>
    rw [step]
  · exact h.quiet id
  · have next := h.next
    rw [show DiscExaminer.next c s = (some st, t) from given] at next
    exact next.quiet id
  · have next := h.next
    rw [show DiscExaminer.next c s = (none, t) from given] at next
    exact next.quiet id
  · have sent := answered_applies step
    have «open» : s.isFinished = false := by
      by_contra finished
      simp [examiner, awaiting, finished] at out
    have pending : s.pending = some st := by
      simpa [examiner, awaiting, «open»] using out
    exact h.apply «open» pending (told st reply out sent)
  · exact h.quiet id
  · cases which with
    | cancel =>
      refine quiet ?_ id
      change Sound c es (cancel s)
      unfold cancel
      split_ifs
      · exact h
      · exact ⟨by simp, h.found, h.measured⟩
    | restart =>
      change Sound c _ (restart s)
      refine ⟨by simp [restart], fun f known => ?_, fun f _ known => ?_⟩
      · simp [restart] at known
      · simp [restart] at known

end Sound

/-- A reply leaves alone what its step does not ask about. -/
theorem apply_frame {st : ExamineStep} (out : s.pending = some st) (reply : Reply) {f : Finding}
    (other : f ∉ asksAbout st.stage) : f.Same s.profile (apply c s reply).profile := by
  unfold apply
  by_cases finished : s.isFinished = true
  · rw [if_pos finished]
    exact Finding.same_refl
  rw [if_neg finished, out]
  dsimp only
  let moved := { s with pending := none, index := s.index + 1, completed := s.completed + 1 }
  have same : f.Same moved.profile (applyReply c moved st.stage reply).profile :=
    (applyReply_finds f).resolve_right fun asked => other asked.1
  split_ifs
  · exact Finding.same_refl
  · exact same
  · exact same

/-! ## Soundness -/

/-- In every run whose disc status can tell whether there is a disc, or need not, a reply of this
examination says what the profile holds; there is no disc only where one said so. -/
theorem evidence_sound {es : List ExamineEvent}
    (run : Run (examiner c).machine (StepTold c) {} es s) :
    (∀ f : Finding, f.known s.profile = true →
      Owing (Determines c s.profile f) Restarted es) ∧
    (s.profile.discPresent.known = true → s.profile.discPresent.value = false →
      Owing (SaidNoDisc c) Restarted es) ∧
    (∀ plan, validateAutoCapturePlan plan s.profile = .noDisc →
      Owing (SaidNoDisc c) Restarted es) ∧
    (∀ st reply (f : Finding), s.pending = some st → f ∉ asksAbout st.stage →
      f.Same s.profile (apply c s reply).profile) := by
  have sound : Sound c es s :=
    run.invariant_events (Sound c) Sound.start fun _ _ a h told => h.step a told
  have absent (known : s.profile.discPresent.known = true)
      (no : s.profile.discPresent.value = false) : Owing (SaidNoDisc c) Restarted es := by
    refine (sound.found .discPresent known).mono fun e => ?_
    cases e with
    | answered st reply =>
      intro said
      simp only [Determines, Shows, no, Bool.false_eq_true, if_false] at said
      exact said
    | _ => exact False.elim
  refine ⟨sound.found, absent, fun plan refuses => ?_,
    fun st reply f out => apply_frame out reply⟩
  unfold validateAutoCapturePlan at refuses
  split_ifs at refuses with no
  simp only [Bool.and_eq_true, Bool.not_eq_true'] at no
  exact absent no.1 no.2

open StopPermission (identify)
open ExaminerRestart (silent)

instance : DecidablePred (SaidNoDisc c)
  | .answered _ _ => inferInstanceAs (Decidable ((_ ∧ _) ∨ (_ ∧ _ ∧ _)))
  | .handed _ | .repeated _ | .over | .ignored _ | .called _ => .isFalse id

/-- `StepTold`, computed. -/
def tells (c : Examination) (s : Examiner) : Dialogue.Action ExamineCall Reply → Bool
  | .apply reply =>
    !(status c reply).valid || (status c reply).loaded.isSome || s.profile.discPresent.known
  | .next | .call _ => true

theorem tells_told {a : Dialogue.Action ExamineCall Reply} (tells' : tells c s a = true) :
    StepTold c s a := by
  rintro st reply - rfl - - valid unknown
  simpa [tells, valid, unknown] using tells'

/-- Nothing answers before the status, and the status reads as given. -/
def statusOnly (text : Text) : List (Dialogue.Action ExamineCall Reply) :=
  [.next, .apply silent, .next, .apply silent, .next, .apply { status := .ok, text := text }]

theorem evidence_sound_empty :
    Owing (SaidNoDisc identify) Restarted
      ((examiner identify).machine.trace {} (statusOnly ['0', 'X', 'X', 'X', 'X'])).1 := by
  have run : Run (examiner identify).machine (StepTold identify) {}
      ((examiner identify).machine.trace {} (statusOnly ['0', 'X', 'X', 'X', 'X'])).1
      ((examiner identify).machine.trace {} (statusOnly ['0', 'X', 'X', 'X', 'X'])).2 :=
    Run.of_trace _ (tells identify) _ _ (by decide +kernel) fun _ _ => tells_told
  exact (evidence_sound run).2.2.1 {} (by decide +kernel)

/-- The player could not tell whether there is a disc, and a plan for it is refused for want of
one. -/
theorem undetermined_refused :
    ¬ ∀ (c : Examination) (es : List ExamineEvent) (s : Examiner),
      Run (examiner c).machine Any {} es s →
        ∀ plan, validateAutoCapturePlan plan s.profile = .noDisc →
          Owing (SaidNoDisc c) Restarted es := by
  intro sound
  have run : Run (examiner identify).machine Any {}
      ((examiner identify).machine.trace {} (statusOnly ['X', '0', '0', '0', '0'])).1
      ((examiner identify).machine.trace {} (statusOnly ['X', '0', '0', '0', '0'])).2 :=
    Run.of_trace _ (fun _ _ => true) _ _ (Machine.passes_of_all _ (fun _ _ => rfl) _)
      fun _ _ _ => trivial
  have said := sound identify _ _ run {} (by decide +kernel)
  exact absurd said (by decide +kernel)

end ExaminerEvidence
