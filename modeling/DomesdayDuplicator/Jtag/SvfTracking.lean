import DomesdayDuplicator.Foundations.TapController
import DomesdayDuplicator.Jtag.SvfPlayer

/-!
# Where the TAP is

The player's calls as clocks of a test access port. Each step of the player leaves the port
where the player has it on record, but for a wait in a state that TMS low does not hold.
-/

namespace Svf

open TapController (State Register Cycle after entered shifts next)

/-! ## The player's states and the port's -/

def TapState.tap : TapState → State
  | .reset => .testLogicReset
  | .idle => .runTestIdle
  | .drSelect => .select .data
  | .drCapture => .capture .data
  | .drShift => .shift .data
  | .drExit1 => .exit1 .data
  | .drPause => .pause .data
  | .drExit2 => .exit2 .data
  | .drUpdate => .update .data
  | .irSelect => .select .instruction
  | .irCapture => .capture .instruction
  | .irShift => .shift .instruction
  | .irExit1 => .exit1 .instruction
  | .irPause => .pause .instruction
  | .irExit2 => .exit2 .instruction
  | .irUpdate => .update .instruction

theorem next_tap (s : TapState) (tms : Bool) : next s.tap tms =
    (if tms then (transitions s).onOne else (transitions s).onZero).tap := by
  cases s <;> cases tms <;> rfl

/-- TMS low does not leave it. -/
def Held (s : TapState) : Prop := (transitions s).onZero = s

instance : DecidablePred Held := fun _ => inferInstanceAs (Decidable (_ = _))

theorem Held.next {s : TapState} (held : Held s) : next s.tap false = s.tap := by
  rw [next_tap, if_neg Bool.false_ne_true, held]

def register (instruction : Bool) : Register := if instruction then .instruction else .data

def tapStates : List TapState :=
  [.reset, .idle, .drSelect, .drCapture, .drShift, .drExit1, .drPause, .drExit2, .drUpdate,
    .irSelect, .irCapture, .irShift, .irExit1, .irPause, .irExit2, .irUpdate]

theorem mem_tapStates (s : TapState) : s ∈ tapStates := by cases s <;> decide

/-! ## Paths -/

/-- The clocks of a path. -/
def pathCycles (path : List Bool) : List Cycle := path.map (⟨·, false⟩)

def walked (origin target : TapState) : List Cycle := pathCycles (pathBetween origin target)

theorem walked_leads (origin target : TapState) : after origin.tap (walked origin target) =
    target.tap := by
  have all : ∀ a ∈ tapStates, ∀ b ∈ tapStates, after a.tap (walked a b) = b.tap := by
    decide +kernel
  exact all _ (mem_tapStates _) _ (mem_tapStates _)

/-- Test-Logic-Reset is no stepping stone. -/
theorem walked_resets (origin target : TapState)
    (entering : .testLogicReset ∈ entered origin.tap (walked origin target)) :
    target = .reset := by
  have all : ∀ a ∈ tapStates, ∀ b ∈ tapStates,
      .testLogicReset ∈ entered a.tap (walked a b) → b = .reset := by
    decide +kernel
  exact all _ (mem_tapStates _) _ (mem_tapStates _) entering

theorem walked_to_shift {origin : TapState} {instruction : Bool}
    (apart : origin ≠ shiftState (!instruction)) :
    shifts origin.tap (walked origin (shiftState instruction)) = [] := by
  have all : ∀ a ∈ tapStates, ∀ i, a ≠ shiftState (!i) →
      shifts a.tap (walked a (shiftState i)) = [] := by
    decide +kernel
  exact all _ (mem_tapStates _) _ apart

theorem walked_from_exit {target : TapState} (instruction : Bool)
    (stable : isStableState target) :
    shifts (exitState instruction).tap (walked (exitState instruction) target) = [] := by
  have all : ∀ b ∈ tapStates, ∀ i, isStableState b →
      shifts (exitState i).tap (walked (exitState i) b) = [] := by
    decide +kernel
  exact all _ (mem_tapStates _) _ stable

/-! ## Calls as clocks -/

def Request.cycles : Request → List Cycle
  | .shift tms tdi _ => List.zipWith Cycle.mk tms tdi
  | .runClock count => List.replicate count ⟨false, false⟩
  | .flush => []

def cyclesOf (calls : List CableCall) : List Cycle := calls.flatMap fun c => c.request.cycles

@[simp] theorem cyclesOf_nil : cyclesOf [] = [] := rfl

@[simp] theorem cyclesOf_append (first second : List CableCall) :
    cyclesOf (first ++ second) = cyclesOf first ++ cyclesOf second := List.flatMap_append

@[simp] theorem cyclesOf_single (c : CableCall) : cyclesOf [c] = c.request.cycles := by
  simp [cyclesOf]

def AllWent (calls : List CableCall) : Prop := ∀ c ∈ calls, c.went = true

theorem AllWent.left {first second : List CableCall} (h : AllWent (first ++ second)) :
    AllWent first := fun c here => h c (List.mem_append_left _ here)

theorem AllWent.right {first second : List CableCall} (h : AllWent (first ++ second)) :
    AllWent second := fun c here => h c (List.mem_append_right _ here)

theorem AllWent.append {first second : List CableCall} (h : AllWent first) (h' : AllWent second) :
    AllWent (first ++ second) := fun c here => (List.mem_append.mp here).elim (h c) (h' c)

/-- Every call is made with the port where the player has it. -/
def Recorded (s : State) (calls : List CableCall) : Prop :=
  ∀ early c late, calls = early ++ c :: late → AllWent early →
    c.before.tap = after s (cyclesOf early)

theorem Recorded.nil {s : State} : Recorded s [] := fun early c late h _ => by
  have := congrArg List.length h
  simp at this

theorem recorded_single {s : State} {c : CableCall} (here : c.before.tap = s) :
    Recorded s [c] := by
  rintro (_ | ⟨first, early⟩) c' late h _
  · obtain ⟨rfl, -⟩ := List.cons.inj h
    exact here
  · have := congrArg List.length h
    simp at this

theorem Recorded.append {s : State} {first second : List CableCall} (h : Recorded s first)
    (h' : AllWent first → Recorded (after s (cyclesOf first)) second) :
    Recorded s (first ++ second) := by
  intro early c late same went
  rcases List.append_eq_append_iff.mp same with ⟨more, rfl, rest⟩ | ⟨more, rfl, rest⟩
  · rw [cyclesOf_append, TapController.after_append]
    exact h' went.left more c late rest went.right
  · cases more with
    | nil =>
      rw [List.append_nil] at h h'
      rw [List.nil_append] at rest
      have := h' went [] c late rest.symm nofun
      simpa using this
    | cons c' more =>
      obtain ⟨rfl, rfl⟩ := List.cons.inj rest
      exact h early c more rfl went

/-! ## Steps -/

section Steps

variable {D : Type} {d : Doubles D} {cable : Cable} {deviceAttached : Bool}

/-- The player's settings are those of before. -/
structure Keeps (p p' : Player D) : Prop where
  endOf : p'.endOf = p.endOf
  sticky : p'.sticky = p.sticky

/-- What a step of the player is to the port. -/
structure Does (p : Player D) (step : Step D) (made : List CableCall) : Prop where
  calls : step.1.calls = p.calls ++ made
  recorded : Recorded p.current.tap made
  current : AllWent made → step.1.current.tap = after p.current.tap (cyclesOf made)
  went : step.2 = none → AllWent made

theorem Does.refl (p : Player D) (failure : Option Failure) : Does p (p, failure) [] where
  calls := (List.append_nil _).symm
  recorded := .nil
  current _ := rfl
  went _ := nofun

theorem Does.trans {p p₁ : Player D} {step : Step D} {made more : List CableCall}
    (first : Does p (p₁, none) made) (second : Does p₁ step more) :
    Does p step (made ++ more) where
  calls := by rw [second.calls, first.calls, List.append_assoc]
  recorded := first.recorded.append fun went => first.current went ▸ second.recorded
  current went := by
    rw [second.current went.right, cyclesOf_append, TapController.after_append,
      ← first.current went.left]
  went done := (first.went rfl).append (second.went done)

/-- A player that differs in its settings only. -/
theorem Does.of_start {p p' : Player D} {step : Step D} {made : List CableCall}
    (h : Does p step made) (calls : p'.calls = p.calls) (current : p'.current = p.current) :
    Does p' step made where
  calls := calls ▸ h.calls
  recorded := current ▸ h.recorded
  current went := current ▸ h.current went
  went := h.went

variable (cable) in
theorem send_calls (p : Player D) (request : Request) : (p.send cable request).1.calls =
    p.calls ++ [⟨p.current, request, (p.send cable request).2.isSome⟩] := rfl

theorem pathCycles_request (path : List Bool) (capture : Bool) :
    (Request.shift path (List.replicate path.length false) capture).cycles = pathCycles path := by
  rw [Request.cycles, pathCycles]
  induction path with
  | nil => rfl
  | cons tms rest ih => rw [List.length_cons, List.replicate_succ, List.zipWith_cons_cons, ih,
      List.map_cons]

variable (cable) in
theorem moveTo_does (line : Nat) (target : TapState) (p : Player D) : ∃ made,
    Does p (moveTo cable line target p) made ∧
      cyclesOf made = walked p.current target ∧
      Keeps p (moveTo cable line target p).1 ∧
      ((moveTo cable line target p).2 = none → (moveTo cable line target p).1.current = target) ∧
      ∀ failure, (moveTo cable line target p).2 = some failure →
        failure.problem = .stoppedAnswering := by
  have leads := walked_leads p.current target
  rw [moveTo]
  by_cases here : pathBetween p.current target = []
  · have still : walked p.current target = [] := by rw [walked, here]; rfl
    rw [still] at leads
    rw [if_pos here]
    refine ⟨[], ⟨(List.append_nil _).symm, .nil, fun _ => leads.symm, fun _ => nofun⟩, still.symm,
      ⟨rfl, rfl⟩, fun _ => rfl, nofun⟩
  · rw [if_neg here]
    have calls := send_calls cable p
      (.shift (pathBetween p.current target)
        (List.replicate (pathBetween p.current target).length false) false)
    have same : (p.send cable (.shift (pathBetween p.current target)
        (List.replicate (pathBetween p.current target).length false) false)).1.current =
          p.current := rfl
    have keeps : Keeps p (p.send cable (.shift (pathBetween p.current target)
        (List.replicate (pathBetween p.current target).length false) false)).1 := ⟨rfl, rfl⟩
    generalize p.send cable (.shift _ _ _) = sent at calls same keeps
    obtain ⟨p₁, _ | received⟩ := sent
    · refine ⟨_, ⟨calls, recorded_single rfl, fun went => ?_, nofun⟩, ?_, keeps, nofun, ?_⟩
      · exact absurd (went _ (List.mem_singleton_self _)) Bool.false_ne_true
      · rw [cyclesOf_single, pathCycles_request, walked]
      · rintro failure ⟨⟩
        rfl
    · refine ⟨_, ⟨calls, recorded_single rfl, fun _ => ?_, fun _ c here => ?_⟩, ?_,
        ⟨keeps.endOf, keeps.sticky⟩, fun _ => rfl, nofun⟩
      · rw [cyclesOf_single, pathCycles_request]
        exact leads.symm
      · rw [List.mem_singleton.mp here]
        rfl
      · rw [cyclesOf_single, pathCycles_request, walked]

/-- The clocks of a scan, as `Shift` asks for them. -/
theorem scan_request (tdi : List Bool) (capture : Bool) :
    (Request.shift ((List.replicate tdi.length false).set (tdi.length - 1) true) tdi
      capture).cycles = TapController.scan tdi := by
  rw [Request.cycles]
  induction tdi with
  | nil => rfl
  | cons bit rest ih =>
    cases rest with
    | nil => rfl
    | cons more rest =>
      rw [TapController.scan, ← ih]
      rfl

variable (cable) in
theorem shift_does (line : Nat) (tdi : List Bool) (capture : Bool) (p : Player D) : ∃ c,
    (shift cable line tdi capture p).1.calls = p.calls ++ [c] ∧ c.before = p.current ∧
      c.request.cycles = TapController.scan tdi ∧ Keeps p (shift cable line tdi capture p).1 ∧
      (∀ failure, (shift cable line tdi capture p).2 = .error failure →
        c.went = false ∧ failure.problem = .stoppedAnswering ∧
        (shift cable line tdi capture p).1.current = p.current) ∧
      ∀ received, (shift cable line tdi capture p).2 = .ok received → c.went = true := by
  rw [shift]
  have calls := send_calls cable p
    (.shift ((List.replicate tdi.length false).set (tdi.length - 1) true) tdi capture)
  have same : Keeps p (p.send cable (.shift
    ((List.replicate tdi.length false).set (tdi.length - 1) true) tdi capture)).1 ∧
    (p.send cable (.shift ((List.replicate tdi.length false).set (tdi.length - 1) true) tdi
      capture)).1.current = p.current := ⟨⟨rfl, rfl⟩, rfl⟩
  generalize p.send cable (.shift _ _ _) = sent at calls same
  obtain ⟨p₁, _ | received⟩ := sent
  · refine ⟨_, calls, rfl, scan_request _ _, same.1, ?_, nofun⟩
    rintro failure ⟨⟩
    exact ⟨rfl, rfl, same.2⟩
  · exact ⟨_, calls, rfl, scan_request _ _, ⟨same.1.endOf, same.1.sticky⟩, nofun, fun _ _ => rfl⟩

/-! ### Scans -/

/-- The device disagreed: the one failure that comes after the shift. -/
def Problem.isMismatch : Problem → Bool
  | .mismatch .. => true
  | _ => false

theorem parseScanFields_error {arguments : List Token} {fields : ScanFields} {problem : Problem}
    (h : parseScanFields arguments fields = .error problem) : problem.isMismatch = false := by
  fun_induction parseScanFields arguments fields with
  | case1 fields => cases h
  | case2 | case3 | case4 | case9 =>
    cases h
    rfl
  | case5 _ _ _ _ _ _ _ ih | case6 _ _ _ _ _ _ _ _ ih | case7 _ _ _ _ _ _ _ _ _ ih
  | case8 _ _ _ _ _ _ _ _ _ _ ih => exact ih h

theorem parseScan_error {arguments : List Token} {problem : Problem}
    (h : parseScan d arguments = .error problem) : problem.isMismatch = false := by
  cases arguments with
  | nil =>
    cases h
    rfl
  | cons length rest =>
    rw [parseScan] at h
    cases read : number d length with
    | none =>
      simp only [read] at h
      cases h
      rfl
    | some bits =>
      simp only [read] at h
      split at h
      · cases h
        rfl
      · cases fields : parseScanFields rest ⟨none, none, none, none⟩ with
        | error problem' =>
          rw [fields] at h
          cases h
          exact parseScanFields_error fields
        | ok value =>
          rw [fields] at h
          cases h

theorem replaceBits_error {given : Option Manifest.Text} {bitCount : Nat} {old : List Bool}
    {problem : Problem} (h : replaceBits given bitCount old = .error problem) :
    problem.isMismatch = false := by
  cases given with
  | none => cases h
  | some hex =>
    rw [replaceBits] at h
    cases read : hexToBits hex bitCount with
    | error cause =>
      rw [read] at h
      cases h
      rfl
    | ok bits =>
      rw [read] at h
      cases h

theorem setDigit_length {digit index left : Nat} {bits bits' : List Bool}
    (h : setDigit digit index left bits = .ok bits') : bits'.length = bits.length := by
  induction left generalizing digit index bits with
  | zero =>
    cases h
    rfl
  | succ left ih =>
    rw [setDigit] at h
    split at h
    · rw [ih h, List.length_set]
    · split at h
      · cases h
      · exact ih h

theorem setDigits_length {digits : List Manifest.Byte} {nibble : Nat} {bits bits' : List Bool}
    (h : setDigits digits nibble bits = .ok bits') : bits'.length = bits.length := by
  induction digits generalizing nibble bits with
  | nil =>
    cases h
    rfl
  | cons c rest ih =>
    rw [setDigits] at h
    cases digit : hexDigit c with
    | none =>
      rw [digit] at h
      cases h
    | some value =>
      simp only [digit] at h
      cases first : setDigit value (nibble * 4) 4 bits with
      | error problem =>
        rw [first] at h
        cases h
      | ok more =>
        rw [first] at h
        rw [ih h, setDigit_length first]

theorem hexToBits_length {hex : Manifest.Text} {bitCount : Nat} {bits : List Bool}
    (h : hexToBits hex bitCount = .ok bits) : bits.length = bitCount := by
  rw [setDigits_length h, List.length_replicate]

/-- Where the bits of a scan come from. -/
structure Resolved (bitCount : Nat) (fields : ScanFields) (old : StickyScan)
    (tdi : List Bool) : Prop where
  length : tdi.length = bitCount
  given : ∀ hex, fields.tdi = some hex → hexToBits hex bitCount = .ok tdi
  kept : fields.tdi = none → 0 < bitCount → tdi = old.tdi

theorem resolveScan_ok {bitCount : Nat} {fields : ScanFields} {old sticky : StickyScan}
    {expected : List Bool} (h : resolveScan bitCount fields old = .ok (sticky, expected)) :
    Resolved bitCount fields old sticky.tdi := by
  obtain ⟨tdi, tdo, mask, smask⟩ := fields
  have fits : ∀ {given : Option Manifest.Text} {old bits : List Bool},
      old.length = bitCount → replaceBits given bitCount old = .ok bits →
        bits.length = bitCount ∧ (∀ hex, given = some hex → hexToBits hex bitCount = .ok bits) ∧
          (given = none → bits = old) := by
    rintro (_ | hex) old bits long done
    · cases done
      exact ⟨long, nofun, fun _ => rfl⟩
    · rw [replaceBits] at done
      cases read : hexToBits hex bitCount with
      | error problem =>
        rw [read] at done
        cases done
      | ok value =>
        rw [read] at done
        cases done
        refine ⟨hexToBits_length read, ?_, nofun⟩
        rintro hex' ⟨⟩
        exact read
  rw [resolveScan] at h
  split at h
  · cases h
  · rename_i told
    simp only at h
    generalize base : (if bitCount ≠ old.bitCount then StickyScan.mk (List.replicate bitCount false)
      (List.replicate bitCount true) (List.replicate bitCount true) else old) = start at h
    have long : start.tdi.length = bitCount := by
      rw [← base]
      split
      · exact List.length_replicate
      · rename_i same
        exact (not_not.mp same).symm
    cases one : replaceBits tdi bitCount start.tdi with
    | error problem =>
      rw [one] at h
      cases h
    | ok bits =>
      rw [one] at h
      have shifted : sticky.tdi = bits := by
        cases two : replaceBits mask bitCount start.mask with
        | error problem =>
          simp only [two] at h
          cases h
        | ok bits₂ =>
          cases three : replaceBits smask bitCount start.smask with
          | error problem =>
            simp only [two, three] at h
            cases h
          | ok bits₃ =>
            cases four : replaceBits tdo bitCount [] with
            | error problem =>
              simp only [two, three, four] at h
              cases h
            | ok bits₄ =>
              simp only [two, three, four] at h
              cases h
              rfl
      obtain ⟨length, given, kept⟩ := fits long one
      rw [shifted]
      refine ⟨length, given, fun none some => ?_⟩
      rw [kept none, ← base, if_neg fun changed => told ⟨changed, none, some⟩]

theorem resolveScan_error {bitCount : Nat} {fields : ScanFields} {old : StickyScan}
    {problem : Problem} (h : resolveScan bitCount fields old = .error problem) :
    problem.isMismatch = false := by
  rw [resolveScan] at h
  split at h
  · cases h
    rfl
  · simp only at h
    generalize (if bitCount ≠ old.bitCount then StickyScan.mk (List.replicate bitCount false)
      (List.replicate bitCount true) (List.replicate bitCount true) else old) = start at h
    cases one : replaceBits fields.tdi bitCount start.tdi with
    | error problem' =>
      simp only [one] at h
      cases h
      exact replaceBits_error one
    | ok tdi =>
      cases two : replaceBits fields.mask bitCount start.mask with
      | error problem' =>
        simp only [one, two] at h
        cases h
        exact replaceBits_error two
      | ok mask =>
        cases three : replaceBits fields.smask bitCount start.smask with
        | error problem' =>
          simp only [one, two, three] at h
          cases h
          exact replaceBits_error three
        | ok smask =>
          cases four : replaceBits fields.tdo bitCount [] with
          | error problem' =>
            simp only [one, two, three, four] at h
            cases h
            exact replaceBits_error four
          | ok expected =>
            simp only [one, two, three, four] at h
            cases h

/-- The step got as far as its scan. -/
def Through (failure : Option Failure) : Prop := ∀ f, failure = some f → f.problem.isMismatch

theorem shiftState_tap (instruction : Bool) :
    (shiftState instruction).tap = .shift (register instruction) := by
  cases instruction <;> rfl

theorem exitState_tap (instruction : Bool) :
    (exitState instruction).tap = .exit1 (register instruction) := by
  cases instruction <;> rfl

/-- A scan that has bits, once it is known what to shift. -/
structure Scanned (p : Player D) (instruction : Bool) (tdi : List Bool) (step : Step D)
    (made : List CableCall) : Prop where
  does : Does p step made
  resets : .testLogicReset ∈ entered p.current.tap (cyclesOf made) →
    p.endOf instruction = .reset
  shifts : p.current ≠ shiftState (!instruction) → Through step.2 →
    shifts p.current.tap (cyclesOf made) = tdi.map (register instruction, ·)
  ends : step.2 = none → step.1.current = p.endOf instruction
  keeps : Keeps p step.1

variable (cable deviceAttached) in
theorem scan_does (s : Statement) (instruction capture : Bool) (tdi mask expected : List Bool)
    (some : tdi ≠ []) (p : Player D) (stable : isStableState (p.endOf instruction)) : ∃ made,
    Scanned p instruction tdi
      (Step.andThen (moveTo cable s.readerLine (shiftState instruction) p) fun p =>
        match shift cable s.readerLine tdi capture p with
        | (p, .error failure) => (p, Option.some failure)
        | (p, .ok received) =>
          match if capture then compare mask received expected else none with
          | Option.some problem =>
            ({ p with current := exitState instruction }, Option.some ⟨s.line, problem⟩)
          | none => moveTo cable s.readerLine (p.endOf instruction)
            { p with current := exitState instruction }) made := by
  obtain ⟨there, first, clocks, keeps, arrived, cut⟩ :=
    moveTo_does cable s.readerLine (shiftState instruction) p
  have noReset : .testLogicReset ∉ entered p.current.tap (cyclesOf there) := fun entering => by
    have := walked_resets _ _ (clocks ▸ entering)
    cases instruction <;> cases this
  generalize moveTo cable s.readerLine (shiftState instruction) p = moved
    at first keeps arrived cut
  obtain ⟨p₁, _ | failure⟩ := moved
  · have here : p₁.current = shiftState instruction := arrived rfl
    obtain ⟨c, calls, recorded, cycles, kept, stuck, taken⟩ :=
      shift_does cable s.readerLine tdi capture p₁
    have led : after p.current.tap (cyclesOf there) = .shift (register instruction) := by
      rw [clocks, walked_leads, shiftState_tap]
    have scanning : .testLogicReset ∉
        entered p.current.tap (cyclesOf (there ++ [c])) := fun entering => by
      rw [cyclesOf_append, TapController.entered_append, cyclesOf_single, cycles, led] at entering
      rcases List.mem_append.mp entering with early | late
      · exact noReset early
      · exact TapController.entered_scan _ late rfl
    have shifted : p.current ≠ shiftState (!instruction) →
        shifts p.current.tap (cyclesOf (there ++ [c])) =
          tdi.map (register instruction, ·) := fun apart => by
      rw [cyclesOf_append, TapController.shifts_append, cyclesOf_single, cycles, led, clocks,
        walked_to_shift apart, List.nil_append, TapController.shifts_scan]
    have scanned : after p₁.current.tap (cyclesOf [c]) = (exitState instruction).tap := by
      rw [cyclesOf_single, cycles, here, shiftState_tap, exitState_tap,
        TapController.after_scan some]
    simp only [Step.andThen]
    generalize shift cable s.readerLine tdi capture p₁ = result at calls kept stuck taken
    obtain ⟨p₂, failure | received⟩ := result
    · obtain ⟨lost, cause, -⟩ := stuck failure rfl
      have single : Does p₁ (p₂, Option.some failure) [c] := by
        refine ⟨calls, recorded_single (congrArg _ recorded), fun went => ?_, nofun⟩
        exact absurd (went c (List.mem_singleton_self c)) (by rw [lost]; exact Bool.false_ne_true)
      refine ⟨there ++ [c], first.trans single, fun entering => absurd entering scanning,
        fun _ through => ?_, nofun, ⟨kept.endOf.trans keeps.endOf, kept.sticky.trans keeps.sticky⟩⟩
      have := through failure rfl
      rw [cause] at this
      cases this
    · have went : AllWent [c] := fun c' here => by
        rw [List.mem_singleton.mp here]
        exact taken received rfl
      have done (failure : Option Failure) :
          Does p₁ ({ p₂ with current := exitState instruction }, failure) [c] :=
        ⟨calls, recorded_single (congrArg _ recorded), fun _ => scanned.symm, fun _ => went⟩
      simp only
      split
      · refine ⟨there ++ [c], first.trans (done _), fun entering => absurd entering scanning,
          fun apart _ => shifted apart, nofun,
          ⟨kept.endOf.trans keeps.endOf, kept.sticky.trans keeps.sticky⟩⟩
      · obtain ⟨back, last, clocks', keeps', arrived', cut'⟩ := moveTo_does cable s.readerLine
          (p₂.endOf instruction) { p₂ with current := exitState instruction }
        have same : p₂.endOf instruction = p.endOf instruction := by
          rw [kept.endOf, keeps.endOf]
        have led' : after p.current.tap (cyclesOf (there ++ [c])) =
            (exitState instruction).tap := by
          rw [cyclesOf_append, TapController.after_append, led, cyclesOf_single, cycles,
            TapController.after_scan some, exitState_tap]
        refine ⟨there ++ [c] ++ back, (first.trans (done none)).trans last, fun entering => ?_,
          fun apart _ => ?_, fun done => (arrived' done).trans same, ?_⟩
        · rw [cyclesOf_append, TapController.entered_append, led', clocks'] at entering
          rcases List.mem_append.mp entering with early | late
          · exact absurd early scanning
          · exact same ▸ walked_resets _ _ late
        · rw [cyclesOf_append, TapController.shifts_append, shifted apart, led', clocks',
            walked_from_exit instruction (same ▸ stable), List.append_nil]
        · exact ⟨keeps'.endOf.trans (kept.endOf.trans keeps.endOf),
            keeps'.sticky.trans (kept.sticky.trans keeps.sticky)⟩
  · refine ⟨there, first, fun entering => absurd entering noReset, fun _ through => ?_, nofun,
      keeps⟩
    have := through failure rfl
    rw [cut failure rfl] at this
    cases this

theorem setSticky_keeps (p : Player D) (instruction : Bool) (sticky : StickyScan) :
    (p.setSticky instruction sticky).calls = p.calls ∧
      (p.setSticky instruction sticky).current = p.current ∧
      (p.setSticky instruction sticky).endOf = p.endOf := by
  cases instruction <;> exact ⟨rfl, rfl, rfl⟩

theorem setSticky_sticky (p : Player D) (instruction which : Bool) (sticky : StickyScan) :
    (p.setSticky instruction sticky).sticky which =
      if which = instruction then sticky else p.sticky which := by
  cases instruction <;> cases which <;> rfl

variable (d cable deviceAttached) in
/-- A scan the file says completely, or one that is refused before anything moves. -/
theorem doScan_does (s : Statement) (arguments : List Token) (instruction : Bool) (p : Player D)
    (stable : isStableState (p.endOf instruction)) :
    (∃ problem, doScan d cable deviceAttached s arguments instruction p =
      (p, some ⟨s.line, problem⟩) ∧ problem.isMismatch = false ∧
      ∀ bitCount fields resolved, parseScan d arguments = .ok (bitCount, fields) →
        resolveScan bitCount fields (p.sticky instruction) ≠ .ok resolved) ∨
    ∃ bitCount fields sticky expected made, parseScan d arguments = .ok (bitCount, fields) ∧
      resolveScan bitCount fields (p.sticky instruction) = .ok (sticky, expected) ∧
      (bitCount = 0 ∧ made = [] ∧ doScan d cable deviceAttached s arguments instruction p =
        (p.setSticky instruction sticky, none) ∨
      0 < bitCount ∧ Scanned (p.setSticky instruction sticky) instruction sticky.tdi
        (doScan d cable deviceAttached s arguments instruction p) made) := by
  rw [doScan]
  cases parsed : parseScan d arguments with
  | error problem =>
    refine Or.inl ⟨problem, rfl, ?_, nofun⟩
    exact parseScan_error parsed
  | ok read =>
    obtain ⟨bitCount, fields⟩ := read
    cases resolved : resolveScan bitCount fields (p.sticky instruction) with
    | error problem =>
      refine Or.inl ⟨problem, by simp only [resolved], resolveScan_error resolved, ?_⟩
      rintro bitCount' fields' result ⟨⟩ resolved'
      rw [resolved] at resolved'
      cases resolved'
    | ok result =>
      obtain ⟨sticky, expected⟩ := result
      refine Or.inr ⟨bitCount, fields, sticky, expected, ?_⟩
      by_cases empty : bitCount = 0
      · refine ⟨[], rfl, resolved, Or.inl ⟨empty, rfl, ?_⟩⟩
        simp only [resolved, if_pos empty]
      · obtain ⟨-, -, ends⟩ := setSticky_keeps p instruction sticky
        have bits : sticky.tdi ≠ [] := by
          have := (resolveScan_ok resolved).length
          rintro none
          rw [none] at this
          exact empty this.symm
        obtain ⟨made, scanned⟩ := scan_does cable s instruction
          (fields.tdo.isSome && deviceAttached) sticky.tdi sticky.mask expected bits
          (p.setSticky instruction sticky) (by rw [ends]; exact stable)
        refine ⟨made, rfl, resolved, Or.inr ⟨by omega, ?_⟩⟩
        simp only [resolved, if_neg empty]
        exact scanned

/-! ### Waits and state changes -/

/-- What the calls of a step can lead to: the states it was asked to go to. -/
def ResetsOnly (s : State) (made : List CableCall) (asked : List TapState) : Prop :=
  .testLogicReset ∈ entered s (cyclesOf made) → .reset ∈ asked

theorem ResetsOnly.append {s : State} {first second : List CableCall} {asked : List TapState}
    (h : ResetsOnly s first asked) (h' : ResetsOnly (after s (cyclesOf first)) second asked) :
    ResetsOnly s (first ++ second) asked := by
  intro entering
  rw [cyclesOf_append, TapController.entered_append] at entering
  exact (List.mem_append.mp entering).elim h h'

/-- A step that goes where it was asked to and changes no settings. -/
structure Moved (p : Player D) (asked : List TapState) (target : TapState) (step : Step D)
    (made : List CableCall) : Prop where
  does : Does p step made
  resets : ResetsOnly p.current.tap made asked
  ends : step.2 = none → step.1.current = target
  keeps : Keeps p step.1

variable (cable) in
theorem moveTo_moved (line : Nat) {target : TapState} (p : Player D) (asked : List TapState)
    (named : target ∈ asked) : ∃ made,
    Moved p asked target (moveTo cable line target p) made := by
  obtain ⟨made, does, clocks, keeps, arrived, -⟩ := moveTo_does cable line target p
  refine ⟨made, does, fun entering => ?_, arrived, keeps⟩
  rw [← walked_resets _ _ (clocks ▸ entering)]
  exact named

theorem Moved.andThen {p : Player D} {asked : List TapState} {between target : TapState}
    {first : Step D} {made : List CableCall} {next : Player D → Step D}
    (h : Moved p asked between first made)
    (later : ∀ p', p'.current = between → Keeps p p' → ∃ more,
      Moved p' asked target (next p') more) :
    ∃ made', Moved p asked target (first.andThen next) made' := by
  obtain ⟨p₁, _ | failure⟩ := first
  · obtain ⟨more, does, resets, ends, keeps⟩ := later p₁ (h.ends rfl) h.keeps
    have went := h.does.went rfl
    refine ⟨made ++ more, h.does.trans does, h.resets.append ?_, ends,
      ⟨keeps.endOf.trans h.keeps.endOf, keeps.sticky.trans h.keeps.sticky⟩⟩
    exact h.does.current went ▸ resets
  · exact ⟨made, h.does, h.resets, nofun, h.keeps⟩

theorem send_went {p : Player D} {request : Request} {p' : Player D} {received : List Bool}
    (h : p.send cable request = (p', some received)) :
    p' = { p with calls := p.calls ++ [⟨p.current, request, true⟩] } := by
  simp only [Player.send, Prod.mk.injEq] at h
  obtain ⟨rfl, answer⟩ := h
  rw [answer]
  rfl

theorem send_failed {p : Player D} {request : Request} {p' : Player D}
    (h : p.send cable request = (p', none)) :
    p' = { p with calls := p.calls ++ [⟨p.current, request, false⟩] } := by
  simp only [Player.send, Prod.mk.injEq] at h
  obtain ⟨rfl, answer⟩ := h
  rw [answer]
  rfl

variable (cable) in
/-- Clocks with TMS low stay in a state that is held. -/
theorem runClock_moved (line clocks : Nat) (p : Player D) (asked : List TapState)
    (named : p.current ∈ asked) (still : clocks = 0 ∨ Held p.current) : ∃ made,
    Moved p asked p.current (runClock cable line clocks p) made := by
  rw [runClock]
  by_cases none : clocks = 0
  · rw [if_pos none]
    exact ⟨[], .refl _ _, nofun, fun _ => rfl, ⟨rfl, rfl⟩⟩
  · have held := (still.resolve_left none).next
    have rests (went : Bool) : ResetsOnly p.current.tap
        [⟨p.current, .runClock clocks, went⟩] asked := fun entering => by
      rw [cyclesOf_single] at entering
      have stays := TapController.entered_held held _ _ _ entering
      have reset : p.current = .reset := by
        generalize p.current = state at stays
        cases state <;> first | rfl | cases stays
      exact reset ▸ named
    rw [if_neg none]
    refine ⟨[⟨p.current, .runClock clocks, (p.send cable (.runClock clocks)).2.isSome⟩], ?_⟩
    cases sent : p.send cable (.runClock clocks) with
    | mk p' answer =>
      cases answer with
      | none =>
        obtain rfl := send_failed sent
        refine ⟨⟨rfl, recorded_single rfl, fun went => ?_, nofun⟩, rests _, nofun, ⟨rfl, rfl⟩⟩
        exact absurd (went _ (List.mem_singleton_self _)) Bool.false_ne_true
      | some received =>
        obtain rfl := send_went sent
        refine ⟨⟨rfl, recorded_single rfl, fun _ => ?_, fun _ c here => ?_⟩, rests _,
          fun _ => rfl, ⟨rfl, rfl⟩⟩
        · rw [cyclesOf_single]
          exact (TapController.after_held held _ _).symm
        · rw [List.mem_singleton.mp here]
          rfl

variable (cable) in
theorem flushNow_moved (line : Nat) (p : Player D) (asked : List TapState) : ∃ made,
    Moved p asked p.current (flushNow cable line p) made := by
  rw [flushNow]
  refine ⟨[⟨p.current, .flush, (p.send cable .flush).2.isSome⟩], ?_⟩
  cases sent : p.send cable .flush with
  | mk p' answer =>
    cases answer with
    | none =>
      obtain rfl := send_failed sent
      exact ⟨⟨rfl, recorded_single rfl, fun _ => rfl, nofun⟩, nofun, nofun, ⟨rfl, rfl⟩⟩
    | some received =>
      obtain rfl := send_went sent
      refine ⟨⟨rfl, recorded_single rfl, fun _ => rfl, fun _ c here => ?_⟩, nofun, fun _ => rfl,
        ⟨rfl, rfl⟩⟩
      rw [List.mem_singleton.mp here]
      rfl

variable (d cable deviceAttached) in
theorem doRunTest_moved (s : Statement) {arguments : List Token} {wait : Wait D}
    (parsed : parseRunTest d arguments = .ok wait) (p : Player D)
    (still : wait.clocks = 0 ∨ Held wait.runState) : ∃ made,
    Moved p [wait.runState, wait.endState.getD wait.runState]
      (wait.endState.getD wait.runState) (doRunTest d cable deviceAttached s arguments p) made := by
  simp only [doRunTest, parsed]
  obtain ⟨there, arrives⟩ := moveTo_moved cable s.readerLine p
    [wait.runState, wait.endState.getD wait.runState] (List.mem_cons_self ..)
  refine arrives.andThen fun p₁ here _ => ?_
  obtain ⟨clocked, waits⟩ := runClock_moved cable s.readerLine wait.clocks p₁
    [wait.runState, wait.endState.getD wait.runState]
    (here ▸ List.mem_cons_self ..) (here ▸ still)
  refine waits.andThen fun p₂ _ _ => ?_
  have pauses : ∃ made, Moved p₂ [wait.runState, wait.endState.getD wait.runState] p₂.current
      (if deviceAttached && d.waits wait.seconds wait.clocks p₂.frequency then
        flushNow cable s.readerLine p₂ else (p₂, none)) made := by
    split
    · exact flushNow_moved cable s.readerLine p₂ _
    · exact ⟨[], .refl _ _, nofun, fun _ => rfl, ⟨rfl, rfl⟩⟩
  obtain ⟨flushed, rests⟩ := pauses
  refine rests.andThen fun p₃ _ _ => ?_
  exact moveTo_moved cable s.readerLine p₃ _ (List.mem_cons_of_mem _ (List.mem_singleton_self _))

def namedStates (arguments : List Token) : List TapState :=
  arguments.filterMap fun name => stateNamed name.text

variable (cable) in
theorem moveAlong_does (s : Statement) (arguments : List Token) (p : Player D) : ∃ made,
    Does p (moveAlong cable s arguments p) made ∧
      ResetsOnly p.current.tap made (namedStates arguments) ∧
      ((moveAlong cable s arguments p).2 = none → (namedStates arguments).length =
        arguments.length ∧ (moveAlong cable s arguments p).1.current =
          (namedStates arguments).getLastD p.current) ∧
      Keeps p (moveAlong cable s arguments p).1 := by
  induction arguments generalizing p with
  | nil => exact ⟨[], .refl _ _, nofun, fun _ => ⟨rfl, rfl⟩, ⟨rfl, rfl⟩⟩
  | cons name rest ih =>
    rw [moveAlong]
    cases known : stateNamed name.text with
    | none => exact ⟨[], .refl _ _, nofun, nofun, ⟨rfl, rfl⟩⟩
    | some state =>
      have states : namedStates (name :: rest) = state :: namedStates rest :=
        List.filterMap_cons_some known
      obtain ⟨there, does, resets, ends, keeps⟩ := moveTo_moved cable s.readerLine p
        [state] (List.mem_singleton_self state)
      rw [states]
      have within : ResetsOnly p.current.tap there (state :: namedStates rest) :=
        fun entering => List.mem_singleton.mp (resets entering) ▸ List.mem_cons_self
      simp only
      generalize moveTo cable s.readerLine state p = moved at does ends keeps
      obtain ⟨p₁, _ | failure⟩ := moved
      · obtain ⟨along, does', resets', ends', keeps'⟩ := ih p₁
        have went := does.went rfl
        refine ⟨there ++ along, does.trans does', within.append ?_, fun done => ?_,
          ⟨keeps'.endOf.trans keeps.endOf, keeps'.sticky.trans keeps.sticky⟩⟩
        · have here := does.current went
          rw [← here]
          exact fun entering => List.mem_cons_of_mem _ (resets' entering)
        · obtain ⟨all, last⟩ := ends' done
          refine ⟨by rw [List.length_cons, all, List.length_cons], ?_⟩
          rw [Step.andThen, last, List.getLastD_cons, ends rfl]
      · exact ⟨there, does, within, nofun, keeps⟩

end Steps

end Svf
