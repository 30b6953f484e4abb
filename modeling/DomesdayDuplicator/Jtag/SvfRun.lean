import DomesdayDuplicator.Jtag.SvfTracking
import Mathlib.Data.List.GetD

/-!
# A whole play

What the file asks of the port, statement by statement, and that the player does it: the
bits of every scan, the state every statement is to end in, and Test-Logic-Reset only
where it is named.
-/

namespace Svf

open TapController (State Register Cycle after entered shifts)
open Manifest (Byte Text text)

/-! ## Values as numbers -/

/-- The number of the digits, the lowest first. -/
def digitsValue : List Byte → Nat
  | [] => 0
  | c :: rest => 16 * digitsValue rest + (hexDigit c).getD 0

def hexValue (hex : Text) : Nat := digitsValue hex.reverse

theorem hexDigit_lt {c : Byte} {digit : Nat} (h : hexDigit c = some digit) : digit < 16 := by
  rw [hexDigit] at h
  split at h
  · have := Option.some.inj h
    omega
  · split at h
    · have := Option.some.inj h
      omega
    · split at h
      · have := Option.some.inj h
        omega
      · cases h

theorem setDigit_get {digit index left : Nat} {bits bits' : List Bool}
    (h : setDigit digit index left bits = .ok bits') (i : Nat) (inside : i < bits.length) :
    bits'.getD i false =
      if index ≤ i ∧ i < index + left then digit.testBit (i - index) else bits.getD i false := by
  induction left generalizing digit index bits with
  | zero =>
    cases h
    rw [if_neg (by omega)]
  | succ left ih =>
    rw [setDigit] at h
    have shifted : index < i → (digit / 2).testBit (i - (index + 1)) =
        digit.testBit (i - index) := fun above => by
      rw [← Nat.testBit_add_one]
      congr 1
      omega
    have fresh : ∀ {old : List Bool}, i < old.length →
        setDigit (digit / 2) (index + 1) left old = .ok bits' →
        bits'.getD i false = if index + 1 ≤ i ∧ i < index + (left + 1) then
          digit.testBit (i - index) else old.getD i false := by
      intro old inside' h'
      rw [ih h' inside']
      by_cases within : index + 1 ≤ i ∧ i < index + 1 + left
      · rw [if_pos within, if_pos (by omega), shifted within.1]
      · rw [if_neg within, if_neg (by omega)]
    split at h
    · rw [fresh (by rw [List.length_set]; exact inside) h]
      by_cases here : i = index
      · subst here
        rw [if_neg (by omega), if_pos (by omega), Nat.sub_self]
        simp [List.getD_eq_getElem?_getD, List.getElem?_set_self inside]
      · have other : (bits.set index (digit.testBit 0)).getD i false = bits.getD i false := by
          simp [List.getD_eq_getElem?_getD, List.getElem?_set_ne (Ne.symm here)]
        rw [other]
        by_cases within : index + 1 ≤ i ∧ i < index + (left + 1)
        · rw [if_pos within, if_pos (by omega)]
        · rw [if_neg within, if_neg (by omega)]
    · split at h
      · cases h
      · rw [fresh inside h, if_neg (by omega), if_neg (by omega)]

theorem setDigits_get {digits : List Byte} {nibble : Nat} {bits bits' : List Bool}
    (h : setDigits digits nibble bits = .ok bits') (blank : ∀ i, nibble * 4 ≤ i →
      bits.getD i false = false) (i : Nat) (inside : i < bits.length) :
    bits'.getD i false = if nibble * 4 ≤ i then (digitsValue digits).testBit (i - nibble * 4)
      else bits.getD i false := by
  induction digits generalizing nibble bits with
  | nil =>
    cases h
    split
    · rw [blank i ‹_›, digitsValue, Nat.zero_testBit]
    · rfl
  | cons c rest ih =>
    rw [setDigits] at h
    cases digit : hexDigit c with
    | none =>
      rw [digit] at h
      cases h
    | some value =>
      simp only [digit] at h
      cases first : setDigit value (nibble * 4) 4 bits with
      | error problem =>
        rw [first] at h
        cases h
      | ok more =>
        rw [first] at h
        have got := setDigit_get first
        have length := setDigit_length first
        have blank' : ∀ j, (nibble + 1) * 4 ≤ j → more.getD j false = false := by
          intro j above
          by_cases within : j < bits.length
          · rw [got j within, if_neg (by omega)]
            exact blank j (by omega)
          · exact List.getD_eq_default _ _ (by omega)
        rw [ih h blank' (by omega), got i inside]
        have value_lt := hexDigit_lt digit
        have bit := Nat.testBit_two_pow_mul_add (digitsValue rest) (i := 4) value_lt
        have number : digitsValue (c :: rest) = 2 ^ 4 * digitsValue rest + value := by
          rw [digitsValue, digit]
          rfl
        rw [number]
        by_cases later : (nibble + 1) * 4 ≤ i
        · rw [if_pos later, if_pos (by omega), bit, if_neg (by omega)]
          congr 1
          omega
        · rw [if_neg later]
          by_cases within : nibble * 4 ≤ i
          · rw [if_pos (by omega), if_pos within, bit, if_pos (by omega)]
          · rw [if_neg (by omega), if_neg within]

/-- The bits of a value are those of its number. -/
theorem hexToBits_value {hex : Text} {bitCount : Nat} {bits : List Bool}
    (h : hexToBits hex bitCount = .ok bits) :
    bits = (List.range bitCount).map (hexValue hex).testBit := by
  have length := hexToBits_length h
  apply List.ext_getElem
  · rw [length, List.length_map, List.length_range]
  · intro i inside _
    have blank : ∀ i, 0 * 4 ≤ i → (List.replicate bitCount false).getD i false = false := by
      intro i _
      simp only [List.getD_eq_getElem?_getD, List.getElem?_replicate]
      split <;> rfl
    have bit := setDigits_get h blank i (by rw [List.length_replicate]; omega)
    rw [if_pos (by omega), List.getD_eq_getElem _ _ inside] at bit
    rw [bit, List.getElem_map, List.getElem_range]
    simp [hexValue]

example : (hexToBits (text "2C") 7).toOption = some [false, false, true, true, false, true, false] :=
  by decide +kernel

/-! ## What the file asks for -/

section Asked

variable {D : Type} (d : Doubles D)

/-- The state an `ENDDR` or `ENDIR` sets. -/
def endNamed (instruction : Bool) (s : Statement) : Option TapState :=
  if s.command = some (.endState instruction) then (parseEndState s.arguments).toOption else none

/-- The state scans are to end in after these statements. -/
def lastEnd (earlier : List Statement) (instruction : Bool) : TapState :=
  ((earlier.filterMap (endNamed instruction)).getLast?).getD .idle

/-- The value a scan says to shift. -/
def tdiGiven (instruction : Bool) (s : Statement) : Option Text :=
  if s.command = some (.scan instruction) then
    (parseScan d s.arguments).toOption.bind fun read => read.2.tdi
  else none

/-- The last value these statements said to shift. -/
def lastTdi (earlier : List Statement) (instruction : Bool) : Option Text :=
  (earlier.filterMap (tdiGiven d instruction)).getLast?

/-- The states a statement names, or is to end in, in order. -/
def asked (endOf : Bool → TapState) (s : Statement) : List TapState :=
  match s.command with
  | some (.scan instruction) => [endOf instruction]
  | some .runTest =>
    match parseRunTest d s.arguments with
    | .ok wait => [wait.runState, wait.endState.getD wait.runState]
    | .error _ => []
  | some .state => namedStates s.arguments
  | _ => []

/-- A wait has no clocks, or is in a state that TMS low holds; a scan without bits finds the
port where it is to end, and one with bits does not find it shifting the other register. -/
structure Careful (p : Player D) (s : Statement) : Prop where
  held : s.command = some .runTest → ∀ wait, parseRunTest d s.arguments = .ok wait →
    wait.clocks = 0 ∨ Held wait.runState
  parked : ∀ instruction bitCount fields resolved, s.command = some (.scan instruction) →
    parseScan d s.arguments = .ok (bitCount, fields) →
    resolveScan bitCount fields (p.sticky instruction) = .ok resolved →
    if bitCount = 0 then p.current = p.endOf instruction
    else p.current ≠ shiftState (!instruction)

/-- `Careful`, computed. -/
def isCareful (p : Player D) (s : Statement) : Bool :=
  match s.command with
  | some .runTest =>
    match parseRunTest d s.arguments with
    | .ok wait => decide (wait.clocks = 0 ∨ Held wait.runState)
    | .error _ => true
  | some (.scan instruction) =>
    match parseScan d s.arguments with
    | .ok (bitCount, fields) =>
      match resolveScan bitCount fields (p.sticky instruction) with
      | .ok _ =>
        if bitCount = 0 then p.current = p.endOf instruction
        else p.current ≠ shiftState (!instruction)
      | .error _ => true
    | .error _ => true
  | _ => true

end Asked

section Run

variable {D : Type} {d : Doubles D} {cable : Cable} {deviceAttached : Bool}

theorem careful_of_check {turns : List (Turn D)}
    (checked : turns.all fun t => isCareful d t.before t.statement) :
    ∀ t ∈ turns, Careful d t.before t.statement := by
  intro t here
  have check := List.all_eq_true.mp checked t here
  rw [isCareful] at check
  constructor
  · rintro command wait parsed
    simp only [command, parsed] at check
    exact of_decide_eq_true check
  · rintro instruction bitCount fields resolved command parsed done
    simp only [command, parsed, done] at check
    split at check
    · rw [if_pos ‹_›]
      exact of_decide_eq_true check
    · rw [if_neg ‹_›]
      exact of_decide_eq_true check

theorem lastEnd_snoc (earlier : List Statement) (s : Statement) (instruction : Bool) :
    lastEnd (earlier ++ [s]) instruction =
      (endNamed instruction s).getD (lastEnd earlier instruction) := by
  rw [lastEnd, List.filterMap_append]
  cases named : endNamed instruction s with
  | none => rw [List.filterMap_cons_none named, List.filterMap_nil, List.append_nil, lastEnd,
      Option.getD_none]
  | some state => rw [List.filterMap_cons_some named, List.filterMap_nil, List.getLast?_concat,
      Option.getD_some, Option.getD_some]

theorem lastTdi_snoc (earlier : List Statement) (s : Statement) (instruction : Bool) :
    lastTdi d (earlier ++ [s]) instruction =
      (tdiGiven d instruction s).or (lastTdi d earlier instruction) := by
  rw [lastTdi, List.filterMap_append]
  cases given : tdiGiven d instruction s with
  | none => rw [List.filterMap_cons_none given, List.filterMap_nil, List.append_nil, lastTdi,
      Option.none_or]
  | some hex => rw [List.filterMap_cons_some given, List.filterMap_nil, List.getLast?_concat,
      Option.some_or]

/-- The player's settings are what the statements executed so far have set. -/
structure Settled (d : Doubles D) (earlier : List Statement) (p : Player D) : Prop where
  ends : ∀ instruction, p.endOf instruction = lastEnd earlier instruction
  stable : ∀ instruction, isStableState (p.endOf instruction)
  values : ∀ instruction, (p.sticky instruction).tdi = [] ∨ ∃ hex,
    lastTdi d earlier instruction = some hex ∧
      hexToBits hex (p.sticky instruction).tdi.length = .ok (p.sticky instruction).tdi

theorem Settled.start : Settled d [] (Player.start d) where
  ends instruction := by cases instruction <;> rfl
  stable instruction := by cases instruction <;> rfl
  values instruction := Or.inl (by cases instruction <;> rfl)

theorem Settled.keep {earlier : List Statement} {p p' : Player D} (settled : Settled d earlier p)
    (keeps : Keeps p p') : Settled d earlier p' where
  ends := keeps.endOf ▸ settled.ends
  stable := keeps.endOf ▸ settled.stable
  values := keeps.sticky ▸ settled.values

/-- A statement that sets nothing. -/
theorem Settled.pass {earlier : List Statement} {p : Player D} (settled : Settled d earlier p)
    {s : Statement} (noEnd : ∀ i, s.command ≠ some (.endState i))
    (noScan : ∀ i, s.command ≠ some (.scan i)) : Settled d (earlier ++ [s]) p where
  ends instruction := by
    rw [lastEnd_snoc, endNamed, if_neg (noEnd _), Option.getD_none, settled.ends]
  stable := settled.stable
  values instruction := by
    rw [lastTdi_snoc, tdiGiven, if_neg (noScan _), Option.none_or]
    exact settled.values instruction

/-- A scan remembers what it shifted. -/
theorem Settled.scan {earlier : List Statement} {p : Player D} (settled : Settled d earlier p)
    {s : Statement} {instruction : Bool} (scans : s.command = some (.scan instruction))
    {bitCount : Nat} {fields : ScanFields} (parsed : parseScan d s.arguments = .ok (bitCount, fields))
    {sticky : StickyScan} {expected : List Bool}
    (resolved : resolveScan bitCount fields (p.sticky instruction) = .ok (sticky, expected)) :
    Settled d (earlier ++ [s]) (p.setSticky instruction sticky) := by
  obtain ⟨-, -, ends⟩ := setSticky_keeps p instruction sticky
  obtain ⟨length, given, kept⟩ := resolveScan_ok resolved
  refine ⟨fun which => ?_, fun which => ends ▸ settled.stable which, fun which => ?_⟩
  · rw [ends, settled.ends, lastEnd_snoc, endNamed, scans, if_neg (by simp), Option.getD_none]
  · rw [setSticky_sticky, lastTdi_snoc, tdiGiven, scans]
    by_cases here : which = instruction
    · rw [if_pos here, if_pos (by rw [here]), parsed, length]
      simp only [Except.toOption, Option.bind_some]
      cases said : fields.tdi with
      | some hex => exact Or.inr ⟨hex, by rw [Option.some_or], given hex said⟩
      | none =>
        rw [Option.none_or]
        by_cases empty : bitCount = 0
        · exact Or.inl (List.eq_nil_of_length_eq_zero (length.trans empty))
        · have same := kept said (by omega)
          rcases settled.values instruction with blank | ⟨hex, last, bits⟩
          · rw [same, blank] at length
            exact absurd length.symm empty
          · refine Or.inr ⟨hex, here ▸ last, ?_⟩
            rwa [← same, length] at bits
    · have other : some (Command.scan instruction) ≠ some (.scan which) := by
        rintro ⟨⟩
        exact here rfl
      rw [if_neg here, if_neg other, Option.none_or]
      exact settled.values which

theorem parseEndState_stable {arguments : List Token} {state : TapState}
    (h : parseEndState arguments = .ok state) : isStableState state := by
  unfold parseEndState at h
  split at h
  · split at h
    · cases h
    · split at h
      · cases h
        assumption
      · cases h
  · cases h

/-- An end state holds from the next statement on. -/
theorem Settled.endState {earlier : List Statement} {p : Player D} (settled : Settled d earlier p)
    {s : Statement} {instruction : Bool} (sets : s.command = some (.endState instruction))
    {state : TapState} (parsed : parseEndState s.arguments = .ok state) :
    Settled d (earlier ++ [s])
      (if instruction then { p with endIr := state } else { p with endDr := state }) := by
  have ends : ∀ which, (if instruction then { p with endIr := state }
      else { p with endDr := state } : Player D).endOf which =
        if which = instruction then state else p.endOf which := by
    cases instruction <;> rintro (_ | _) <;> rfl
  have same : (if instruction then { p with endIr := state } else { p with endDr := state } :
      Player D).sticky = p.sticky := by
    cases instruction <;> rfl
  refine ⟨fun which => ?_, fun which => ?_, fun which => ?_⟩
  · rw [ends, lastEnd_snoc, endNamed, sets]
    by_cases here : which = instruction
    · rw [if_pos here, if_pos (by rw [here]), parsed]
      rfl
    · have other : some (Command.endState instruction) ≠ some (.endState which) := by
        rintro ⟨⟩
        exact here rfl
      rw [if_neg here, if_neg other, Option.getD_none, settled.ends]
  · rw [ends]
    split
    · exact parseEndState_stable parsed
    · exact settled.stable which
  · rw [same, lastTdi_snoc, tdiGiven, sets, if_neg (by simp), Option.none_or]
    exact settled.values which

/-! ## One statement -/

/-- The bits a scan is to shift. -/
def requested (d : Doubles D) (history : List Statement) (instruction : Bool) (bitCount : Nat) :
    List (Register × Bool) :=
  (List.range bitCount).map fun i =>
    (register instruction, (hexValue ((lastTdi d history instruction).getD [])).testBit i)

/-- Scans, waits and state changes. -/
def Command.moves : Command → Bool
  | .scan _ | .runTest | .state => true
  | _ => false

def Statement.moves (s : Statement) : Prop := s.command.any Command.moves

theorem not_moves {s : Statement} {command : Command} (known : s.command = some command)
    (still : command.moves = false) : ¬ s.moves := by
  rw [Statement.moves, known, Option.any_some, still]
  exact Bool.false_ne_true

/-- What the calls of one statement are to the port. -/
structure Performs (d : Doubles D) (earlier : List Statement) (s : Statement) (p : Player D)
    (step : Step D) (made : List CableCall) : Prop where
  does : Does p step made
  resets : ResetsOnly p.current.tap made (asked d (lastEnd earlier) s)
  scans : ∀ instruction bitCount fields, s.command = some (.scan instruction) →
    parseScan d s.arguments = .ok (bitCount, fields) → Through step.2 →
    shifts p.current.tap (cyclesOf made) = requested d (earlier ++ [s]) instruction bitCount
  ends : step.2 = none → s.moves →
    (asked d (lastEnd earlier) s).getLast? = some step.1.current
  headers : step.2 = none → s.command = some .headerOrTrailer → ∃ length rest bits,
    s.arguments = length :: rest ∧ number d length = some bits ∧ d.isZero bits
  settled : step.2 = none → Settled d (earlier ++ [s]) step.1

variable {earlier : List Statement} {s : Statement} {p : Player D}

/-- A statement that makes no calls. -/
theorem performs_still (failure : Option Failure) (still : ¬ s.moves)
    (headers : failure = none → s.command = some .headerOrTrailer → ∃ length rest bits,
      s.arguments = length :: rest ∧ number d length = some bits ∧ d.isZero bits)
    {p' : Player D} (calls : p'.calls = p.calls) (current : p'.current = p.current)
    (settled : failure = none → Settled d (earlier ++ [s]) p') :
    Performs d earlier s p (p', failure) [] where
  does := ⟨by rw [calls, List.append_nil], .nil, fun _ => congrArg _ current, fun _ => nofun⟩
  resets := nofun
  scans instruction _ _ scan := absurd (by rw [Statement.moves, scan]; rfl) still
  ends _ moves := absurd moves still
  headers := headers
  settled := settled

variable (d cable deviceAttached) in
theorem scan_performs (settled : Settled d earlier p) (careful : Careful d p s)
    {instruction : Bool} (scans : s.command = some (.scan instruction)) : ∃ made,
    Performs d earlier s p
      (doScan d cable deviceAttached s s.arguments instruction p) made := by
  have noHeader : s.command ≠ some .headerOrTrailer := by rw [scans]; exact nofun
  have asks : asked d (lastEnd earlier) s = [p.endOf instruction] := by
    rw [asked, scans, settled.ends]
  have same : ∀ {which}, s.command = some (.scan which) → which = instruction := by
    intro which other
    rw [scans] at other
    cases other
    rfl
  rcases doScan_does d cable deviceAttached s s.arguments instruction p
    (settled.stable instruction) with ⟨problem, refused, before, unresolved⟩ |
      ⟨bitCount, fields, sticky, expected, made, parsed, resolved, done⟩
  · rw [refused]
    refine ⟨[], .refl _ _, nofun, ?_, nofun, nofun, nofun⟩
    intro _ _ _ _ _ through
    have := through _ rfl
    rw [before] at this
    cases this
  · obtain ⟨length, given, kept⟩ := resolveScan_ok resolved
    have remembers := settled.scan scans parsed resolved
    have parked := careful.parked _ _ _ _ scans parsed resolved
    obtain ⟨calls, current, ends⟩ := setSticky_keeps p instruction sticky
    -- What is shifted is the value the file gave last.
    have bits : sticky.tdi.map (register instruction, ·) =
        requested d (earlier ++ [s]) instruction bitCount := by
      have value := remembers.values instruction
      rw [setSticky_sticky, if_pos rfl, length] at value
      rcases value with blank | ⟨hex, last, read⟩
      · rw [blank] at length ⊢
        rw [requested, ← length]
        rfl
      · rw [requested, last, hexToBits_value read, List.map_map]
        rfl
    refine ⟨made, ?_⟩
    rcases done with ⟨empty, rfl, result⟩ | ⟨some, scanned⟩
    · rw [if_pos empty] at parked
      rw [result]
      refine ⟨⟨by rw [calls, List.append_nil], .nil, fun _ => congrArg _ current, fun _ => nofun⟩,
        nofun, ?_, fun _ _ => ?_, fun _ header => absurd header noHeader, fun _ => remembers⟩
      · intro which bitCount' fields' scans' parsed' _
        obtain rfl := same scans'
        rw [parsed] at parsed'
        cases parsed'
        rw [empty]
        rfl
      · rw [asks, List.getLast?_singleton, current, parked]
    · rw [if_neg (by omega)] at parked
      generalize doScan d cable deviceAttached s s.arguments instruction p = step at scanned
      obtain ⟨does, resets, shifted, arrives, keeps⟩ := scanned
      rw [current] at resets shifted
      rw [ends] at resets arrives
      refine ⟨does.of_start calls.symm current.symm, fun entering => ?_, ?_, fun done _ => ?_,
        fun _ header => absurd header noHeader, fun _ => remembers.keep keeps⟩
      · rw [asks, ← resets entering]
        exact List.mem_singleton_self _
      · intro which bitCount' fields' scans' parsed' through
        obtain rfl := same scans'
        rw [parsed] at parsed'
        cases parsed'
        rw [shifted parked through, bits]
      · rw [asks, List.getLast?_singleton, arrives done]

/-- Each statement does to the port what the file asks of it. -/
theorem execute_performs (settled : Settled d earlier p) (careful : Careful d p s) : ∃ made,
    Performs d earlier s p (execute d cable deviceAttached s p) made := by
  rw [execute]
  cases command : s.command with
  | none =>
    refine ⟨[], performs_still (some _) ?_ (by rintro ⟨⟩) rfl rfl (by rintro ⟨⟩)⟩
    rw [Statement.moves, command]
    rintro ⟨⟩
  | some known =>
    have never : ∀ {other : Command}, known ≠ other → s.command ≠ some other := by
      intro other apart same
      rw [command] at same
      exact apart (Option.some.inj same)
    cases known with
    | scan instruction => exact scan_performs d cable deviceAttached settled careful command
    | runTest =>
      have passes := settled.pass (fun _ => never (by rintro ⟨⟩)) fun _ => never (by rintro ⟨⟩)
      simp only
      cases parsed : parseRunTest d s.arguments with
      | error problem =>
        have refused : doRunTest d cable deviceAttached s s.arguments p =
            (p, some ⟨s.line, problem⟩) := by simp only [doRunTest, parsed]
        rw [refused]
        refine ⟨[], .refl _ _, ?_, fun _ _ _ scan => absurd scan (never ?_), ?_, ?_, ?_⟩
        all_goals rintro ⟨⟩
      | ok wait =>
        obtain ⟨made, does, resets, ends, keeps⟩ := doRunTest_moved d cable deviceAttached s
          parsed p (careful.held command wait parsed)
        have asks : asked d (lastEnd earlier) s =
            [wait.runState, wait.endState.getD wait.runState] := by
          rw [asked, command]
          simp only [parsed]
        refine ⟨made, does, asks ▸ resets, fun _ _ _ scan => absurd scan (never (by rintro ⟨⟩)),
          fun done _ => ?_, fun _ header => absurd header (never (by rintro ⟨⟩)), fun _ =>
            passes.keep keeps⟩
        rw [asks, ends done]
        rfl
    | state =>
      have asks : asked d (lastEnd earlier) s = namedStates s.arguments := by rw [asked, command]
      have passes := settled.pass (fun _ => never (by rintro ⟨⟩)) fun _ => never (by rintro ⟨⟩)
      simp only [doState]
      split
      · refine ⟨[], .refl _ _, ?_, fun _ _ _ scan => absurd scan (never ?_), ?_, ?_, ?_⟩
        all_goals rintro ⟨⟩
      · rename_i some
        obtain ⟨made, does, resets, ends, keeps⟩ := moveAlong_does cable s s.arguments p
        refine ⟨made, does, asks ▸ resets, fun _ _ _ scan => absurd scan (never (by rintro ⟨⟩)),
          fun done _ => ?_, fun _ header => absurd header (never (by rintro ⟨⟩)), fun _ =>
            passes.keep keeps⟩
        obtain ⟨all, last⟩ := ends done
        have states : namedStates s.arguments ≠ [] := by
          intro none
          rw [none] at all
          exact some (List.eq_nil_of_length_eq_zero all.symm)
        rw [asks, last, List.getLast?_eq_some_getLast states, List.getLastD_eq_getLast?,
          List.getLast?_eq_some_getLast states, Option.getD_some]
    | endState instruction =>
      have still : ¬ s.moves := not_moves command rfl
      simp only [doEndState]
      cases parsed : parseEndState s.arguments with
      | error problem =>
        exact ⟨[], performs_still (some _) still (by rintro ⟨⟩) rfl rfl (by rintro ⟨⟩)⟩
      | ok state =>
        refine ⟨[], performs_still _ still (fun _ header => absurd header (never ?_)) ?_ ?_
          fun _ => settled.endState command parsed⟩
        · rintro ⟨⟩
        · cases instruction <;> rfl
        · cases instruction <;> rfl
    | headerOrTrailer =>
      have still : ¬ s.moves := not_moves command rfl
      refine ⟨[], performs_still _ still (fun accepted _ => ?_) rfl rfl fun _ =>
        settled.pass (fun _ => never (by rintro ⟨⟩)) fun _ => never (by rintro ⟨⟩)⟩
      rw [Option.map_eq_none_iff] at accepted
      cases given : s.arguments with
      | nil =>
        rw [given] at accepted
        cases accepted
      | cons length rest =>
        rw [given, doHeaderOrTrailer] at accepted
        cases read : number d length with
        | none =>
          rw [read] at accepted
          cases accepted
        | some bits =>
          simp only [read] at accepted
          split at accepted
          · exact ⟨_, _, _, rfl, read, ‹_›⟩
          · cases accepted
    | frequency =>
      have still : ¬ s.moves := not_moves command rfl
      have passes := settled.pass (fun _ => never (by rintro ⟨⟩)) fun _ => never (by rintro ⟨⟩)
      simp only [doFrequency]
      split
      · exact ⟨[], performs_still _ still (fun _ header => absurd header (never (by rintro ⟨⟩)))
          rfl rfl fun _ => passes.keep ⟨rfl, rfl⟩⟩
      · split
        · exact ⟨[], performs_still (some _) still (by rintro ⟨⟩) rfl rfl (by rintro ⟨⟩)⟩
        · exact ⟨[], performs_still _ still (fun _ header => absurd header (never (by rintro ⟨⟩)))
            rfl rfl fun _ => passes.keep ⟨rfl, rfl⟩⟩
    | trst =>
      have still : ¬ s.moves := not_moves command rfl
      exact ⟨[], performs_still _ still (fun _ header => absurd header (never (by rintro ⟨⟩)))
        rfl rfl fun _ => settled.pass (fun _ => never (by rintro ⟨⟩)) fun _ => never (by rintro ⟨⟩)⟩

/-! ## A play -/

/-- The clocks a turn asked for. -/
def Turn.made (t : Turn D) : List CableCall := t.after.calls.drop t.before.calls.length

/-- A turn of a play, after the statements in front of it. -/
structure TurnOf (d : Doubles D) (earlier : List Statement) (t : Turn D) : Prop where
  performs : Performs d earlier t.statement t.before (t.after, t.failure) t.made
  calls : t.after.calls = t.before.calls ++ t.made

/-- What the rest of a play makes of the port. -/
structure PlaysOn (d : Doubles D) (file : SvfFile) (statements earlier : List Statement)
    (p : Player D) (played : Played D) : Prop where
  does : ∃ made, Does p (played.player, some ⟨0, .stopped⟩) made
  inOrder : played.turns.map Turn.statement = statements.take played.turns.length
  won : played.ending = .succeeded → file.problem = none ∧
    played.turns.length = statements.length ∧ ∀ t ∈ played.turns, t.failure = none
  turns : ∀ k t, played.turns[k]? = some t → TurnOf d (earlier ++ statements.take k) t ∧
    ∃ made, Does p (t.before, none) made

theorem no_turns {P : Nat → Turn D → Prop} (k : Nat) (t : Turn D)
    (at' : ([] : List (Turn D))[k]? = some t) : P k t := by
  rw [List.getElem?_nil] at at'
  cases at'

theorem Does.over {p : Player D} {step : Step D} {made : List CableCall} (h : Does p step made)
    (failure : Failure) : Does p (step.1, some failure) made :=
  ⟨h.calls, h.recorded, h.current, nofun⟩

variable (cable) in
theorem flushed_does (p : Player D) (failure : Failure) :
    ∃ made, Does p (p.flushed cable, some failure) made :=
  ⟨[⟨p.current, .flush, (p.send cable .flush).2.isSome⟩], rfl, recorded_single rfl, fun _ => rfl,
    nofun⟩

variable (d cable deviceAttached) in
theorem playAll_tracks (file : SvfFile) (stop : Nat → Bool) (statements earlier : List Statement)
    (p : Player D) (settled : Settled d earlier p)
    (careful : ∀ t ∈ (playAll d cable deviceAttached file stop statements p).turns,
      Careful d t.before t.statement) :
    PlaysOn d file statements earlier p
      (playAll d cable deviceAttached file stop statements p) := by
  induction statements generalizing earlier p with
  | nil =>
    have flushes := flushNow_moved cable file.lastLine p []
    rw [playAll]
    cases clean : file.problem with
    | some problem => exact ⟨⟨[], .refl _ _⟩, rfl, Ending.noConfusion, no_turns⟩
    | none =>
      simp only
      generalize flushNow cable file.lastLine p = flushed at flushes
      obtain ⟨made, does, -⟩ := flushes
      obtain ⟨p', _ | failure⟩ := flushed
      · exact ⟨⟨made, does.over _⟩, rfl, fun _ => ⟨clean, rfl, fun _ h => absurd h List.not_mem_nil⟩, no_turns⟩
      · exact ⟨⟨made, does.over _⟩, rfl, Ending.noConfusion, no_turns⟩
  | cons s rest ih =>
    rw [playAll] at careful ⊢
    split at careful
    · rw [if_pos ‹_›]
      exact ⟨flushed_does cable p _, rfl, Ending.noConfusion, no_turns⟩
    · rw [if_neg ‹_›]
      have here : Careful d p s → ∃ made,
          Performs d earlier s p (execute d cable deviceAttached s p) made :=
        fun careful => execute_performs settled careful
      generalize execute d cable deviceAttached s p = step at here careful
      obtain ⟨p₁, _ | failure⟩ := step
      · have one := careful ⟨p, s, p₁, none⟩ (List.mem_cons_self ..)
        obtain ⟨made, performs⟩ := here one
        have settled' : Settled d (earlier ++ [s]) { p₁ with statements := p₁.statements + 1 } :=
          (performs.settled rfl).keep ⟨rfl, rfl⟩
        have counted : Does p ({ p₁ with statements := p₁.statements + 1 }, none) made :=
          ⟨performs.does.calls, performs.does.recorded, performs.does.current, performs.does.went⟩
        have rest' := ih (earlier ++ [s]) _ settled'
          fun t later => careful t (List.mem_cons_of_mem _ later)
        simp only
        generalize playAll d cable deviceAttached file stop rest
          { p₁ with statements := p₁.statements + 1 } = more at rest'
        obtain ⟨⟨later, does⟩, inOrder, won, turns⟩ := rest'
        refine ⟨⟨_, counted.trans does⟩, ?_, fun success => ?_, fun k t at' => ?_⟩
        · rw [List.map_cons, inOrder, List.length_cons, List.take_succ_cons]
        · obtain ⟨clean, count, all⟩ := won success
          refine ⟨clean, by rw [List.length_cons, count, List.length_cons], ?_⟩
          rintro t (_ | ⟨_, later⟩)
          · rfl
          · exact all t later
        · cases k with
          | zero =>
            obtain rfl := Option.some.inj at'
            have own : (⟨p, s, p₁, none⟩ : Turn D).made = made := by
              rw [Turn.made, performs.does.calls, List.drop_left]
            rw [List.take_zero, List.append_nil]
            exact ⟨⟨own.symm ▸ performs, own.symm ▸ performs.does.calls⟩, [], .refl _ _⟩
          | succ k =>
            obtain ⟨turn, before, reached⟩ := turns k t at'
            rw [List.append_assoc, List.singleton_append] at turn
            exact ⟨turn, _, counted.trans reached⟩
      · have one := careful ⟨p, s, p₁, some failure⟩ (List.mem_singleton_self _)
        obtain ⟨made, performs⟩ := here one
        obtain ⟨last, flushed⟩ := flushed_does cable p₁ failure
        refine ⟨⟨made ++ last, ?_, ?_, ?_, by rintro ⟨⟩⟩, rfl, by rintro ⟨⟩, fun k t at' => ?_⟩
        · rw [flushed.calls, performs.does.calls, List.append_assoc]
        · exact performs.does.recorded.append fun went =>
            performs.does.current went ▸ flushed.recorded
        · intro went
          rw [flushed.current went.right, cyclesOf_append, TapController.after_append,
            ← performs.does.current went.left]
        · cases k with
          | zero =>
            obtain rfl := Option.some.inj at'
            have own : (⟨p, s, p₁, some failure⟩ : Turn D).made = made := by
              rw [Turn.made, performs.does.calls, List.drop_left]
            rw [List.take_zero, List.append_nil]
            exact ⟨⟨own.symm ▸ performs, own.symm ▸ performs.does.calls⟩, [], .refl _ _⟩
          | succ k => cases at'

/-- A turn of the play on a port that was in `origin` when the play began. -/
structure Conforms (d : Doubles D) (origin : State) (earlier : List Statement) (t : Turn D) :
    Prop where
  starts : t.before.current.tap = after origin (cyclesOf t.before.calls)
  resets : .testLogicReset ∈ entered (after origin (cyclesOf t.before.calls))
    (cyclesOf t.made) → .reset ∈ asked d (lastEnd earlier) t.statement
  scans : ∀ instruction bitCount fields, t.statement.command = some (.scan instruction) →
    parseScan d t.statement.arguments = .ok (bitCount, fields) → Through t.failure →
    shifts (after origin (cyclesOf t.before.calls)) (cyclesOf t.made) =
      requested d (earlier ++ [t.statement]) instruction bitCount
  ends : t.failure = none → t.statement.moves → ∃ target,
    (asked d (lastEnd earlier) t.statement).getLast? = some target ∧
      after origin (cyclesOf t.after.calls) = target.tap
  headers : t.failure = none → t.statement.command = some .headerOrTrailer →
    ∃ length rest bits, t.statement.arguments = length :: rest ∧ number d length = some bits ∧
      d.isZero bits

theorem reset_cycles (origin : State) (went : Bool) :
    after origin (cyclesOf [⟨.reset, resetRequest, went⟩]) = .testLogicReset := by
  rw [cyclesOf_single]
  exact TapController.five_high origin false

/-- A play whose turns are all careful has the port where it has it on record, at every call,
and does to it what the file asks. -/
theorem svf_tracks (d : Doubles D) (cable : Cable) (deviceAttached : Bool) (stop : Nat → Bool)
    (contents : Text) (origin : State)
    (careful : ∀ t ∈ (play d cable deviceAttached stop contents).turns,
      Careful d t.before t.statement) :
    let file := readText contents
    let played := play d cable deviceAttached stop contents
    (∀ early c late, played.player.calls = early ++ c :: late → early ≠ [] → AllWent early →
      c.before.tap = after origin (cyclesOf early)) ∧
    (AllWent played.player.calls →
      played.player.current.tap = after origin (cyclesOf played.player.calls)) ∧
    played.turns.map Turn.statement = file.statements.take played.turns.length ∧
    (played.ending = .succeeded → file.problem = none ∧
      played.turns.length = file.statements.length ∧ ∀ t ∈ played.turns, t.failure = none) ∧
    ∀ k t, played.turns[k]? = some t → Conforms d origin (file.statements.take k) t := by
  intro file played
  -- Either the first five clocks do not get through, or all that follows starts in reset.
  have begins : (∃ p, p.calls = [⟨.reset, resetRequest, false⟩] ∧
      played = ⟨p, [], .failed ⟨1, .stoppedAnswering⟩ []⟩) ∨
      ∃ p, p.calls = [⟨.reset, resetRequest, true⟩] ∧ p.current = .reset ∧ Settled d [] p ∧
        played = playAll d cable deviceAttached file stop file.statements p := by
    simp only [played, play]
    cases sent : (Player.start d).send cable resetRequest with
    | mk p answer =>
      cases answer with
      | none =>
        obtain rfl := send_failed sent
        exact Or.inl ⟨_, rfl, rfl⟩
      | some received =>
        obtain rfl := send_went sent
        exact Or.inr ⟨{ Player.start d with calls := [⟨.reset, resetRequest, true⟩] }, rfl, rfl,
          Settled.start.keep ⟨rfl, rfl⟩, rfl⟩
  rcases begins with ⟨p, calls, same⟩ | ⟨p, calls, here, settled, same⟩
  · rw [same]
    refine ⟨?_, ?_, rfl, Ending.noConfusion, no_turns⟩
    · intro early c late whole some _
      simp only [calls] at whole
      have := congrArg List.length whole
      have := List.length_pos_iff.mpr some
      simp at *
      omega
    · intro went
      simp only [calls] at went
      exact absurd (went _ (List.mem_singleton_self _)) Bool.false_ne_true
  · have tracks := playAll_tracks d cable deviceAttached file stop file.statements [] p settled
      fun t turn => careful t (by rw [← same] at turn; exact turn)
    rw [← same] at tracks
    obtain ⟨⟨made, does⟩, inOrder, won, turns⟩ := tracks
    have reset := reset_cycles origin true
    have found : p.current.tap = after origin (cyclesOf p.calls) := by rw [calls, reset, here]; rfl
    refine ⟨?_, ?_, inOrder, won, fun k t at' => ?_⟩
    · intro early c late whole some went
      rw [does.calls, calls] at whole
      cases early with
      | nil => exact absurd rfl some
      | cons first early =>
        obtain ⟨rfl, rest⟩ := List.cons.inj whole
        have recorded := does.recorded early c late rest
          fun c' later => went c' (List.mem_cons_of_mem _ later)
        rw [recorded, here, ← List.singleton_append, cyclesOf_append, TapController.after_append,
          reset]
        rfl
    · intro went
      rw [does.calls, calls] at went ⊢
      rw [show played.player.current.tap = _ from does.current went.right, here, cyclesOf_append,
        TapController.after_append, reset]
      rfl
    · obtain ⟨turn, before, reached⟩ := turns k t at'
      rw [List.nil_append] at turn
      obtain ⟨does', resets, scans, ends, headers, -⟩ := turn.performs
      have starts : t.before.current.tap = after origin (cyclesOf t.before.calls) := by
        rw [show t.before.current.tap = _ from reached.current (reached.went rfl), found,
          reached.calls, cyclesOf_append, TapController.after_append]
      refine ⟨starts, fun entering => resets (starts ▸ entering), ?_, fun done moves => ?_,
        headers⟩
      · intro instruction bitCount fields command parsed through
        rw [← starts]
        exact scans instruction bitCount fields command parsed through
      · refine ⟨t.after.current, ends done moves, ?_⟩
        rw [turn.calls, cyclesOf_append, TapController.after_append, ← starts]
        exact (does'.current (does'.went done)).symm

end Run

/-! ## Two files -/

/-- Numbers without a point, which are all these files use. -/
def decimals : Doubles Nat where
  strtod digits := digits.foldlM (fun value c =>
    if 0x30 ≤ c.toNat ∧ c.toNat ≤ 0x39 then some (value * 10 + (c.toNat - 0x30)) else none) 0
  negative _ := false
  isZero n := n = 0
  truncate n := n
  zero := 0
  waits seconds _ _ := 0 < seconds

/-- A cable that takes everything; TDO is low. -/
def willing : Cable := fun _ => some []

def scansAndWait : Text := text "SIR 4 TDI (6); RUNTEST 9 TCK; SDR 2 TDI (1);"

theorem svf_tracks_scans :
    let played := play decimals willing true (fun _ => false) scansAndWait
    played.ending = .succeeded ∧ (AllWent played.player.calls →
      played.player.current.tap = after (.pause .data) (cyclesOf played.player.calls)) :=
  ⟨by decide +kernel, (svf_tracks decimals willing true (fun _ => false) scansAndWait
    (.pause .data) (careful_of_check (by decide +kernel))).2.1⟩

def waitInReset : Text := text "RUNTEST RESET 9 TCK;"

/-- A wait in reset with clocks: the port is in Run-Test/Idle, the player and the file have it
in reset. -/
theorem wait_leaves_reset :
    let played := play decimals willing true (fun _ => false) waitInReset
    played.ending = .succeeded ∧ AllWent played.player.calls ∧
      played.player.current = .reset ∧
      after .testLogicReset (cyclesOf played.player.calls) = .runTestIdle ∧
      played.turns.map (fun t => (asked decimals (lastEnd []) t.statement).getLast?) =
        [some .reset] := by
  refine ⟨by decide +kernel, ?_, by decide +kernel, by decide +kernel, by decide +kernel⟩
  have all : (play decimals willing true (fun _ => false) waitInReset).player.calls.all
      CableCall.went = true := by decide +kernel
  exact fun c here => List.all_eq_true.mp all c here

end Svf
