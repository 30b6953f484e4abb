import DomesdayDuplicator.Jtag.SvfReplay
import DomesdayDuplicator.Jtag.SvfScans

/-!
# The scans of a play

Every scan a player executes, after the statements in front of it: what is refused, the bits that
are shifted and the comparison with what comes back. Between the tokens the text of the file can
be spaced at will.
-/

namespace Svf

open Manifest (Byte Text text)

section Decoding

variable {D : Type} (d : Doubles D) (cable : Cable) (deviceAttached : Bool)

/-- What a scan of one kind says. -/
def scanGiven (instruction : Bool) (s : Statement) : Option (Nat × ScanFields) :=
  if s.command = some (.scan instruction) then (parseScan d s.arguments).toOption else none

/-- The scans of one kind among some statements. -/
def scansOf (instruction : Bool) (statements : List Statement) : List (Nat × ScanFields) :=
  statements.filterMap (scanGiven d instruction)

/-- The player's memory is that of the scans it has made. -/
def Remembers (earlier : List Statement) (p : Player D) : Prop :=
  ∀ instruction, Kept (scansOf d instruction earlier) (p.sticky instruction)

/-- A scan with bits that can be made: what the file makes of it, and what the cable says. -/
structure Shifted (scans : List (Nat × ScanFields)) (bitCount : Nat) (fields : ScanFields)
    (instruction : Bool) (t : Turn D) (hex : Text) (answer : Option (List Bool)) : Prop where
  /-- The value is the last one said for this length, by this scan or one before it. -/
  inEffect : inEffect ScanFields.tdi bitCount (scans ++ [(bitCount, fields)]) = some hex
  heard : answer = heard cable t.before (shiftState instruction)
    (scanRequest (valueBits bitCount hex) (fields.tdo.isSome && deviceAttached))
  unanswered : answer = none → t.failure = some ⟨t.statement.readerLine, .stoppedAnswering⟩
  shifts : answer ≠ none → ∃ early late, t.after.calls = t.before.calls ++ early ++
    ⟨shiftState instruction, scanRequest (valueBits bitCount hex)
      (fields.tdo.isSome && deviceAttached), true⟩ :: late
  /-- Reported where a bit in effect in the mask is not the one this scan expects. -/
  differs : Mismatched t.failure ↔ deviceAttached = true ∧ ∃ wanted ∈ fields.tdo,
    ∃ received ∈ answer, ∃ i < bitCount,
      (bitsInEffect true ScanFields.mask bitCount (scans ++ [(bitCount, fields)])).getD i false =
        true ∧ received.getD i false ≠ (hexValue wanted).testBit i

/-- A scan that was executed after some statements. -/
structure Decodes (earlier : List Statement) (instruction : Bool) (t : Turn D) : Prop where
  /-- No length, none that is a number by itself, or a negative one. -/
  lengthless : (∀ length rest bits, t.statement.arguments = length :: rest →
    number d length = some bits → d.negative bits = true) →
      t.failure = some ⟨t.statement.line, .scanNoLength⟩ ∧ t.after = t.before
  /-- The length is the number the scan states, cut to a whole one. -/
  stated : ∀ bitCount fields, parseScan d t.statement.arguments = .ok (bitCount, fields) →
    ∃ length rest bits, t.statement.arguments = length :: rest ∧ number d length = some bits ∧
      d.negative bits = false ∧ bitCount = d.truncate bits
  malformed : ∀ problem, parseScan d t.statement.arguments = .error problem →
    t.failure = some ⟨t.statement.line, problem⟩ ∧ t.after = t.before
  refused : ∀ bitCount fields, parseScan d t.statement.arguments = .ok (bitCount, fields) →
    ¬ Acceptable (scansOf d instruction earlier) bitCount fields →
      (∃ problem, t.failure = some ⟨t.statement.line, problem⟩ ∧ problem.isMismatch = false) ∧
        t.after = t.before
  empty : ∀ fields, parseScan d t.statement.arguments = .ok (0, fields) →
    Acceptable (scansOf d instruction earlier) 0 fields →
      t.failure = none ∧ t.after.calls = t.before.calls
  shifted : ∀ bitCount fields, parseScan d t.statement.arguments = .ok (bitCount, fields) →
    Acceptable (scansOf d instruction earlier) bitCount fields → 0 < bitCount →
      ∃ hex answer, Shifted cable deviceAttached (scansOf d instruction earlier) bitCount fields
        instruction t hex answer

variable {d cable deviceAttached}

theorem scansOf_snoc (instruction : Bool) (earlier : List Statement) (s : Statement) :
    scansOf d instruction (earlier ++ [s]) =
      scansOf d instruction earlier ++ (scanGiven d instruction s).toList := by
  rw [scansOf, List.filterMap_append]
  cases given : scanGiven d instruction s with
  | none =>
    rw [List.filterMap_cons_none given]
    rfl
  | some scan =>
    rw [List.filterMap_cons_some given]
    rfl

/-! ## What is kept -/

theorem Keeps.trans {p p' p'' : Player D} (first : Keeps p p') (second : Keeps p' p'') :
    Keeps p p'' :=
  ⟨second.endOf.trans first.endOf, second.sticky.trans first.sticky⟩

theorem Keeps.andThen {p : Player D} {step : Step D} {next : Player D → Step D}
    (first : Keeps p step.1) (rest : ∀ p', Keeps p' (next p').1) :
    Keeps p (step.andThen next).1 := by
  obtain ⟨p', _ | failure⟩ := step
  · exact first.trans (rest p')
  · exact first

theorem moveTo_keeps (line : Nat) (target : TapState) (p : Player D) :
    Keeps p (moveTo cable line target p).1 := by
  obtain ⟨-, -, -, keeps, -⟩ := moveTo_does cable line target p
  exact keeps

theorem doScan_keeps {s : Statement} {arguments : List Token} {instruction : Bool} {p : Player D}
    {bitCount : Nat} {fields : ScanFields} {sticky : StickyScan} {expected : List Bool}
    (parsed : parseScan d arguments = .ok (bitCount, fields))
    (resolved : resolveScan bitCount fields (p.sticky instruction) = .ok (sticky, expected)) :
    Keeps (p.setSticky instruction sticky)
      (doScan d cable deviceAttached s arguments instruction p).1 := by
  simp only [doScan, parsed, resolved]
  split
  · exact ⟨rfl, rfl⟩
  refine (moveTo_keeps _ _ _).andThen fun p₁ => ?_
  obtain ⟨-, -, -, -, keeps, -⟩ := shift_does cable s.readerLine sticky.tdi
    (fields.tdo.isSome && deviceAttached) p₁
  generalize shift cable s.readerLine sticky.tdi _ p₁ = result at keeps
  obtain ⟨p₂, failed | received⟩ := result
  · exact keeps
  · have exits : Keeps p₁ { p₂ with current := exitState instruction } :=
      ⟨keeps.endOf, keeps.sticky⟩
    dsimp only
    split
    · exact exits
    · exact exits.trans (moveTo_keeps _ _ _)

theorem runClock_keeps (line clocks : Nat) (p : Player D) :
    Keeps p (runClock cable line clocks p).1 := by
  rw [runClock]
  split
  · exact ⟨rfl, rfl⟩
  · have sends : Keeps p (p.send cable (.runClock clocks)).1 := ⟨rfl, rfl⟩
    generalize p.send cable (.runClock clocks) = sent at sends
    obtain ⟨p', _ | received⟩ := sent
    · exact sends
    · exact ⟨sends.endOf, sends.sticky⟩

theorem doRunTest_keeps (s : Statement) (arguments : List Token) (p : Player D) :
    Keeps p (doRunTest d cable deviceAttached s arguments p).1 := by
  rw [doRunTest]
  split
  · exact ⟨rfl, rfl⟩
  refine (moveTo_keeps _ _ _).andThen fun p₁ => ?_
  refine (runClock_keeps _ _ _).andThen fun p₂ => ?_
  refine Keeps.andThen ?_ fun p₃ => moveTo_keeps _ _ _
  split
  · obtain ⟨_, moved⟩ := flushNow_moved cable s.readerLine p₂ []
    exact moved.keeps
  · exact ⟨rfl, rfl⟩

/-- Only scans touch the memory. -/
theorem execute_sticky {s : Statement}
    (noScan : ∀ instruction, s.command ≠ some (.scan instruction)) (p : Player D) : (execute d cable deviceAttached s p).1.sticky = p.sticky := by
  rw [execute]
  split
  · rfl
  · exact absurd ‹_› (noScan _)
  · exact (doRunTest_keeps _ _ _).sticky
  · rw [doState]
    split
    · rfl
    · obtain ⟨-, -, -, -, keeps⟩ := moveAlong_does cable s s.arguments p
      exact keeps.sticky
  · rename_i instruction _
    rw [doEndState]
    split
    · rfl
    · cases instruction <;> rfl
  · rfl
  · unfold doFrequency
    split
    · rfl
    · split <;> rfl
  · rfl

/-! ## One scan -/

theorem parseScan_lengthless {arguments : List Token} (lengthless : ∀ length rest bits,
    arguments = length :: rest → number d length = some bits → d.negative bits = true) :
    parseScan d arguments = .error .scanNoLength := by
  cases arguments with
  | nil => rfl
  | cons length rest =>
    rw [parseScan]
    cases read : number d length with
    | none => rfl
    | some bits => exact if_pos (lengthless length rest bits rfl read)

theorem parseScan_stated {arguments : List Token} {bitCount : Nat} {fields : ScanFields}
    (parsed : parseScan d arguments = .ok (bitCount, fields)) :
    ∃ length rest bits, arguments = length :: rest ∧ number d length = some bits ∧
      d.negative bits = false ∧ bitCount = d.truncate bits := by
  cases arguments with
  | nil => cases parsed
  | cons length rest =>
    rw [parseScan] at parsed
    cases read : number d length with
    | none =>
      simp only [read] at parsed
      cases parsed
    | some bits =>
      simp only [read] at parsed
      split at parsed
      · cases parsed
      · rename_i positive
        refine ⟨length, rest, bits, rfl, read, Bool.eq_false_iff.mpr positive, ?_⟩
        cases given : parseScanFields rest ⟨none, none, none, none⟩ with
        | error problem =>
          rw [given] at parsed
          cases parsed
        | ok fields' =>
          rw [given] at parsed
          cases parsed
          rfl

theorem doScan_refused {s : Statement} {arguments : List Token} {instruction : Bool} {p : Player D}
    {bitCount : Nat} {fields : ScanFields} {problem : Problem}
    (parsed : parseScan d arguments = .ok (bitCount, fields))
    (refused : resolveScan bitCount fields (p.sticky instruction) = .error problem) :
    doScan d cable deviceAttached s arguments instruction p = (p, some ⟨s.line, problem⟩) := by
  simp only [doScan, parsed, refused]

theorem Shifted.of_made {scans : List (Nat × ScanFields)} {sticky : StickyScan}
    (kept : Kept scans sticky) {bitCount : Nat} {fields : ScanFields}
    (accepted : Acceptable scans bitCount fields) (filled : 0 < bitCount) {instruction : Bool}
    {t : Turn D} (made : Made cable t.before instruction (remembered scans bitCount fields).tdi
      (remembered scans bitCount fields).mask (fields.tdo.elim [] (valueBits bitCount))
      (fields.tdo.isSome && deviceAttached) t.statement.readerLine (t.after, t.failure)) :
    ∃ hex answer, Shifted cable deviceAttached scans bitCount fields instruction t hex answer := by
  have known := (kept.scan accepted).known
  rw [lastLength_snoc] at known
  obtain ⟨hex, value⟩ := Option.ne_none_iff_exists'.mp (known filled)
  have bits : (remembered scans bitCount fields).tdi = valueBits bitCount hex := by
    rw [remembered, bitsInEffect, value]
    rfl
  rw [bits] at made
  refine ⟨hex, _, value, rfl, made.unanswered, fun answered => ?_, ?_⟩
  · obtain ⟨received, answer⟩ := Option.ne_none_iff_exists'.mp answered
    exact made.shifts received answer
  · have length : (valueBits bitCount hex).length = bitCount := by simp [valueBits]
    have differs := made.differs
    rw [length] at differs
    rw [differs]
    cases tdo : fields.tdo with
    | none => simp
    | some wanted =>
      have bit (i : Nat) (less : i < bitCount) :
          (valueBits bitCount wanted).getD i false = (hexValue wanted).testBit i := by
        simp [valueBits, List.getD_eq_getElem?_getD, less]
      constructor
      · rintro ⟨attached, received, answer, i, less, masked, apart⟩
        exact ⟨attached, wanted, rfl, received, answer, i, less, masked, bit i less ▸ apart⟩
      · rintro ⟨attached, _, ⟨⟩, received, answer, i, less, masked, apart⟩
        exact ⟨attached, received, answer, i, less, masked, (bit i less).symm ▸ apart⟩

theorem execute_decodes {earlier : List Statement} {instruction : Bool} {t : Turn D}
    (remembers : Remembers d earlier t.before)
    (scans : t.statement.command = some (.scan instruction))
    (done : execute d cable deviceAttached t.statement t.before = (t.after, t.failure)) :
    Decodes d cable deviceAttached earlier instruction t := by
  have kept := remembers instruction
  rw [execute, scans] at done
  dsimp only at done
  have fails {problem : Problem}
      (refused : doScan d cable deviceAttached t.statement t.statement.arguments instruction
        t.before = (t.before, some ⟨t.statement.line, problem⟩)) :
      t.failure = some ⟨t.statement.line, problem⟩ ∧ t.after = t.before := by
    rw [done] at refused
    exact ⟨congrArg Prod.snd refused, congrArg Prod.fst refused⟩
  have malformed : ∀ problem, parseScan d t.statement.arguments = .error problem →
      t.failure = some ⟨t.statement.line, problem⟩ ∧ t.after = t.before := by
    intro problem parsed
    refine fails ?_
    simp only [doScan, parsed]
  refine ⟨fun lengthless => malformed _ (parseScan_lengthless lengthless),
    fun _ _ => parseScan_stated, malformed, ?_, ?_, ?_⟩
  · intro bitCount fields parsed unacceptable
    cases resolved : resolveScan bitCount fields (t.before.sticky instruction) with
    | error problem =>
      obtain ⟨failure, same⟩ := fails (doScan_refused parsed resolved)
      exact ⟨⟨problem, failure, resolveScan_error resolved⟩, same⟩
    | ok result => exact absurd ((resolveScan_iff kept _ _ _).mp resolved).1 unacceptable
  · intro fields parsed accepted
    have resolved := (resolveScan_iff kept 0 fields _).mpr ⟨accepted, rfl⟩
    obtain ⟨calls, -⟩ := setSticky_keeps t.before instruction
      (remembered (scansOf d instruction earlier) 0 fields)
    simp only [doScan, parsed, resolved, if_true] at done
    obtain ⟨after, failure⟩ := Prod.mk.inj done
    exact ⟨failure.symm, after ▸ calls⟩
  · intro bitCount fields parsed accepted filled
    have resolved := (resolveScan_iff kept bitCount fields _).mpr ⟨accepted, rfl⟩
    have made := @doScan_made _ d cable deviceAttached t.statement _ _ _ _ _ _ _ parsed resolved
      filled (length_bitsInEffect _ _ _ _) (length_bitsInEffect _ _ _ _)
    rw [done] at made
    exact Shifted.of_made kept accepted filled made

/-! ## The run -/

theorem execute_remembers {earlier : List Statement} {s : Statement} {p after : Player D}
    (remembers : Remembers d earlier p)
    (done : execute d cable deviceAttached s p = (after, none)) :
    Remembers d (earlier ++ [s]) after := by
  intro which
  rw [scansOf_snoc]
  by_cases scan : ∃ instruction, s.command = some (.scan instruction)
  · obtain ⟨instruction, scans⟩ := scan
    rw [execute, scans] at done
    dsimp only at done
    cases parsed : parseScan d s.arguments with
    | error problem =>
      simp only [doScan, parsed] at done
      cases done
    | ok said =>
      obtain ⟨bitCount, fields⟩ := said
      cases resolved : resolveScan bitCount fields (p.sticky instruction) with
      | error problem =>
        rw [doScan_refused parsed resolved] at done
        cases done
      | ok result =>
        obtain ⟨accepted, same⟩ := (resolveScan_iff (remembers instruction) _ _ _).mp resolved
        rw [same] at resolved
        have keeps := @doScan_keeps _ d cable deviceAttached s _ _ _ _ _ _ _ parsed resolved
        rw [done] at keeps
        rw [keeps.sticky, setSticky_sticky]
        by_cases own : which = instruction
        · subst own
          have given : scanGiven d which s = some (bitCount, fields) := by
            rw [scanGiven, if_pos scans, parsed]
            rfl
          rw [if_pos rfl, given]
          exact (remembers which).scan accepted
        · have given : scanGiven d which s = none := by
            refine if_neg ?_
            rw [scans]
            rintro ⟨⟩
            exact own rfl
          rw [if_neg own, given]
          exact (List.append_nil _).symm ▸ remembers which
  · have noScan : ∀ instruction, s.command ≠ some (.scan instruction) :=
      fun instruction scans => scan ⟨instruction, scans⟩
    have same := @execute_sticky D d cable deviceAttached s noScan p
    rw [done] at same
    have given : scanGiven d which s = none := if_neg (noScan which)
    rw [same, given]
    exact (List.append_nil _).symm ▸ remembers which

/-- Every turn is the execution of its statement, by a player that remembers those before it. -/
theorem playAll_turns (file : SvfFile) (stop : Nat → Bool) {statements earlier : List Statement}
    {p : Player D} (remembers : Remembers d earlier p) (k : Nat) (t : Turn D)
    (turn : (playAll d cable deviceAttached file stop statements p).turns[k]? = some t) :
    Remembers d (earlier ++ statements.take k) t.before ∧
      execute d cable deviceAttached t.statement t.before = (t.after, t.failure) ∧
      statements[k]? = some t.statement := by
  induction statements generalizing earlier p k with
  | nil =>
    have none : (playAll d cable deviceAttached file stop [] p).turns = [] := by
      rw [playAll]
      split
      · rfl
      · split <;> rfl
    rw [none, List.getElem?_nil] at turn
    cases turn
  | cons s rest ih =>
    rw [playAll] at turn
    split at turn
    · rw [List.getElem?_nil] at turn
      cases turn
    · cases done : execute d cable deviceAttached s p with
      | mk after failure =>
        rw [done] at turn
        cases k with
        | zero =>
          rw [List.take_zero, List.append_nil]
          cases failure <;> obtain rfl := Option.some.inj turn <;> exact ⟨remembers, done, rfl⟩
        | succ k =>
          cases failure with
          | some failure =>
            cases turn
          | none =>
            have next : Remembers d (earlier ++ [s])
                { after with statements := after.statements + 1 } :=
              fun which => execute_remembers remembers done which
            have more := ih next k turn
            rw [List.append_assoc, List.singleton_append] at more
            exact more

/-- What every scan of a play does, and that the spaces between the tokens of the file do not
matter. -/
theorem scans_decode (d : Doubles D) (cable : Cable) (deviceAttached : Bool) (stop : Nat → Bool)
    (contents : Text) :
    (∀ hex bitCount bits, hexToBits hex bitCount = .ok bits ↔
      Fits bitCount hex ∧ bits = valueBits bitCount hex) ∧
    (∀ k t instruction, (play d cable deviceAttached stop contents).turns[k]? = some t →
      t.statement.command = some (.scan instruction) →
      (readText contents).statements[k]? = some t.statement ∧
        Decodes d cable deviceAttached ((readText contents).statements.take k) instruction t) ∧
    ∀ contents', Respaced contents contents' →
      SameRun (play d cable deviceAttached stop contents)
        (play d cable deviceAttached stop contents') := by
  refine ⟨hexToBits_iff, fun k t instruction turn scans => ?_, fun _ => play_respaced stop⟩
  have blank (p : Player D) (fresh : p.sticky = (Player.start d).sticky) : Remembers d [] p := by
    intro which
    rw [fresh]
    cases which <;> exact Kept.start
  rw [play] at turn
  cases sent : (Player.start d).send cable resetRequest with
  | mk p answer =>
    rw [sent] at turn
    cases answer with
    | none =>
      rw [List.getElem?_nil] at turn
      cases turn
    | some received =>
      have fresh : Remembers d [] p := by
        obtain rfl := send_went sent
        exact blank _ rfl
      obtain ⟨remembers, done, here⟩ := playAll_turns _ _ fresh k t turn
      rw [List.nil_append] at remembers
      exact ⟨here, execute_decodes remembers scans done⟩


end Decoding

/-! ## Some files -/

/-- Numbers with at most one decimal, as their tenths. -/
def tenths : Doubles Nat where
  strtod digits :=
    match digits.dropWhile (· ≠ 0x2E#8) with
    | [] => (ManifestReader.decimal digits).map (10 * ·)
    | _ :: tenth => do
      let whole ← ManifestReader.decimal (digits.takeWhile (· ≠ 0x2E#8))
      if tenth.length ≠ 1 then none
      return 10 * whole + (← ManifestReader.decimal tenth)
  negative _ := false
  isZero n := n = 0
  truncate n := n / 10
  zero := 0
  waits seconds _ _ := 0 < seconds

/-- A play on a cable that takes everything and has TDO low. -/
def played (deviceAttached : Bool) (contents : Text) : Played Nat :=
  play tenths willing deviceAttached (fun _ => false) contents

def oneScan : Text := text "SDR 4 TDI (6);"

theorem scans_decode_oneScan :
    (∃ t, (played true oneScan).turns[0]? = some t ∧
      Decodes tenths willing true [] false t) ∧
    SameRun (played true oneScan) (played true (oneScan ++ (text "!" ++ text " done"))) := by
  obtain ⟨-, decodes, spaces⟩ := scans_decode tenths willing true (fun _ => false) oneScan
  constructor
  · have first : ((played true oneScan).turns[0]?.map fun t =>
        t.statement.command) = some (some (.scan false)) := by decide +kernel
    obtain ⟨t, turn, scans⟩ := Option.map_eq_some_iff.mp first
    exact ⟨t, turn, (decodes 0 t false turn scans).2⟩
  · refine spaces _ (.single (.last ⟨rfl, Or.inl (by decide +kernel)⟩ (Or.inl rfl)
      (by decide) ?_))
    exact fun slash => absurd slash (by decide)

/-- A length of two and a half is two, a `//` behind a slash takes it away, and without a device
nothing is compared. -/
theorem lengths_slashes_and_devices :
    ((played true (text "SDR 2.5 TDI (3);")).ending = .succeeded ∧
      scanRequest [true, true] false ∈
        (played true (text "SDR 2.5 TDI (3);")).player.requests) ∧
    ((played true (text "STATE RESET/;")).ending =
        .failed ⟨1, .stateUnknown (text "RESET/")⟩ (text "STATE") ∧
      (played true (text "STATE RESET/// x\n;")).ending = .succeeded) ∧
    (played true (text "SDR 1 TDI (0) TDO (1);")).ending =
        .failed ⟨1, .mismatch 0 1 ⟨text "0", 0, 0⟩ ⟨text "1", 0, 0⟩⟩ (text "SDR") ∧
      (played false (text "SDR 1 TDI (0) TDO (1);")).ending = .succeeded := by
  decide +kernel

end Svf
