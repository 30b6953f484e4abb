import DomesdayDuplicator.Jtag.SvfRun

/-!
# What a scan shifts and compares

A value of a scan is its hexadecimal number, the lowest bit first, and it is taken when no set bit
is beyond the length. What a scan leaves out is what the scans of its kind before it said last,
back to the last change of length; only what to compare is never remembered.
-/

namespace Svf

open Manifest (Byte Text text)

/-! ## Values that fit -/

theorem setDigit_ok_iff (digit index left : Nat) (bits : List Bool) :
    (∃ set, setDigit digit index left bits = .ok set) ↔
      ∀ j < left, digit.testBit j = true → index + j < bits.length := by
  induction left generalizing digit index bits with
  | zero => exact ⟨fun _ j less => absurd less (Nat.not_lt_zero j), fun _ => ⟨bits, rfl⟩⟩
  | succ left ih =>
    -- The lowest bit and the others.
    have halves : (∀ j < left + 1, digit.testBit j = true → index + j < bits.length) ↔
        (digit.testBit 0 = true → index < bits.length) ∧
          ∀ j < left, (digit / 2).testBit j = true → index + 1 + j < bits.length := by
      constructor
      · intro all
        refine ⟨all 0 (by omega), fun j less set => ?_⟩
        have := all (j + 1) (by omega) (by rwa [Nat.testBit_add_one])
        omega
      · rintro ⟨first, rest⟩ j less set
        cases j with
        | zero => exact first set
        | succ j =>
          have := rest j (by omega) (by rwa [← Nat.testBit_add_one])
          omega
    rw [setDigit, halves]
    split
    · rename_i inside
      rw [ih, List.length_set]
      exact ⟨fun rest => ⟨fun _ => inside, rest⟩, fun both => both.2⟩
    · rename_i outside
      split
      · rename_i set
        refine ⟨?_, fun both => absurd (both.1 set) outside⟩
        rintro ⟨_, never⟩
        cases never
      · rename_i clear
        rw [ih]
        exact ⟨fun rest => ⟨fun set => absurd set clear, rest⟩, fun both => both.2⟩

theorem setDigits_ok_iff (digits : List Byte) (nibble : Nat) (bits : List Bool) :
    (∃ set, setDigits digits nibble bits = .ok set) ↔ (∀ c ∈ digits, (hexDigit c).isSome) ∧
      ∀ j, (digitsValue digits).testBit j = true → nibble * 4 + j < bits.length := by
  induction digits generalizing nibble bits with
  | nil =>
    refine ⟨fun _ => ⟨fun c here => absurd here List.not_mem_nil, fun j set => ?_⟩,
      fun _ => ⟨bits, rfl⟩⟩
    rw [digitsValue, Nat.zero_testBit] at set
    cases set
  | cons c rest ih =>
    rw [setDigits, List.forall_mem_cons]
    cases digit : hexDigit c with
    | none =>
      constructor
      · rintro ⟨_, never⟩
        cases never
      · rintro ⟨⟨never, -⟩, -⟩
        cases never
    | some value =>
      have value_lt := hexDigit_lt digit
      have bit := Nat.testBit_two_pow_mul_add (digitsValue rest) (i := 4) value_lt
      have number : digitsValue (c :: rest) = 2 ^ 4 * digitsValue rest + value := by
        rw [digitsValue, digit]
        rfl
      -- The bits of this digit and those of the digits above it.
      have halves : (∀ j, (digitsValue (c :: rest)).testBit j = true →
          nibble * 4 + j < bits.length) ↔
          (∀ j < 4, value.testBit j = true → nibble * 4 + j < bits.length) ∧
            ∀ j, (digitsValue rest).testBit j = true → (nibble + 1) * 4 + j < bits.length := by
        rw [number]
        constructor
        · intro all
          refine ⟨fun j less set => all j (by rw [bit, if_pos less]; exact set), fun j set => ?_⟩
          have := all (j + 4) (by rw [bit, if_neg (by omega), Nat.add_sub_cancel]; exact set)
          omega
        · rintro ⟨low, high⟩ j set
          rw [bit] at set
          by_cases less : j < 4
          · rw [if_pos less] at set
            exact low j less set
          · rw [if_neg less] at set
            have := high (j - 4) set
            omega
      rw [halves, ← setDigit_ok_iff]
      cases first : setDigit value (nibble * 4) 4 bits with
      | error problem =>
        constructor
        · rintro ⟨set, never⟩
          simp only [first] at never
          cases never
        · rintro ⟨-, ⟨_, never⟩, -⟩
          cases never
      | ok more =>
        have here : (setDigit value (nibble * 4) 4 bits).bind (setDigits rest (nibble + 1)) =
            setDigits rest (nibble + 1) more := by
          rw [first]
          rfl
        simp only [here]
        rw [ih, setDigit_length first]
        exact ⟨fun both => ⟨⟨rfl, both.1⟩, ⟨more, rfl⟩, both.2⟩, fun all => ⟨all.1.2, all.2.2⟩⟩

/-- Hexadecimal, and no set bit beyond the length. -/
def Fits (bitCount : Nat) (hex : Text) : Prop :=
  (∀ c ∈ hex, (hexDigit c).isSome) ∧ ∀ j, (hexValue hex).testBit j = true → j < bitCount

/-- The bits of a value, the lowest first. -/
def valueBits (bitCount : Nat) (hex : Text) : List Bool :=
  (List.range bitCount).map (hexValue hex).testBit

theorem hexToBits_iff (hex : Text) (bitCount : Nat) (bits : List Bool) :
    hexToBits hex bitCount = .ok bits ↔ Fits bitCount hex ∧ bits = valueBits bitCount hex := by
  have accepts : (∃ set, hexToBits hex bitCount = .ok set) ↔ Fits bitCount hex := by
    rw [hexToBits, setDigits_ok_iff, List.length_replicate]
    simp only [List.mem_reverse, Nat.zero_mul, Nat.zero_add]
    rfl
  constructor
  · intro read
    exact ⟨accepts.mp ⟨bits, read⟩, hexToBits_value read⟩
  · rintro ⟨fits, rfl⟩
    obtain ⟨set, read⟩ := accepts.mpr fits
    rw [read, hexToBits_value read, valueBits]

/-! ## What is remembered -/

/-- What the last of these scans said of a field, back to the last change of length. -/
def inEffect (field : ScanFields → Option Text) (bitCount : Nat)
    (scans : List (Nat × ScanFields)) : Option Text :=
  (scans.reverse.takeWhile fun s => s.1 = bitCount).findSome? fun s => field s.2

/-- The length of the last of these scans. -/
def lastLength (scans : List (Nat × ScanFields)) : Nat :=
  (scans.getLast?.map fun s => s.1).getD 0

/-- The bits of a field in effect; they are all alike where nothing was said. -/
def bitsInEffect (unsaid : Bool) (field : ScanFields → Option Text) (bitCount : Nat)
    (scans : List (Nat × ScanFields)) : List Bool :=
  (inEffect field bitCount scans).elim (List.replicate bitCount unsaid) (valueBits bitCount)

/-- A scan can be made after these: it says what to shift where the length changes, and its values
fit. -/
structure Acceptable (scans : List (Nat × ScanFields)) (bitCount : Nat) (fields : ScanFields) :
    Prop where
  stated : bitCount = lastLength scans ∨ fields.tdi ≠ none ∨ bitCount = 0
  tdi : ∀ hex ∈ fields.tdi, Fits bitCount hex
  mask : ∀ hex ∈ fields.mask, Fits bitCount hex
  smask : ∀ hex ∈ fields.smask, Fits bitCount hex
  tdo : ∀ hex ∈ fields.tdo, Fits bitCount hex

/-- The player's memory of the scans of one kind. -/
structure Kept (scans : List (Nat × ScanFields)) (sticky : StickyScan) : Prop where
  tdi : sticky.tdi = bitsInEffect false ScanFields.tdi (lastLength scans) scans
  mask : sticky.mask = bitsInEffect true ScanFields.mask (lastLength scans) scans
  smask : sticky.smask = bitsInEffect true ScanFields.smask (lastLength scans) scans
  /-- There is a value to shift wherever there are bits. -/
  known : 0 < lastLength scans → inEffect ScanFields.tdi (lastLength scans) scans ≠ none

theorem inEffect_snoc (field : ScanFields → Option Text) (bitCount : Nat)
    (scans : List (Nat × ScanFields)) (fields : ScanFields) :
    inEffect field bitCount (scans ++ [(bitCount, fields)]) =
      (field fields).or (inEffect field bitCount scans) := by
  rw [inEffect, List.reverse_append, List.reverse_singleton, List.singleton_append,
    List.takeWhile_cons_of_pos (by simp), List.findSome?_cons]
  cases field fields <;> rfl

theorem inEffect_changed (field : ScanFields → Option Text) {bitCount : Nat}
    {scans : List (Nat × ScanFields)} (changed : bitCount ≠ lastLength scans) :
    inEffect field bitCount scans = none := by
  rcases List.eq_nil_or_concat scans with rfl | ⟨earlier, last, rfl⟩
  · rfl
  · have other : last.1 ≠ bitCount := by
      rw [lastLength, List.concat_eq_append, List.getLast?_concat] at changed
      exact fun same => changed same.symm
    rw [inEffect, List.concat_eq_append, List.reverse_append, List.reverse_singleton,
      List.singleton_append, List.takeWhile_cons_of_neg (by simpa using other)]
    rfl

theorem lastLength_snoc (scans : List (Nat × ScanFields)) (bitCount : Nat) (fields : ScanFields) :
    lastLength (scans ++ [(bitCount, fields)]) = bitCount := by
  rw [lastLength, List.getLast?_concat]
  rfl

theorem length_bitsInEffect (unsaid : Bool) (field : ScanFields → Option Text) (bitCount : Nat)
    (scans : List (Nat × ScanFields)) :
    (bitsInEffect unsaid field bitCount scans).length = bitCount := by
  rw [bitsInEffect]
  cases inEffect field bitCount scans <;> simp [valueBits]

theorem Kept.start : Kept [] .blank := ⟨rfl, rfl, rfl, fun some => absurd some (by decide)⟩

theorem Kept.bitCount {scans : List (Nat × ScanFields)} {sticky : StickyScan}
    (kept : Kept scans sticky) : sticky.bitCount = lastLength scans := by
  rw [StickyScan.bitCount, kept.tdi, length_bitsInEffect]

/-! ## Resolving a scan -/

theorem replaceBits_fits {given : Option Text} {bitCount : Nat}
    (fits : ∀ hex ∈ given, Fits bitCount hex) (old : List Bool) :
    replaceBits given bitCount old = .ok (given.elim old (valueBits bitCount)) := by
  cases given with
  | none => rfl
  | some hex =>
    have read := (hexToBits_iff hex bitCount _).mpr ⟨fits hex rfl, rfl⟩
    rw [replaceBits, read]
    rfl

theorem replaceBits_ok {given : Option Text} {bitCount : Nat} {old bits : List Bool}
    (read : replaceBits given bitCount old = .ok bits) : ∀ hex ∈ given, Fits bitCount hex := by
  rintro hex ⟨⟩
  rw [replaceBits] at read
  cases value : hexToBits hex bitCount with
  | error problem =>
    rw [value] at read
    cases read
  | ok found => exact ((hexToBits_iff hex bitCount found).mp value).1

theorem bind_ok {A B : Type} {step : Except Problem A} {next : A → Except Problem B} {b : B}
    (done : step >>= next = .ok b) : ∃ a, step = .ok a ∧ next a = .ok b := by
  cases step with
  | error problem => cases done
  | ok a => exact ⟨a, rfl, done⟩

/-- What a field is replaced in: what is in effect, or nothing said yet where the length changes. -/
theorem bitsInEffect_snoc (unsaid : Bool) (field : ScanFields → Option Text) (bitCount : Nat)
    (scans : List (Nat × ScanFields)) (fields : ScanFields) :
    bitsInEffect unsaid field bitCount (scans ++ [(bitCount, fields)]) =
      (field fields).elim (bitsInEffect unsaid field bitCount scans) (valueBits bitCount) := by
  rw [bitsInEffect, inEffect_snoc, bitsInEffect]
  cases field fields <;> rfl

theorem bitsInEffect_changed (unsaid : Bool) (field : ScanFields → Option Text) {bitCount : Nat}
    {scans : List (Nat × ScanFields)} (changed : bitCount ≠ lastLength scans) :
    bitsInEffect unsaid field bitCount scans = List.replicate bitCount unsaid := by
  rw [bitsInEffect, inEffect_changed field changed]
  rfl

/-- The memory a scan starts from, which a change of length clears. -/
def StickyScan.for_ (sticky : StickyScan) (bitCount : Nat) : StickyScan :=
  if bitCount ≠ sticky.bitCount then
    ⟨List.replicate bitCount false, List.replicate bitCount true, List.replicate bitCount true⟩
  else sticky

theorem Kept.for_ {scans : List (Nat × ScanFields)} {sticky : StickyScan}
    (kept : Kept scans sticky) (bitCount : Nat) :
    sticky.for_ bitCount = ⟨bitsInEffect false ScanFields.tdi bitCount scans,
      bitsInEffect true ScanFields.mask bitCount scans,
      bitsInEffect true ScanFields.smask bitCount scans⟩ := by
  rw [StickyScan.for_, kept.bitCount]
  split
  · rename_i changed
    rw [bitsInEffect_changed _ _ changed, bitsInEffect_changed _ _ changed,
      bitsInEffect_changed _ _ changed]
  · rename_i same
    obtain rfl := not_not.mp same
    rw [← kept.tdi, ← kept.mask, ← kept.smask]

/-- The memory a scan leaves. -/
def remembered (scans : List (Nat × ScanFields)) (bitCount : Nat) (fields : ScanFields) :
    StickyScan :=
  ⟨bitsInEffect false ScanFields.tdi bitCount (scans ++ [(bitCount, fields)]),
    bitsInEffect true ScanFields.mask bitCount (scans ++ [(bitCount, fields)]),
    bitsInEffect true ScanFields.smask bitCount (scans ++ [(bitCount, fields)])⟩

theorem Kept.scan {scans : List (Nat × ScanFields)} {sticky : StickyScan}
    (kept : Kept scans sticky) {bitCount : Nat} {fields : ScanFields}
    (accepted : Acceptable scans bitCount fields) :
    Kept (scans ++ [(bitCount, fields)]) (remembered scans bitCount fields) := by
  constructor <;> rw [lastLength_snoc]
  · rfl
  · rfl
  · rfl
  · intro filled none
    rw [inEffect_snoc, Option.or_eq_none_iff] at none
    rcases accepted.stated with rfl | said | empty
    · exact kept.known filled none.2
    · exact said none.1
    · omega

/-- Which scans are made, and with what. -/
theorem resolveScan_iff {scans : List (Nat × ScanFields)} {sticky : StickyScan}
    (kept : Kept scans sticky) (bitCount : Nat) (fields : ScanFields)
    (resolved : StickyScan × List Bool) :
    resolveScan bitCount fields sticky = .ok resolved ↔ Acceptable scans bitCount fields ∧
      resolved = (remembered scans bitCount fields, fields.tdo.elim [] (valueBits bitCount)) := by
  have steps : resolveScan bitCount fields sticky =
      if bitCount ≠ lastLength scans ∧ fields.tdi = none ∧ 0 < bitCount then
        .error .scanLengthChanged
      else do
        let tdi ← replaceBits fields.tdi bitCount (sticky.for_ bitCount).tdi
        let mask ← replaceBits fields.mask bitCount (sticky.for_ bitCount).mask
        let smask ← replaceBits fields.smask bitCount (sticky.for_ bitCount).smask
        let expected ← replaceBits fields.tdo bitCount []
        return (⟨tdi, mask, smask⟩, expected) := by
    rw [resolveScan, ← kept.bitCount]
    split
    · rfl
    · rfl
  rw [steps, kept.for_]
  constructor
  · intro done
    split at done
    · cases done
    · rename_i told
      have stated : bitCount = lastLength scans ∨ fields.tdi ≠ none ∨ bitCount = 0 := by
        by_contra refused
        simp only [not_or, not_not] at refused
        exact told ⟨refused.1, refused.2.1, by omega⟩
      obtain ⟨tdi, first, done⟩ := bind_ok done
      obtain ⟨mask, second, done⟩ := bind_ok done
      obtain ⟨smask, third, done⟩ := bind_ok done
      obtain ⟨expected, fourth, done⟩ := bind_ok done
      have accepted : Acceptable scans bitCount fields :=
        ⟨stated, replaceBits_ok first, replaceBits_ok second, replaceBits_ok third,
          replaceBits_ok fourth⟩
      rw [replaceBits_fits accepted.tdi] at first
      rw [replaceBits_fits accepted.mask] at second
      rw [replaceBits_fits accepted.smask] at third
      rw [replaceBits_fits accepted.tdo] at fourth
      refine ⟨accepted, ?_⟩
      cases first
      cases second
      cases third
      cases fourth
      cases done
      simp only [remembered, bitsInEffect_snoc]
  · rintro ⟨accepted, rfl⟩
    rw [if_neg, replaceBits_fits accepted.tdi, replaceBits_fits accepted.mask,
      replaceBits_fits accepted.smask, replaceBits_fits accepted.tdo]
    · simp only [remembered, bitsInEffect_snoc]
      rfl
    · rintro ⟨changed, unsaid, some⟩
      rcases accepted.stated with same | said | none
      · exact changed same
      · exact said unsaid
      · omega

/-! ## Making a scan -/

theorem compare_isMismatch {mask received expected : List Bool} {problem : Problem}
    (found : compare mask received expected = some problem) : problem.isMismatch = true := by
  obtain ⟨i, -, rfl⟩ := Option.map_eq_some_iff.mp found
  rfl

/-- The comparison finds a bit where there is one. -/
theorem compare_none_iff (mask received expected : List Bool) :
    compare mask received expected = none ↔ ¬ ∃ i < mask.length,
      mask.getD i false = true ∧ received.getD i false ≠ expected.getD i false := by
  rw [compare, Option.map_eq_none_iff, List.find?_eq_none]
  constructor
  · rintro all ⟨i, less, masked, differs⟩
    refine all i (List.mem_range.mpr less) ?_
    rw [masked, Bool.true_and]
    exact bne_iff_ne.mpr differs
  · intro none i here found
    obtain ⟨masked, differs⟩ := Bool.and_eq_true_iff.mp found
    exact none ⟨i, List.mem_range.mp here, masked, bne_iff_ne.mp differs⟩

section Making

variable {D : Type} (d : Doubles D) (cable : Cable) (deviceAttached : Bool)

/-- The clocks of a scan. -/
def scanRequest (bits : List Bool) (capture : Bool) : Request :=
  .shift ((List.replicate bits.length false).set (bits.length - 1) true) bits capture

/-- What is asked of the cable to get from one state to another. -/
def walkTo (origin target : TapState) : List Request :=
  if pathBetween origin target = [] then []
  else [.shift (pathBetween origin target)
    (List.replicate (pathBetween origin target).length false) false]

def Player.requests (p : Player D) : List Request := p.calls.map CableCall.request

/-- The cable does not take the walk to a state. -/
def Strands (p : Player D) (target : TapState) : Prop :=
  walkTo p.current target ≠ [] ∧ cable (p.requests ++ walkTo p.current target) = none

instance (p : Player D) (target : TapState) : Decidable (Strands cable p target) :=
  inferInstanceAs (Decidable (_ ∧ _))

/-- What the cable says to a request that is made in some state. -/
def heard (p : Player D) (target : TapState) (request : Request) : Option (List Bool) :=
  if Strands cable p target then none
  else cable (p.requests ++ walkTo p.current target ++ [request])

variable {d cable deviceAttached}

theorem send_refused {p : Player D} {request : Request}
    (refused : cable (p.requests ++ [request]) = none) : p.send cable request =
      ({ p with calls := p.calls ++ [⟨p.current, request, false⟩] }, none) := by
  rw [Player.requests] at refused
  rw [Player.send, refused]
  rfl

theorem send_answered {p : Player D} {request : Request} {received : List Bool}
    (answered : cable (p.requests ++ [request]) = some received) : p.send cable request =
      ({ p with calls := p.calls ++ [⟨p.current, request, true⟩] }, some received) := by
  rw [Player.requests] at answered
  rw [Player.send, answered]
  rfl

theorem moveTo_stranded {p : Player D} {target : TapState} (strands : Strands cable p target)
    (line : Nat) : (moveTo cable line target p).2 = some ⟨line, .stoppedAnswering⟩ := by
  obtain ⟨far, refused⟩ := strands
  rw [walkTo] at far refused
  split at far
  · exact absurd rfl far
  · rename_i path
    rw [if_neg path] at refused
    rw [moveTo, if_neg path, send_refused refused]

/-- A walk the cable takes. -/
theorem moveTo_arrives {p : Player D} {target : TapState} (goes : ¬ Strands cable p target)
    (line : Nat) : ∃ there : List CableCall, there.map CableCall.request = walkTo p.current target ∧
      moveTo cable line target p =
        ({ p with calls := p.calls ++ there, current := target }, none) := by
  rw [Strands, walkTo] at goes
  rw [walkTo, moveTo]
  split
  · exact ⟨[], rfl, by rw [List.append_nil]⟩
  · rename_i path
    rw [if_neg path, not_and] at goes
    obtain ⟨received, answered⟩ := Option.ne_none_iff_exists'.mp (goes (by simp))
    rw [send_answered answered]
    exact ⟨[⟨p.current, _, true⟩], rfl, rfl⟩

theorem shift_refused {p : Player D} {bits : List Bool} {capture : Bool}
    (refused : cable (p.requests ++ [scanRequest bits capture]) = none) (line : Nat) :
    (shift cable line bits capture p).2 = .error ⟨line, .stoppedAnswering⟩ := by
  have sent := send_refused refused
  rw [scanRequest] at sent
  rw [shift, sent]

theorem shift_answered {p : Player D} {bits received : List Bool} {capture : Bool}
    (answered : cable (p.requests ++ [scanRequest bits capture]) = some received) (line : Nat) :
    shift cable line bits capture p =
      ({ p with
          calls := p.calls ++ [⟨p.current, scanRequest bits capture, true⟩]
          shiftedBits := p.shiftedBits + bits.length },
        .ok ((List.range bits.length).map fun i => received.getD i false)) := by
  have sent := send_answered answered
  rw [scanRequest] at sent
  rw [shift, sent]
  rfl

/-- The device was not what the file expects. -/
def Mismatched (failure : Option Failure) : Prop :=
  ∃ f, failure = some f ∧ f.problem.isMismatch = true

theorem moveTo_matched (line : Nat) (target : TapState) (p : Player D) :
    ¬ Mismatched (moveTo cable line target p).2 := by
  obtain ⟨-, -, -, -, -, cut⟩ := moveTo_does cable line target p
  rintro ⟨failure, failed, mismatch⟩
  rw [cut failure failed] at mismatch
  cases mismatch

/-- What comes of a scan with bits whose values are known. -/
structure Made (cable : Cable) (p : Player D) (instruction : Bool) (bits mask expected : List Bool)
    (capture : Bool) (line : Nat) (step : Step D) : Prop where
  unanswered : heard cable p (shiftState instruction) (scanRequest bits capture) = none →
    step.2 = some ⟨line, .stoppedAnswering⟩
  shifts : ∀ received,
    heard cable p (shiftState instruction) (scanRequest bits capture) = some received →
    ∃ early late, step.1.calls =
      p.calls ++ early ++ ⟨shiftState instruction, scanRequest bits capture, true⟩ :: late
  differs : Mismatched step.2 ↔ capture = true ∧ ∃ received,
    heard cable p (shiftState instruction) (scanRequest bits capture) = some received ∧
    ∃ i < bits.length, mask.getD i false = true ∧ received.getD i false ≠ expected.getD i false

theorem doScan_made {s : Statement} {arguments : List Token} {instruction : Bool} {p : Player D}
    {bitCount : Nat} {fields : ScanFields} {sticky : StickyScan} {expected : List Bool}
    (parsed : parseScan d arguments = .ok (bitCount, fields))
    (resolved : resolveScan bitCount fields (p.sticky instruction) = .ok (sticky, expected))
    (filled : 0 < bitCount) (length : sticky.tdi.length = bitCount)
    (masks : sticky.mask.length = bitCount) :
    Made cable p instruction sticky.tdi sticky.mask expected (fields.tdo.isSome && deviceAttached)
      s.readerLine (doScan d cable deviceAttached s arguments instruction p) := by
  obtain ⟨calls, current, -⟩ := setSticky_keeps p instruction sticky
  rw [doScan]
  simp only [parsed, resolved, if_neg (Nat.ne_of_gt filled)]
  generalize (fields.tdo.isSome && deviceAttached) = capture
  have requests : (p.setSticky instruction sticky).requests = p.requests := by
    rw [Player.requests, Player.requests, calls]
  have walks : Strands cable (p.setSticky instruction sticky) (shiftState instruction) ↔
      Strands cable p (shiftState instruction) := by
    rw [Strands, Strands, requests, current]
  by_cases strands : Strands cable p (shiftState instruction)
  · have stuck := moveTo_stranded (walks.mpr strands) s.readerLine
    generalize moveTo cable s.readerLine (shiftState instruction)
      (p.setSticky instruction sticky) = moved at stuck
    obtain ⟨p₁, failure⟩ := moved
    obtain rfl : failure = _ := stuck
    have silent : heard cable p (shiftState instruction) (scanRequest sticky.tdi capture) = none :=
      if_pos strands
    refine ⟨fun _ => rfl, fun received answer => ?_, ?_⟩
    · rw [silent] at answer
      cases answer
    · constructor
      · rintro ⟨failure, same, mismatch⟩
        cases same
        cases mismatch
      · rintro ⟨-, received, answer, -⟩
        rw [silent] at answer
        cases answer
  · obtain ⟨there, walked, moved⟩ := moveTo_arrives (mt walks.mp strands) s.readerLine
    have current' : walkTo (p.setSticky instruction sticky).current (shiftState instruction) =
        walkTo p.current (shiftState instruction) := by rw [current]
    rw [moved, calls, Step.andThen]
    generalize reached : ({ p.setSticky instruction sticky with
      calls := p.calls ++ there, current := shiftState instruction } : Player D) = p₁
    have asked : p₁.requests = p.requests ++ walkTo p.current (shiftState instruction) := by
      rw [← reached, Player.requests, Player.requests, List.map_append, walked, current']
    have answer : heard cable p (shiftState instruction) (scanRequest sticky.tdi capture) =
        cable (p₁.requests ++ [scanRequest sticky.tdi capture]) := by
      rw [heard, if_neg strands, asked]
    have here : p₁.calls = p.calls ++ there ∧ p₁.current = shiftState instruction := by
      rw [← reached]
      exact ⟨rfl, rfl⟩
    cases said : cable (p₁.requests ++ [scanRequest sticky.tdi capture]) with
    | none =>
      have stuck := shift_refused said s.readerLine
      generalize shift cable s.readerLine sticky.tdi capture p₁ = result at stuck
      obtain ⟨p₂, failed⟩ := result
      obtain rfl : failed = _ := stuck
      rw [said] at answer
      refine ⟨fun _ => rfl, fun received heard' => ?_, ?_⟩
      · rw [answer] at heard'
        cases heard'
      · constructor
        · rintro ⟨failure, same, mismatch⟩
          cases same
          cases mismatch
        · rintro ⟨-, received, heard', -⟩
          rw [answer] at heard'
          cases heard'
    | some received =>
      rw [said] at answer
      rw [shift_answered said, here.1, here.2]
      have took (i : Nat) (less : i < sticky.tdi.length) :
          ((List.range sticky.tdi.length).map fun i => received.getD i false).getD i false =
            received.getD i false := by
        simp [List.getD_eq_getElem?_getD, less]
      have compared : (if capture then compare sticky.mask
          ((List.range sticky.tdi.length).map fun i => received.getD i false) expected
          else none) = none ↔ ¬ (capture = true ∧ ∃ i < sticky.tdi.length,
            sticky.mask.getD i false = true ∧ received.getD i false ≠ expected.getD i false) := by
        cases capture with
        | false => simp
        | true =>
          rw [if_pos rfl, compare_none_iff, masks, ← length, eq_self, true_and, not_iff_not]
          exact exists_congr fun i => and_congr_right fun less => by rw [took i less]
      have only : (∃ received', heard cable p (shiftState instruction)
          (scanRequest sticky.tdi capture) = some received' ∧ ∃ i < sticky.tdi.length,
            sticky.mask.getD i false = true ∧ received'.getD i false ≠ expected.getD i false) ↔
          ∃ i < sticky.tdi.length,
            sticky.mask.getD i false = true ∧ received.getD i false ≠ expected.getD i false := by
        rw [answer]
        constructor
        · rintro ⟨_, ⟨⟩, differs⟩
          exact differs
        · exact fun differs => ⟨received, rfl, differs⟩
      dsimp only
      generalize found : (if capture then compare sticky.mask
        ((List.range sticky.tdi.length).map fun i => received.getD i false) expected else none) =
          problem at compared
      refine ⟨fun silent => absurd (answer.symm.trans silent) (by rintro ⟨⟩),
        fun received' _ => ?_, ?_⟩
      · cases problem with
        | some problem => exact ⟨there, [], rfl⟩
        | none =>
          obtain ⟨back, does, -⟩ := moveTo_does cable s.readerLine (p₁.endOf instruction)
            { p₁ with
              calls := p.calls ++ there ++
                [⟨shiftState instruction, scanRequest sticky.tdi capture, true⟩]
              shiftedBits := p₁.shiftedBits + sticky.tdi.length
              current := exitState instruction }
          refine ⟨there, back, ?_⟩
          refine does.calls.trans ?_
          rw [List.append_assoc, List.singleton_append]
      · rw [only]
        cases problem with
        | some problem =>
          refine ⟨fun _ => ?_, fun _ => ⟨_, rfl, ?_⟩⟩
          · by_contra same
            cases compared.mpr same
          · split at found
            · exact compare_isMismatch found
            · cases found
        | none =>
          refine ⟨fun differs => absurd differs (moveTo_matched _ _ _), fun differs => ?_⟩
          exact absurd differs (compared.mp rfl)

end Making

end Svf
