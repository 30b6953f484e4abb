import DomesdayDuplicator.Player.PlayerSession

/-!
# Addresses out and back

The commands of the registered models, and what `EncodeCommand` and `ParseAddress` make of one
address: the digits that go out in a seek read back as the address, whatever stands around them
in a reply. No two commands look the same on the wire, but for the two seeks of a model that has
no time-code form of its own.
-/

namespace AddressRoundTrip

open Player PlayerSession

/-! ## The models -/

def command (sequence : Text) : WireSpec := ⟨sequence, [], .none, 0, .acknowledgement⟩

def commandWithArgument (start suffix : Text) (digits : Nat) : WireSpec :=
  ⟨start, suffix, .decimal, digits, .acknowledgement⟩

def commandWithHMMSSArgument (start suffix : Text) : WireSpec :=
  ⟨start, suffix, .timeCodeHMMSS, 7, .acknowledgement⟩

def query (sequence : Text) : WireSpec := ⟨sequence, [], .none, 0, .text⟩

def levelIII : PlayerCommand → WireSpec
  | .trayOpen => command ['O', 'P']
  | .trayClose => command ['C', 'O']
  | .play => command ['P', 'L']
  | .playWithoutStopCodes => command ['P', 'L', '6', '4', 'R', 'B', 'M', 'F']
  | .pause => command ['P', 'A']
  | .stillFrame => command ['S', 'T']
  | .stop => command ['R', 'J']
  | .stepForward => command ['S', 'F']
  | .stepReverse => command ['S', 'R']
  | .scanForward => command ['N', 'F']
  | .scanReverse => command ['N', 'R']
  | .multiSpeedForward => command ['M', 'F']
  | .multiSpeedReverse => command ['M', 'B']
  | .setSpeed => commandWithArgument [] ['S', 'P'] 1
  | .seekFrame => commandWithArgument ['F', 'R'] ['S', 'E'] 5
  | .seekTimeCode => commandWithArgument ['F', 'R'] ['S', 'E'] 7
  | .seekChapter => commandWithArgument ['C', 'H'] ['S', 'E'] 2
  | .displayOn => command ['1', 'D', 'S']
  | .displayOff => command ['0', 'D', 'S']
  | .setAudio => commandWithArgument [] ['A', 'D'] 1
  | .keyLockOn => command ['1', 'K', 'L']
  | .keyLockOff => command ['0', 'K', 'L']
  | .queryActiveMode => query ['?', 'P']
  | .queryAddress => query ['?', 'F']
  | .queryTimeCode => query ['?', 'T']
  | .queryDiscStatus => query ['?', 'D']
  | .queryStandardUserCode => query ['$', 'Y']
  | .queryPioneerUserCode => query ['?', 'U']
  | .queryTvSystem => query ['?', 'S']
  | .queryPhysicalPosition => command []

/-- The registered models, and the one for a player that none of them claims. -/
inductive Model where
  | ldV2200 | ldV4200 | ldV4300D | ldV4400 | ldV8000 | cldV2400 | cldV2600 | cldV2800 | cldV5000
  | vcV330 | genericLevelIII
  deriving DecidableEq, Repr

def Model.commands : Model → PlayerCommand → WireSpec
  | .ldV2200, .seekTimeCode => commandWithHMMSSArgument ['T', 'M'] ['S', 'E']
  | .ldV8000, .queryPhysicalPosition => query ['2', '9', '6', '2', 'M', 'Q']
  | _, which => levelIII which

def Model.timeCodeFormat : Model → TimeCodeFormat
  | .ldV2200 => .hmmss
  | _ => .hmmssff

def seekFor : AddressMode → PlayerCommand
  | .frame => .seekFrame
  | .timeCode => .seekTimeCode

/-! ## What stands around the digits -/

inductive Mark where
  | programme | leadIn | leadOut

def Mark.text : Mark → Text
  | .programme => []
  | .leadIn => ['<']
  | .leadOut => ['>']

def Mark.address : Mark → DiscAddress
  | .programme => {}
  | .leadIn => { inLeadIn := true }
  | .leadOut => { inLeadOut := true }

/-- A reply around its digits: blanks, a mark, and what follows from the first other character. -/
structure Framing where
  spaces : Text := []
  mark : Mark := .programme
  rest : Text := []
  blank : ∀ c ∈ spaces, isSpace c = true
  ends : ∀ c, rest.head? = some c → isDigit c = false

def Framing.around (f : Framing) (digits : Text) : Text :=
  f.spaces ++ f.mark.text ++ digits ++ f.rest

/-- A number in decimal digits. -/
structure Digits (digits : Text) : Prop where
  some : digits ≠ []
  all : ∀ c ∈ digits, isDigit c = true

/-! ## The arithmetic of `int32_t` -/

/-- The value, unless it does not fit. -/
def int32 (n : Int) : Option Int := if -2 ^ 31 ≤ n ∧ n < 2 ^ 31 then some n else none

/-- `LargestValueIn`, every product checked. -/
def limit32 : Nat → Option Int
  | 0 => some 1
  | digits + 1 => (limit32 digits).bind fun limit => int32 (limit * 10)

def largestValueIn32 (digits : Nat) : Option Int :=
  (limit32 digits).bind fun limit => int32 (limit - 1)

def digitValue (c : Char) : Int := ((c.toNat - '0'.toNat : Nat) : Int)

/-- The loop of `ParseAddress`, every product and sum checked. -/
def decimal32 (digits : Text) : Option Int :=
  digits.foldlM (fun value digit =>
    (int32 (value * 10)).bind fun shifted => int32 (shifted + digitValue digit)) 0

/-- The digits `ParseAddress` reads, leading zeros gone. -/
def digitsIn (raw : Text) : Text :=
  significant ((addressMarks (stripTerminator raw)).2.takeWhile isDigit)

def scaleFor (mode : AddressMode) (format : TimeCodeFormat) : Nat :=
  if mode = .timeCode ∧ format = .hmmss then 100 else 1

def address32 (raw : Text) (mode : AddressMode) (format : TimeCodeFormat) : Option Int :=
  (decimal32 (digitsIn raw)).bind fun value => int32 (value * scaleFor mode format)

/-- The address, to the whole second where the format has no frames. -/
def kept (mode : AddressMode) (format : TimeCodeFormat) (value : Int) : Int :=
  value / scaleFor mode format * scaleFor mode format

/-! ## Digits -/

variable {digits : Text} {mode : AddressMode} {format : TimeCodeFormat}

theorem decimal_eq (digits : Text) : decimal digits = Nat.ofDigitChars 10 digits 0 := by
  simp only [decimal, Nat.ofDigitChars_eq_foldl, Nat.mul_comm]

theorem decimal_zeros (k : Nat) (digits : Text) :
    decimal (List.replicate k '0' ++ digits) = decimal digits := by
  simp only [decimal_eq, Nat.ofDigitChars_append, Nat.ofDigitChars_replicate_zero, Nat.mul_zero]

/-- All zeros, or zeros before some other digit. -/
theorem digits_cases (some : digits ≠ []) :
    (∃ k, digits = List.replicate (k + 1) '0') ∨
      ∃ k d ds, d ≠ '0' ∧ digits = List.replicate k '0' ++ d :: ds := by
  induction digits with
  | nil => exact absurd rfl some
  | cons c rest ih =>
    by_cases zero : c = '0'
    · subst zero
      by_cases last : rest = []
      · exact Or.inl ⟨0, by simp [last]⟩
      · rcases ih last with ⟨k, rfl⟩ | ⟨k, d, ds, other, rfl⟩
        · exact Or.inl ⟨k + 1, rfl⟩
        · exact Or.inr ⟨k + 1, d, ds, other, rfl⟩
    · exact Or.inr ⟨0, c, rest, zero, rfl⟩

theorem significant_all_zeros (k : Nat) : significant (List.replicate (k + 1) '0') = ['0'] := by
  simp [significant]

theorem significant_head (k : Nat) {d : Char} (ds : Text) (other : d ≠ '0') :
    significant (List.replicate k '0' ++ d :: ds) = d :: ds := by
  simp [significant, other]

theorem significant_zeros (k : Nat) (some : digits ≠ []) :
    significant (List.replicate k '0' ++ digits) = significant digits := by
  rcases digits_cases some with ⟨j, rfl⟩ | ⟨j, d, ds, other, rfl⟩
  · rw [List.replicate_append_replicate, significant_all_zeros, ← Nat.add_assoc,
      significant_all_zeros]
  · rw [← List.append_assoc, List.replicate_append_replicate, significant_head _ _ other,
      significant_head _ _ other]

theorem decimal_significant (some : digits ≠ []) :
    decimal (significant digits) = decimal digits := by
  rcases digits_cases some with ⟨k, rfl⟩ | ⟨k, d, ds, other, rfl⟩
  · rw [significant_all_zeros, List.replicate_succ', decimal_zeros]
  · rw [significant_head k ds other, decimal_zeros]

theorem significant_length (digits : Text) : (significant digits).length ≤ digits.length := by
  unfold significant
  split_ifs
  · simp
  · exact (List.dropWhile_sublist _).length_le

/-! ## Reading a reply -/

theorem rdropWhile_append {p : Char → Bool} {l : Text} (r : Text) {c : Char} (last : p c = false) :
    (l ++ [c] ++ r).rdropWhile p = l ++ [c] ++ r.rdropWhile p := by
  induction r using List.reverseRecOn with
  | nil =>
    rw [List.append_nil, List.rdropWhile_nil, List.append_nil]
    exact List.rdropWhile_concat_neg p l c (by simp [last])
  | append_singleton r d ih =>
    rw [← List.append_assoc]
    by_cases drops : p d = true
    · rw [List.rdropWhile_concat_pos p _ d drops, List.rdropWhile_concat_pos p r d drops, ih]
    · rw [List.rdropWhile_concat_neg p _ d drops, List.rdropWhile_concat_neg p r d drops,
        ← List.append_assoc]

theorem digit_apart {c x : Char} (digit : isDigit c = true) (other : isDigit x = false) :
    c ≠ x := by
  rintro rfl
  simp [digit] at other

theorem digit_not_space {c : Char} (digit : isDigit c = true) : isSpace c = false := by
  have blank : c ≠ ' ' := digit_apart digit (by decide)
  simp only [isDigit, Bool.and_eq_true, decide_eq_true_eq] at digit
  have lower : '0'.toNat ≤ c.toNat := digit.1
  have zero : '0'.toNat = 48 := rfl
  simp only [isSpace, Bool.or_eq_false_iff, beq_eq_false_iff_ne, Bool.and_eq_false_iff,
    decide_eq_false_iff_not]
  exact ⟨blank, Or.inr (by omega)⟩

theorem digit_not_end {c : Char} (digit : isDigit c = true) :
    (c == commandTerminator || c == '\n' || c == ' ') = false := by
  simp only [Bool.or_eq_false_iff, beq_eq_false_iff_ne]
  exact ⟨⟨digit_apart digit (by decide), digit_apart digit (by decide)⟩,
    digit_apart digit (by decide)⟩

/-- What is left of a reply without its blanks and its end. -/
theorem strip_around (f : Framing) (number : Digits digits) :
    ∃ rest, stripTerminator (f.around digits) = f.mark.text ++ digits ++ rest ∧
      ∀ c, rest.head? = some c → isDigit c = false := by
  obtain ⟨first, tail, rfl⟩ := List.exists_cons_of_ne_nil number.some
  obtain ⟨init, last, split⟩ := List.eq_nil_or_concat' (first :: tail) |>.resolve_left (by simp)
  have lead : (f.around (first :: tail)).dropWhile isSpace =
      f.mark.text ++ first :: tail ++ f.rest := by
    have stops : (f.mark.text ++ first :: tail ++ f.rest).dropWhile isSpace =
        f.mark.text ++ first :: tail ++ f.rest := by
      have digit := digit_not_space (number.all first (by simp))
      cases f.mark <;> simp [Mark.text, digit] <;> decide
    rw [Framing.around, List.append_assoc, List.append_assoc, List.dropWhile_append_of_pos f.blank,
      ← List.append_assoc, stops]
  have final : isDigit last = true := number.all last (by simp [split])
  refine ⟨f.rest.rdropWhile fun c => c == commandTerminator || c == '\n' || c == ' ', ?_, ?_⟩
  · rw [stripTerminator, lead, split, ← List.append_assoc,
      rdropWhile_append f.rest (digit_not_end final)]
  · intro c head
    refine f.ends c ?_
    obtain ⟨tail, whole⟩ := List.rdropWhile_prefix
      (fun c => c == commandTerminator || c == '\n' || c == ' ') (l := f.rest)
    rw [← whole, List.head?_append, head]
    rfl

theorem digitsIn_around (f : Framing) (number : Digits digits) :
    (addressMarks (stripTerminator (f.around digits))).1 = f.mark.address ∧
      (addressMarks (stripTerminator (f.around digits))).2.takeWhile isDigit = digits := by
  obtain ⟨rest, stripped, ends⟩ := strip_around f number
  have run : (digits ++ rest).takeWhile isDigit = digits := by
    rw [List.takeWhile_append_of_pos number.all]
    cases rest with
    | nil => simp
    | cons c tail => simp [ends c rfl]
  rw [stripped]
  cases f.mark with
  | programme =>
    obtain ⟨first, tail, rfl⟩ := List.exists_cons_of_ne_nil number.some
    have digit := number.all first (by simp)
    have unmarked : addressMarks (first :: tail ++ rest) = ({}, first :: tail ++ rest) := by
      unfold addressMarks
      split
      next same =>
        rw [List.cons_append, List.cons.injEq] at same
        exact absurd same.1 (digit_apart digit (by decide))
      next same =>
        rw [List.cons_append, List.cons.injEq] at same
        exact absurd same.1 (digit_apart digit (by decide))
      · rfl
    simp only [Mark.text, List.nil_append, unmarked]
    exact ⟨rfl, run⟩
  | leadIn => exact ⟨rfl, run⟩
  | leadOut => exact ⟨rfl, run⟩

/-- What `ParseAddress` makes of a number, whatever stands around it. -/
theorem parseAddress_around (f : Framing) (number : Digits digits) :
    parseAddress (f.around digits) mode format =
      if addressDigits mode format < (significant digits).length then f.mark.address
      else
        { f.mark.address with
          valid := true, value := decimal (significant digits) * scaleFor mode format } := by
  obtain ⟨address, run⟩ := digitsIn_around f number
  unfold parseAddress
  generalize addressMarks (stripTerminator (f.around digits)) = marks at address run
  obtain ⟨marked, remaining⟩ := marks
  dsimp only at address run ⊢
  rw [run, address, if_neg (by simp [number.some])]
  by_cases wide : addressDigits mode format < (significant digits).length
  · rw [if_pos wide, if_pos wide]
  · rw [if_neg wide, if_neg wide]
    unfold scaleFor
    split_ifs <;> rfl

/-! ## Nothing overflows -/

theorem int32_some {n : Int} (lower : -2 ^ 31 ≤ n) (upper : n < 2 ^ 31) : int32 n = some n :=
  if_pos ⟨lower, upper⟩

theorem ten_pow {k : Nat} (small : k ≤ 9) : (0 : Int) < 10 ^ k ∧ (10 : Int) ^ k ≤ 10 ^ 9 := by
  have positive : 0 < 10 ^ k := Nat.pow_pos (by decide)
  have bound : 10 ^ k ≤ 10 ^ 9 := Nat.pow_le_pow_right (by decide) small
  exact ⟨by exact_mod_cast positive, by exact_mod_cast bound⟩

theorem limit32_some {k : Nat} (small : k ≤ 9) : limit32 k = some (10 ^ k) := by
  induction k with
  | zero => rfl
  | succ k ih =>
    obtain ⟨positive, bound⟩ := ten_pow small
    rw [limit32, ih (by omega), Option.bind_some, ← Int.pow_succ]
    exact int32_some (by omega) (by omega)

theorem largestValueIn32_some {k : Nat} (small : k ≤ 9) :
    largestValueIn32 k = some (largestValueIn k) := by
  obtain ⟨positive, bound⟩ := ten_pow small
  rw [largestValueIn32, limit32_some small, Option.bind_some]
  exact int32_some (by omega) (by omega)

theorem decimal32_some (all : ∀ c ∈ digits, isDigit c = true) (short : digits.length ≤ 9) :
    decimal32 digits = some (decimal digits : Int) := by
  suffices from_value : ∀ value : Nat, (value + 1) * 10 ^ digits.length ≤ 1000000000 →
      digits.foldlM (fun value digit =>
        (int32 (value * 10)).bind fun shifted => int32 (shifted + digitValue digit))
          (value : Int) =
        some ((digits.foldl
          (fun value digit => value * 10 + (digit.toNat - '0'.toNat)) value : Nat) : Int) by
    refine from_value 0 ?_
    have wide : 10 ^ digits.length ≤ 1000000000 := Nat.pow_le_pow_right (n := 10) (by decide) short
    omega
  clear short
  induction digits with
  | nil => exact fun value _ => rfl
  | cons c rest ih =>
    intro value bound
    have small : c.toNat - '0'.toNat ≤ 9 := by
      have digit := all c (by simp)
      simp only [isDigit, Bool.and_eq_true, decide_eq_true_eq] at digit
      have upper : c.toNat ≤ '9'.toNat := digit.2
      have nine : '9'.toNat = 57 := rfl
      have zero : '0'.toNat = 48 := rfl
      omega
    rw [List.length_cons, Nat.pow_succ, Nat.mul_comm (10 ^ _) 10, ← Nat.mul_assoc] at bound
    have positive : 1 ≤ 10 ^ rest.length := Nat.pow_pos (by decide)
    have fits : (value + 1) * 10 ≤ 1000000000 := le_trans (Nat.le_mul_of_pos_right _ positive) bound
    have next : (value * 10 + (c.toNat - '0'.toNat) + 1) * 10 ^ rest.length ≤ 1000000000 :=
      le_trans (Nat.mul_le_mul_right _ (by omega)) bound
    have step : ((int32 (value * 10)).bind fun shifted => int32 (shifted + digitValue c)) =
        some ((value * 10 + (c.toNat - '0'.toNat) : Nat) : Int) := by
      rw [int32_some (by omega) (by omega), Option.bind_some, digitValue,
        int32_some (by omega) (by omega)]
      push_cast
      rfl
    have later := ih (fun d member => all d (by simp [member])) _ next
    rw [List.foldlM_cons, step]
    exact later

theorem address32_some {raw : Text} (valid : (parseAddress raw mode format).valid = true) :
    address32 raw mode format = some (parseAddress raw mode format).value := by
  have unmarked := addressMarks_valid (stripTerminator raw)
  revert valid
  unfold parseAddress address32 digitsIn
  generalize addressMarks (stripTerminator raw) = marks at unmarked
  obtain ⟨address, remaining⟩ := marks
  dsimp only at unmarked ⊢
  have all := @significant_digits (remaining.takeWhile isDigit)
    fun c member => List.mem_takeWhile_imp member
  generalize significant (remaining.takeWhile isDigit) = digits at all
  split_ifs with silent wide
  · exact fun valid => absurd valid (by simp [unmarked])
  · exact fun valid => absurd valid (by simp [unmarked])
  all_goals
    intro _
    have short : digits.length ≤ addressDigits mode format := by omega
    have seven : addressDigits mode format ≤ 7 := by
      unfold addressDigits
      split_ifs <;> omega
    have bound : decimal digits < 10000000 :=
      lt_of_lt_of_le (decimal_lt all) (Nat.pow_le_pow_right (n := 10) (by decide)
        (le_trans short seven))
    rw [decimal32_some all (by omega), Option.bind_some]
  · rw [scaleFor, if_pos (by assumption)]
    exact int32_some (by omega) (by omega)
  · rw [scaleFor, if_neg (by assumption)]
    exact int32_some (by omega) (by omega)

/-! ## What goes out -/

variable {spec : WireSpec} {argument : Option Int} {bytes text : Text}

theorem encode_ok (ok : encodeCommand spec argument = .ok bytes) :
    ∃ text, encodeArgument spec argument = .ok text ∧
      bytes = spec.start ++ text ++ spec.suffix ++ [commandTerminator] ∧ bytes.length ≤ 20 := by
  unfold encodeCommand at ok
  split at ok
  · cases ok
  split at ok
  · cases ok
  next text encoded =>
    dsimp only at ok
    split at ok
    · cases ok
    next short =>
      cases ok
      exact ⟨text, encoded, rfl, by simpa [kMaximumCommandLength] using short⟩

/-- The text of an argument, and the argument. -/
theorem argument_ok (ok : encodeArgument spec argument = .ok text) :
    (spec.argument = .none ∧ argument = none ∧ text = []) ∨
      ∃ value, argument = some value ∧ 0 ≤ value ∧ value ≤ largestValueIn spec.argumentDigits ∧
        ((spec.argument = .decimal ∧ text = Nat.toDigits 10 value.toNat) ∨
          (spec.argument = .timeCodeHMMSS ∧ encodeHMMSS value.toNat = some text)) := by
  unfold encodeArgument at ok
  split_ifs at ok with none' given
  · cases ok
    exact Or.inl ⟨none', by simpa using given, rfl⟩
  right
  split at ok
  · cases ok
  next value =>
    split_ifs at ok with outside
    refine ⟨value, rfl, by omega, by omega, ?_⟩
    split at ok
    next decimal =>
      cases ok
      exact Or.inl ⟨decimal, rfl⟩
    next timeCode =>
      split at ok
      · cases ok
      next digits encoded =>
        cases ok
        exact Or.inr ⟨timeCode, encoded⟩
    · cases ok

theorem isDigit_eq (c : Char) : isDigit c = c.isDigit := by
  simp [isDigit, Char.isDigit, Char.le_def]

theorem toDigits_digits (n : Nat) : Digits (Nat.toDigits 10 n) := by
  refine ⟨Nat.toDigits_ne_nil, fun c member => ?_⟩
  rw [isDigit_eq]
  exact Nat.isDigit_of_mem_toDigits (by decide) (by decide) member

theorem digitText_eq {n : Nat} (small : n < 10) : digitText n = [Nat.digitChar n] := by
  have all : ∀ n, n < 10 → digitText n = [Nat.digitChar n] := by decide
  exact all n small

/-- The five digits of a time code to the second, and the number they make. -/
theorem encodeHMMSS_ok {value : Nat} (ok : encodeHMMSS value = some text) :
    Digits text ∧ text.length = 5 ∧ decimal text = value / 100 := by
  unfold encodeHMMSS at ok
  dsimp only at ok
  split_ifs at ok with outside
  simp only [not_or, not_lt] at outside
  obtain ⟨hours, minutes, seconds⟩ := outside
  rw [digitText_eq (by omega), digitText_eq (by omega), digitText_eq (by omega),
    digitText_eq (by omega), digitText_eq (by omega)] at ok
  cases ok
  refine ⟨⟨by simp, ?_⟩, rfl, ?_⟩
  · simp only [List.cons_append, List.nil_append, List.mem_cons, List.not_mem_nil, or_false]
    rintro c (rfl | rfl | rfl | rfl | rfl) <;> rw [isDigit_eq, Nat.isDigit_digitChar] <;>
      exact decide_eq_true (by omega)
  · simp only [decimal_eq, List.cons_append, List.nil_append]
    rw [Nat.ofDigitChars_cons_digitChar_of_lt_ten (by omega),
      Nat.ofDigitChars_cons_digitChar_of_lt_ten (by omega),
      Nat.ofDigitChars_cons_digitChar_of_lt_ten (by omega),
      Nat.ofDigitChars_cons_digitChar_of_lt_ten (by omega),
      Nat.ofDigitChars_cons_digitChar_of_lt_ten (by omega), Nat.ofDigitChars_nil]
    omega

/-- How a seek carries its address, and the width the reply is read with. -/
theorem seek_spec (model : Model) (mode : AddressMode) :
    ((model.commands (seekFor mode)).argument = .decimal ∧
      (model.commands (seekFor mode)).argumentDigits = addressDigits mode model.timeCodeFormat ∧
      scaleFor mode model.timeCodeFormat = 1) ∨
    ((model.commands (seekFor mode)).argument = .timeCodeHMMSS ∧
      addressDigits mode model.timeCodeFormat = 5 ∧ scaleFor mode model.timeCodeFormat = 100) := by
  cases model <;> cases mode <;> decide

/-- The digits of a seek are the address, to the whole second where there are no frames. -/
theorem seek_digits {model : Model} {value : Int}
    (ok : encodeArgument (model.commands (seekFor mode)) (some value) = .ok text) :
    Digits text ∧ (significant text).length ≤ addressDigits mode model.timeCodeFormat ∧
      (decimal (significant text) : Int) * scaleFor mode model.timeCodeFormat =
        kept mode model.timeCodeFormat value := by
  rcases argument_ok ok with ⟨-, none', -⟩ | ⟨value', given, positive, small, encoded⟩
  · cases none'
  cases given
  rcases seek_spec model mode with ⟨decimal', width, scale⟩ | ⟨timeCode, width, scale⟩
  · obtain ⟨-, rfl⟩ | ⟨timeCode, -⟩ := encoded
    swap
    · rw [decimal'] at timeCode
      cases timeCode
    have number := toDigits_digits value.toNat
    refine ⟨number, le_trans (significant_length _) ?_, ?_⟩
    · have bound : value.toNat < 10 ^ addressDigits mode model.timeCodeFormat := by
        rw [width, largestValueIn] at small
        have : (value.toNat : Int) < 10 ^ addressDigits mode model.timeCodeFormat := by omega
        exact_mod_cast this
      have some : 0 < addressDigits mode model.timeCodeFormat := by
        cases mode <;> simp only [addressDigits] <;> split_ifs <;> omega
      exact (Nat.length_toDigits_le_iff (by decide) some).mpr bound
    · rw [decimal_significant number.some, decimal_eq, Nat.ofDigitChars_ten_toDigits, kept, scale]
      omega
  · obtain ⟨decimal', -⟩ | ⟨-, encoded⟩ := encoded
    · rw [timeCode] at decimal'
      cases decimal'
    obtain ⟨number, length, same⟩ := encodeHMMSS_ok encoded
    refine ⟨number, ?_, ?_⟩
    · rw [width, ← length]
      exact significant_length _
    · rw [decimal_significant number.some, same, kept, scale]
      omega

/-! ## Telling commands apart -/

def allCommands : List PlayerCommand :=
  [.trayOpen, .trayClose, .play, .playWithoutStopCodes, .pause, .stillFrame, .stop, .stepForward,
    .stepReverse, .scanForward, .scanReverse, .multiSpeedForward, .multiSpeedReverse, .setSpeed,
    .seekFrame, .seekTimeCode, .seekChapter, .displayOn, .displayOff, .setAudio, .keyLockOn,
    .keyLockOff, .queryActiveMode, .queryAddress, .queryTimeCode, .queryDiscStatus,
    .queryStandardUserCode, .queryPioneerUserCode, .queryTvSystem, .queryPhysicalPosition]

theorem mem_allCommands (which : PlayerCommand) : which ∈ allCommands := by
  cases which <;> decide

/-- A command without its digits. -/
def letters (bytes : Text) : Text := bytes.filter fun c => !isDigit c

/-- Both seeks of a model whose time code goes out like a frame. -/
def BothSeeks (model : Model) (which other : PlayerCommand) : Prop :=
  model.timeCodeFormat = .hmmssff ∧
    ((which = .seekFrame ∧ other = .seekTimeCode) ∨ (which = .seekTimeCode ∧ other = .seekFrame))

instance {model : Model} {which other : PlayerCommand} :
    Decidable (BothSeeks model which other) :=
  inferInstanceAs (Decidable (_ ∧ _))

/-- Two commands with the same letters differ in digits of their own, or are the two seeks. -/
theorem letters_apart (model : Model) (which other : PlayerCommand) (apart : which ≠ other)
    (same : letters ((model.commands which).start ++ (model.commands which).suffix) =
      letters ((model.commands other).start ++ (model.commands other).suffix)) :
    ((model.commands which).argument = .none ∧ (model.commands other).argument = .none ∧
      (model.commands which).start ++ (model.commands which).suffix ≠
        (model.commands other).start ++ (model.commands other).suffix) ∨
    BothSeeks model which other := by
  have all : ∀ which ∈ allCommands, ∀ other ∈ allCommands, which ≠ other →
      letters ((model.commands which).start ++ (model.commands which).suffix) =
        letters ((model.commands other).start ++ (model.commands other).suffix) →
      ((model.commands which).argument = .none ∧ (model.commands other).argument = .none ∧
        (model.commands which).start ++ (model.commands which).suffix ≠
          (model.commands other).start ++ (model.commands other).suffix) ∨
      BothSeeks model which other := by
    cases model <;> decide +kernel
  exact all which (mem_allCommands which) other (mem_allCommands other) apart same

theorem argument_digits (ok : encodeArgument spec argument = .ok text) :
    ∀ c ∈ text, isDigit c = true := by
  rcases argument_ok ok with ⟨-, -, rfl⟩ | ⟨value, -, -, -, ⟨-, rfl⟩ | ⟨-, encoded⟩⟩
  · simp
  · exact (toDigits_digits _).all
  · exact (encodeHMMSS_ok encoded).1.all

theorem letters_command (ok : encodeCommand spec argument = .ok bytes) :
    letters bytes = letters (spec.start ++ spec.suffix) ++ [commandTerminator] := by
  obtain ⟨text, encoded, rfl, -⟩ := encode_ok ok
  have digits := argument_digits encoded
  have none' : text.filter (fun c => !isDigit c) = [] := by
    rw [List.filter_eq_nil_iff]
    intro c member
    simp [digits c member]
  simp only [letters, List.filter_append, none', List.append_assoc]
  rfl

/-- The two seeks agree only on the same number. -/
theorem seeks_same {argument' : Option Int}
    (frame : encodeCommand (levelIII .seekFrame) argument = .ok bytes)
    (timeCode : encodeCommand (levelIII .seekTimeCode) argument' = .ok bytes) :
    argument = argument' := by
  obtain ⟨text, encoded, rfl, -⟩ := encode_ok frame
  obtain ⟨text', encoded', same, -⟩ := encode_ok timeCode
  have texts : text = text' := by
    simpa [levelIII, commandWithArgument] using same
  rcases argument_ok encoded with ⟨none', -⟩ | ⟨value, rfl, positive, -, ⟨-, rfl⟩ | ⟨other, -⟩⟩
  · cases none'
  · rcases argument_ok encoded' with ⟨none', -⟩ | ⟨value', rfl, positive', -, ⟨-, rfl⟩ | ⟨other, -⟩⟩
    · cases none'
    · have digits := congrArg (Nat.ofDigitChars 10 · 0) texts
      simp only [Nat.ofDigitChars_ten_toDigits] at digits
      rw [show value = value' by omega]
    · cases other
  · cases other

theorem bytes_apart (model : Model) {which other : PlayerCommand} {argument' : Option Int}
    (apart : which ≠ other) (ok : encodeCommand (model.commands which) argument = .ok bytes)
    (ok' : encodeCommand (model.commands other) argument' = .ok bytes) :
    BothSeeks model which other ∧ argument = argument' := by
  have same := (letters_command ok).symm.trans (letters_command ok')
  rcases letters_apart model which other apart (List.append_cancel_right same) with
    ⟨none', none'', different⟩ | seeks
  · obtain ⟨text, encoded, rfl, -⟩ := encode_ok ok
    obtain ⟨text', encoded', wire, -⟩ := encode_ok ok'
    have bare {spec : WireSpec} {argument : Option Int} {text : Text}
        (none' : spec.argument = .none) (encoded : encodeArgument spec argument = .ok text) :
        text = [] := by
      rcases argument_ok encoded with ⟨-, -, empty⟩ | ⟨-, -, -, -, ⟨decimal, -⟩ | ⟨timeCode, -⟩⟩
      · exact empty
      · simp [none'] at decimal
      · simp [none'] at timeCode
    rw [bare none' encoded, bare none'' encoded'] at wire
    rw [List.append_nil, List.append_nil] at wire
    exact absurd (List.append_cancel_right wire) different
  · refine ⟨seeks, ?_⟩
    obtain ⟨format, both⟩ := seeks
    have frame : model.commands .seekFrame = levelIII .seekFrame := by
      cases model <;> rfl
    have timeCode : model.commands .seekTimeCode = levelIII .seekTimeCode := by
      cases model <;> first | rfl | cases format
    rcases both with ⟨rfl, rfl⟩ | ⟨rfl, rfl⟩
    · rw [frame] at ok
      rw [timeCode] at ok'
      exact seeks_same ok ok'
    · rw [timeCode] at ok
      rw [frame] at ok'
      exact (seeks_same ok' ok).symm

/-- What `IsConsistent` checks of a command. -/
structure Consistent (spec : WireSpec) : Prop where
  digits : spec.argument ≠ .none → 0 < spec.argumentDigits
  hmmss : spec.argument = .timeCodeHMMSS → 5 ≤ spec.argumentDigits
  fits : spec.start.length + spec.suffix.length + spec.argumentDigits + 1 ≤ 20

theorem commands_consistent (model : Model) (which : PlayerCommand) :
    Consistent (model.commands which) := by
  cases model <;> cases which <;> exact ⟨by decide, by decide, by decide⟩

theorem argument_length (consistent : Consistent spec)
    (ok : encodeArgument spec argument = .ok text) : text.length ≤ spec.argumentDigits := by
  rcases argument_ok ok with
    ⟨-, -, rfl⟩ | ⟨value, rfl, positive, small, ⟨decimal, rfl⟩ | ⟨timeCode, encoded⟩⟩
  · exact Nat.zero_le _
  · have bound : value.toNat < 10 ^ spec.argumentDigits := by
      have : (value.toNat : Int) < 10 ^ spec.argumentDigits := by
        rw [largestValueIn] at small
        omega
      exact_mod_cast this
    exact (Nat.length_toDigits_le_iff (by decide)
      (consistent.digits (by simp [decimal]))).mpr bound
  · rw [(encodeHMMSS_ok encoded).2.1]
    exact consistent.hmmss timeCode

/-- Every consistent command fits, whatever its argument. -/
theorem never_too_long (consistent : Consistent spec) :
    encodeCommand spec argument ≠ .error .commandTooLong := by
  have argued : encodeArgument spec argument ≠ .error .commandTooLong := by
    unfold encodeArgument
    split_ifs
    · simp
    · simp
    · split
      · simp
      · split_ifs
        · simp
        · split
          · simp
          · split <;> simp
          · simp
  unfold encodeCommand
  split_ifs
  · simp
  split
  next status failed =>
    intro same
    rw [failed, Except.error.inj same] at argued
    exact argued rfl
  next text encoded =>
    have length := argument_length consistent encoded
    have fits := consistent.fits
    have short : ¬ (spec.start ++ text ++ spec.suffix ++ [commandTerminator]).length >
        kMaximumCommandLength := by
      simp only [List.length_append, List.length_singleton, kMaximumCommandLength]
      omega
    dsimp only
    rw [if_neg short]
    simp

/-! ## Agreement -/

/-- For every model: a seek's digits read back as its address, whatever stands around them; zeros
before a number change nothing; a number too wide is no address; no product or sum of either side
leaves `int32_t`; every command fits; and two commands with the same bytes are the two seeks, with
the same number. -/
theorem addresses_agree (model : Model) :
    (∀ mode value bytes,
      encodeCommand (model.commands (seekFor mode)) (some value) = .ok bytes →
      ∃ digits, bytes = (model.commands (seekFor mode)).start ++ digits ++
          (model.commands (seekFor mode)).suffix ++ [commandTerminator] ∧ Digits digits ∧
        ∀ f : Framing, parseAddress (f.around digits) mode model.timeCodeFormat =
          { f.mark.address with
            valid := true, value := kept mode model.timeCodeFormat value }) ∧
    (∀ (f : Framing) digits k mode format, Digits digits →
      parseAddress (f.around (List.replicate k '0' ++ digits)) mode format =
        parseAddress (f.around digits) mode format) ∧
    (∀ (f : Framing) d ds k mode format, Digits (d :: ds) → d ≠ '0' →
      addressDigits mode format < (d :: ds).length →
      (parseAddress (f.around (List.replicate k '0' ++ d :: ds)) mode format).valid = false) ∧
    (∀ which, largestValueIn32 (model.commands which).argumentDigits =
      some (largestValueIn (model.commands which).argumentDigits)) ∧
    (∀ raw mode format, (parseAddress raw mode format).valid = true →
      address32 raw mode format = some (parseAddress raw mode format).value) ∧
    (∀ which argument bytes,
      encodeCommand (model.commands which) argument ≠ .error .commandTooLong ∧
      (encodeCommand (model.commands which) argument = .ok bytes →
        bytes.length ≤ kMaximumCommandLength)) ∧
    (∀ which other argument argument' bytes, which ≠ other →
      encodeCommand (model.commands which) argument = .ok bytes →
      encodeCommand (model.commands other) argument' = .ok bytes →
      BothSeeks model which other ∧ argument = argument') := by
  have padded {digits : Text} (k : Nat) (number : Digits digits) :
      Digits (List.replicate k '0' ++ digits) := by
    refine ⟨by simp [number.some], fun c member => ?_⟩
    rcases List.mem_append.mp member with zero | digit
    · rw [(List.mem_replicate.mp zero).2]
      decide
    · exact number.all c digit
  refine ⟨?_, ?_, ?_, ?_, ?_, ?_, ?_⟩
  · intro mode value bytes ok
    obtain ⟨text, encoded, wire, -⟩ := encode_ok ok
    obtain ⟨number, fits, same⟩ := seek_digits encoded
    refine ⟨text, wire, number, fun f => ?_⟩
    rw [parseAddress_around f number, if_neg (by omega), same]
  · intro f digits k mode format number
    rw [parseAddress_around f (padded k number), parseAddress_around f number,
      significant_zeros k number.some]
  · intro f d ds k mode format number other wide
    rw [parseAddress_around f (padded k number), significant_head k ds other, if_pos wide]
    cases f.mark <;> rfl
  · intro which
    refine largestValueIn32_some ?_
    cases model <;> cases which <;> decide
  · exact fun raw mode format valid => address32_some valid
  · intro which argument bytes
    refine ⟨never_too_long (commands_consistent model which), fun ok => ?_⟩
    obtain ⟨-, -, -, short⟩ := encode_ok ok
    exact short
  · exact fun which other argument argument' bytes apart ok ok' => bytes_apart model apart ok ok'

/-- On the LD-V2200 the frames of a time code are dropped, on the way out and so on the way
back. -/
theorem addresses_agree_ldV2200 :
    ∃ digits, ['T', 'M', '1', '2', '3', '4', '5', 'S', 'E', '\r'] =
        ['T', 'M'] ++ digits ++ ['S', 'E'] ++ [commandTerminator] ∧ Digits digits ∧
      ∀ f : Framing, parseAddress (f.around digits) .timeCode .hmmss =
        { f.mark.address with valid := true, value := 1234500 } :=
  (addresses_agree .ldV2200).1 .timeCode 1234517 _ (by decide)

/-- The two seeks of a model without a time-code form of its own, on one number. -/
theorem seeks_share_bytes :
    ¬ ∀ (model : Model) (which other : PlayerCommand) (argument argument' : Option Int)
        (bytes : Text), which ≠ other →
      encodeCommand (model.commands which) argument = .ok bytes →
      encodeCommand (model.commands other) argument' ≠ .ok bytes := by
  intro distinct
  exact distinct .ldV4300D .seekFrame .seekTimeCode (some 100) (some 100)
    ['F', 'R', '1', '0', '0', 'S', 'E', '\r'] (by decide) (by decide) (by decide)

end AddressRoundTrip
