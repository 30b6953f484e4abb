import DomesdayDuplicator.Capture.YamlReader
import DomesdayDuplicator.Update.DecimalText

/-!
# The lines a writer puts in a document

What a reader finds on each of them: the indentation, the key byte for byte, and the value the
scalar has.
-/

namespace Yaml

open DecimalText Manifest ManifestReader
open Json (quote backslash colon isDigit Digits)

/-! ## Quoted scalars -/

theorem readQuoted_end (behind : Text) : readQuoted (quote :: behind) = some ([], behind) := by
  rw [readQuoted.eq_def]
  rfl

theorem readQuoted_plain {c : Byte} (noQuote : c ≠ quote) (noSlash : c ≠ backslash)
    (behind : Text) :
    readQuoted (c :: behind) = (readQuoted behind).map fun (t, rest) => (c :: t, rest) := by
  rw [readQuoted.eq_def]
  exact (if_neg noQuote).trans (if_pos noSlash)

theorem readQuoted_escape {letter b : Byte} (stands : escape letter = some b)
    (other : letter ≠ 0x78) (behind : Text) :
    readQuoted (backslash :: letter :: behind) =
      (readQuoted behind).map fun (t, rest) => (b :: t, rest) := by
  rw [readQuoted]
  · rw [if_neg (by decide), if_neg (by decide), stands]
    rfl
  · exact fun high low rest same => absurd same other

theorem readQuoted_hex {high low b : Byte} (stands : hexByte high low = some b) (behind : Text) :
    readQuoted (backslash :: 0x78#8 :: high :: low :: behind) =
      (readQuoted behind).map fun (t, rest) => (b :: t, rest) := by
  rw [readQuoted.eq_def]
  refine (if_neg (by decide)).trans ((if_neg (by decide)).trans ?_)
  simp only [stands]
  rfl

theorem hexNibble_hexDigit : ∀ n < 16, hexNibble (hexDigit n) = some n := by
  decide

theorem hexByte_halves (c : Byte) :
    hexByte (hexDigit (c.toNat >>> 4)) (hexDigit (c.toNat &&& 0x0F)) = some c := by
  obtain ⟨high, low⟩ := nibbles_less c
  rw [hexByte, hexNibble_hexDigit _ high, hexNibble_hexDigit _ low]
  simp [nibbles_whole]

theorem readQuoted_quoted (c : Byte) (behind : Text) :
    readQuoted (quoted c ++ behind) = (readQuoted behind).map fun (t, rest) => (c :: t, rest) := by
  unfold quoted
  split
  · rename_i is
    subst is
    exact readQuoted_escape rfl (by decide) behind
  split
  · rename_i is
    subst is
    exact readQuoted_escape rfl (by decide) behind
  split
  · rename_i is
    subst is
    exact readQuoted_escape rfl (by decide) behind
  split
  · rename_i is
    subst is
    exact readQuoted_escape rfl (by decide) behind
  split
  · rename_i is
    subst is
    exact readQuoted_escape rfl (by decide) behind
  split
  · exact readQuoted_hex (hexByte_halves c) behind
  · rename_i noQuote noSlash _ _ _ _
    exact readQuoted_plain noQuote noSlash behind

/-- A quoted scalar is read as its bytes. -/
theorem readQuoted_scalar (value behind : Text) :
    readQuoted (value.flatMap quoted ++ quote :: behind) = some (value, behind) := by
  induction value with
  | nil => exact readQuoted_end behind
  | cons c value ih =>
    rw [List.flatMap_cons, List.append_assoc, readQuoted_quoted, ih]
    rfl

theorem isBreak_hexDigit : ∀ n < 16, isBreak (hexDigit n) = false := by
  decide

theorem quoted_unbroken (c : Byte) : ∀ b ∈ quoted c, isBreak b = false := by
  unfold quoted
  repeat' split
  all_goals simp only [List.mem_cons, List.not_mem_nil, or_false, forall_eq_or_imp, forall_eq]
  · decide
  · decide
  · decide
  · decide
  · decide
  · obtain ⟨high, low⟩ := nibbles_less c
    exact ⟨by decide, by decide, isBreak_hexDigit _ high, isBreak_hexDigit _ low⟩
  · rename_i noFeed noReturn _ _
    exact decide_eq_false (not_or.mpr ⟨noFeed, noReturn⟩)

def Unbroken (t : Text) : Prop := ∀ c ∈ t, isBreak c = false

instance (t : Text) : Decidable (Unbroken t) := List.decidableBAll _ t

theorem Unbroken.nil : Unbroken [] := fun _ here => absurd here List.not_mem_nil

theorem Unbroken.append {a b : Text} (first : Unbroken a) (second : Unbroken b) :
    Unbroken (a ++ b) := by
  intro c here
  rcases List.mem_append.mp here with inside | inside
  · exact first c inside
  · exact second c inside

theorem quoteScalar_unbroken (value : Text) : Unbroken (quoteScalar value) := by
  intro b here
  rcases List.mem_cons.mp here with rfl | here
  · decide
  rcases List.mem_append.mp here with inside | last
  · obtain ⟨c, -, from_⟩ := List.mem_flatMap.mp inside
    exact quoted_unbroken c b from_
  · rw [List.mem_singleton.mp last]
    decide

/-! ## Plain scalars -/

/-- What a scalar is read as. -/
def Scalar.node : Scalar → Node
  | .string value => .text value
  | .integer value => .integer value
  | .unsigned value => .integer value
  | .number value => .decimal (numberText value)
  | .boolean value => .boolean value

/-- A text that begins like a number. -/
def Signed (sign whole behind t : Text) : Prop :=
  t = sign ++ (whole ++ behind) ∧ (sign = [] ∨ sign = [0x2D]) ∧ Digits whole

theorem Signed.head {sign whole behind t : Text} (signed : Signed sign whole behind t) :
    ∃ c rest, t = c :: rest ∧ (isDigit c = true ∨ c = 0x2D) := by
  obtain ⟨rfl, rfl | rfl, filled, digits⟩ := signed
  · obtain ⟨d, ds, rfl⟩ := List.exists_cons_of_ne_nil filled
    exact ⟨d, ds ++ behind, rfl, Or.inl (digits d List.mem_cons_self)⟩
  · exact ⟨0x2D, whole ++ behind, rfl, Or.inr rfl⟩

theorem Signed.ne {sign whole behind t : Text} (signed : Signed sign whole behind t)
    {c : Byte} {rest : Text} (noDigit : isDigit c = false) (noSign : c ≠ 0x2D) : t ≠ c :: rest := by
  obtain ⟨d, ds, rfl, first⟩ := signed.head
  intro same
  obtain ⟨rfl, -⟩ := List.cons.inj same
  rcases first with digit | minus
  · exact absurd (digit.symm.trans noDigit) (by decide)
  · exact noSign minus

theorem readValue_signed {sign whole behind t : Text} (signed : Signed sign whole behind t) :
    readValue t = if isDecimal t then some (.decimal t) else (readInteger t).map .integer := by
  have truth : t ≠ text "true" := signed.ne rfl (by decide)
  have falsehood : t ≠ text "false" := signed.ne rfl (by decide)
  rw [readValue, readPlain, if_neg truth, if_neg falsehood]
  · exact fun inside => signed.ne rfl (by decide)
  · exact signed.ne rfl (by decide)

theorem isDecimal_signed {sign whole behind t : Text} (signed : Signed sign whole behind t)
    (ends : ∀ c ∈ behind.head?, isDigit c = false) :
    isDecimal t =
      (behind.head? = some 0x2E && !behind.tail.isEmpty && behind.tail.all isDigit) := by
  obtain ⟨rfl, minus, filled, digits⟩ := signed
  have unsigned : (if (sign ++ (whole ++ behind)).head? = some 0x2D then
      (sign ++ (whole ++ behind)).tail else sign ++ (whole ++ behind)) = whole ++ behind := by
    rcases minus with rfl | rfl
    · obtain ⟨d, ds, rfl⟩ := List.exists_cons_of_ne_nil filled
      refine if_neg fun same => ?_
      obtain rfl : d = 0x2D := Option.some.inj same
      exact absurd (digits _ List.mem_cons_self) (by decide)
    · rfl
  have stops : behind.takeWhile isDigit = [] ∧ behind.dropWhile isDigit = behind := by
    cases behind with
    | nil => exact ⟨rfl, rfl⟩
    | cons c behind =>
      have no : isDigit c = false := ends c rfl
      simp [no]
  have taken : (whole ++ behind).takeWhile isDigit = whole := by
    rw [List.takeWhile_append_of_pos digits, stops.1, List.append_nil]
  have dropped : (whole ++ behind).dropWhile isDigit = behind := by
    rw [List.dropWhile_append_of_pos digits, stops.2]
  rw [isDecimal, unsigned, taken, dropped, List.isEmpty_eq_false_iff.mpr filled]
  rfl

theorem digits_decimalText (n : Nat) : Digits (decimalText n) := by
  rw [decimalText_natCast]
  by_cases zero : n = 0
  · subst zero
    exact ⟨by decide, by decide⟩
  · obtain ⟨d, ds, split, digit, -, rest⟩ := digitBytes_head zero
    rw [split]
    refine ⟨by simp, fun c here => ?_⟩
    rcases List.mem_cons.mp here with rfl | inside
    · exact digit
    · exact rest c inside

theorem signed_decimalText (n : Int) : ∃ sign whole, Signed sign whole [] (decimalText n) := by
  cases n with
  | ofNat n => exact ⟨[], decimalText n, by simp, Or.inl rfl, digits_decimalText n⟩
  | negSucc n =>
    refine ⟨[0x2D], decimalText (n + 1 : Nat), ?_, Or.inr rfl, digits_decimalText (n + 1)⟩
    rw [decimalText_negSucc]
    simp

theorem readInteger_decimalText (n : Int) : readInteger (decimalText n) = some n := by
  cases n with
  | ofNat n =>
    have number := decimal_digitBytes n
    obtain ⟨d, ds, split, unsigned⟩ := digitBytes_unsigned n
    rw [Int.ofNat_eq_natCast, decimalText_natCast]
    rw [split] at number ⊢
    rw [readInteger, number]
    · rfl
    · intro rest same
      exact unsigned (List.cons.inj same).1
  | negSucc n =>
    rw [decimalText_negSucc, decimalText_natCast]
    exact congrArg (Option.map Int.negOfNat) (decimal_digitBytes (n + 1))

theorem numberText_parts (value : Formatted) :
    ∃ sign whole fraction, Signed sign whole (0x2E :: fraction) (numberText value) ∧
      Digits fraction := by
  obtain ⟨t, -, sign, whole, separator, fraction, rfl, minus, number, point, decimals⟩ := value
  have same {ds : Text} (digits : Digits ds) :
      (ds.map fun c : Byte => if c = 0x2C then 0x2E else c) = ds := by
    refine (List.map_congr_left fun c here => if_neg ?_).trans (List.map_id ds)
    rintro rfl
    exact absurd (digits.2 _ here) (by decide)
  refine ⟨sign, whole, fraction, ⟨?_, minus, number⟩, decimals⟩
  rw [numberText, List.map_append, List.map_append, List.map_cons, same number, same decimals,
    List.append_assoc]
  rcases minus with rfl | rfl <;> rcases point with rfl | rfl <;> rfl

theorem readValue_decimalText (n : Int) : readValue (decimalText n) = some (.integer n) := by
  obtain ⟨sign, whole, signed⟩ := signed_decimalText n
  rw [readValue_signed signed, isDecimal_signed signed (by simp), readInteger_decimalText]
  rfl

/-- A scalar is read as what was written. -/
theorem readValue_written (scalar : Scalar) : readValue scalar.written = some scalar.node := by
  cases scalar with
  | string value =>
    rw [Scalar.written, quoteScalar, readValue, readQuoted_scalar]
    rfl
  | integer value => exact readValue_decimalText value
  | unsigned value => exact readValue_decimalText value
  | number value =>
    obtain ⟨sign, whole, fraction, signed, filled, digits⟩ := numberText_parts value
    have ends : ∀ c ∈ (0x2E#8 :: fraction).head?, isDigit c = false := by
      rintro c ⟨⟩
      rfl
    have decimal : isDecimal (numberText value) = true := by
      rw [isDecimal_signed signed ends]
      simpa [filled] using digits
    rw [Scalar.written, readValue_signed signed, if_pos decimal]
    rfl
  | boolean value => cases value <;> rfl

/-! ## The texts of lines -/

theorem Signed.unbroken {sign whole behind t : Text} (signed : Signed sign whole behind t)
    (rest : Unbroken behind) : Unbroken t := by
  obtain ⟨rfl, minus, digits⟩ := signed
  have plain : Unbroken whole := by
    intro c here
    have digit := digits.2 c here
    refine Bool.eq_false_iff.mpr fun ends => ?_
    rcases of_decide_eq_true ends with rfl | rfl
    · exact absurd digit (by decide)
    · exact absurd digit (by decide)
  refine Unbroken.append ?_ (plain.append rest)
  rcases minus with rfl | rfl
  · exact Unbroken.nil
  · decide

theorem unbroken_decimalText (n : Int) : Unbroken (decimalText n) := by
  obtain ⟨sign, whole, signed⟩ := signed_decimalText n
  exact signed.unbroken Unbroken.nil

theorem unbroken_written (scalar : Scalar) : Unbroken scalar.written := by
  cases scalar with
  | string value => exact quoteScalar_unbroken value
  | integer value => exact unbroken_decimalText value
  | unsigned value => exact unbroken_decimalText value
  | number value =>
    obtain ⟨sign, whole, fraction, signed, digits⟩ := numberText_parts value
    have decimals : Signed [] fraction [] fraction := ⟨by simp, Or.inl rfl, digits⟩
    have point : Unbroken [0x2E] := by decide
    exact signed.unbroken (point.append (decimals.unbroken Unbroken.nil))
  | boolean value => cases value <;> decide

theorem unbroken_indent (depth : Nat) : Unbroken (writeIndent depth) := by
  intro c here
  rw [List.eq_of_mem_replicate here]
  decide

theorem unbroken_key (key : Text) : Unbroken (writeKey key) :=
  (quoteScalar_unbroken key).append (by decide)

theorem dropWhile_indent {p : Byte → Bool} (space : p 0x20 = true) {c : Byte} (other : p c = false)
    (depth : Nat) (rest : Text) :
    (writeIndent depth ++ c :: rest).dropWhile p = c :: rest := by
  have all : ∀ b ∈ writeIndent depth, p b = true := by
    intro b here
    rw [List.eq_of_mem_replicate here]
    exact space
  rw [List.dropWhile_append_of_pos all, List.dropWhile_cons_of_neg (by simp [other])]

theorem takeWhile_indent (depth : Nat) {c : Byte} (other : c ≠ 0x20) (rest : Text) :
    ((writeIndent depth ++ c :: rest).takeWhile (· = 0x20)).length = 2 * depth := by
  have all : ∀ b ∈ writeIndent depth, decide (b = 0x20) = true := by
    intro b here
    rw [List.eq_of_mem_replicate here]
    rfl
  rw [List.takeWhile_append_of_pos all, List.takeWhile_cons_of_neg (by simpa using other)]
  simp [writeIndent]

theorem writeKey_append (key behind : Text) :
    writeKey key ++ behind = quote :: (key.flatMap quoted ++ quote :: (colon :: behind)) := by
  simp [writeKey, quoteScalar]

theorem skipped_quote (depth : Nat) (rest : Text) :
    skipped (writeIndent depth ++ quote :: rest) = false := by
  rw [skipped, dropWhile_indent rfl rfl]
  rfl

/-- A line with only a key. -/
theorem lineOf_bare (depth : Nat) (key : Text) :
    lineOf (writeIndent depth ++ writeKey key) = some (.member (2 * depth) key none) := by
  rw [← List.append_nil (writeKey key), writeKey_append, lineOf, skipped_quote,
    if_neg Bool.false_ne_true, readMember, dropWhile_indent rfl rfl,
    takeWhile_indent depth (by decide)]
  simp only [readQuoted_scalar]
  rfl

/-- A line with a key and a value. -/
theorem lineOf_value (depth : Nat) (key : Text) {value : Text} {node : Node}
    (reads : readValue value = some node) :
    lineOf (writeIndent depth ++ (writeKey key ++ 0x20 :: value)) =
      some (.member (2 * depth) key (some node)) := by
  rw [writeKey_append, lineOf, skipped_quote, if_neg Bool.false_ne_true, readMember,
    dropWhile_indent rfl rfl, takeWhile_indent depth (by decide)]
  simp only [readQuoted_scalar]
  change some ((Option.map _ (readValue value)).getD _) = _
  rw [reads]
  rfl

theorem lineOf_comment (depth : Nat) (t : Text) :
    lineOf (writeIndent depth ++ 0x23 :: t) = none := by
  rw [lineOf, skipped, dropWhile_indent rfl rfl]
  rfl

end Yaml
