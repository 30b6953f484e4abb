import DomesdayDuplicator.Update.JsonGrammar

/-!
# Numbers as text

What `std::to_string` writes of an integer: its digits, the first of them no zero but for zero
itself, from which the number is read back. A byte as two hexadecimal digits is its halves.
-/

namespace DecimalText

open Json (isDigit)
open Manifest ManifestReader

/-- The bytes of decimal digits. -/
def digitBytes (digits : List Char) : Text := digits.map fun c => BitVec.ofNat 8 c.toNat

theorem encode_digit {c : Char} (digit : c.isDigit = true) :
    (String.utf8EncodeChar c).map UInt8.toBitVec = [BitVec.ofNat 8 c.toNat] := by
  simp only [Char.isDigit, Bool.and_eq_true, decide_eq_true_eq] at digit
  have most : c.val ≤ 0x7f := UInt32.le_trans digit.2 (by decide)
  rw [String.utf8EncodeChar_eq_singleton (Char.utf8Size_eq_one_iff.mpr most), List.map_singleton]
  refine congrArg (fun b => [b]) (BitVec.eq_of_toNat_eq ?_)
  rw [BitVec.toNat_ofNat]
  rfl

theorem text_digits {digits : List Char} (all : ∀ c ∈ digits, c.isDigit = true) :
    text (String.ofList digits) = digitBytes digits := by
  rw [text_ofList, digitBytes]
  induction digits with
  | nil => rfl
  | cons c digits ih =>
    rw [List.flatMap_cons, List.map_append, encode_digit (all c (by simp)),
      ih fun d here => all d (List.mem_cons_of_mem c here)]
    rfl

theorem decimalText_natCast (n : Nat) : decimalText n = digitBytes (Nat.toDigits 10 n) := by
  have repr : toString (n : Int) = String.ofList (Nat.toDigits 10 n) :=
    Nat.repr_eq_ofList_toDigits
  rw [decimalText, repr, text_digits]
  intro c here
  exact Nat.isDigit_of_mem_toDigits (by decide) (by decide) here

theorem digitBytes_snoc {n : Nat} (large : 10 ≤ n) :
    digitBytes (Nat.toDigits 10 n) =
      digitBytes (Nat.toDigits 10 (n / 10)) ++ [BitVec.ofNat 8 (48 + n % 10)] := by
  have less : n % 10 < 10 := Nat.mod_lt n (by decide)
  rw [Nat.toDigits_of_base_le (by decide) large, digitBytes, List.map_append, List.map_singleton,
    Nat.toNat_digitChar_of_lt_ten less]
  rfl

theorem digitBytes_single {n : Nat} (small : n < 10) :
    digitBytes (Nat.toDigits 10 n) = [BitVec.ofNat 8 (48 + n)] := by
  rw [Nat.toDigits_of_lt_base small, digitBytes, List.map_singleton,
    Nat.toNat_digitChar_of_lt_ten small]

theorem digit_byte : ∀ n < 10, isDigit (BitVec.ofNat 8 (48 + n)) = true ∧
    digitOf (BitVec.ofNat 8 (48 + n)) = some n ∧ (BitVec.ofNat 8 (48 + n) = 0x30#8 ↔ n = 0) := by
  decide

theorem text_append (a b : String) : text (a ++ b) = text a ++ text b := by
  simp [text]

theorem decimalText_negSucc (n : Nat) :
    decimalText (Int.negSucc n) = 0x2D :: decimalText (n + 1 : Nat) := by
  have sign : toString (Int.negSucc n) = "-" ++ toString ((n + 1 : Nat) : Int) := rfl
  rw [decimalText, sign, text_append]
  rfl

/-- The digits of a number but zero begin with one that is not. -/
theorem digitBytes_head {n : Nat} (some : n ≠ 0) :
    ∃ d ds, digitBytes (Nat.toDigits 10 n) = d :: ds ∧ isDigit d = true ∧ d ≠ 0x30 ∧
      ∀ c ∈ ds, isDigit c = true := by
  induction n using Nat.strongRecOn with
  | ind n ih =>
    by_cases small : n < 10
    · obtain ⟨digit, -, zero⟩ := digit_byte n small
      exact ⟨_, [], digitBytes_single small, digit, fun same => some (zero.mp same), by simp⟩
    · have less : n % 10 < 10 := Nat.mod_lt n (by decide)
      obtain ⟨d, ds, split, digit, proper, rest⟩ := ih (n / 10) (by omega) (by omega)
      refine ⟨d, ds ++ [BitVec.ofNat 8 (48 + n % 10)], ?_, digit, proper, ?_⟩
      · rw [digitBytes_snoc (by omega), split]
        rfl
      · intro c here
        rcases List.mem_append.mp here with old | new
        · exact rest c old
        · rw [List.mem_singleton.mp new]
          exact (digit_byte _ less).1

theorem decimal_digitBytes (n : Nat) : decimal (digitBytes (Nat.toDigits 10 n)) = some n := by
  have fold : (digitBytes (Nat.toDigits 10 n)).foldlM
      (fun value b => (digitOf b).map fun digit => value * 10 + digit) 0 = some n := by
    induction n using Nat.strongRecOn with
    | ind n ih =>
      by_cases small : n < 10
      · obtain ⟨-, digit, -⟩ := digit_byte n small
        rw [digitBytes_single small]
        simp [digit]
      · have less : n % 10 < 10 := Nat.mod_lt n (by decide)
        obtain ⟨-, digit, -⟩ := digit_byte (n % 10) less
        rw [digitBytes_snoc (by omega), List.foldlM_append, ih (n / 10) (by omega)]
        simp [digit]
        omega
  have filled : digitBytes (Nat.toDigits 10 n) ≠ [] := by
    simp [digitBytes, Nat.toDigits_ne_nil]
  obtain ⟨d, ds, split⟩ := List.exists_cons_of_ne_nil filled
  rw [split] at fold ⊢
  exact fold

theorem digitBytes_unsigned (n : Nat) :
    ∃ d ds, digitBytes (Nat.toDigits 10 n) = d :: ds ∧ d ≠ 0x2D := by
  by_cases zero : n = 0
  · subst zero
    exact ⟨0x30, [], rfl, by decide⟩
  · obtain ⟨d, ds, split, digit, -, -⟩ := digitBytes_head zero
    refine ⟨d, ds, split, ?_⟩
    rintro rfl
    exact absurd digit (by decide)

theorem fromChars_decimalText {n : Nat} (fits : n < 2 ^ 63) :
    fromChars (decimalText n) = some ↑n := by
  have number := decimal_digitBytes n
  obtain ⟨d, ds, split, unsigned⟩ := digitBytes_unsigned n
  rw [decimalText_natCast]
  rw [split] at number ⊢
  rw [fromChars, number]
  · simp
    omega
  · intro rest same
    exact unsigned (List.cons.inj same).1

/-! ## The halves of a byte -/

theorem nibbles_less (byte : Byte) : byte.toNat >>> 4 < 16 ∧ byte.toNat &&& 0x0F < 16 := by
  have bound := byte.isLt
  rw [Nat.shiftRight_eq_div_pow, Nat.and_two_pow_sub_one_eq_mod _ 4]
  omega

theorem nibbles_whole (byte : Byte) :
    16 * (byte.toNat >>> 4) + (byte.toNat &&& 0x0F) = byte.toNat := by
  rw [Nat.shiftRight_eq_div_pow, Nat.and_two_pow_sub_one_eq_mod _ 4]
  omega

end DecimalText
