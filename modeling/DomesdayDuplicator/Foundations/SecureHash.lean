import DomesdayDuplicator.Foundations.BlockStream
import Mathlib.Data.BitVec
import Mathlib.Data.List.GetD

/-!
# The secure hash with 32-bit words

The hash of a message as the standard describes it: padding to whole blocks, a schedule of
64 words for each block, 64 rounds on eight registers. The round constants and the initial
value are parameters.
-/

namespace SecureHash

open BlockStream

abbrev Byte := BitVec 8
abbrev Word := BitVec 32

def ch (x y z : Word) : Word := (x &&& y) ^^^ (~~~x &&& z)
def maj (x y z : Word) : Word := (x &&& y) ^^^ (x &&& z) ^^^ (y &&& z)
def bigSigma0 (x : Word) : Word := x.rotateRight 2 ^^^ x.rotateRight 13 ^^^ x.rotateRight 22
def bigSigma1 (x : Word) : Word := x.rotateRight 6 ^^^ x.rotateRight 11 ^^^ x.rotateRight 25
def smallSigma0 (x : Word) : Word := x.rotateRight 7 ^^^ x.rotateRight 18 ^^^ (x >>> 3)
def smallSigma1 (x : Word) : Word := x.rotateRight 17 ^^^ x.rotateRight 19 ^^^ (x >>> 10)

structure Registers where
  a : Word
  b : Word
  c : Word
  d : Word
  e : Word
  f : Word
  g : Word
  h : Word
  deriving DecidableEq, Repr

namespace Registers

def toList (r : Registers) : List Word := [r.a, r.b, r.c, r.d, r.e, r.f, r.g, r.h]

def add (r s : Registers) : Registers :=
  ⟨r.a + s.a, r.b + s.b, r.c + s.c, r.d + s.d, r.e + s.e, r.f + s.f, r.g + s.g, r.h + s.h⟩

def round (constant word : Word) (r : Registers) : Registers :=
  let first := r.h + bigSigma1 r.e + ch r.e r.f r.g + constant + word
  let second := bigSigma0 r.a + maj r.a r.b r.c
  ⟨first + second, r.a, r.b, r.c, r.d + first, r.e, r.f, r.g⟩

end Registers

/-! ## The schedule -/

def word (b : Nat → Byte) : Word := b 0 ++ b 1 ++ b 2 ++ b 3

def words (block : List Byte) : List Word :=
  (List.range 16).map fun t => word fun i => block.getD (4 * t + i) 0

def nextWord (ws : List Word) : Word :=
  let t := ws.length
  smallSigma1 (ws.getD (t - 2) 0) + ws.getD (t - 7) 0 + smallSigma0 (ws.getD (t - 15) 0) +
    ws.getD (t - 16) 0

def extend (ws : List Word) : Nat → List Word
  | 0 => ws
  | n + 1 => extend ws n ++ [nextWord (extend ws n)]

def schedule (block : List Byte) : List Word := extend (words block) 48

variable {ws : List Word} {block : List Byte}

theorem length_words : (words block).length = 16 := by
  rw [words, List.length_map, List.length_range]

theorem length_extend (n : Nat) : (extend ws n).length = ws.length + n := by
  induction n with
  | zero => rfl
  | succ n ih => rw [extend, List.length_append, ih, List.length_singleton, Nat.add_assoc]

theorem extend_early {n m t : Nat} (more : n ≤ m) (early : t < ws.length + n) :
    (extend ws m).getD t 0 = (extend ws n).getD t 0 := by
  induction m, more using Nat.le_induction with
  | base => rfl
  | succ m more ih =>
    rw [extend, List.getD_append _ _ _ _ (by rw [length_extend]; omega), ih]

theorem schedule_words {t : Nat} (early : t < 16) :
    (schedule block).getD t 0 = word fun i => block.getD (4 * t + i) 0 := by
  have length := @length_words block
  have first : (schedule block).getD t 0 = (words block).getD t 0 :=
    extend_early (Nat.zero_le 48) (by omega)
  rw [first, words, List.getD_eq_getElem _ _ (by simpa using early), List.getElem_map,
    List.getElem_range]

theorem schedule_next {t : Nat} (late : 16 ≤ t) (inside : t < 64) :
    (schedule block).getD t 0 = smallSigma1 ((schedule block).getD (t - 2) 0) +
      (schedule block).getD (t - 7) 0 + smallSigma0 ((schedule block).getD (t - 15) 0) +
      (schedule block).getD (t - 16) 0 := by
  have length : (words block).length = 16 := length_words
  have early : ∀ s < t, (extend (words block) 48).getD s 0 =
      (extend (words block) (t - 16)).getD s 0 :=
    fun s before => extend_early (by omega) (by omega)
  have here : (extend (words block) 48).getD t 0 =
      (extend (words block) (t - 16 + 1)).getD t 0 := extend_early (by omega) (by omega)
  have size : (extend (words block) (t - 16)).length = t := by
    rw [length_extend]
    omega
  rw [schedule, here, early (t - 2) (by omega), early (t - 7) (by omega),
    early (t - 15) (by omega), early (t - 16) (by omega), extend,
    List.getD_append_right _ _ _ _ (by omega), size, Nat.sub_self, List.getD_cons_zero, nextWord,
    size]

/-! ## The hash -/

def compress (constants : Nat → Word) (r : Registers) (block : List Byte) : Registers :=
  r.add ((List.range 64).foldl
    (fun r t => r.round (constants t) ((schedule block).getD t 0)) r)

/-- The length of a message in bits, modulo `2 ^ 64`, high byte first. -/
def lengthField (length : Nat) : List Byte :=
  (List.range 8).map fun i => (BitVec.ofNat 64 (8 * length) >>> (8 * (7 - i))).setWidth 8

def padding (length : Nat) : List Byte :=
  0x80 :: List.replicate ((119 - length % 64) % 64) 0 ++ lengthField length

def pad (message : List Byte) : List Byte := message ++ padding message.length

def Registers.bytes (r : Registers) : List Byte :=
  r.toList.flatMap fun w : Word => (List.range 4).map fun i => (w >>> (8 * (3 - i))).setWidth 8

def digest (constants : Nat → Word) (initial : Registers) (message : List Byte) : List Byte :=
  (blocks 64 (compress constants) ((pad message).length / 64) initial (pad message)).bytes

theorem length_padding (length : Nat) : (length + (padding length).length) % 64 = 0 := by
  simp only [padding, lengthField, List.cons_append, List.length_cons, List.length_append,
    List.length_replicate, List.length_map, List.length_range]
  omega

/-- The state after a message and its padding is the one the digest is read from. -/
theorem digest_eq (constants : Nat → Word) (initial : Registers) (message : List Byte) :
    digest constants initial message =
      (absorb 64 (compress constants) ⟨initial, []⟩ (pad message)).state.bytes := by
  have whole : (pad message).length = 64 * ((pad message).length / 64) := by
    have padded := length_padding message.length
    rw [← List.length_append] at padded
    change (pad message).length % 64 = 0 at padded
    omega
  rw [absorb_blocks (Nat.zero_lt_succ 63) whole]
  rfl

end SecureHash
