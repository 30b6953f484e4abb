import DomesdayDuplicator.Update.Minisign
import Mathlib.Data.List.Basic

/-!
# The form of a signature file

What `DecodeBase64` accepts is what standard base64 makes of some bytes, and a signature file is
determined by what it says up to its first line and its line endings.
-/

namespace SignatureForm

open Manifest (Byte Text text)
open Minisign

/-! ## Sextets -/

def symbolOf (sextet : Nat) : Byte := kAlphabet.getD sextet 0

def equals : Byte := 0x3D

/-- The bits of some bytes in sixes, with zeros behind the last. -/
def sextets : List Byte → List Nat
  | a :: b :: c :: rest =>
    a.toNat / 4 :: (a.toNat % 4 * 16 + b.toNat / 16) :: (b.toNat % 16 * 4 + c.toNat / 64) ::
      c.toNat % 64 :: sextets rest
  | [a, b] => [a.toNat / 4, a.toNat % 4 * 16 + b.toNat / 16, b.toNat % 16 * 4]
  | [a] => [a.toNat / 4, a.toNat % 4 * 16]
  | [] => []

/-- Standard base64 with padding. -/
def encodeBase64 (bytes : List Byte) : Text :=
  (sextets bytes).map symbolOf ++ List.replicate ((3 - bytes.length % 3) % 3) equals

theorem sextets_lt (bytes : List Byte) : ∀ sextet ∈ sextets bytes, sextet < 64 := by
  fun_induction sextets bytes with
  | case1 a b c rest ih =>
    intro sextet among
    have := a.isLt
    have := b.isLt
    rcases List.mem_cons.mp among with rfl | among
    · omega
    rcases List.mem_cons.mp among with rfl | among
    · omega
    rcases List.mem_cons.mp among with rfl | among
    · omega
    rcases List.mem_cons.mp among with rfl | among
    · omega
    exact ih sextet among
  | case2 a b =>
    intro sextet among
    have := a.isLt
    have := b.isLt
    simp only [List.mem_cons, List.not_mem_nil, or_false] at among
    omega
  | case3 a =>
    intro sextet among
    have := a.isLt
    simp only [List.mem_cons, List.not_mem_nil, or_false] at among
    omega
  | case4 => nofun

theorem length_sextets (bytes : List Byte) :
    (sextets bytes).length = bytes.length / 3 * 4 +
      (if bytes.length % 3 = 0 then 0 else bytes.length % 3 + 1) := by
  fun_induction sextets bytes with
  | case1 a b c rest ih =>
    simp only [List.length_cons, ih]
    have : (rest.length + 1 + 1 + 1) % 3 = rest.length % 3 := by omega
    rw [this]
    split <;> omega
  | case2 a b => simp
  | case3 a => simp
  | case4 => rfl

/-- The alphabet tells its symbols apart. -/
theorem symbolOf_spec {sextet : Nat} (small : sextet < 64) :
    kAlphabet.idxOf? (symbolOf sextet) = some sextet ∧ symbolOf sextet ≠ equals := by
  revert sextet
  decide +kernel

theorem idxOf_symbol {character : Byte} {sextet : Nat}
    (found : kAlphabet.idxOf? character = some sextet) :
    sextet < 64 ∧ character = symbolOf sextet := by
  obtain ⟨small, here, -⟩ := List.idxOf?_eq_some_iff.mp found
  refine ⟨Nat.lt_of_lt_of_le small (by decide +kernel), ?_⟩
  rw [symbolOf, List.getD_eq_getElem?_getD, List.getElem?_eq_getElem small, Option.getD_some, here]

/-! ## The decoder's loop -/

/-- The bits that belong to no byte yet, how many they are, and the bytes. -/
structure Unpacking where
  bits : Nat
  pending : Nat
  bytes : List Byte

def Unpacking.push (u : Unpacking) (sextet : Nat) : Unpacking :=
  if 2 ≤ u.bits then
    { bits := u.bits - 2
      pending := (u.pending * 64 + sextet) % 2 ^ (u.bits - 2)
      bytes := u.bytes ++ [BitVec.ofNat 8 ((u.pending * 64 + sextet) / 2 ^ (u.bits - 2))] }
  else ⟨u.bits + 6, u.pending * 64 + sextet, u.bytes⟩

/-- The accumulator holds the pending bits, below what it has let go. -/
structure Holds (state : Decoding) (u : Unpacking) : Prop where
  bits : state.bits = u.bits
  pending : state.accumulator.toNat % 2 ^ u.bits = u.pending
  bytes : state.decoded = u.bytes

theorem accumulate_toNat (accumulator : BitVec 32) {sextet : Nat} (small : sextet < 64) :
    ((accumulator <<< 6) ||| BitVec.ofNat 32 sextet).toNat =
      accumulator.toNat % 2 ^ 26 * 64 + sextet := by
  have shifted : accumulator.toNat <<< 6 % 2 ^ 32 = (accumulator.toNat % 2 ^ 26) <<< 6 := by
    rw [Nat.shiftLeft_eq, Nat.shiftLeft_eq]
    omega
  have low : sextet % 2 ^ 32 = sextet := Nat.mod_eq_of_lt (by omega)
  rw [BitVec.toNat_or, BitVec.toNat_shiftLeft, BitVec.toNat_ofNat, shifted, low,
    ← Nat.shiftLeft_add_eq_or_of_lt (show sextet < 2 ^ 6 from small), Nat.shiftLeft_eq]

theorem symbol_spec (state : Decoding) {sextet : Nat} (small : sextet < 64) :
    state.symbol (symbolOf sextet) =
      let accumulator := (state.accumulator <<< 6) ||| BitVec.ofNat 32 sextet
      if 8 ≤ state.bits + 6 then
        some ⟨accumulator, state.bits + 6 - 8,
          state.decoded ++ [(accumulator >>> (state.bits + 6 - 8)).setWidth 8]⟩
      else some ⟨accumulator, state.bits + 6, state.decoded⟩ := by
  rw [Decoding.symbol, (symbolOf_spec small).1]
  dsimp only [Option.map_some]
  split <;> rfl

/-- The first symbol of a group completes no byte. -/
theorem holds_first {state : Decoding} {u : Unpacking} (h : Holds state u) (empty : u.bits = 0)
    {sextet : Nat} (small : sextet < 64) :
    ∃ next, state.symbol (symbolOf sextet) = some next ∧ Holds next (u.push sextet) := by
  obtain ⟨bits, pending, bytes⟩ := h
  have whole := accumulate_toNat state.accumulator small
  have pushed : u.push sextet = ⟨6, u.pending * 64 + sextet, u.bytes⟩ := by
    rw [Unpacking.push, empty, if_neg (by decide)]
  rw [symbol_spec state small, bits, empty, pushed]
  rw [empty] at pending
  refine ⟨_, if_neg (by decide), ⟨rfl, ?_, bytes⟩⟩
  dsimp only
  rw [whole]
  omega

/-- And each of the others completes one. -/
theorem holds_later {state : Decoding} {u : Unpacking} (h : Holds state u) {left : Nat}
    (some_ : u.bits = left + 2) (known : left = 0 ∨ left = 2 ∨ left = 4) {sextet : Nat}
    (small : sextet < 64) :
    ∃ next, state.symbol (symbolOf sextet) = some next ∧ Holds next (u.push sextet) := by
  obtain ⟨bits, pending, bytes⟩ := h
  have whole := accumulate_toNat state.accumulator small
  have pushed : u.push sextet = ⟨left, (u.pending * 64 + sextet) % 2 ^ left,
      u.bytes ++ [BitVec.ofNat 8 ((u.pending * 64 + sextet) / 2 ^ left)]⟩ := by
    rw [Unpacking.push, some_, if_pos (by omega), Nat.add_sub_cancel]
  have fewer : left + 2 + 6 - 8 = left := by omega
  rw [symbol_spec state small, bits, some_, fewer, pushed]
  rw [some_] at pending
  refine ⟨_, if_pos (by omega), ⟨rfl, ?_, ?_⟩⟩
  · dsimp only
    rw [whole]
    rcases known with rfl | rfl | rfl <;> omega
  · dsimp only
    rw [bytes]
    congr 2
    apply BitVec.eq_of_toNat_eq
    rw [BitVec.toNat_setWidth, BitVec.toNat_ushiftRight, BitVec.toNat_ofNat, whole,
      Nat.shiftRight_eq_div_pow]
    rcases known with rfl | rfl | rfl <;> omega

/-- Between two symbols there are none, two, four or six bits. -/
theorem push_bits {u : Unpacking} (between : u.bits ∈ [0, 2, 4, 6]) (sextet : Nat) :
    (u.push sextet).bits ∈ [0, 2, 4, 6] := by
  simp only [List.mem_cons, List.not_mem_nil, or_false] at between ⊢
  rcases between with at_ | at_ | at_ | at_ <;> simp [Unpacking.push, at_]

theorem holds_symbol {state : Decoding} {u : Unpacking} (h : Holds state u)
    (between : u.bits ∈ [0, 2, 4, 6]) {sextet : Nat} (small : sextet < 64) :
    ∃ next, state.symbol (symbolOf sextet) = some next ∧ Holds next (u.push sextet) := by
  simp only [List.mem_cons, List.not_mem_nil, or_false] at between
  rcases between with at_ | at_ | at_ | at_
  · exact holds_first h at_ small
  · exact holds_later h at_ (.inl rfl) small
  · exact holds_later h at_ (.inr (.inl rfl)) small
  · exact holds_later h at_ (.inr (.inr rfl)) small

/-- The decoder unpacks the sextets of its symbols. -/
theorem foldlM_symbols {state : Decoding} {u : Unpacking} (h : Holds state u)
    (between : u.bits ∈ [0, 2, 4, 6]) {found : List Nat} (small : ∀ sextet ∈ found, sextet < 64) :
    ∃ last, (found.map symbolOf).foldlM Decoding.symbol state = some last ∧
      Holds last (found.foldl Unpacking.push u) := by
  induction found generalizing state u with
  | nil => exact ⟨state, rfl, h⟩
  | cons sextet rest ih =>
    obtain ⟨next, symbol, holds⟩ := holds_symbol h between (small sextet List.mem_cons_self)
    obtain ⟨last, run, ends⟩ := ih holds (push_bits between sextet)
      fun s among => small s (List.mem_cons_of_mem _ among)
    refine ⟨last, ?_, ends⟩
    rw [List.map_cons, List.foldlM_cons, symbol]
    exact run

theorem symbols_of_foldlM {state last : Decoding} {characters : Text}
    (run : characters.foldlM Decoding.symbol state = some last) :
    ∃ found : List Nat, (∀ sextet ∈ found, sextet < 64) ∧ characters = found.map symbolOf := by
  induction characters generalizing state with
  | nil => exact ⟨[], nofun, rfl⟩
  | cons character rest ih =>
    rw [List.foldlM_cons] at run
    cases symbol : state.symbol character with
    | none =>
      rw [symbol] at run
      cases run
    | some next =>
      rw [symbol] at run
      obtain ⟨found, small, rfl⟩ := ih run
      rw [Decoding.symbol, Option.map_eq_some_iff] at symbol
      obtain ⟨sextet, index, -⟩ := symbol
      obtain ⟨less, rfl⟩ := idxOf_symbol index
      exact ⟨sextet :: found, List.forall_mem_cons.mpr ⟨less, small⟩, rfl⟩

/-! ## Groups -/

theorem push_two (bytes : List Byte) (s t : Nat) :
    [s, t].foldl Unpacking.push ⟨0, 0, bytes⟩ =
      ⟨4, t % 16, bytes ++ [BitVec.ofNat 8 (s * 4 + t / 16)]⟩ := by
  have low : (s * 64 + t) % 16 = t % 16 := by omega
  have high : (s * 64 + t) / 16 = s * 4 + t / 16 := by omega
  simp [Unpacking.push, low, high]

theorem push_three (bytes : List Byte) (s t v : Nat) :
    [s, t, v].foldl Unpacking.push ⟨0, 0, bytes⟩ =
      ⟨2, v % 4, bytes ++ [BitVec.ofNat 8 (s * 4 + t / 16),
        BitVec.ofNat 8 (t % 16 * 16 + v / 4)]⟩ := by
  have low : (t % 16 * 64 + v) % 4 = v % 4 := by omega
  have high : (t % 16 * 64 + v) / 4 = t % 16 * 16 + v / 4 := by omega
  show ([s, t].foldl Unpacking.push ⟨0, 0, bytes⟩).push v = _
  rw [push_two]
  simp [Unpacking.push, low, high]

theorem push_four (bytes : List Byte) (s t v w : Nat) :
    [s, t, v, w].foldl Unpacking.push ⟨0, 0, bytes⟩ =
      ⟨0, 0, bytes ++ [BitVec.ofNat 8 (s * 4 + t / 16), BitVec.ofNat 8 (t % 16 * 16 + v / 4),
        BitVec.ofNat 8 (v % 4 * 64 + w)]⟩ := by
  show ([s, t, v].foldl Unpacking.push ⟨0, 0, bytes⟩).push w = _
  rw [push_three]
  simp [Unpacking.push, Nat.mod_one]

/-- Bytes are unpacked from their sextets, with nothing but zeros left. -/
theorem unpack_sextets (bytes done : List Byte) :
    ∃ bits, bits < 6 ∧ (sextets bytes).foldl Unpacking.push ⟨0, 0, done⟩ =
      ⟨bits, 0, done ++ bytes⟩ := by
  fun_induction sextets bytes generalizing done with
  | case1 a b c rest ih =>
    have first := a.isLt
    have second := b.isLt
    have third := c.isLt
    obtain ⟨bits, few, run⟩ := ih (done ++ [a, b, c])
    refine ⟨bits, few, ?_⟩
    have group : [a.toNat / 4, a.toNat % 4 * 16 + b.toNat / 16, b.toNat % 16 * 4 + c.toNat / 64,
        c.toNat % 64].foldl Unpacking.push ⟨0, 0, done⟩ = ⟨0, 0, done ++ [a, b, c]⟩ := by
      rw [push_four]
      congr 3
      · apply BitVec.eq_of_toNat_eq
        rw [BitVec.toNat_ofNat]
        omega
      congr 1
      · apply BitVec.eq_of_toNat_eq
        rw [BitVec.toNat_ofNat]
        omega
      congr 1
      · apply BitVec.eq_of_toNat_eq
        rw [BitVec.toNat_ofNat]
        omega
    show (sextets rest).foldl Unpacking.push ([a.toNat / 4, a.toNat % 4 * 16 + b.toNat / 16,
      b.toNat % 16 * 4 + c.toNat / 64, c.toNat % 64].foldl Unpacking.push ⟨0, 0, done⟩) = _
    rw [group, run, List.append_assoc]
    rfl
  | case2 a b =>
    have first := a.isLt
    have second := b.isLt
    refine ⟨2, by decide, ?_⟩
    rw [push_three]
    congr 1
    · omega
    congr 2
    · apply BitVec.eq_of_toNat_eq
      rw [BitVec.toNat_ofNat]
      omega
    congr 1
    · apply BitVec.eq_of_toNat_eq
      rw [BitVec.toNat_ofNat]
      omega
  | case3 a =>
    have first := a.isLt
    refine ⟨4, by decide, ?_⟩
    rw [push_two]
    congr 1
    · omega
    congr 2
    · apply BitVec.eq_of_toNat_eq
      rw [BitVec.toNat_ofNat]
      omega
  | case4 => exact ⟨0, by decide, by rw [List.append_nil]; rfl⟩

/-- Sextets that leave no bits set are those of the bytes. -/
theorem sextets_of_unpacked : ∀ {found : List Nat} (done : List Byte),
    (∀ sextet ∈ found, sextet < 64) →
    (found.foldl Unpacking.push ⟨0, 0, done⟩).bits < 6 →
    (found.foldl Unpacking.push ⟨0, 0, done⟩).pending = 0 →
    ∃ bytes, (found.foldl Unpacking.push ⟨0, 0, done⟩).bytes = done ++ bytes ∧
      found = sextets bytes
  | [], done, _, _, _ => ⟨[], (List.append_nil _).symm, rfl⟩
  | [s], done, _, few, _ => absurd few (by simp [Unpacking.push])
  | [s, t], done, small, _, zero => by
    have first : s < 64 := small s (by simp)
    have second : t < 64 := small t (by simp)
    rw [push_two] at zero ⊢
    refine ⟨_, rfl, ?_⟩
    dsimp only at zero
    simp only [sextets, BitVec.toNat_ofNat]
    congr 1
    · omega
    congr 1
    omega
  | [s, t, v], done, small, _, zero => by
    have first : s < 64 := small s (by simp)
    have second : t < 64 := small t (by simp)
    have third : v < 64 := small v (by simp)
    rw [push_three] at zero ⊢
    refine ⟨_, rfl, ?_⟩
    dsimp only at zero
    simp only [sextets, BitVec.toNat_ofNat]
    congr 1
    · omega
    congr 1
    · omega
    congr 1
    omega
  | s :: t :: v :: w :: rest, done, small, few, zero => by
    have first : s < 64 := small s (by simp)
    have second : t < 64 := small t (by simp)
    have third : v < 64 := small v (by simp)
    have fourth : w < 64 := small w (by simp)
    have group : (s :: t :: v :: w :: rest).foldl Unpacking.push ⟨0, 0, done⟩ =
        rest.foldl Unpacking.push ([s, t, v, w].foldl Unpacking.push ⟨0, 0, done⟩) := rfl
    rw [group, push_four] at few zero ⊢
    obtain ⟨bytes, whole, same⟩ := sextets_of_unpacked _
      (fun sextet among => small sextet (by simp [among])) few zero
    refine ⟨_ :: _ :: _ :: bytes, by rw [whole, List.append_assoc]; rfl, ?_⟩
    simp only [sextets, BitVec.toNat_ofNat, ← same]
    congr 1
    · omega
    congr 1
    · omega
    congr 1
    · omega
    congr 1
    omega

/-! ## What is accepted -/

theorem leftover_iff {state : Decoding} {u : Unpacking} (h : Holds state u)
    (between : u.bits ∈ [0, 2, 4, 6]) :
    (6 ≤ state.bits ∨ state.accumulator &&& ((1 <<< state.bits) - 1) ≠ 0) ↔
      ¬ (u.bits < 6 ∧ u.pending = 0) := by
  obtain ⟨bits, pending, -⟩ := h
  have mask {k : Nat} {low : BitVec 32} (value : low.toNat = 2 ^ k - 1) :
      state.accumulator &&& low = 0 ↔ state.accumulator.toNat % 2 ^ k = 0 := by
    rw [← BitVec.toNat_inj, BitVec.toNat_and, value, Nat.and_two_pow_sub_one_eq_mod]
    rfl
  rw [bits, ← pending, Classical.not_and_iff_not_or_not, Nat.not_lt]
  simp only [List.mem_cons, List.not_mem_nil, or_false] at between
  rcases between with at_ | at_ | at_ | at_
  · rw [at_, ne_eq, mask (k := 0) rfl]
  · rw [at_, ne_eq, mask (k := 2) rfl]
  · rw [at_, ne_eq, mask (k := 4) rfl]
  · rw [at_]
    exact ⟨fun _ => .inl le_rfl, fun _ => .inl le_rfl⟩

theorem foldl_bits {u : Unpacking} (between : u.bits ∈ [0, 2, 4, 6]) (found : List Nat) :
    (found.foldl Unpacking.push u).bits ∈ [0, 2, 4, 6] := by
  induction found generalizing u with
  | nil => exact between
  | cons sextet rest ih => exact ih (push_bits between sextet)

def paddingOf (encoded : Text) : Nat :=
  ((encoded.reverse.take 2).takeWhile (· == 0x3D)).length

theorem padding_split (encoded : Text) :
    encoded = encoded.take (encoded.length - paddingOf encoded) ++
      List.replicate (paddingOf encoded) equals ∧ paddingOf encoded ≤ 2 := by
  have all : (encoded.reverse.take 2).takeWhile (· == 0x3D) =
      List.replicate (paddingOf encoded) equals := by
    refine List.eq_replicate_of_mem fun b among => ?_
    have here := List.mem_takeWhile_imp (p := fun c : Byte => c == 0x3D) among
    exact eq_of_beq here
  have front : (encoded.reverse.take 2).takeWhile (· == 0x3D) <+: encoded.reverse :=
    (List.takeWhile_prefix _).trans (List.take_prefix _ _)
  rw [all] at front
  obtain ⟨rest, whole⟩ := front
  have turned : encoded = rest.reverse ++ List.replicate (paddingOf encoded) equals := by
    rw [← List.reverse_replicate, ← List.reverse_append, whole, List.reverse_reverse]
  refine ⟨?_, (List.takeWhile_prefix _).length_le.trans (List.length_take_le _ _)⟩
  have length : encoded.length - paddingOf encoded = rest.reverse.length := by
    have := congrArg List.length turned
    rw [List.length_append, List.length_replicate] at this
    omega
  rw [length]
  nth_rewrite 2 [turned]
  rw [List.take_left]
  exact turned

/-- Behind symbols of the alphabet the padding is counted as it is. -/
theorem padding_encoded {found : List Nat} (small : ∀ sextet ∈ found, sextet < 64) {pads : Nat}
    (few : pads ≤ 2) : paddingOf (found.map symbolOf ++ List.replicate pads equals) = pads := by
  have ends : (found.map symbolOf ++ List.replicate pads equals).reverse.take 2 =
      List.replicate pads equals ++ (found.map symbolOf).reverse.take (2 - pads) := by
    rw [List.reverse_append, List.reverse_replicate, List.take_append, List.take_replicate,
      List.length_replicate, Nat.min_eq_right few]
  have none : ((found.map symbolOf).reverse.take (2 - pads)).takeWhile (· == 0x3D) = [] := by
    refine List.eq_nil_iff_forall_not_mem.mpr fun b among => ?_
    have same := List.mem_takeWhile_imp (p := fun c : Byte => c == 0x3D) among
    have member := List.mem_of_mem_take ((List.takeWhile_prefix _).mem among)
    obtain ⟨sextet, listed, rfl⟩ := List.mem_map.mp (List.mem_reverse.mp member)
    exact (symbolOf_spec (small sextet listed)).2 (eq_of_beq same)
  rw [paddingOf, ends, List.takeWhile_append_of_pos, none, List.append_nil, List.length_replicate]
  intro b among
  rw [List.eq_of_mem_replicate among]
  rfl

theorem decodeBase64_eq (encoded : Text) (some_ : encoded ≠ []) (fours : encoded.length % 4 = 0) :
    decodeBase64 encoded =
      match (encoded.take (encoded.length - paddingOf encoded)).foldlM Decoding.symbol
        ⟨0, 0, []⟩ with
      | none => none
      | some last =>
        if 6 ≤ last.bits ∨ last.accumulator &&& ((1 <<< last.bits) - 1) ≠ 0 then none
        else some last.decoded := by
  rw [decodeBase64, if_neg]
  · rfl
  · rintro (none | uneven)
    · exact some_ none
    · exact uneven fours

theorem holds_start : Holds ⟨0, 0, []⟩ ⟨0, 0, []⟩ := ⟨rfl, rfl, rfl⟩

/-- What is accepted is the encoding of what it decodes to. -/
theorem encoded_of_decoded {encoded : Text} {bytes : List Byte}
    (decodes : decodeBase64 encoded = some bytes) :
    bytes ≠ [] ∧ encoded = encodeBase64 bytes := by
  have some_ : encoded ≠ [] := by
    rintro rfl
    cases decodes
  have fours : encoded.length % 4 = 0 := by
    by_contra uneven
    rw [decodeBase64, if_pos (.inr uneven)] at decodes
    cases decodes
  rw [decodeBase64_eq encoded some_ fours] at decodes
  obtain ⟨split, few⟩ := padding_split encoded
  cases run : (encoded.take (encoded.length - paddingOf encoded)).foldlM Decoding.symbol
      ⟨0, 0, []⟩ with
  | none =>
    rw [run] at decodes
    cases decodes
  | some last =>
    rw [run] at decodes
    dsimp only at decodes
    obtain ⟨found, small, symbols⟩ := symbols_of_foldlM run
    obtain ⟨last', run', holds⟩ := foldlM_symbols holds_start (by simp) small
    rw [← symbols, run] at run'
    obtain rfl := Option.some.inj run'
    rw [if_congr (leftover_iff holds (foldl_bits (by simp) found)) rfl rfl] at decodes
    split at decodes
    · cases decodes
    next clean =>
      obtain ⟨bits, pending⟩ := not_not.mp clean
      obtain rfl := Option.some.inj decodes
      obtain ⟨bytes, whole, same⟩ := sextets_of_unpacked [] small bits pending
      rw [List.nil_append] at whole
      rw [holds.bytes, whole]
      have length := congrArg List.length split
      rw [List.length_append, List.length_replicate, symbols, List.length_map, same,
        length_sextets] at length
      rw [symbols] at split
      have long := List.length_pos_of_ne_nil some_
      have pads : paddingOf encoded = (3 - bytes.length % 3) % 3 := by
        split at length <;> omega
      constructor
      · rintro rfl
        rw [pads] at length
        exact some_ (List.length_eq_zero_iff.mp length)
      · rw [encodeBase64, ← same, ← pads]
        exact split

/-- Every encoding is accepted, and decoded to what was encoded. -/
theorem decoded_encoded {bytes : List Byte} (some_ : bytes ≠ []) :
    decodeBase64 (encodeBase64 bytes) = some bytes := by
  have small := sextets_lt bytes
  have few : (3 - bytes.length % 3) % 3 ≤ 2 := by omega
  have padding : paddingOf (encodeBase64 bytes) = (3 - bytes.length % 3) % 3 :=
    padding_encoded small few
  have length : (encodeBase64 bytes).length =
      (sextets bytes).length + (3 - bytes.length % 3) % 3 := by
    rw [encodeBase64, List.length_append, List.length_map, List.length_replicate]
  have body : (encodeBase64 bytes).take
      ((encodeBase64 bytes).length - paddingOf (encodeBase64 bytes)) =
        (sextets bytes).map symbolOf := by
    rw [padding, length, Nat.add_sub_cancel, encodeBase64,
      List.take_left' (List.length_map _)]
  have long := List.length_pos_of_ne_nil some_
  have fours : (encodeBase64 bytes).length % 4 = 0 := by
    rw [length, length_sextets]
    split <;> omega
  have filled : encodeBase64 bytes ≠ [] := by
    intro none
    rw [none, List.length_nil, length_sextets] at length
    split at length <;> omega
  obtain ⟨last, run, holds⟩ := foldlM_symbols holds_start (by simp) small
  obtain ⟨bits, below, unpacked⟩ := unpack_sextets bytes []
  rw [unpacked] at holds
  rw [decodeBase64_eq _ filled fours, body, run]
  dsimp only
  have between := foldl_bits (u := ⟨0, 0, []⟩) (by simp) (sextets bytes)
  rw [unpacked] at between
  rw [if_neg (fun left => (leftover_iff holds between).mp left ⟨below, rfl⟩), holds.bytes]
  rfl

/-! ## The file -/

/-- The lines of a file, each with or without a carriage return, and blank ones behind them. -/
def Laid (lines : List Text) (contents : Text) : Prop :=
  ∃ (blank : Nat) (returns : List Text), returns.length = lines.length + blank ∧
    (∀ r ∈ returns, r = [] ∨ r = [0x0D]) ∧
    contents = [0x0A].intercalate
      (List.zipWith (· ++ ·) (lines ++ List.replicate blank []) returns)

/-- What `dropReturn` takes off a line. -/
def returnOf (line : Text) : Text := if line.getLast? = some 0x0D then [0x0D] else []

theorem dropReturn_append (line : Text) : dropReturn line ++ returnOf line = line := by
  rw [dropReturn, returnOf]
  split
  next ends =>
    obtain ⟨front, rfl⟩ := List.getLast?_eq_some_iff.mp ends
    rw [List.dropLast_concat]
  · exact List.append_nil line

theorem rdropWhile_blank (lines : List Text) :
    ∃ blank, lines = lines.rdropWhile List.isEmpty ++ List.replicate blank [] := by
  refine ⟨(lines.reverse.takeWhile List.isEmpty).length, ?_⟩
  have blank : lines.reverse.takeWhile List.isEmpty =
      List.replicate (lines.reverse.takeWhile List.isEmpty).length [] := by
    refine List.eq_replicate_of_mem fun line among => ?_
    exact List.isEmpty_iff.mp (List.mem_takeWhile_imp among)
  rw [← List.reverse_replicate, ← blank, List.rdropWhile, ← List.reverse_append,
    List.takeWhile_append_dropWhile, List.reverse_reverse]

theorem laid_splitLines (contents : Text) : Laid (splitLines contents) contents := by
  obtain ⟨blank, whole⟩ := rdropWhile_blank ((contents.splitOn 0x0A).map dropReturn)
  refine ⟨blank, (contents.splitOn 0x0A).map returnOf, ?_, ?_, ?_⟩
  · have length := congrArg List.length whole
    rw [List.length_map, List.length_append, List.length_replicate] at length
    rw [List.length_map, splitLines]
    exact length
  · intro r among
    obtain ⟨line, -, rfl⟩ := List.mem_map.mp among
    rw [returnOf]
    split
    · exact .inr rfl
    · exact .inl rfl
  · have pieces : List.zipWith (· ++ ·) ((contents.splitOn 0x0A).map dropReturn)
        ((contents.splitOn 0x0A).map returnOf) = contents.splitOn 0x0A := by
      rw [List.zipWith_map, List.zipWith_self]
      exact (List.map_congr_left fun line _ => dropReturn_append line).trans (List.map_id _)
    rw [splitLines, ← whole, pieces, List.intercalate_splitOn]

/-- The lines behind the untrusted comment. -/
def signedLines (signature : MinisignSignature) : List Text :=
  [encodeBase64 (text "ED" ++ signature.keyId ++ signature.signature),
    kTrustedCommentPrefix ++ signature.trustedComment, encodeBase64 signature.globalSignature]

/-- The lines of a file that is read are spelled by what is read, all but the first. -/
theorem lines_of_parsed {contents : Text} {signature : MinisignSignature}
    (parses : parseMinisignSignature contents = .ok signature) :
    ∃ untrusted, kUntrustedCommentPrefix <+: untrusted ∧
      splitLines contents = untrusted :: signedLines signature := by
  rw [parseMinisignSignature] at parses
  split at parses
  next untrusted line trusted covering lines =>
    split at parses
    · cases parses
    next first =>
      split at parses
      · cases parses
      next third =>
        split at parses
        · cases parses
        next decoded data =>
          split at parses
          · cases parses
          next tag =>
            split at parses
            · cases parses
            next global covered =>
              obtain rfl := Except.ok.inj parses
              obtain ⟨decodes, size⟩ := Option.filter_eq_some_iff.mp data
              obtain ⟨covers, -⟩ := Option.filter_eq_some_iff.mp covered
              obtain ⟨-, rfl⟩ := encoded_of_decoded decodes
              obtain ⟨-, rfl⟩ := encoded_of_decoded covers
              refine ⟨untrusted, List.isPrefixOf_iff_prefix.mp (not_not.mp first), ?_⟩
              obtain ⟨comment, rfl⟩ := List.isPrefixOf_iff_prefix.mp (not_not.mp third)
              have long : decoded.length = 74 := eq_of_beq size
              have last : (decoded.drop 10).take 64 = (decoded.drop 2).drop 8 := by
                rw [List.drop_drop]
                exact List.take_of_length_le (by rw [List.length_drop, long])
              have parts : text "ED" ++ (decoded.drop 2).take 8 ++ (decoded.drop 10).take 64 =
                  decoded := by
                rw [last, List.append_assoc, List.take_append_drop, ← not_not.mp tag,
                  List.take_append_drop]
              rw [lines, signedLines]
              dsimp only
              rw [parts, List.drop_left]
  · cases parses

/-- And such lines are read, whatever the first says after its prefix. -/
theorem parsed_of_lines {contents untrusted : Text} {signature : MinisignSignature}
    (begins : kUntrustedCommentPrefix <+: untrusted)
    (lines : splitLines contents = untrusted :: signedLines signature)
    (key : signature.keyId.length = 8) (body : signature.signature.length = 64)
    (global : signature.globalSignature.length = 64) :
    parseMinisignSignature contents = .ok signature := by
  obtain ⟨keyId, sig, comment, covering⟩ := signature
  dsimp only at key body global
  have tag : (text "ED").length = 2 := by decide
  have data : decodeBase64 (encodeBase64 (text "ED" ++ keyId ++ sig)) =
      some (text "ED" ++ keyId ++ sig) := by
    refine decoded_encoded (List.ne_nil_of_length_pos ?_)
    rw [List.length_append, List.length_append, tag]
    omega
  have cover : decodeBase64 (encodeBase64 covering) = some covering :=
    decoded_encoded (List.ne_nil_of_length_pos (by omega))
  have covered : covering.length = kGlobalSignatureBytes := global
  have size : (text "ED" ++ keyId ++ sig).length = kSignatureBytes := by
    rw [List.length_append, List.length_append, tag, key, body]
    rfl
  have trusted : kTrustedCommentPrefix.isPrefixOf (kTrustedCommentPrefix ++ comment) = true :=
    List.isPrefixOf_iff_prefix.mpr (List.prefix_append _ _)
  have key' : (text "ED" ++ keyId).length = 10 := by rw [List.length_append, tag, key]
  rw [parseMinisignSignature, lines, signedLines]
  dsimp only
  rw [if_neg (not_not.mpr (List.isPrefixOf_iff_prefix.mpr begins)), if_neg (not_not.mpr trusted),
    data, cover, Option.filter_some, if_pos (beq_iff_eq.mpr size)]
  dsimp only
  rw [List.append_assoc, List.take_left' tag, if_neg (not_not.mpr rfl), Option.filter_some,
    if_pos (beq_iff_eq.mpr covered)]
  dsimp only
  rw [List.drop_left' tag, List.take_left' key, List.drop_left, ← List.append_assoc,
    List.drop_left' key', List.take_of_length_le body.le]

/-- The base64 of a line has one form, and so has a file, up to the untrusted comment, the line
endings and blank lines at its end. -/
theorem canonical :
    (∀ encoded bytes, decodeBase64 encoded = some bytes ↔
      bytes ≠ [] ∧ encoded = encodeBase64 bytes) ∧
    ∀ first second signature, parseMinisignSignature first = .ok signature →
      parseMinisignSignature second = .ok signature →
      ∃ one other body, kUntrustedCommentPrefix <+: one ∧ kUntrustedCommentPrefix <+: other ∧
        Laid (one :: body) first ∧ Laid (other :: body) second := by
  constructor
  · intro encoded bytes
    constructor
    · exact encoded_of_decoded
    · rintro ⟨some_, rfl⟩
      exact decoded_encoded some_
  · intro first second signature parses again
    obtain ⟨one, begins, lines⟩ := lines_of_parsed parses
    obtain ⟨other, starts, same⟩ := lines_of_parsed again
    refine ⟨one, other, signedLines signature, begins, starts, ?_, ?_⟩
    · rw [← lines]
      exact laid_splitLines first
    · rw [← same]
      exact laid_splitLines second

/-- A signature of some bytes, with a comment. -/
def sampleSignature : MinisignSignature where
  keyId := List.replicate 8 1
  signature := List.replicate 64 2
  trustedComment := text "c"
  globalSignature := List.replicate 64 3

/-- One file of it, and one that went through another editor. -/
def sampleFile : Text := [0x0A].intercalate
  ((kUntrustedCommentPrefix ++ text "a") :: signedLines sampleSignature)

def editedFile : Text := [0x0D, 0x0A].intercalate
  ((kUntrustedCommentPrefix ++ text "b") :: signedLines sampleSignature ++ [[], []])

theorem canonical_sample : decodeBase64 (text "AQI=") = some [1, 2] ∧
    ∃ one other body, kUntrustedCommentPrefix <+: one ∧ kUntrustedCommentPrefix <+: other ∧
      Laid (one :: body) sampleFile ∧ Laid (other :: body) editedFile := by
  constructor
  · exact (canonical.1 (text "AQI=") [1, 2]).mpr (by decide +kernel)
  · refine canonical.2 sampleFile editedFile sampleSignature ?_ ?_
    · exact @parsed_of_lines _ (kUntrustedCommentPrefix ++ text "a") _
        (List.prefix_append _ _) (by decide +kernel) rfl rfl rfl
    · exact @parsed_of_lines _ (kUntrustedCommentPrefix ++ text "b") _
        (List.prefix_append _ _) (by decide +kernel) rfl rfl rfl

end SignatureForm
