import DomesdayDuplicator.Firmware.Sha256
import DomesdayDuplicator.Foundations.SecureHash

/-!
# The streamed digest is the hash of what was written

A turn of the sixteen-word schedule is a round of the standard's, a write absorbs its data
however it was cut, and the bytes `close` adds are the standard's padding.
-/

namespace Sha256

open UpdateProtocol BlockStream
open SecureHash hiding Byte Word

/-! ## Words -/

theorem rightRot_eq (value : Word) {count : Nat} (inside : count < 32) :
    rightRot value count = value.rotateRight count := by
  rw [rightRot, BitVec.rotateRight_def, Nat.mod_eq_of_lt inside]

theorem bytes_word (a b c d : BitVec 8) : a.setWidth 32 <<< 24 ||| b.setWidth 32 <<< 16 |||
    c.setWidth 32 <<< 8 ||| d.setWidth 32 = a ++ b ++ c ++ d := by
  have small : ∀ (x : BitVec 8) (n : Nat), n ≤ 24 →
      (x.setWidth 32 <<< n).toNat = x.toNat <<< n := by
    intro x n few
    have bound := x.isLt
    have scale : 2 ^ n ≤ 2 ^ 24 := Nat.pow_le_pow_right (by decide) few
    have product : x.toNat * 2 ^ n ≤ 255 * 2 ^ 24 := Nat.mul_le_mul (by omega) scale
    rw [BitVec.toNat_shiftLeft, BitVec.toNat_setWidth, @Nat.mod_eq_of_lt x.toNat _ (by omega),
      Nat.shiftLeft_eq, Nat.mod_eq_of_lt (by omega)]
  have low := small d 0 (by decide)
  rw [BitVec.shiftLeft_zero, Nat.shiftLeft_zero] at low
  apply BitVec.eq_of_toNat_eq
  simp only [BitVec.toNat_or, BitVec.toNat_append, small a 24 (Nat.le_refl 24),
    small b 16 (by decide), small c 8 (by decide), low, Nat.shiftLeft_or_distrib,
    ← Nat.shiftLeft_add]

theorem loadWord_eq (p : List Byte) (j : Nat) :
    loadWord p j = SecureHash.word fun i => p.getD (4 * j + i) 0 :=
  bytes_word _ _ _ _

theorem bits_shift (n : Nat) {s : Nat} (inside : s ≤ 53) :
    (BitVec.ofNat 64 n >>> s).setWidth 8 = (BitVec.ofNat 64 (8 * n) >>> (s + 3)).setWidth 8 := by
  apply BitVec.eq_of_getLsbD_eq
  intro i bit
  have shift : (8 * n).testBit (s + 3 + i) = n.testBit (s + i) := by
    rw [show 8 * n = 2 ^ 3 * n from rfl, Nat.testBit_two_pow_mul,
      decide_eq_true (by omega : 3 ≤ s + 3 + i), Bool.true_and]
    congr 1
    omega
  rw [BitVec.getLsbD_setWidth, BitVec.getLsbD_setWidth, BitVec.getLsbD_ushiftRight,
    BitVec.getLsbD_ushiftRight, BitVec.getLsbD_ofNat, BitVec.getLsbD_ofNat, shift,
    decide_eq_true (by omega : s + 3 + i < 64), decide_eq_true (by omega : s + i < 64)]

theorem lengthBytes_eq (n : Nat) : lengthBytes (BitVec.ofNat 64 n) = lengthField n := by
  have last : (BitVec.ofNat 64 n <<< 3).setWidth 8 =
      (BitVec.ofNat 64 (8 * n) >>> 0).setWidth 8 := by
    apply BitVec.eq_of_toNat_eq
    simp only [BitVec.toNat_setWidth, BitVec.toNat_shiftLeft, BitVec.toNat_ofNat,
      BitVec.ushiftRight_zero, Nat.shiftLeft_eq]
    omega
  have higher : ∀ s ≤ 53, (BitVec.ofNat 64 n >>> s).setWidth 8 =
      (BitVec.ofNat 64 (8 * n) >>> (s + 3)).setWidth 8 := fun s => bits_shift n
  rw [lengthBytes, last]
  simp only [storeDown, ← BitVec.shiftRight_add]
  rw [higher 5 (by decide), higher (5 + 8) (by decide), higher (5 + 8 + 8) (by decide),
    higher (5 + 8 + 8 + 8) (by decide), higher (5 + 8 + 8 + 8 + 8) (by decide),
    higher (5 + 8 + 8 + 8 + 8 + 8) (by decide), higher (5 + 8 + 8 + 8 + 8 + 8 + 8) (by decide)]
  rfl

/-! ## A chunk -/

variable {p : List Byte} {r : Registers} {v : Working} {t : Nat}

/-- The words keep the last sixteen of the schedule. -/
structure Rounds (p : List Byte) (t : Nat) (r : Registers) (v : Working) : Prop where
  ah : v.ah = r.toList
  length : v.w.length = 16
  recent : ∀ s < t, t ≤ s + 16 → v.w.getD (s % 16) 0 = (schedule p).getD s 0

theorem place : ∀ i < 4, ∀ j < 16, i <<< 4 ||| j = 16 * i + j := by decide

theorem low_bits (n : Nat) : n &&& 0xf = n % 16 := Nat.and_two_pow_sub_one_eq_mod n 4

theorem Rounds.scheduled (h : Rounds p t r v) (inside : t < 64) :
    Sha256.scheduled p (t / 16) (t % 16) v.w = (schedule p).getD t 0 := by
  rw [Sha256.scheduled]
  split
  · rename_i first
    have column : t % 16 = t := by omega
    rw [column, loadWord_eq, schedule_words (by omega)]
  · rename_i later
    have reads : ∀ d e, d + e = 16 → d ≠ 0 →
        v.w.getD ((t % 16 + e) &&& 0xf) 0 = (schedule p).getD (t - d) 0 := by
      intro d e sum some
      rw [← h.recent (t - d) (by omega) (by omega), low_bits]
      congr 1
      omega
    have oldest : v.w.getD (t % 16) 0 = (schedule p).getD (t - 16) 0 := by
      rw [← h.recent (t - 16) (by omega) (by omega)]
      congr 1
      omega
    dsimp only
    rw [reads 15 1 rfl (by decide), reads 2 14 rfl (by decide), reads 7 9 rfl (by decide), oldest,
      schedule_next (by omega) inside, smallSigma0, smallSigma1,
      rightRot_eq _ (by decide : 7 < 32), rightRot_eq _ (by decide : 18 < 32),
      rightRot_eq _ (by decide : 17 < 32), rightRot_eq _ (by decide : 19 < 32)]
    rw [BitVec.add_comm _ (_ ^^^ _ ^^^ _), BitVec.add_comm ((schedule p).getD (t - 16) 0),
      BitVec.add_comm (_ + _) ((schedule p).getD (t - 7) 0), ← BitVec.add_assoc,
      ← BitVec.add_assoc]

theorem Rounds.turn (h : Rounds p t r v) (inside : t < 64) :
    Rounds p (t + 1) (r.round (k.getD t 0) ((schedule p).getD t 0))
      (turn p (t / 16) (t % 16) v) := by
  have slot : t % 16 < v.w.length := by
    rw [h.length]
    exact Nat.mod_lt _ (by decide)
  have words : (Sha256.turn p (t / 16) (t % 16) v).w = v.w.set (t % 16) ((schedule p).getD t 0) :=
    congrArg (v.w.set (t % 16)) (h.scheduled inside)
  refine ⟨?_, by rw [words, List.length_set]; exact h.length, fun s before recent => ?_⟩
  · have constant : (t / 16) <<< 4 ||| t % 16 = t := by
      rw [place _ (by omega) _ (by omega)]
      exact Nat.div_add_mod t 16
    have written : (v.w.set (t % 16) ((schedule p).getD t 0)).getD (t % 16) 0 =
        (schedule p).getD t 0 := by
      rw [List.getD_eq_getElem _ _ (by rwa [List.length_set]), List.getElem_set_self]
    rw [Sha256.turn]
    dsimp only
    rw [h.scheduled inside, written, constant, h.ah, rightRot_eq _ (by decide : 6 < 32),
      rightRot_eq _ (by decide : 11 < 32), rightRot_eq _ (by decide : 25 < 32),
      rightRot_eq _ (by decide : 2 < 32), rightRot_eq _ (by decide : 13 < 32),
      rightRot_eq _ (by decide : 22 < 32)]
    generalize k.getD t 0 = constant, (schedule p).getD t 0 = word
    rfl
  · rw [words]
    by_cases last : s = t
    · rw [last, List.getD_eq_getElem _ _ (by rwa [List.length_set]), List.getElem_set_self]
    · have apart : t % 16 ≠ s % 16 := by omega
      rw [← h.recent s (by omega) (by omega), List.getD_eq_getElem?_getD, List.getElem?_set,
        if_neg apart, ← List.getD_eq_getElem?_getD]

theorem rounds_run (unset : Vector Word 16) (p : List Byte) (r : Registers) {n : Nat}
    (inside : n ≤ 64) :
    Rounds p n
      ((List.range n).foldl (fun r t => r.round (k.getD t 0) ((schedule p).getD t 0)) r)
      ((List.range n).foldl (fun v t => Sha256.turn p (t / 16) (t % 16) v)
        ⟨r.toList, unset.toList⟩) := by
  induction n with
  | zero => exact ⟨rfl, unset.length_toList, nofun⟩
  | succ n ih =>
    rw [List.range_succ, List.foldl_append, List.foldl_append]
    exact (ih (by omega)).turn (by omega)

/-- Two loops inside each other are one. -/
theorem foldl_rows {σ : Type} (f : σ → Nat → Nat → σ) (s : σ) (columns : Nat)
    (any : 0 < columns) (rows : Nat) :
    (List.range rows).foldl
        (fun s i => (List.range columns).foldl (fun s j => f s i j) s) s =
      (List.range (rows * columns)).foldl (fun s t => f s (t / columns) (t % columns)) s := by
  induction rows with
  | zero => rw [Nat.zero_mul]; rfl
  | succ rows ih =>
    rw [List.range_succ, List.foldl_append, ih, Nat.succ_mul, List.range_add, List.foldl_append,
      List.foldl_map, List.foldl_cons, List.foldl_nil]
    refine List.foldl_ext _ _ _ fun s j member => ?_
    have inside := List.mem_range.mp member
    rw [Nat.mul_comm, Nat.mul_add_div any, Nat.div_eq_of_lt inside, Nat.mul_add_mod,
      Nat.mod_eq_of_lt inside, Nat.add_zero]

theorem consumeChunk_eq (unset : Vector Word 16) (r : Registers) (p : List Byte) :
    consumeChunk unset r.toList p = (compress (k.getD · 0) r p).toList := by
  have rounds := (rounds_run unset p r (Nat.le_refl 64)).ah
  rw [consumeChunk, foldl_rows (fun v i j => turn p i j v) _ 16 (by decide) 4, rounds]
  rfl

/-! ## Writes -/

abbrev Absorption := Absorbed Registers Byte

def taken (a : Absorption) (data : List Byte) : Absorption :=
  absorb 64 (compress (k.getD · 0)) a data

def initial : Registers :=
  ⟨0x6a09e667, 0xbb67ae85, 0x3c6ef372, 0xa54ff53a, 0x510e527f, 0x9b05688c, 0x1f83d9ab, 0x5be0cd19⟩

/-- The context is in the state of what was absorbed, and its chunk begins with what is pending. -/
structure Holds (c : Context) (a : Absorption) : Prop where
  chunk : c.chunk.length = 64
  spaceLeft : c.chunkPos + c.spaceLeft = 64
  space : 0 < c.spaceLeft
  h : c.h = a.state.toList
  pending : c.chunk.take c.chunkPos = a.pending

variable {unset : Vector Word 16} {c : Context} {a : Absorption} {data : List Byte}

theorem Holds.length (h : Holds c a) : a.pending.length = c.chunkPos := by
  have chunk := h.chunk
  have spaceLeft := h.spaceLeft
  rw [← h.pending, List.length_take]
  omega

theorem length_store {chunk bytes : List Byte} {pos : Nat}
    (fits : pos + bytes.length ≤ chunk.length) : (store chunk pos bytes).length = chunk.length := by
  rw [store, List.length_append, List.length_append, List.length_take, List.length_drop]
  omega

theorem take_store {chunk bytes : List Byte} {pos : Nat}
    (fits : pos + bytes.length ≤ chunk.length) :
    (store chunk pos bytes).take (pos + bytes.length) = chunk.take pos ++ bytes := by
  have length : (chunk.take pos ++ bytes).length = pos + bytes.length := by
    rw [List.length_append, List.length_take]
    omega
  rw [store, ← length, List.take_left]

theorem store_full {chunk bytes : List Byte} {pos : Nat}
    (fills : pos + bytes.length = chunk.length) :
    store chunk pos bytes = chunk.take pos ++ bytes := by
  rw [store, fills, List.drop_length, List.append_nil]

theorem init_holds (memory : Vector Byte 64) : Holds (init memory) ⟨initial, []⟩ where
  chunk := memory.length_toList
  spaceLeft := rfl
  space := Nat.zero_lt_succ _
  h := rfl
  pending := rfl

theorem writeLoop_holds {turns : Nat} (h : Holds c a) (enough : data.length ≤ turns) :
    Holds (writeLoop unset turns c data) (taken a data) ∧
      (writeLoop unset turns c data).totalLen = c.totalLen := by
  induction turns generalizing c a data with
  | zero =>
    obtain rfl : data = [] := List.length_eq_zero_iff.mp (Nat.le_zero.mp enough)
    exact ⟨h, rfl⟩
  | succ turns ih =>
    have length := h.length
    have spaceLeft := h.spaceLeft
    have space := h.space
    have chunk := h.chunk
    rw [writeLoop]
    split
    swap
    · obtain rfl : data = [] := List.length_eq_zero_iff.mp (by omega)
      exact ⟨h, rfl⟩
    rename_i some
    have cut : ∀ n, taken a data = taken (taken a (data.take n)) (data.drop n) := by
      intro n
      conv_lhs => rw [← List.take_append_drop n data]
      exact absorb_append
    split
    · rename_i whole
      obtain ⟨empty, enoughData⟩ := whole
      rw [sizeOfChunk] at empty enoughData ⊢
      have first : (data.take 64).length = 64 := by rw [List.length_take]; omega
      have none : a.pending = [] := List.length_eq_zero_iff.mp (by omega)
      have absorbed : taken a (data.take 64) =
          ⟨compress (k.getD · 0) a.state (data.take 64), []⟩ := by
        have full : a.pending.length + (data.take 64).length = 64 := by rw [none, first]; rfl
        rw [taken, absorb_full full (List.ne_nil_of_length_pos (by omega)), none]
        rfl
      rw [cut 64, absorbed]
      refine ih ⟨chunk, spaceLeft, space, ?_, ?_⟩ (by rw [List.length_drop]; omega)
      · dsimp only
        rw [h.h, consumeChunk_eq]
      · rw [← none]
        exact h.pending
    · generalize consumed_eq : (if data.length < c.spaceLeft then data.length else c.spaceLeft) = n
      have size : (data.take n).length = n := by
        rw [List.length_take]
        split at consumed_eq <;> omega
      have least : 0 < n := by split at consumed_eq <;> omega
      have most : n ≤ c.spaceLeft := by split at consumed_eq <;> omega
      have rest : (data.drop n).length ≤ turns := by rw [List.length_drop]; omega
      rw [cut n]
      dsimp only
      split
      · rename_i filled
        have fills : c.chunkPos + (data.take n).length = c.chunk.length := by omega
        have absorbed : taken a (data.take n) =
            ⟨compress (k.getD · 0) a.state (a.pending ++ data.take n), []⟩ :=
          absorb_full (by omega) (List.ne_nil_of_length_pos (by omega))
        rw [absorbed]
        refine ih ⟨?_, rfl, Nat.zero_lt_succ _, ?_, rfl⟩ rest
        · exact (length_store (Nat.le_of_eq fills)).trans chunk
        · dsimp only
          rw [h.h, store_full fills, h.pending, consumeChunk_eq]
      · rename_i room
        have fits : c.chunkPos + (data.take n).length ≤ c.chunk.length := by omega
        have absorbed : taken a (data.take n) = ⟨a.state, a.pending ++ data.take n⟩ :=
          absorb_short (by omega)
        rw [absorbed]
        refine ih ⟨?_, ?_, Nat.pos_of_ne_zero room, h.h, ?_⟩ rest
        · exact (length_store fits).trans chunk
        · dsimp only
          omega
        · have held := take_store fits
          rw [size] at held
          dsimp only
          rw [held, h.pending]

/-- What a context has been given since it was initialised. -/
structure Gathers (c : Context) (message : List Byte) : Prop where
  holds : Holds c (taken ⟨initial, []⟩ message)
  totalLen : c.totalLen = BitVec.ofNat 64 message.length

theorem Gathers.write {message : List Byte} (h : Gathers c message) (data : List Byte) :
    Gathers (write unset c data) (message ++ data) := by
  have kept : Holds { c with totalLen := c.totalLen + BitVec.ofNat 64 data.length }
      (taken ⟨initial, []⟩ message) :=
    ⟨h.holds.chunk, h.holds.spaceLeft, h.holds.space, h.holds.h, h.holds.pending⟩
  obtain ⟨holds, total⟩ := @writeLoop_holds unset _ _ data data.length kept (Nat.le_refl _)
  constructor
  · rw [taken, absorb_append]
    exact holds
  · rw [Sha256.write, total, h.totalLen, List.length_append, BitVec.ofNat_add]

theorem gathers_writes (memory : Vector Byte 64) (writes : List (List Byte)) :
    Gathers (writes.foldl (write unset) (init memory)) writes.flatten := by
  have run : ∀ (writes : List (List Byte)) {c message}, Gathers c message →
      Gathers (writes.foldl (write unset) c) (message ++ writes.flatten) := by
    intro writes
    induction writes with
    | nil =>
      intro c message h
      rw [List.flatten_nil, List.append_nil]
      exact h
    | cons data writes ih =>
      intro c message h
      rw [List.flatten_cons, ← List.append_assoc]
      exact ih (h.write data)
  exact @run writes (init memory) [] ⟨init_holds memory, rfl⟩

/-! ## Closing -/

theorem length_lengthField (n : Nat) : (lengthField n).length = 8 := by
  rw [lengthField, List.length_map, List.length_range]

/-- A chunk that is stored to from a place on to its end. -/
theorem store_twice {chunk first second : List Byte} {pos : Nat}
    (fills : pos + first.length + second.length = chunk.length) :
    store (store chunk pos first) (pos + first.length) second =
      chunk.take pos ++ (first ++ second) := by
  have fits : pos + first.length ≤ chunk.length := by omega
  rw [store_full (by rw [length_store fits]; exact fills), take_store fits, List.append_assoc]

theorem bytes_eq (r : Registers) : r.toList.flatMap wordBytes = r.bytes := by
  refine List.flatMap_congr fun w _ => ?_
  rfl

theorem Gathers.close {message : List Byte} (h : Gathers c message) :
    close unset c = digest (k.getD · 0) initial message := by
  have length := h.holds.length
  obtain ⟨chunk, spaceLeft, space, hash, pending⟩ := h.holds
  have place : c.chunkPos = message.length % 64 := by
    rw [← length, taken, absorb_pending (Nat.zero_lt_succ 63) (by exact Nat.zero_lt_succ 63)]
    exact congrArg (· % 64) (Nat.zero_add _)
  have field := length_lengthField message.length
  have padded : taken ⟨initial, []⟩ (pad message) =
      taken (taken ⟨initial, []⟩ message) (padding message.length) := absorb_append
  rw [digest_eq]
  change _ = (taken ⟨initial, []⟩ (pad message)).state.bytes
  rw [padded, ← bytes_eq]
  generalize taken ⟨initial, []⟩ message = a at *
  have stored : (store c.chunk c.chunkPos [0x80]).length = 64 := by
    rw [length_store (by rw [chunk, List.length_singleton]; omega), chunk]
  rw [Sha256.close, h.totalLen, lengthBytes_eq, totalLenLen, sizeOfChunk]
  dsimp only
  congr 1
  by_cases short : c.spaceLeft - 1 < 8
  · -- the length goes into a chunk of its own
    rw [if_pos short]
    dsimp only
    have count : (119 - message.length % 64) % 64 = (c.spaceLeft - 1) + 56 := by omega
    have split : padding message.length = (0x80 :: List.replicate (c.spaceLeft - 1) 0) ++
        (List.replicate 56 0 ++ lengthField message.length) := by
      rw [padding, count, List.replicate_add]
      simp only [List.cons_append, List.append_assoc]
    have first : store (store c.chunk c.chunkPos [0x80]) (c.chunkPos + 1)
        (List.replicate (c.spaceLeft - 1) 0) =
          a.pending ++ (0x80 :: List.replicate (c.spaceLeft - 1) 0) := by
      rw [← pending]
      exact store_twice (by rw [List.length_singleton, List.length_replicate]; omega)
    have second : store (store (a.pending ++ 0x80 :: List.replicate (c.spaceLeft - 1) 0) 0
        (List.replicate (64 - 8) 0)) (0 + (64 - 8)) (lengthField message.length) =
          List.replicate 56 0 ++ lengthField message.length := by
      have size :
          (a.pending ++ 0x80 :: List.replicate (c.spaceLeft - 1) (0 : Byte)).length = 64 := by
        rw [List.length_append, List.length_cons, List.length_replicate]
        omega
      have filled := @store_twice (a.pending ++ 0x80 :: List.replicate (c.spaceLeft - 1) 0)
        (List.replicate (64 - 8) 0) (lengthField message.length) 0
        (by rw [List.length_replicate, field, size])
      rw [List.length_replicate, List.take_zero, List.nil_append] at filled
      exact filled
    have absorbed : taken a (padding message.length) =
        ⟨compress (k.getD · 0) (compress (k.getD · 0) a.state
          (a.pending ++ 0x80 :: List.replicate (c.spaceLeft - 1) 0))
            (List.replicate 56 0 ++ lengthField message.length), []⟩ := by
      rw [split, taken, absorb_append, absorb_full (by
        rw [List.length_cons, List.length_replicate]; omega) (List.cons_ne_nil _ _)]
      have size : (List.replicate 56 0 ++ lengthField message.length).length = 64 := by
        rw [List.length_append, List.length_replicate, field]
      exact absorb_full ((Nat.zero_add _).trans size) (List.ne_nil_of_length_pos (by omega))
    rw [first, second, absorbed, hash, consumeChunk_eq, consumeChunk_eq]
  · rw [if_neg short]
    dsimp only
    have count : (119 - message.length % 64) % 64 = c.spaceLeft - 1 - 8 := by omega
    have zeros : (List.replicate (c.spaceLeft - 1 - 8) (0 : Byte)).length = c.spaceLeft - 1 - 8 :=
      List.length_replicate
    have last : store (store (store c.chunk c.chunkPos [0x80]) (c.chunkPos + 1)
        (List.replicate (c.spaceLeft - 1 - 8) 0)) (c.chunkPos + 1 + (c.spaceLeft - 1 - 8))
          (lengthField message.length) = a.pending ++ padding message.length := by
      have filled := @store_twice (store c.chunk c.chunkPos [0x80])
        (List.replicate (c.spaceLeft - 1 - 8) 0) (lengthField message.length) (c.chunkPos + 1)
        (by rw [zeros, field, stored]; omega)
      have marked := @take_store c.chunk [0x80] c.chunkPos
        (by rw [chunk, List.length_singleton]; omega)
      rw [List.length_singleton] at marked
      rw [zeros, marked, pending] at filled
      rw [filled, padding, count]
      simp only [List.append_assoc, List.cons_append, List.nil_append]
    have absorbed : taken a (padding message.length) =
        ⟨compress (k.getD · 0) a.state (a.pending ++ padding message.length), []⟩ := by
      refine absorb_full ?_ (List.ne_nil_of_length_pos ?_)
      all_goals
        rw [padding, List.cons_append, List.length_cons, List.length_append, field, count, zeros]
        omega
    rw [last, absorbed, hash, consumeChunk_eq]

/-- Whatever the memory held before, and however a message is cut into writes, closing gives its
hash; taking it in one call gives the same. -/
theorem streamed_digest (unset : Vector Word 16) (memory : Vector Byte 64)
    (writes : List (List Byte)) :
    close unset (writes.foldl (write unset) (init memory)) =
        digest (k.getD · 0) initial writes.flatten ∧
      calcSha256 unset memory writes.flatten = digest (k.getD · 0) initial writes.flatten := by
  constructor
  · exact (gathers_writes memory writes).close
  · have once := @gathers_writes unset memory [writes.flatten]
    rw [List.flatten_cons, List.flatten_nil, List.append_nil] at once
    exact once.close

example : close (Vector.replicate 16 0) ([[0x61], [], [0x62, 0x63]].foldl
    (write (Vector.replicate 16 0)) (init (Vector.replicate 64 0))) =
      [0xba, 0x78, 0x16, 0xbf, 0x8f, 0x01, 0xcf, 0xea, 0x41, 0x41, 0x40, 0xde, 0x5d, 0xae, 0x22,
       0x23, 0xb0, 0x03, 0x61, 0xa3, 0x96, 0x17, 0x7a, 0x9c, 0xb4, 0x10, 0xff, 0x61, 0xf2, 0x00,
       0x15, 0xad] := by
  decide +kernel

end Sha256
