import DomesdayDuplicator.Firmware.DmaBuffers

/-!
# Runs of the DMA buffer heap

The status words are read as one row of bits. Marking a stretch of them, the search and the
count that a free makes are each given in terms of that row, and the row shows exactly the
buffers that are held; what every action keeps of this holds of every run.
-/

namespace DmaBuffers

open MarkedBlocks Execution

/-! ## The words as a row of bits -/

def bitsOf (used : List Word) : Bits := fun i => (used.getD (i / 32) 0).getLsbD (i % 32)

theorem bitsOf_word {used : List Word} {wordnum bitnum : Nat} (bit : bitnum < 32) :
    bitsOf used (32 * wordnum + bitnum) = (used.getD wordnum 0).getLsbD bitnum := by
  have word : (32 * wordnum + bitnum) / 32 = wordnum := by omega
  have place : (32 * wordnum + bitnum) % 32 = bitnum := by omega
  rw [bitsOf, word, place]

theorem clear_iff {word : Word} {n : Nat} (bit : n < 32) :
    word &&& (1#32 <<< n) = 0 ↔ word.getLsbD n = false := by
  change word &&& BitVec.twoPow 32 n = 0 ↔ _
  rw [BitVec.and_twoPow]
  cases set : word.getLsbD n with
  | false => simp
  | true =>
    refine iff_of_false (fun zero => ?_) (by simp)
    have := congrArg (fun x : Word => x.getLsbD n) zero
    simp [bit] at this

/-- The bits of a mask are these. -/
def Masks (mask : Word) (startbit endbit : Nat) : Prop :=
  ∀ i < 32, mask.getLsbD i = decide (startbit ≤ i ∧ i < endbit)

theorem ones_eq : ∀ n ≤ 32,
    (if n = 32 then 0xFFFFFFFF else (1#32 <<< n) - 1 : Word) = BitVec.ofNat 32 (2 ^ n - 1) := by
  decide

theorem toNat_ones {n : Nat} (le : n ≤ 32) : (BitVec.ofNat 32 (2 ^ n - 1)).toNat = 2 ^ n - 1 := by
  have pos : 0 < 2 ^ n := Nat.two_pow_pos n
  have most : 2 ^ n ≤ 2 ^ 32 := Nat.pow_le_pow_right (by decide) le
  exact Nat.mod_eq_of_lt (by omega)

theorem masks_between {startbit endbit : Nat} (order : startbit ≤ endbit) (most : endbit ≤ 32) :
    Masks (BitVec.ofNat 32 (2 ^ endbit - 1) - BitVec.ofNat 32 (2 ^ startbit - 1))
      startbit endbit := by
  intro i bit
  have pow : 2 ^ startbit ≤ 2 ^ endbit := Nat.pow_le_pow_right (by decide) order
  have pos : 0 < 2 ^ startbit := Nat.two_pow_pos startbit
  have start := toNat_ones (Nat.le_trans order most)
  have «end» := toNat_ones most
  have value : 2 ^ endbit - 1 - (2 ^ startbit - 1) =
      2 ^ startbit * (2 ^ (endbit - startbit) - 1) := by
    rw [Nat.mul_sub, ← Nat.pow_add, Nat.add_sub_cancel' order]
    omega
  rw [BitVec.getLsbD, BitVec.toNat_sub_of_le (by rw [BitVec.le_def, start, «end»]; omega), start,
    «end», value, Nat.testBit_two_pow_mul, Nat.testBit_two_pow_sub_one]
  by_cases after : startbit ≤ i
  · have same : i - startbit < endbit - startbit ↔ i < endbit := by omega
    simp [after, same]
  · simp [after]

theorem masks_ones {n : Nat} (le : n ≤ 32) : Masks (BitVec.ofNat 32 (2 ^ n - 1)) 0 n := by
  simpa using masks_between (Nat.zero_le n) le

theorem bitsOf_set {used : List Word} {wordnum : Nat} (inside : wordnum < used.length)
    (word : Word) (i : Nat) : bitsOf (used.set wordnum word) i =
      if i / 32 = wordnum then word.getLsbD (i % 32) else bitsOf used i := by
  rw [bitsOf, bitsOf, List.getD_eq_getElem?_getD, List.getElem?_set]
  by_cases same : wordnum = i / 32
  · rw [if_pos same, if_pos (same ▸ inside), if_pos same.symm]
    rfl
  · rw [if_neg same, if_neg fun other => same other.symm, ← List.getD_eq_getElem?_getD]

theorem setStatusWords_spec {value : Bool} {turns wordnum startbit endbit numBits : Nat}
    {mask : Word} {used : List Word} (enough : numBits ≤ turns)
    (ends : endbit = min 32 (startbit + numBits)) (starts : startbit < 32)
    (masks : numBits ≠ 0 → Masks mask startbit endbit)
    (fits : 32 * wordnum + startbit + numBits ≤ 32 * used.length) :
    (setStatusWords value turns wordnum startbit endbit numBits mask used).length = used.length ∧
      ∀ i, bitsOf (setStatusWords value turns wordnum startbit endbit numBits mask used) i =
        mark (bitsOf used) (32 * wordnum + startbit) numBits value i := by
  induction turns generalizing wordnum startbit endbit numBits mask used with
  | zero =>
    obtain rfl : numBits = 0 := by omega
    refine ⟨rfl, fun i => ?_⟩
    rw [mark, if_neg (by omega)]
    rfl
  | succ turns ih =>
    rw [setStatusWords]
    by_cases none : numBits = 0
    · subst none
      refine ⟨by rw [if_pos rfl], fun i => ?_⟩
      rw [if_pos rfl, mark, if_neg (by omega)]
    rw [if_neg none]
    dsimp only
    have inside : wordnum < used.length := by omega
    have masked := masks none
    generalize written : used.set wordnum (if value = true then used.getD wordnum 0 ||| mask
      else used.getD wordnum 0 &&& ~~~mask) = used'
    have length : used'.length = used.length := by rw [← written, List.length_set]
    have bits : ∀ i, bitsOf used' i =
        mark (bitsOf used) (32 * wordnum + startbit) (endbit - startbit) value i := by
      intro i
      rw [← written, bitsOf_set inside, mark]
      have bit : i % 32 < 32 := Nat.mod_lt _ (by decide)
      by_cases here : i / 32 = wordnum
      · have place : i = 32 * wordnum + i % 32 := by omega
        have old : bitsOf used i = (used.getD wordnum 0).getLsbD (i % 32) := by
          rw [place, bitsOf_word bit]
          congr 1
          omega
        have range : (32 * wordnum + startbit ≤ i ∧ i < 32 * wordnum + startbit +
            (endbit - startbit)) ↔ (startbit ≤ i % 32 ∧ i % 32 < endbit) := by omega
        rw [if_pos here, if_congr range rfl rfl, old]
        cases value with
        | true =>
          rw [if_pos rfl, BitVec.getLsbD_or, masked _ bit]
          by_cases within : startbit ≤ i % 32 ∧ i % 32 < endbit
          · rw [if_pos within, decide_eq_true within, Bool.or_true]
          · rw [if_neg within, decide_eq_false within, Bool.or_false]
        | false =>
          rw [if_neg Bool.false_ne_true, BitVec.getLsbD_and, BitVec.getLsbD_not, masked _ bit]
          by_cases within : startbit ≤ i % 32 ∧ i % 32 < endbit
          · rw [if_pos within, decide_eq_true within, Bool.not_true, Bool.and_false,
              Bool.and_false]
          · rw [if_neg within, decide_eq_false within, Bool.not_false, Bool.and_true,
              decide_eq_true bit, Bool.and_true]
      · rw [if_neg here, if_neg (by omega)]
    have more : ∀ i, mark (bitsOf used') (32 * (wordnum + 1) + 0) (numBits - (endbit - startbit))
        value i = mark (bitsOf used) (32 * wordnum + startbit) numBits value i := by
      intro i
      simp only [mark, bits]
      split_ifs <;> first | rfl | omega
    have left : 32 * (wordnum + 1) + 0 + (numBits - (endbit - startbit)) ≤ 32 * used'.length := by
      rw [length]
      omega
    split
    · rename_i many
      obtain ⟨same, marked⟩ := @ih (wordnum + 1) 0 32 (numBits - (endbit - startbit)) 0xFFFFFFFF
        used' (by omega) (by omega) (by decide) (fun _ => masks_ones (Nat.le_refl 32)) left
      exact ⟨same.trans length, fun i => (marked i).trans (more i)⟩
    · rename_i few
      have ones := ones_eq (numBits - (endbit - startbit)) (by omega)
      rw [if_neg (by omega)] at ones
      obtain ⟨same, marked⟩ := @ih (wordnum + 1) 0 (numBits - (endbit - startbit))
        (numBits - (endbit - startbit)) ((1#32 <<< (numBits - (endbit - startbit))) - 1) used'
        (by omega) (by omega) (by decide) (fun _ => ones ▸ masks_ones (by omega)) left
      exact ⟨same.trans length, fun i => (marked i).trans (more i)⟩

theorem setStatus_spec {startPos numBits : Nat} {value : Bool} {used : List Word}
    (fits : startPos + numBits ≤ 32 * used.length) :
    (setStatus startPos numBits value used).length = used.length ∧
      ∀ i, bitsOf (setStatus startPos numBits value used) i =
        mark (bitsOf used) startPos numBits value i := by
  have place : 32 * (startPos / 32) + startPos % 32 = startPos := Nat.div_add_mod startPos 32
  have starts : startPos % 32 < 32 := Nat.mod_lt _ (by decide)
  rw [setStatus]
  have first := ones_eq (min 32 (startPos % 32 + numBits)) (by omega)
  have second := ones_eq (startPos % 32) (by omega)
  rw [if_neg (by omega)] at second
  rw [first, second]
  have spec := @setStatusWords_spec value numBits (startPos / 32) (startPos % 32)
    (min 32 (startPos % 32 + numBits)) numBits _ used (Nat.le_refl _) rfl starts
    (fun _ => masks_between (by omega) (by omega)) (by omega)
  rwa [place] at spec

theorem bitsOf_beyond {used : List Word} {i : Nat} (out : used.length ≤ i / 32) :
    bitsOf used i = false := by
  rw [bitsOf, List.getD_eq_default _ _ out]
  exact BitVec.getLsbD_zero

theorem countUsed_spec {used : List Word} {statusSize turns wordnum bitnum count k : Nat}
    (length : used.length = statusSize) (bit : bitnum < 32) (enough : k ≤ turns)
    (set : ∀ i, 32 * wordnum + bitnum ≤ i → i < 32 * wordnum + bitnum + k → bitsOf used i = true)
    (clear : bitsOf used (32 * wordnum + bitnum + k) = false) :
    countUsed used statusSize turns wordnum bitnum count = count + k := by
  induction turns generalizing wordnum bitnum count k with
  | zero =>
    obtain rfl : k = 0 := by omega
    rfl
  | succ turns ih =>
    rw [countUsed]
    cases k with
    | zero =>
      rw [Nat.add_zero, bitsOf_word bit, ← clear_iff bit] at clear
      exact if_neg fun going => going.2 clear
    | succ k =>
      have here := set _ (Nat.le_refl _) (by omega)
      have inside : wordnum < statusSize := by
        by_contra out
        rw [bitsOf_beyond (by omega)] at here
        cases here
      have going : used.getD wordnum 0 &&& (1#32 <<< bitnum) ≠ 0 := by
        rw [bitsOf_word bit] at here
        rw [Ne, clear_iff bit, here]
        decide
      rw [if_pos ⟨inside, going⟩]
      split
      · have rest := @ih (wordnum + 1) 0 (count + 1) k (by decide) (by omega)
          (fun i starts ends => set i (by omega) (by omega)) (by rw [← clear]; congr 1; omega)
        omega
      · have rest := @ih wordnum (bitnum + 1) (count + 1) k (by omega) (by omega)
          (fun i starts ends => set i (by omega) (by omega)) (by rw [← clear]; congr 1; omega)
        omega

/-! ## The search -/

def Search.here (s : Search) : Nat := 32 * s.wordnum + s.bitnum

/-- The search goes from its first word to the end of the words, and then from their beginning. -/
structure Scanning (bits : Bits) (statusSize searchPos size : Nat) (s : Search) : Prop where
  bit : s.bitnum < 32
  word : s.wordnum < statusSize
  turns : 32 * s.tmp + s.bitnum ≤ 32 * statusSize
  start : s.count ≠ 0 → s.start = s.here - s.count + 1
  stage : (s.wordnum = searchPos + s.tmp ∧ Scanned bits (32 * searchPos) s.here s.count size) ∨
    (s.wordnum + statusSize = searchPos + s.tmp ∧ Scanned bits 0 s.here s.count size ∧
      ∀ gap, 32 * searchPos ≤ gap → gap + size < 32 * statusSize → ¬ Clear bits gap (size + 1))

/-- What the search ends with. -/
inductive Searched (bits : Bits) (statusSize searchPos size : Nat) (s : Search) : Prop
  | found (gap : Nat) (enough : s.count = size + 1) (start : s.start = gap + 1)
      (clear : Clear bits gap (size + 1)) (fits : gap + size < 32 * statusSize)
      (side : 32 * searchPos ≤ gap ∨ gap + size < 32 * searchPos) (word : s.wordnum < statusSize)
  | failed (short : s.count ≠ size + 1)
      (none : ∀ gap, gap + size < 32 * statusSize → Clear bits gap (size + 1) →
        gap < 32 * searchPos ∧ 32 * searchPos ≤ gap + size)

variable {bits : Bits} {used : List Word} {statusSize searchPos size : Nat} {s t : Search}

theorem scanning_start (inside : searchPos < statusSize) :
    Scanning bits statusSize searchPos size ⟨searchPos, 0, 0, 0, 0⟩ where
  bit := Nat.zero_lt_succ _
  word := inside
  turns := Nat.zero_le _
  start := fun none => absurd rfl none
  stage := Or.inl ⟨rfl, scanned_start⟩

theorem Scanning.advance (h : Scanning bits statusSize searchPos size s)
    (inside : searchPos < statusSize) (going : s.tmp < statusSize)
    (here : t.wordnum = s.wordnum ∧ t.bitnum = s.bitnum ∧ t.tmp = s.tmp)
    (start : t.count ≠ 0 → t.start = s.here + 1 - t.count + 1)
    (scan : ∀ low, Scanned bits low s.here s.count size →
      Scanned bits low (s.here + 1) t.count size) :
    Scanning bits statusSize searchPos size (t.advance statusSize) := by
  obtain ⟨bit, word, turns, -, stage⟩ := h
  obtain ⟨sameWord, sameBit, sameTmp⟩ := here
  have place : s.here = 32 * t.wordnum + t.bitnum := by rw [Search.here, sameWord, sameBit]
  rw [← sameWord] at word stage
  rw [← sameBit] at bit turns
  rw [← sameTmp] at turns going stage
  rw [Search.advance]
  split
  · rename_i end_of_word
    split
    · rename_i end_of_words
      -- round to the first word, where the count starts again
      refine ⟨Nat.zero_lt_succ _, by dsimp only; omega, by dsimp only; omega,
        fun none => absurd rfl none, Or.inr ⟨?_, scanned_start, ?_⟩⟩
      · rcases stage with ⟨forwards, -⟩ | ⟨wrapped, -, -⟩ <;> dsimp only <;> omega
      · intro gap starts ends
        rcases stage with ⟨-, scanned⟩ | ⟨-, -, none⟩
        · exact (scan _ scanned).none gap starts (by omega)
        · exact none gap starts ends
    · have place' : ({ t with bitnum := 0, wordnum := t.wordnum + 1, tmp := t.tmp + 1 } :
          Search).here = s.here + 1 := by
        rw [Search.here, place]
        dsimp only
        omega
      refine ⟨Nat.zero_lt_succ _, by dsimp only; omega, by dsimp only; omega, ?_, ?_⟩
      · rw [place']
        exact start
      · rw [place']
        rcases stage with ⟨forwards, scanned⟩ | ⟨wrapped, scanned, none⟩
        · exact Or.inl ⟨by dsimp only; omega, scan _ scanned⟩
        · exact Or.inr ⟨by dsimp only; omega, scan _ scanned, none⟩
  · have place' : ({ t with bitnum := t.bitnum + 1 } : Search).here = s.here + 1 := by
      rw [Search.here, place]
      dsimp only
      omega
    refine ⟨by dsimp only; omega, word, by dsimp only; omega, ?_, ?_⟩
    · rw [place']
      exact start
    · rw [place']
      rcases stage with ⟨forwards, scanned⟩ | ⟨wrapped, scanned, none⟩
      · exact Or.inl ⟨forwards, scan _ scanned⟩
      · exact Or.inr ⟨wrapped, scan _ scanned, none⟩

theorem Scanning.failed (h : Scanning bits statusSize searchPos size s)
    (all : statusSize ≤ s.tmp) : Searched bits statusSize searchPos size s := by
  obtain ⟨bit, word, turns, -, stage⟩ := h
  rcases stage with ⟨forwards, -⟩ | ⟨wrapped, scanned, none⟩
  · omega
  · have fewer := scanned.fewer
    refine .failed (by omega) fun gap fits clear => ?_
    have place : s.here = 32 * searchPos := by
      rw [Search.here]
      omega
    constructor
    · by_contra later
      exact none gap (by omega) fits clear
    · by_contra earlier
      exact scanned.none gap (Nat.zero_le _) (by omega) clear

theorem searchBits_spec {turns : Nat} (inside : searchPos < statusSize)
    (h : Scanning (bitsOf used) statusSize searchPos size s)
    (enough : 32 * statusSize ≤ turns + (32 * s.tmp + s.bitnum)) :
    Searched (bitsOf used) statusSize searchPos size (searchBits used statusSize size turns s) := by
  induction turns generalizing s with
  | zero =>
    have bit := h.bit
    have most := h.turns
    exact h.failed (by omega)
  | succ turns ih =>
    rw [searchBits]
    split
    swap
    · exact h.failed (by omega)
    rename_i going
    have bit := h.bit
    have further : ∀ t : Search, t.wordnum = s.wordnum ∧ t.bitnum = s.bitnum ∧ t.tmp = s.tmp →
        32 * statusSize ≤ turns + (32 * (t.advance statusSize).tmp +
          (t.advance statusSize).bitnum) := by
      rintro t ⟨-, sameBit, sameTmp⟩
      rw [Search.advance]
      split_ifs <;> dsimp only <;> omega
    have counted : s.count ≤ s.here := by
      rcases h.stage with ⟨-, scanned⟩ | ⟨-, scanned, -⟩ <;>
        exact Nat.le_trans (Nat.le_add_left _ _) scanned.within
    split
    · rename_i zero
      rw [clear_iff bit, ← bitsOf_word bit] at zero
      have start : (if s.count = 0 then s.wordnum * 32 + s.bitnum + 1 else s.start) =
          s.here - s.count + 1 := by
        split
        · rename_i none
          rw [none, Search.here]
          omega
        · exact h.start ‹_›
      dsimp only
      split
      · rename_i all
        have fewer : s.count = size := by omega
        have grown : Clear (bitsOf used) (s.here - s.count) (size + 1) := by
          rcases h.stage with ⟨-, scanned⟩ | ⟨-, scanned, -⟩ <;>
            exact fewer ▸ scanned.grown zero
        have word := h.word
        refine .found (s.here - s.count) all start grown ?_ ?_ word
        · rw [Search.here] at counted ⊢
          omega
        · rcases h.stage with ⟨-, scanned⟩ | ⟨wrapped, -, -⟩
          · exact Or.inl (Nat.le_sub_of_add_le scanned.within)
          · refine Or.inr ?_
            rw [Search.here] at counted ⊢
            omega
      · rename_i few
        refine ih (h.advance inside going ⟨rfl, rfl, rfl⟩ (fun _ => ?_) fun low scanned => ?_)
          (further _ ⟨rfl, rfl, rfl⟩)
        · rw [Nat.add_sub_add_right]
          exact start
        · have fewer := scanned.fewer
          exact scanned.grow zero (by omega)
    · rename_i one
      have set : bitsOf used s.here = true := by
        rw [clear_iff bit, Bool.not_eq_false] at one
        rw [Search.here, bitsOf_word bit, one]
      exact ih (h.advance inside going ⟨rfl, rfl, rfl⟩ (fun none => absurd rfl none)
        fun low scanned => scanned.skip set) (further _ ⟨rfl, rfl, rfl⟩)

/-! ## What each call does to the heap -/

def heapWords : Nat := bufferHeapSize / 32 / 32

def Buffer.block (b : Buffer) : Block := ⟨(b.address - bufferHeapBase) / 32, chunks b.size⟩

/-- There are clear chunks for a request behind another clear one, and all of them on one side
of the word that the search starts with. -/
def Room (m : BufferManager) (size : BitVec 16) : Prop :=
  ∃ gap, gap + chunks size < 32 * heapWords ∧ Clear (bitsOf m.usedStatus) gap (chunks size + 1) ∧
    (32 * m.searchPos ≤ gap ∨ gap + chunks size < 32 * m.searchPos)

/-- The manager shows these buffers. -/
structure Up (m : BufferManager) (held : List Buffer) : Prop where
  start : m.startAddr = bufferHeapBase
  region : m.regionSize = bufferHeapSize
  words : m.statusSize = heapWords
  length : m.usedStatus.length = heapWords
  search : m.searchPos < heapWords
  placed : ∀ b ∈ held, b.address = bufferHeapBase + 32 * b.block.start
  shows : Represents (32 * heapWords) (bitsOf m.usedStatus) (held.map Buffer.block)

inductive Sound (w : World) : Prop
  | down (unset : w.manager.startAddr = 0) (none : w.held = [])
  | up (up : Up w.manager w.held)

variable {m : BufferManager} {held : List Buffer} {w : World}

theorem two_le_chunks (size : BitVec 16) : 2 ≤ chunks size := by
  rw [chunks]
  split <;> omega

theorem Up.set (h : Up m held) : ¬ (m.startAddr = 0 ∨ m.regionSize = 0) := by
  rw [h.start, h.region]
  decide

theorem bitsOf_zeros (n i : Nat) : bitsOf (List.replicate n 0) i = false := by
  rw [bitsOf]
  by_cases inside : i / 32 < n
  · rw [List.getD_replicate _ inside]
    exact BitVec.getLsbD_zero
  · rw [List.getD_eq_default _ _ (by rw [List.length_replicate]; omega)]
    exact BitVec.getLsbD_zero

/-- The region is a whole number of words, so no bit lies past its end. -/
theorem init_fresh (unset : m.startAddr = 0) : dmaBufferInit true true m =
    ⟨bufferHeapBase, bufferHeapSize, List.replicate heapWords 0, heapWords, 0⟩ := by
  rw [dmaBufferInit, if_neg (fun set => set.1 unset), if_neg (by decide), if_neg (by decide)]
  dsimp only
  rw [if_neg (by decide)]
  rfl

theorem init_up (mutex memory : Bool) (unset : m.startAddr = 0) :
    (dmaBufferInit mutex memory m).startAddr = 0 ∨ Up (dmaBufferInit mutex memory m) [] := by
  cases mutex with
  | false =>
    rw [dmaBufferInit, if_neg (fun set => set.1 unset)]
    exact Or.inl unset
  | true =>
    cases memory with
    | false =>
      rw [dmaBufferInit, if_neg (fun set => set.1 unset)]
      exact Or.inl unset
    | true =>
      rw [init_fresh unset]
      exact Or.inr ⟨rfl, rfl, rfl, List.length_replicate, by decide, nofun,
        represents_nil (bitsOf_zeros heapWords)⟩

/-- A request that gets the lock is met where there is room for it, and changes nothing where
there is none. -/
theorem Up.alloc (h : Up m held) (size : BitVec 16) :
    (Room m size ∧ ∃ buffer, (dmaBufferAlloc true size m).1 = some buffer ∧
      Up (dmaBufferAlloc true size m).2 (⟨buffer, size⟩ :: held)) ∨
    (¬ Room m size ∧ dmaBufferAlloc true size m = (none, m)) := by
  have searched := @searchBits_spec m.usedStatus m.statusSize m.searchPos (chunks size)
    ⟨m.searchPos, 0, 0, 0, 0⟩ (32 * m.statusSize) (h.words ▸ h.search)
    (scanning_start (h.words ▸ h.search)) (Nat.le_add_right _ _)
  have sized := two_le_chunks size
  generalize ended : searchBits m.usedStatus m.statusSize (chunks size) (32 * m.statusSize)
    ⟨m.searchPos, 0, 0, 0, 0⟩ = s at searched
  rw [dmaBufferAlloc, if_neg (by decide), if_neg h.set]
  dsimp only
  rw [ended]
  rw [h.words] at searched
  cases searched with
  | found gap enough start clear fits side word =>
    rw [if_pos enough]
    refine Or.inl ⟨⟨gap, fits, clear, side⟩, _, rfl, ?_⟩
    obtain ⟨length, marked⟩ := @setStatus_spec s.start (chunks size - 1) true m.usedStatus
      (by rw [h.length, start]; omega)
    have block : Buffer.block ⟨m.startAddr + s.start * 32, size⟩ = ⟨gap + 1, chunks size⟩ := by
      rw [Buffer.block, h.start, start, Nat.add_sub_cancel_left, Nat.mul_div_cancel _ (by decide)]
    refine ⟨h.start, h.region, h.words, length.trans h.length, word, ?_, ?_⟩
    · intro b member
      rcases List.mem_cons.mp member with rfl | old
      · rw [block, h.start, start]
        dsimp only
        omega
      · exact h.placed b old
    · rw [List.map_cons, block]
      dsimp only
      rw [show bitsOf (setStatus s.start (chunks size - 1) true m.usedStatus) = _ from
        funext marked, start]
      exact h.shows.place clear sized fits
  | failed short none =>
    rw [if_neg short]
    refine Or.inr ⟨?_, rfl⟩
    rintro ⟨gap, fits, clear, side⟩
    obtain ⟨before, reaches⟩ := none gap fits clear
    omega

/-- A buffer that is given back is found by its address and cleared to its end. -/
theorem Up.free {before after : List Buffer} {b : Buffer} (h : Up m (before ++ b :: after)) :
    (dmaBufferFree true b.address m).1 = 0 ∧
      Up (dmaBufferFree true b.address m).2 (before ++ after) ∧
      (dmaBufferFree true b.address m).2.searchPos = 0 ∧
      bitsOf (dmaBufferFree true b.address m).2.usedStatus =
        mark (bitsOf m.usedStatus) b.block.start (b.block.units - 1) false := by
  have member : b ∈ before ++ b :: after := by simp
  have shows := h.shows
  rw [List.map_append, List.map_cons] at shows
  obtain ⟨positive, sized, fits⟩ := shows.placed b.block (by simp)
  obtain ⟨set, clear⟩ := shows.ends
  have place := h.placed b member
  have inside : m.startAddr < b.address ∧ b.address < m.startAddr + m.regionSize := by
    rw [h.start, h.region, place]
    have region : bufferHeapSize = 32 * (32 * heapWords) := rfl
    omega
  have start : (b.address - m.startAddr) / 32 = b.block.start := by
    rw [h.start]
    rfl
  have counted : countUsed m.usedStatus m.statusSize (32 * m.statusSize) (b.block.start / 32)
      (b.block.start % 32) 0 = b.block.units - 1 := by
    have spot : 32 * (b.block.start / 32) + b.block.start % 32 = b.block.start :=
      Nat.div_add_mod _ _
    have spec := @countUsed_spec m.usedStatus m.statusSize (32 * m.statusSize)
      (b.block.start / 32) (b.block.start % 32) 0 (b.block.units - 1)
      (h.length.trans h.words.symm) (Nat.mod_lt _ (by decide)) (by rw [h.words]; omega)
    rw [spot, Nat.zero_add] at spec
    exact spec set clear
  obtain ⟨length, marked⟩ := @setStatus_spec b.block.start (b.block.units - 1) false m.usedStatus
    (by rw [h.length]; omega)
  rw [dmaBufferFree, if_neg (by decide), if_pos inside]
  dsimp only
  rw [start, counted]
  refine ⟨rfl, ⟨h.start, h.region, h.words, length.trans h.length,
    show 0 < heapWords by decide, ?_, ?_⟩, rfl, funext marked⟩
  · exact fun c left => h.placed c (mem_rest left)
  · rw [show bitsOf (setStatus b.block.start (b.block.units - 1) false m.usedStatus) = _ from
      funext marked, List.map_append]
    exact shows.remove

/-! ## Runs -/

theorem sound_step (sound : Sound w) (a : Action) (ok : Contract w a) : Sound (step w a).1 := by
  cases a with
  | init mutex memory =>
    cases sound with
    | down unset none =>
      rcases init_up mutex memory unset with still | up
      · exact .down still none
      · exact .up (none ▸ up)
    | up up =>
      have same : dmaBufferInit mutex memory w.manager = w.manager :=
        if_pos (not_or.mp up.set)
      refine .up ?_
      simp only [step, same]
      exact up
  | deInit lock =>
    have none : w.held = [] := ok
    cases lock with
    | false => exact sound
    | true => exact .down rfl none
  | alloc lock size =>
    cases lock with
    | false => exact sound
    | true =>
      cases sound with
      | down unset none =>
        have same : dmaBufferAlloc true size w.manager = (Option.none, w.manager) := by
          rw [dmaBufferAlloc, if_neg (by decide), if_pos (Or.inl unset)]
        exact .down (by simp only [step, same]; exact unset) (by simp only [step, same]; exact none)
      | up up =>
        rcases up.alloc size with ⟨-, buffer, given, more⟩ | ⟨-, same⟩
        · refine .up ?_
          simp only [step]
          rw [given]
          exact more
        · refine .up ?_
          simp only [step, same]
          exact up
  | free lock buffer =>
    obtain ⟨b, member, address⟩ := ok
    cases lock with
    | false =>
      have failed : step w (.free false buffer) = (w, .freed buffer (-1)) := rfl
      rw [failed]
      exact sound
    | true =>
      cases sound with
      | down unset none =>
        rw [none] at member
        cases member
      | up up =>
        obtain ⟨b', before, after, -, same, split, erased⟩ :=
          List.exists_of_eraseP member (p := (·.address = buffer)) (by simpa using address)
        obtain rfl : b'.address = buffer := by simpa using same
        have freed := (split ▸ up).free
        refine .up ?_
        simp only [step]
        rw [if_pos freed.1, erased]
        exact freed.2.1

def Buffer.Holds (b : Buffer) (address : Nat) : Prop :=
  b.address ≤ address ∧ address < b.address + b.size.toNat

end DmaBuffers
