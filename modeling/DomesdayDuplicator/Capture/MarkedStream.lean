import DomesdayDuplicator.Capture.SequenceScan
import DomesdayDuplicator.Gateware.DataGenerator
import DomesdayDuplicator.Foundations.Laps

/-!
# The validator against marked streams

A stream that carries its markers as the device stamps them passes, however it is
cut into buffers. A stream with a stretch missing does not, unless the stretch is
a whole number of counter periods: of the blocks that follow the gap, the first
must complete a block's length together with what stood before it, or be one
itself, and each of the next two must be the length that was learned.
-/

namespace MarkedStream

open SampleFormat SequenceValidator SequenceScan Laps

/-- The block lengths the validator accepts. -/
def Known (block : Nat) : Prop :=
  block = samplesPerSequenceCounter ∨ block = legacySamplesPerSequenceCounter

/-- The validator `m + 1` samples after the boundary it locked onto, the first of
block number `start`. -/
def locked (block start m : Nat) : Validator where
  state := .running
  counterValue := (start + m / block) % sequenceCounterValues
  runLength := m % block + 1
  samplesPerCounter := if m < block then 0 else block

theorem nextCounterValue_mod (x : Nat) :
    nextCounterValue (x % sequenceCounterValues) = (x + 1) % sequenceCounterValues := by
  unfold nextCounterValue sequenceCounterValues
  split <;> omega

theorem counter_changes (x : Nat) :
    (x + 1) % sequenceCounterValues ≠ x % sequenceCounterValues := by
  unfold sequenceCounterValues
  omega

variable {block : Nat}

theorem Known.complete (known : Known block) : isKnownSamplesPerSequenceCounter block = true := by
  rcases known with rfl | rfl <;> rfl

theorem Known.pos (known : Known block) : 1 < block := by
  rcases known with rfl | rfl <;> decide

theorem Known.le (known : Known block) : block ≤ maximumSamplesPerSequenceCounter := by
  rcases known with rfl | rfl <;> decide

theorem le_limit_locked (known : Known block) (start m : Nat) :
    block ≤ limit (locked block start m) := by
  have pos := known.pos
  have small := known.le
  by_cases early : m < block
  · simpa [limit, initialRunLimit, locked, early] using small
  · simp [limit, initialRunLimit, locked, early, show block ≠ 0 by omega]

theorem complete_locked (known : Known block) {start m : Nat} (last : m % block + 1 = block) :
    Complete (locked block start m) := by
  have pos := known.pos
  by_cases early : m < block
  · simpa [Complete, locked, early, last] using known.complete
  · simp [Complete, locked, early, last, show block ≠ 0 by omega]

/-- One more sample of an unbroken stream. -/
theorem advance_locked (known : Known block) (start m : Nat) :
    advance (locked block start m) ((start + (m + 1) / block) % sequenceCounterValues) =
      some (locked block start (m + 1)) := by
  have pos := known.pos
  have here : (locked block start m).counterValue =
      (start + m / block) % sequenceCounterValues := rfl
  rcases succ_div_mod (show 0 < block by omega) m with ⟨inside, same⟩ | ⟨last, first, next⟩
  · have bound := Nat.mod_lt (m + 1) (show 0 < block by omega)
    have learned : (m + 1 < block) ↔ m < block := by
      constructor
      · omega
      · intro lt
        rw [Nat.mod_eq_of_lt lt] at inside
        omega
    have room : ¬ (locked block start m).runLength + 1 > limit (locked block start m) := by
      have := le_limit_locked known start m
      show ¬ m % block + 1 + 1 > _
      omega
    rw [advance, same, if_pos here.symm, if_neg room]
    simp only [stay, locked, inside, same, learned]
  · have late : ¬ m + 1 < block := by
      intro lt
      rw [Nat.mod_eq_of_lt lt] at first
      omega
    rw [advance, next, ← Nat.add_assoc, here, if_neg (counter_changes _), nextCounterValue_mod,
      if_pos ⟨rfl, complete_locked known last⟩]
    by_cases early : m < block
    · simp [turn, locked, last, first, next, late, early, Nat.add_assoc]
    · simp [turn, locked, last, first, next, late, early, Nat.add_assoc]

theorem scan_locked (known : Known block) (start index m : Nat) :
    scan (acquired (start % sequenceCounterValues)) index
      ((List.range (m + 1)).map fun i => (start + i / block) % sequenceCounterValues) =
        .ok (locked block start m) := by
  have pos := known.pos
  induction m with
  | zero =>
    have small := known.le
    have first : advance (acquired (start % sequenceCounterValues))
        ((start + 0 / block) % sequenceCounterValues) = some (locked block start 0) := by
      rw [advance, acquired, Nat.zero_div, Nat.add_zero, if_pos rfl, if_neg (by simp [limit,
        initialRunLimit, maximumSamplesPerSequenceCounter, legacySamplesPerSequenceCounter])]
      simp [stay, locked, show 0 < block by omega]
    rw [Nat.zero_div, Nat.add_zero] at first
    simp [scan, first]
  | succ m ih =>
    rw [List.range_succ, List.map_append, scan_append, ih]
    simp [Except.bind, scan, advance_locked known]

/-! ## Unbroken streams -/

/-- The words inside one block carry one counter. -/
theorem counters_in_block {offset : Nat} {words : List Word} (marked : Marked block offset words)
    (inside : offset % block + words.length ≤ block) :
    words.map Word.counter =
      List.replicate words.length (offset / block % sequenceCounterValues) := by
  rw [marked.counters, List.eq_replicate_iff]
  refine ⟨by simp, fun c mem => ?_⟩
  obtain ⟨i, below, rfl⟩ := List.mem_map.mp mem
  rw [List.mem_range] at below
  have whole := Nat.div_add_mod offset block
  have within : offset % block + i < block := by omega
  have split : offset + i = (offset % block + i) + block * (offset / block) := by omega
  rw [split, Nat.add_mul_div_left _ _ (by omega), Nat.div_eq_of_lt within, Nat.zero_add]

/-- The words from a block boundary on. -/
theorem counters_from_boundary {offset : Nat} {words : List Word} (pos : 0 < block)
    (marked : Marked block offset words) (boundary : offset % block = 0) :
    words.map Word.counter =
      (List.range words.length).map fun i =>
        (offset / block + i / block) % sequenceCounterValues := by
  rw [marked.counters]
  apply List.map_congr_left
  intro i _
  have split : offset + i = i + block * (offset / block) := by
    have := Nat.div_add_mod offset block
    omega
  rw [split, Nat.add_mul_div_left _ _ pos, Nat.add_comm]

theorem firstBoundary_spec (pos : 0 < block) (offset : Nat) :
    0 < firstBoundary block offset ∧ firstBoundary block offset ≤ block ∧
      (offset + firstBoundary block offset) % block = 0 ∧
      (offset + firstBoundary block offset) / block = offset / block + 1 := by
  have bound := Nat.mod_lt offset pos
  have whole := Nat.div_add_mod offset block
  have next : offset + firstBoundary block offset = block * (offset / block + 1) := by
    rw [Nat.mul_add, firstBoundary]
    omega
  rw [next, Nat.mul_mod_right, Nat.mul_div_cancel_left _ pos]
  unfold firstBoundary
  omega

/-- A stream that is unbroken as far as its first boundary is locked onto there. -/
theorem locks (known : Known block) {offset : Nat} {first : List Byte} {buffers : List (List Byte)}
    {lead rest : List Word} {change : Word}
    (even : ∀ b ∈ first :: buffers, 2 ∣ b.length)
    (content : samples (first :: buffers).flatten = lead ++ change :: rest)
    (marked : Marked block offset (lead ++ [change]))
    (boundary : lead.length = firstBoundary block offset)
    (long : lead.length < (samples first).length) :
    ReportsAll (processAll {} (first :: buffers)).1 (first :: buffers)
      (processAll {} (first :: buffers)).2
      (scan (acquired ((offset / block + 1) % sequenceCounterValues)) lead.length
        ((change :: rest).map Word.counter)) := by
  have above := known.pos
  have below := known.le
  obtain ⟨pos, near, aligned, next⟩ := firstBoundary_spec (show 0 < block by omega) offset
  have shown : change.counter = (offset / block + 1) % sequenceCounterValues := by
    have := marked.right 0 (by simp)
    rw [boundary, Nat.add_zero, next] at this
    exact this
  have constant : ∀ w ∈ lead, w.counter = offset / block % sequenceCounterValues := by
    have bound := Nat.mod_lt offset (show 0 < block by omega)
    have run := counters_in_block marked.left (by rw [boundary, firstBoundary]; omega)
    intro w mem
    have mem' : w.counter ∈ lead.map Word.counter := List.mem_map_of_mem mem
    rw [run] at mem'
    exact (List.mem_replicate.mp mem').2
  -- the first buffer holds the lead and the change
  obtain ⟨tail, cut⟩ : ∃ tail, samples first = lead ++ change :: tail := by
    rw [List.flatten_cons, samples_append (even first (by simp))] at content
    have shared : lead ++ [change] <+: samples first := by
      refine List.prefix_of_prefix_length_le ⟨rest, ?_⟩
        (List.prefix_append _ (samples buffers.flatten)) ?_
      · rw [content, List.append_assoc]
        rfl
      · rw [List.length_append, List.length_singleton]
        omega
    obtain ⟨tail, whole⟩ := shared
    exact ⟨tail, by rw [← whole, List.append_assoc]; rfl⟩
  cases lead with
  | nil => simp only [List.length_nil] at boundary; omega
  | cons opening same =>
    have opens : opening.counter = offset / block % sequenceCounterValues :=
      constant opening (by simp)
    have all := processAll_locks cut (fun w mem => by rw [opens, constant w (by simp [mem])])
      (by rw [shown, opens]; exact counter_changes _)
      (by rw [List.length_cons] at boundary; omega) even
    rw [content, List.drop_left' (by simp), shown] at all
    exact all

/-- Every call succeeds and the validator is left running. -/
def Accepted (buffers : List (List Byte)) : Prop :=
  (∀ o ∈ (processAll {} buffers).2, o.ok = true) ∧ (processAll {} buffers).1.state = .running

theorem marked_accepted (known : Known block) {offset : Nat} {first : List Byte}
    {buffers : List (List Byte)} (even : ∀ b ∈ first :: buffers, 2 ∣ b.length)
    (marked : Marked block offset (samples (first :: buffers).flatten))
    (long : firstBoundary block offset < (samples first).length) :
    Accepted (first :: buffers) := by
  have above := known.pos
  obtain ⟨pos, near, aligned, next⟩ := firstBoundary_spec (show 0 < block by omega) offset
  have reaches : firstBoundary block offset < (samples (first :: buffers).flatten).length := by
    rw [List.flatten_cons, samples_append (even first (by simp)), List.length_append]
    omega
  have content := (List.take_append_drop (firstBoundary block offset)
    (samples (first :: buffers).flatten)).symm
  have boundary : ((samples (first :: buffers).flatten).take (firstBoundary block offset)).length =
      firstBoundary block offset := by
    rw [List.length_take]
    omega
  generalize (samples (first :: buffers).flatten).take (firstBoundary block offset) = lead
    at content boundary
  rw [List.drop_eq_getElem_cons reaches] at content
  generalize (samples (first :: buffers).flatten)[firstBoundary block offset] = change
    at content
  generalize (samples (first :: buffers).flatten).drop (firstBoundary block offset + 1) = rest
    at content
  rw [content] at marked
  have start : Marked block offset (lead ++ [change]) := by
    rw [show lead ++ change :: rest = (lead ++ [change]) ++ rest by simp] at marked
    exact marked.left
  have report := locks known even content start boundary (by rw [boundary]; exact long)
  have tail := marked.right
  rw [boundary] at tail
  rw [counters_from_boundary (by omega) tail aligned, next, List.length_cons,
    scan_locked known] at report
  exact ⟨report.2, by rw [report.1]; rfl⟩

/-- However an ideal stream is cut into buffers of whole samples, the first of
them reaching past the first change of the counter, every call succeeds and the
validator is left running; and the streams of the data generator, from any state
it can be in, are ideal ones. -/
theorem ideal_streams_accepted :
    (∀ block offset first buffers, Known block → (∀ b ∈ first :: buffers, 2 ∣ b.length) →
      Marked block offset (samples (first :: buffers).flatten) →
      firstBoundary block offset < (samples first).length → Accepted (first :: buffers)) ∧
    ∀ r inputs first buffers, DataGenerator.Reachable r →
      (∀ i ∈ inputs, i.resetN = true) → (∀ b ∈ first :: buffers, 2 ∣ b.length) →
      samples (first :: buffers).flatten = DataGenerator.captured r inputs →
      samplesPerSequenceCounter - r.sequencePosition.toNat < (samples first).length →
      Accepted (first :: buffers) := by
  refine ⟨fun block offset first buffers known even marked long =>
    marked_accepted known even marked long, ?_⟩
  intro r inputs first buffers reachable running even content long
  obtain ⟨offset, stands⟩ := reachable.stands
  have marked := DataGenerator.marked_captured stands running
  rw [← content] at marked
  rw [stands.position] at long
  exact marked_accepted (Or.inl rfl) even marked long

/-- Two samples either side of a boundary. -/
theorem boundary_pair_accepted : Accepted [[0x00, 0x00, 0x00, 0x04]] := by
  refine ideal_streams_accepted.1 samplesPerSequenceCounter 65534 _ [] (Or.inl rfl) ?_ ?_ ?_
  · decide
  · decide
  · decide

/-! ## Streams with a gap -/

/-- The first sample past the second block boundary after the gap, in the stream
that is left. -/
def deadline (block offset kept lost : Nat) : Nat :=
  kept + (2 * block - (offset + kept + lost) % block)

theorem complete_iff {v : Validator} :
    Complete v ↔ (v.samplesPerCounter ≠ 0 ∧ v.runLength = v.samplesPerCounter) ∨
      (v.samplesPerCounter = 0 ∧
        isKnownSamplesPerSequenceCounter v.runLength = true) := by
  by_cases learned : v.samplesPerCounter = 0 <;> simp [Complete, learned]

/-- What a complete run leaves learned is its own length. -/
theorem learned_turn {v : Validator} (complete : Complete v) (c : Nat) :
    (turn v c).samplesPerCounter = v.runLength ∧ v.runLength ≠ 0 := by
  rcases complete_iff.mp complete with ⟨learned, run⟩ | ⟨unlearned, known⟩
  · simp [turn, learned, run]
  · refine ⟨by simp [turn, unlearned], fun zero => ?_⟩
    rw [zero] at known
    cases known

/-- Block numbers that show one counter are a whole number of cycles apart. -/
theorem whole_periods (pos : 0 < block) {start q k lost : Nat}
    (apart : block * k = block * q + lost)
    (same : (start + k) % sequenceCounterValues = (start + q) % sequenceCounterValues) :
    sequenceCounterValues * block ∣ lost := by
  have order : q ≤ k := Nat.le_of_mul_le_mul_left (by omega) pos
  obtain ⟨d, rfl⟩ := Nat.exists_eq_add_of_le order
  obtain ⟨e, rfl⟩ : ∃ e, d = sequenceCounterValues * e := by
    refine ⟨d / sequenceCounterValues, ?_⟩
    unfold sequenceCounterValues at *
    omega
  refine ⟨e, ?_⟩
  have : lost = block * (sequenceCounterValues * e) := by
    rw [Nat.mul_add] at apart
    omega
  rw [this, Nat.mul_comm sequenceCounterValues block, Nat.mul_assoc]

/-- Three runs of a shifted stream pass only if the shift was a whole number of
periods: the second and third fix the length learned to be the stream's own. -/
theorem survivors (known : Known block) {start m lost index : Nat} {w : Validator}
    (h : scan (locked block start m) index
      (List.replicate (block - (m + 1 + lost) % block)
          ((start + (m + 1 + lost) / block) % sequenceCounterValues) ++
        (List.replicate block ((start + (m + 1 + lost) / block + 1) % sequenceCounterValues) ++
        List.replicate 1 ((start + (m + 1 + lost) / block + 2) % sequenceCounterValues))) =
        .ok w) : sequenceCounterValues * block ∣ lost := by
  have pos := known.pos
  have bound := Nat.mod_lt (m + 1 + lost) (show 0 < block by omega)
  generalize hk : (m + 1 + lost) / block = k at h
  generalize ho : (m + 1 + lost) % block = o at h bound
  obtain ⟨u, first, h⟩ := scan_append_ok h
  obtain ⟨v, second, third⟩ := scan_append_ok h
  have changes₂ := counter_changes (start + k)
  have changes₃ := counter_changes (start + k + 1)
  have whole := Nat.div_add_mod (m + 1 + lost) block
  have held := Nat.div_add_mod m block
  rw [hk, ho] at whole
  rcases scan_run (by omega) first with ⟨same, _, rfl⟩ | ⟨_, next, complete, _, rfl⟩
  · -- the run before the gap goes on after it
    rcases scan_run (by omega) second with ⟨again, _⟩ | ⟨_, _, ended, _, rfl⟩
    · exact absurd (again.trans same.symm) changes₂
    rcases scan_run (by omega) third with ⟨again, _⟩ | ⟨_, _, full, _⟩
    · exact absurd again changes₃
    obtain ⟨learned, nonzero⟩ := learned_turn ended ((start + k + 1) % sequenceCounterValues)
    have length : block = m % block + 1 + (block - o) := by
      rcases complete_iff.mp full with ⟨_, run⟩ | ⟨unlearned, _⟩
      · exact run.trans learned
      · exact absurd (learned.symm.trans unlearned) nonzero
    exact whole_periods (by omega) (by omega) same
  · -- the run before the gap ends there
    obtain ⟨learned, nonzero⟩ :=
      learned_turn complete ((start + k) % sequenceCounterValues)
    rcases scan_run (by omega) second with ⟨again, _⟩ | ⟨_, _, ended, _, rfl⟩
    · exact absurd again changes₂
    rcases scan_run (by omega) third with ⟨again, _⟩ | ⟨_, _, full, _⟩
    · exact absurd again changes₃
    obtain ⟨learned', nonzero'⟩ := learned_turn ended ((start + k + 1) % sequenceCounterValues)
    have run : block - o = m % block + 1 := by
      rcases complete_iff.mp ended with ⟨_, run⟩ | ⟨unlearned, _⟩
      · exact run.trans learned
      · exact absurd (learned.symm.trans unlearned) nonzero
    have length : block = block - o := by
      rcases complete_iff.mp full with ⟨_, run⟩ | ⟨unlearned, _⟩
      · exact run.trans learned'
      · exact absurd (learned'.symm.trans unlearned) nonzero'
    have advanced : (start + k) % sequenceCounterValues =
        (start + (m / block + 1)) % sequenceCounterValues :=
      next.trans (nextCounterValue_mod (start + m / block))
    exact whole_periods (by omega) (by rw [Nat.mul_add]; omega) advanced

/-- What follows a gap, up to the first sample past the second boundary. -/
theorem counters_after_gap (known : Known block) {offset : Nat} {rest : List Word}
    (marked : Marked block offset rest)
    (reaches : 2 * block - offset % block < rest.length) :
    (rest.take (2 * block - offset % block + 1)).map Word.counter =
      List.replicate (block - offset % block) (offset / block % sequenceCounterValues) ++
        (List.replicate block ((offset / block + 1) % sequenceCounterValues) ++
          List.replicate 1 ((offset / block + 2) % sequenceCounterValues)) := by
  have above := known.pos
  have bound := Nat.mod_lt offset (show 0 < block by omega)
  obtain ⟨_, _, aligned, next⟩ := firstBoundary_spec (show 0 < block by omega) offset
  rw [firstBoundary] at aligned next
  have cut : rest.take (2 * block - offset % block + 1) =
      rest.take (block - offset % block) ++ ((rest.drop (block - offset % block)).take block ++
        ((rest.drop (block - offset % block)).drop block).take 1) := by
    rw [← List.take_add, ← List.take_add]
    congr 1
    omega
  have whole := List.take_append_drop (block - offset % block) rest
  have length₁ : (rest.take (block - offset % block)).length = block - offset % block := by
    rw [List.length_take]
    omega
  have length₂ : ((rest.drop (block - offset % block)).take block).length = block := by
    rw [List.length_take, List.length_drop]
    omega
  have length₃ : (((rest.drop (block - offset % block)).drop block).take 1).length = 1 := by
    rw [List.length_take, List.length_drop, List.length_drop]
    omega
  rw [← whole] at marked
  have marked₁ := marked.left
  have later := marked.right
  rw [length₁] at later
  rw [← List.take_append_drop block (rest.drop _)] at later
  have marked₂ := later.left
  have latest := later.right
  rw [length₂, ← List.take_append_drop 1 (List.drop block _)] at latest
  have marked₃ := latest.left
  rw [cut, List.map_append, List.map_append, counters_in_block marked₁ (by omega),
    counters_in_block marked₂ (by omega),
    counters_in_block marked₃ (by rw [Nat.add_mod_right]; omega), length₁, length₂, length₃,
    next, Nat.add_div_right _ (by omega), next]

/-- A gap of anything but whole counter periods, anywhere past the sample the
validator locked onto, makes some call fail, at the latest at the first sample
past the second block boundary that follows the gap. -/
theorem gap_detected (known : Known block) {offset : Nat} {kept deleted rest : List Word}
    {first : List Byte} {buffers : List (List Byte)}
    (even : ∀ b ∈ first :: buffers, 2 ∣ b.length)
    (marked : Marked block offset (kept ++ (deleted ++ rest)))
    (content : samples (first :: buffers).flatten = kept ++ rest)
    (long : firstBoundary block offset < (samples first).length)
    (after : firstBoundary block offset < kept.length)
    (period : ¬ sequenceCounterValues * block ∣ deleted.length)
    (reaches : deadline block offset kept.length deleted.length < (kept ++ rest).length) :
    ∃ (j : Nat) (outcome : Outcome), (processAll {} (first :: buffers)).2[j]? = some outcome ∧
      outcome.ok = false ∧
      (samples ((first :: buffers).take j).flatten).length + outcome.mismatchSampleIndex ≤
        deadline block offset kept.length deleted.length := by
  have above := known.pos
  obtain ⟨pos, near, aligned, next⟩ := firstBoundary_spec (show 0 < block by omega) offset
  obtain ⟨lead, change, body, rfl, boundary⟩ : ∃ lead change body,
      kept = lead ++ change :: body ∧ lead.length = firstBoundary block offset := by
    refine ⟨kept.take (firstBoundary block offset), kept[firstBoundary block offset],
      kept.drop (firstBoundary block offset + 1), ?_, by rw [List.length_take]; omega⟩
    rw [← List.drop_eq_getElem_cons, List.take_append_drop]
  have size : (lead ++ change :: body).length = firstBoundary block offset + (body.length + 1) := by
    rw [List.length_append, List.length_cons, boundary]
  have total : (lead ++ change :: body ++ rest).length =
      firstBoundary block offset + (body.length + 1) + rest.length := by
    rw [List.length_append, size]
  rw [total, deadline, size] at reaches
  rw [deadline, size]
  have unbroken := marked.left
  have tail := marked.right.right
  rw [size] at tail
  -- the gapped stream stands `body.length + 1 + deleted.length` past the lock
  have resumed : offset + (firstBoundary block offset + (body.length + 1)) + deleted.length =
      (body.length + 1 + deleted.length) + block * (offset / block + 1) := by
    have := Nat.div_add_mod (offset + firstBoundary block offset) block
    rw [aligned, next] at this
    omega
  rw [resumed] at tail reaches ⊢
  rw [Nat.add_mul_mod_self_left] at reaches ⊢
  have shifted := counters_after_gap known tail (by
    rw [Nat.add_mul_mod_self_left]
    omega)
  rw [Nat.add_mul_mod_self_left, Nat.add_mul_div_left _ _ (show 0 < block by omega),
    Nat.add_comm _ (offset / block + 1)] at shifted
  have stream : samples (first :: buffers).flatten = lead ++ change :: (body ++ rest) := by
    rw [content, List.append_assoc, List.cons_append]
  have lock := locks known even stream
    (by
      rw [show lead ++ change :: body = (lead ++ [change]) ++ body by simp] at unbroken
      exact unbroken.left) boundary (boundary ▸ long)
  have held := unbroken.right
  rw [boundary] at held
  have scanned := counters_from_boundary (show 0 < block by omega) held aligned
  rw [next, List.length_cons] at scanned
  -- the samples up to the deadline cannot all pass
  generalize hspan : 2 * block - (body.length + 1 + deleted.length) % block = span at *
  have upTo : ∃ stop, scan (acquired ((offset / block + 1) % sequenceCounterValues)) lead.length
      ((change :: body).map Word.counter ++ (rest.take (span + 1)).map Word.counter) =
        .error stop := by
    cases outcome : scan _ lead.length ((change :: body).map Word.counter ++
        (rest.take (span + 1)).map Word.counter) with
    | error stop => exact ⟨stop, rfl⟩
    | ok w =>
      obtain ⟨v, before, beyond⟩ := scan_append_ok outcome
      rw [scanned, scan_locked known] at before
      cases before
      rw [shifted] at beyond
      exact absurd (survivors known beyond) period
  obtain ⟨stop, failed⟩ := upTo
  have bound := (scan_error_lt failed).2
  rw [List.length_append, List.length_map, List.length_map, List.length_cons, List.length_take,
    boundary] at bound
  have all : (change :: (body ++ rest)).map Word.counter =
      ((change :: body).map Word.counter ++ (rest.take (span + 1)).map Word.counter) ++
        (rest.drop (span + 1)).map Word.counter := by
    rw [List.append_assoc, ← List.map_append, ← List.map_append, List.take_append_drop]
    rfl
  rw [all, scan_append, failed] at lock
  obtain ⟨j, outcome, found, bad, place⟩ := lock
  exact ⟨j, outcome, found, bad, by omega⟩

/-- A stream whose samples are all zero. -/
def silence (block offset count : Nat) : List Word :=
  (List.range count).map fun i =>
    ⟨0, BitVec.ofNat 8 ((offset + i) / block % sequenceCounterValues * 4)⟩

theorem marked_silence (block offset count : Nat) :
    Marked block offset (silence block offset count) := by
  intro i hi
  have small := Nat.mod_lt ((offset + i) / block) (show 0 < sequenceCounterValues by decide)
  simp only [silence, List.getElem_map, List.getElem_range, Word.counter,
    BitVec.toNat_ushiftRight, BitVec.toNat_ofNat, Nat.shiftRight_eq_div_pow]
  unfold sequenceCounterValues at *
  omega

/-- One sample lost just after the lock, and how the loss is reported. -/
theorem one_sample_missed :
    let stream := silence samplesPerSequenceCounter 65534 200000
    ∃ (j : Nat) (outcome : Outcome),
      (processAll {} [bytes (stream.take 2 ++ stream.drop 3)]).2[j]? = some outcome ∧
      outcome.ok = false := by
  intro stream
  have length : stream.length = 200000 := by simp [stream, silence]
  have kept : (stream.take 2).length = 2 := by rw [List.length_take, length]; rfl
  have deleted : ((stream.drop 2).take 1).length = 1 := by
    rw [List.length_take, List.length_drop, length]
    rfl
  have left : (stream.take 2 ++ stream.drop 3).length = 199999 := by
    rw [List.length_append, kept, List.length_drop, length]
  have whole : stream.take 2 ++ ((stream.drop 2).take 1 ++ stream.drop 3) = stream := by
    rw [show stream.drop 3 = (stream.drop 2).drop 1 by rw [List.drop_drop],
      List.take_append_drop, List.take_append_drop]
  have marked := marked_silence samplesPerSequenceCounter 65534 200000
  rw [show silence samplesPerSequenceCounter 65534 200000 = stream from rfl, ← whole] at marked
  have even : ∀ b ∈ [bytes (stream.take 2 ++ stream.drop 3)], 2 ∣ b.length := by
    intro b mem
    rw [List.mem_singleton.mp mem]
    exact bytes_even _
  obtain ⟨j, outcome, found, failed, _⟩ := gap_detected (Or.inl rfl) even marked (by simp)
    (by rw [samples_bytes, left]; decide) (by rw [kept]; decide) (by rw [deleted]; decide)
    (by rw [left, kept, deleted]; decide)
  exact ⟨j, outcome, found, failed⟩

end MarkedStream
