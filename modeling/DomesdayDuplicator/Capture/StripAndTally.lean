import DomesdayDuplicator.Capture.SampleMetrics
import DomesdayDuplicator.Capture.SequenceScan

/-!
# What is stripped and what is counted

A call of the validator goes through its buffer up to the first mismatch: up to there every
word is left as its low ten bits and counted, from there on nothing is touched. A run of one
counter value is never longer than the limit it is subtracted from.
-/

namespace StripAndTally

open SampleFormat SequenceValidator SequenceScan SampleMetrics

/-! ## Words -/

theorem value_eq (w : Word) : w.value = w.low.toNat + 256 * w.high.toNat := by
  have low : w.low.toNat < 2 ^ 8 := w.low.isLt
  rw [Word.value, Nat.or_comm, ← Nat.shiftLeft_add_eq_or_of_lt low, Nat.shiftLeft_eq]
  omega

theorem value_strip (w : Word) : w.strip.value = w.value % 1024 := by
  have high : (w.high &&& 3#8).toNat = w.high.toNat % 4 := by
    rw [BitVec.toNat_and]
    exact Nat.and_two_pow_sub_one_eq_mod w.high.toNat 2
  have low : w.low.toNat < 256 := w.low.isLt
  rw [value_eq, value_eq]
  show w.low.toNat + 256 * (w.high &&& 3#8).toNat = _
  rw [high]
  omega

/-- The samples of a buffer, ten bits each. -/
def lowBits (buffer : List Byte) : List Nat := (samples buffer).map fun w => w.value % 1024

/-- A call has gone through so many words of its buffer and has left `after` of it. -/
structure Through (gone : Nat) (buffer after : List Byte) (o : Outcome) : Prop where
  within : gone ≤ (samples buffer).length
  stripped : ((samples after).take gone).map Word.value = (lowBits buffer).take gone
  untouched : (samples after).drop gone = (samples buffer).drop gone
  length : after.length = buffer.length
  trailing : after.drop (bytesPerSample * (samples buffer).length) =
    buffer.drop (bytesPerSample * (samples buffer).length)
  tally : o.tally = tallyOf ((lowBits buffer).take gone)

/-! ## The loop -/

/-- The run so far fits the limit it is checked against. -/
structure Within (pass : Pass) : Prop where
  limit : pass.runLimit = limit pass.validator
  run : pass.validator.runLength ≤ pass.runLimit

/-- What remained of the run when it was found wrong: nothing of one that was too long. -/
def Counted (v : Validator) (o : Outcome) : Prop :=
  (v.runLength = limit v + 1 ∧ o.samplesExpectedRemaining = 0) ∨
    (v.runLength ≤ limit v ∧ o.samplesExpectedRemaining + v.runLength = limit v)

/-- The check of one sample goes on, with the outcome as it was, or breaks off. -/
theorem checkCounter_spec (index counter : Nat) (pass : Pass) :
    (∃ next, checkCounter index counter pass = .ok next ∧ next.outcome = pass.outcome ∧
      next.validator.state = pass.validator.state ∧ (Within pass → Within next)) ∨
    (∃ next, checkCounter index counter pass = .error next ∧ next.outcome.ok = false ∧
      next.outcome.mismatchSampleIndex = index ∧ next.outcome.tally = pass.outcome.tally ∧
      next.validator.state = .failed ∧
      (Within pass → Counted next.validator next.outcome)) := by
  unfold checkCounter
  dsimp only
  by_cases same : counter = pass.validator.counterValue
  · rw [if_pos same]
    by_cases longer : pass.validator.runLength + 1 > pass.runLimit
    · rw [if_pos longer]
      refine Or.inr ⟨_, rfl, rfl, rfl, rfl, rfl, fun within => Or.inl ⟨?_, rfl⟩⟩
      have := within.limit
      have := within.run
      show pass.validator.runLength + 1 = limit pass.validator + 1
      omega
    · rw [if_neg longer]
      exact Or.inl ⟨_, rfl, rfl, rfl, fun within => ⟨within.limit, Nat.le_of_not_lt longer⟩⟩
  rw [if_neg same]
  by_cases ends : counter = nextCounterValue pass.validator.counterValue ∧
      (if pass.validator.samplesPerCounter ≠ 0 then
        pass.validator.runLength = pass.validator.samplesPerCounter
      else isKnownSamplesPerSequenceCounter pass.validator.runLength = true)
  · rw [if_pos ends]
    by_cases learned : pass.validator.samplesPerCounter = 0
    · rw [if_pos learned]
      refine Or.inl ⟨_, rfl, rfl, rfl, fun within => ?_⟩
      have known : isKnownSamplesPerSequenceCounter pass.validator.runLength = true := by
        have complete := ends.2
        rwa [if_neg (by simp [learned])] at complete
      have several : 1 ≤ pass.validator.runLength := by
        rw [isKnownSamplesPerSequenceCounter, Bool.or_eq_true, beq_iff_eq, beq_iff_eq] at known
        rw [samplesPerSequenceCounter, legacySamplesPerSequenceCounter] at known
        omega
      refine ⟨?_, several⟩
      show pass.validator.runLength = initialRunLimit _
      rw [initialRunLimit, if_pos]
      exact Nat.ne_of_gt several
    · rw [if_neg learned]
      refine Or.inl ⟨_, rfl, rfl, rfl, fun within => ⟨within.limit, ?_⟩⟩
      have bound := within.limit
      rw [limit, initialRunLimit, if_pos learned] at bound
      show 1 ≤ pass.runLimit
      omega
  · rw [if_neg ends]
    refine Or.inr ⟨_, rfl, rfl, rfl, rfl, rfl, fun within => Or.inr ⟨?_, ?_⟩⟩
    · exact within.limit ▸ within.run
    · show pass.runLimit - pass.validator.runLength + pass.validator.runLength =
        limit pass.validator
      rw [Nat.sub_add_cancel within.run, within.limit]

/-- What the loop comes to, entered at sample `index` with `start` counted before. -/
structure Reaches (index : Nat) (start : BufferTally) (words : List Word)
    (r : Pass × List Word) (gone : Nat) : Prop where
  within : gone ≤ words.length
  left : r.2 = (words.take gone).map Word.strip ++ words.drop gone
  tally : r.1.outcome.tally =
    ((words.take gone).map fun w => w.value % 1024).foldl BufferTally.measure start
  whole : r.1.outcome.ok = true → gone = words.length
  broken : r.1.outcome.ok = false →
    gone < words.length ∧ r.1.outcome.mismatchSampleIndex = index + gone

theorem Reaches.cons {index gone : Nat} {start : BufferTally} {word : Word} {rest : List Word}
    {r : Pass × List Word}
    (h : Reaches (index + 1) (start.measure word.strip.value) rest r gone) :
    Reaches index start (word :: rest) (r.1, word.strip :: r.2) (gone + 1) := by
  refine ⟨Nat.succ_le_succ h.within, ?_, ?_, fun fine => ?_, fun bad => ?_⟩
  · rw [h.left]
    rfl
  · rw [h.tally, value_strip]
    rfl
  · rw [h.whole fine]
    rfl
  · obtain ⟨before, place⟩ := h.broken bad
    exact ⟨Nat.succ_lt_succ before, by rw [place]; omega⟩

theorem loop_reaches (checking : Bool) (validateFrom index : Nat) (pass : Pass)
    (ok : pass.outcome.ok = true) (words : List Word) : ∃ gone,
      Reaches index pass.outcome.tally words (loop checking validateFrom index pass words) gone := by
  induction words generalizing index pass with
  | nil =>
    refine ⟨0, Nat.le_refl _, rfl, rfl, fun _ => rfl, fun bad => ?_⟩
    exact absurd (ok.symm.trans bad) nofun
  | cons word rest ih =>
    have on : ∀ next : Pass, next.outcome = pass.outcome → ∃ gone,
        Reaches index pass.outcome.tally (word :: rest)
          ((loop checking validateFrom (index + 1) { next with outcome := { next.outcome with
              tally := next.outcome.tally.measure word.strip.value } } rest).1,
            word.strip :: (loop checking validateFrom (index + 1) { next with
              outcome := { next.outcome with
                tally := next.outcome.tally.measure word.strip.value } } rest).2) gone := by
      intro next same
      obtain ⟨gone, reached⟩ := ih (index + 1) ({ next with
        outcome := { next.outcome with
          tally := next.outcome.tally.measure word.strip.value } }) (by simp only [same]; exact ok)
      refine ⟨gone + 1, Reaches.cons ?_⟩
      rw [← same]
      exact reached
    rw [loop]
    by_cases checked : checking = true ∧ index ≥ validateFrom
    · rw [if_pos checked]
      rcases checkCounter_spec index word.counter pass with
        ⟨next, passed, same, -⟩ | ⟨next, broke, bad, place, tally, -⟩
      · rw [passed]
        exact on next same
      · rw [broke]
        refine ⟨0, Nat.zero_le _, rfl, tally, fun fine => ?_, fun _ => ⟨Nat.succ_pos _, place⟩⟩
        exact absurd (fine.symm.trans bad) nofun
    · rw [if_neg checked]
      exact on pass rfl

/-! ## A call -/

theorem length_bytes (words : List Word) :
    (bytes words).length = bytesPerSample * words.length := by
  induction words with
  | nil => rfl
  | cons w rest ih =>
    have step : (bytes (w :: rest)).length = (bytes rest).length + 2 := by
      simp only [bytes, List.flatMap_cons, List.length_append, List.length_cons, List.length_nil]
      omega
    rw [step, ih, List.length_cons, Nat.mul_succ]
    rfl

/-- Looking for a change counts nothing and checks nothing. -/
theorem synchronise_spec (v : Validator) (words : List Word) :
    (synchronise v words).2.1.ok = true ∧ (synchronise v words).2.1.tally = {} ∧
      (synchronise v words).1.samplesPerCounter = v.samplesPerCounter ∧
      (synchronise v words).1.runLength ≤ v.runLength := by
  unfold synchronise
  split
  · dsimp only
    split
    · exact ⟨rfl, rfl, rfl, Nat.zero_le _⟩
    · exact ⟨rfl, rfl, rfl, Nat.le_refl _⟩
  · exact ⟨rfl, rfl, rfl, Nat.le_refl _⟩

theorem through_nothing (buffer : List Byte) (o : Outcome) (none : o.tally = {}) :
    Through 0 buffer buffer o :=
  ⟨Nat.zero_le _, rfl, rfl, rfl, rfl, none⟩

/-- The buffer with its first words stripped, and what is behind its words. -/
theorem through_words {buffer : List Byte} {gone : Nat} {o : Outcome}
    (within : gone ≤ (samples buffer).length)
    (tally : o.tally = tallyOf ((lowBits buffer).take gone)) :
    Through gone buffer (bytes (((samples buffer).take gone).map Word.strip ++
      (samples buffer).drop gone) ++ buffer.drop (bytesPerSample * (samples buffer).length)) o := by
  generalize same : ((samples buffer).take gone).map Word.strip ++ (samples buffer).drop gone = words
  have count : words.length = (samples buffer).length := by
    rw [← same, List.length_append, List.length_map, List.length_take, List.length_drop]
    omega
  have size : (bytes words).length = bytesPerSample * (samples buffer).length := by
    rw [← count, length_bytes]
  have fits : bytesPerSample * (samples buffer).length ≤ buffer.length := by
    rw [length_samples]
    exact Nat.mul_div_le _ _
  have tail : samples (buffer.drop (bytesPerSample * (samples buffer).length)) = [] := by
    refine List.length_eq_zero_iff.mp ?_
    rw [length_samples, List.length_drop, length_samples, bytesPerSample]
    omega
  have read : samples (bytes words ++
      buffer.drop (bytesPerSample * (samples buffer).length)) = words := by
    rw [samples_append (bytes_even words), samples_bytes, tail, List.append_nil]
  refine ⟨within, ?_, ?_, ?_, ?_, tally⟩
  · rw [read, ← same, List.take_left' (by simp [within]), lowBits, List.map_map, ← List.map_take]
    refine List.map_congr_left fun w _ => ?_
    exact value_strip w
  · rw [read, ← same, List.drop_left' (by simp [within])]
  · rw [List.length_append, size, List.length_drop]
    omega
  · rw [List.drop_left' size]

theorem process_through (v : Validator) (buffer : List Byte) :
    ∃ gone, Through gone buffer (process v buffer).2.2 (process v buffer).2.1 ∧
      ((process v buffer).2.1.ok = true → gone = (samples buffer).length) ∧
      ((process v buffer).2.1.ok = false → gone < (samples buffer).length ∧
        gone = (process v buffer).2.1.mismatchSampleIndex) := by
  by_cases empty : (samples buffer).length = 0
  · rw [process, if_pos empty]
    exact ⟨0, through_nothing buffer {} rfl, fun _ => empty.symm, by rintro ⟨⟩⟩
  by_cases failed : v.state = .failed
  · rw [process, if_neg empty, if_pos failed]
    exact ⟨0, through_nothing buffer _ rfl, by rintro ⟨⟩,
      fun _ => ⟨Nat.pos_of_ne_zero empty, rfl⟩⟩
  obtain ⟨fine, none, -, -⟩ := synchronise_spec v (samples buffer)
  rw [process, if_neg empty, if_neg failed]
  generalize synchronise v (samples buffer) = found at fine none
  obtain ⟨w, outcome, validateFrom⟩ := found
  obtain ⟨gone, reached⟩ := loop_reaches (w.state == .running) validateFrom 0
    { validator := w, runLimit := initialRunLimit w, outcome } fine (samples buffer)
  refine ⟨gone, ?_, reached.whole, fun bad => ?_⟩
  · dsimp only
    rw [reached.left]
    refine through_words reached.within ?_
    rw [reached.tally, lowBits, ← List.map_take]
    exact congrArg (fun t => List.foldl BufferTally.measure t _) none
  · obtain ⟨before, place⟩ := reached.broken bad
    exact ⟨before, (place.trans (Nat.zero_add _)).symm⟩

/-! ## The run length -/

theorem loop_counted (checking : Bool) (validateFrom index : Nat) (pass : Pass)
    (ok : pass.outcome.ok = true) (within : Within pass) (words : List Word) :
    ((loop checking validateFrom index pass words).1.outcome.ok = true →
      Within (loop checking validateFrom index pass words).1) ∧
    ((loop checking validateFrom index pass words).1.outcome.ok = false →
      (loop checking validateFrom index pass words).1.validator.state = .failed ∧
      Counted (loop checking validateFrom index pass words).1.validator
        (loop checking validateFrom index pass words).1.outcome) := by
  induction words generalizing index pass with
  | nil => exact ⟨fun _ => within, fun bad => absurd (ok.symm.trans bad) nofun⟩
  | cons word rest ih =>
    rw [loop]
    by_cases checked : checking = true ∧ index ≥ validateFrom
    · rw [if_pos checked]
      rcases checkCounter_spec index word.counter pass with
        ⟨next, passed, same, -, keeps⟩ | ⟨next, broke, bad, -, -, failed, counted⟩
      · rw [passed]
        obtain ⟨fits, run⟩ := keeps within
        exact ih (index + 1) _ (by simp only [same]; exact ok) ⟨fits, run⟩
      · rw [broke]
        exact ⟨fun fine => absurd (fine.symm.trans bad) nofun,
          fun _ => ⟨failed, counted within⟩⟩
    · rw [if_neg checked]
      exact ih (index + 1) _ ok ⟨within.limit, within.run⟩

/-- A validator that may go on has room in its current run. -/
def Fits (v : Validator) : Prop := v.state = .failed ∨ v.runLength ≤ limit v

theorem process_counted {v : Validator} (fits : Fits v) (buffer : List Byte) :
    Fits (process v buffer).1 ∧ (v.state ≠ .failed → (process v buffer).2.1.ok = false →
      Counted (process v buffer).1 (process v buffer).2.1) := by
  by_cases empty : (samples buffer).length = 0
  · rw [process, if_pos empty]
    exact ⟨fits, fun _ => (by rintro ⟨⟩)⟩
  by_cases failed : v.state = .failed
  · rw [process, if_neg empty, if_pos failed]
    exact ⟨fits, fun going => absurd failed going⟩
  obtain ⟨fine, -, learned, run⟩ := synchronise_spec v (samples buffer)
  rw [process, if_neg empty, if_neg failed]
  generalize synchronise v (samples buffer) = found at fine learned run
  obtain ⟨w, outcome, validateFrom⟩ := found
  have room : v.runLength ≤ limit v := fits.resolve_left failed
  have same : limit w = limit v := by
    rw [limit, limit, initialRunLimit, initialRunLimit, show w.samplesPerCounter = _ from learned]
  obtain ⟨passes, breaks⟩ := loop_counted (w.state == .running) validateFrom 0
    { validator := w, runLimit := initialRunLimit w, outcome } fine
    ⟨rfl, Nat.le_trans run (Nat.le_trans room (Nat.le_of_eq same.symm))⟩ (samples buffer)
  dsimp only
  cases ended : (loop (w.state == .running) validateFrom 0
      { validator := w, runLimit := initialRunLimit w, outcome } (samples buffer)).1.outcome.ok with
  | true =>
    obtain ⟨limit, run⟩ := passes ended
    exact ⟨Or.inr (limit ▸ run), fun _ => (by rintro ⟨⟩)⟩
  | false =>
    obtain ⟨failed, counted⟩ := breaks ended
    exact ⟨Or.inl failed, fun _ _ => counted⟩

theorem processAll_fits {v : Validator} (fits : Fits v) (buffers : List (List Byte)) :
    Fits (processAll v buffers).1 := by
  induction buffers generalizing v with
  | nil => exact fits
  | cons buffer rest ih => exact ih (process_counted fits buffer).left

/-! ## Buffers -/

/-- The metrics after the outcomes of one buffer after another. -/
def accumulateAll (m : Metrics) (outcomes : List Outcome) : Metrics :=
  outcomes.foldl (fun m o => m.accumulate o.tally) m

theorem process_tally {v : Validator} {buffer : List Byte} (ok : (process v buffer).2.1.ok = true) :
    (process v buffer).2.1.tally = tallyOf (lowBits buffer) := by
  obtain ⟨gone, through, whole, -⟩ := process_through v buffer
  have all : (lowBits buffer).length ≤ (samples buffer).length :=
    Nat.le_of_eq (List.length_map _)
  rw [through.tally, whole ok, List.take_of_length_le all]

theorem processAll_tallies {v : Validator} {buffers : List (List Byte)}
    (ok : ∀ o ∈ (processAll v buffers).2, o.ok = true) :
    (processAll v buffers).2.map Outcome.tally = buffers.map fun b => tallyOf (lowBits b) := by
  induction buffers generalizing v with
  | nil => rfl
  | cons buffer rest ih =>
    simp only [processAll, List.map_cons]
    rw [process_tally (ok _ (List.mem_cons_self ..)),
      ih fun o member => ok o (List.mem_cons_of_mem _ member)]

/-- Each call goes through its buffer or up to its mismatch; what has been accumulated after
buffers that passed is that of their samples, however they were cut; and the run that is
subtracted from its limit fits it. -/
theorem strip_and_tally :
    (∀ v buffer, ∃ gone, Through gone buffer (process v buffer).2.2 (process v buffer).2.1 ∧
      ((process v buffer).2.1.ok = true → gone = (samples buffer).length) ∧
      ((process v buffer).2.1.ok = false → gone < (samples buffer).length ∧
        gone = (process v buffer).2.1.mismatchSampleIndex)) ∧
    (∀ (m : Metrics) v buffers, (∀ o ∈ (processAll v buffers).2, o.ok = true) →
      (accumulateAll m (processAll v buffers).2).total = added m.total (buffers.flatMap lowBits) ∧
      (accumulateAll m (processAll v buffers).2).capture =
        if m.capturing then added m.capture (buffers.flatMap lowBits) else m.capture) ∧
    (∀ earlier buffer, (processAll {} earlier).1.state ≠ .failed →
      (process (processAll {} earlier).1 buffer).2.1.ok = false →
      Counted (process (processAll {} earlier).1 buffer).1
        (process (processAll {} earlier).1 buffer).2.1) := by
  refine ⟨process_through, ?_, ?_⟩
  · intro m v buffers ok
    have all : accumulateAll m (processAll v buffers).2 =
        (buffers.map lowBits).foldl (fun m part => m.accumulate (tallyOf part)) m := by
      have tallies := congrArg (List.foldl (fun m t => Metrics.accumulate t m) m)
        (processAll_tallies ok)
      rw [List.foldl_map, List.foldl_map] at tallies
      rw [accumulateAll, tallies, List.foldl_map]
    obtain ⟨total, capture, -⟩ := accumulate_all m (buffers.map lowBits)
    rw [all, List.flatMap_def]
    exact ⟨total, capture⟩
  · intro earlier buffer going bad
    have start : Fits {} := Or.inr (Nat.zero_le _)
    exact (process_counted (processAll_fits start earlier) buffer).right going bad

end StripAndTally
