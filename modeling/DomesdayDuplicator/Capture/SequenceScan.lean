import DomesdayDuplicator.Capture.SequenceValidator

/-!
# What the validator checks, without the buffers

Once locked, the validator is a scan of the counters: where the buffers end makes
no difference, and a mismatch is reported at the sample the scan stops at. Runs
of one counter value go through the scan as a whole (`scan_block`).
-/

namespace SequenceScan

open SampleFormat SequenceValidator

/-- The run limit in force, whether or not the block length has been learned. -/
abbrev limit (v : Validator) : Nat := initialRunLimit v

/-- The run that ends here has the length of a block. -/
def Complete (v : Validator) : Prop :=
  if v.samplesPerCounter ≠ 0 then v.runLength = v.samplesPerCounter
  else isKnownSamplesPerSequenceCounter v.runLength = true

instance (v : Validator) : Decidable (Complete v) := by
  unfold Complete
  infer_instance

/-- One more sample of the current run. -/
def stay (v : Validator) : Validator := { v with runLength := v.runLength + 1 }

/-- The first sample of the next run; the first complete run is the one measured. -/
def turn (v : Validator) (counter : Nat) : Validator :=
  { v with
    counterValue := counter
    runLength := 1
    samplesPerCounter := if v.samplesPerCounter = 0 then v.runLength else v.samplesPerCounter }

def advance (v : Validator) (counter : Nat) : Option Validator :=
  if counter = v.counterValue then
    if v.runLength + 1 > limit v then none else some (stay v)
  else if counter = nextCounterValue v.counterValue ∧ Complete v then some (turn v counter)
  else none

/-- The validator after the counters, or the index of the one it stops at. -/
def scan (v : Validator) : Nat → List Nat → Except Nat Validator
  | _, [] => .ok v
  | index, counter :: rest =>
    match advance v counter with
    | some next => scan next (index + 1) rest
    | none => .error index

theorem scan_append (v : Validator) (index : Nat) (cs ds : List Nat) :
    scan v index (cs ++ ds) =
      (scan v index cs).bind fun next => scan next (index + cs.length) ds := by
  induction cs generalizing v index with
  | nil => rfl
  | cons c cs ih =>
    simp only [List.cons_append, scan]
    cases advance v c with
    | none => rfl
    | some next => simp only [ih, List.length_cons, Nat.add_assoc, Nat.add_comm 1]

theorem scan_append_ok {v w : Validator} {index : Nat} {cs ds : List Nat}
    (h : scan v index (cs ++ ds) = .ok w) :
    ∃ u, scan v index cs = .ok u ∧ scan u (index + cs.length) ds = .ok w := by
  rw [scan_append] at h
  cases mid : scan v index cs with
  | error stop => rw [mid] at h; cases h
  | ok u =>
    rw [mid] at h
    exact ⟨u, rfl, h⟩

/-- The scan stops at a sample it was given. -/
theorem scan_error_lt {v : Validator} {index stop : Nat} {cs : List Nat}
    (h : scan v index cs = .error stop) : index ≤ stop ∧ stop < index + cs.length := by
  induction cs generalizing v index with
  | nil => simp [scan] at h
  | cons c cs ih =>
    rw [List.length_cons]
    cases moved : advance v c with
    | none =>
      simp only [scan, moved, Except.error.injEq] at h
      omega
    | some next =>
      simp only [scan, moved] at h
      have := ih h
      omega

/-! ## Runs of one value -/

theorem advance_stay {v w : Validator} {c : Nat} (same : c = v.counterValue)
    (h : advance v c = some w) : v.runLength + 1 ≤ limit v ∧ w = stay v := by
  rw [advance, if_pos same] at h
  split at h
  · cases h
  · cases h
    exact ⟨by omega, rfl⟩

theorem advance_turn {v w : Validator} {c : Nat} (other : c ≠ v.counterValue)
    (h : advance v c = some w) :
    c = nextCounterValue v.counterValue ∧ Complete v ∧ w = turn v c := by
  rw [advance, if_neg other] at h
  split at h
  next ends =>
    cases h
    exact ⟨ends.1, ends.2, rfl⟩
  · cases h

/-- The rest of a run, up to the run limit and no further. -/
theorem scan_same {v w : Validator} {index count a : Nat} (same : a = v.counterValue)
    (h : scan v index (List.replicate count a) = .ok w) :
    (0 < count → v.runLength + count ≤ limit v) ∧
      w = { v with runLength := v.runLength + count } := by
  induction count generalizing v index with
  | zero =>
    cases h
    exact ⟨fun pos => absurd pos (Nat.lt_irrefl 0), rfl⟩
  | succ count ih =>
    rw [List.replicate_succ, scan] at h
    cases moved : advance v a with
    | none => simp [moved] at h
    | some next =>
      obtain ⟨room, rfl⟩ := advance_stay same moved
      simp only [moved] at h
      obtain ⟨within, rfl⟩ := ih (v := stay v) same h
      refine ⟨fun _ => ?_, ?_⟩
      · rcases Nat.eq_zero_or_pos count with rfl | more
        · exact room
        · have : v.runLength + 1 + count ≤ limit v := within more
          omega
      · simp only [stay, Nat.add_assoc, Nat.add_comm 1]

/-- A run that passes continues the current one, or starts where that one ended
at a block's length. -/
theorem scan_run {v w : Validator} {index count a : Nat} (pos : 0 < count)
    (h : scan v index (List.replicate count a) = .ok w) :
    (a = v.counterValue ∧ v.runLength + count ≤ limit v ∧
      w = { v with runLength := v.runLength + count }) ∨
    (a ≠ v.counterValue ∧ a = nextCounterValue v.counterValue ∧ Complete v ∧
      (1 < count → count ≤ limit (turn v a)) ∧ w = { turn v a with runLength := count }) := by
  by_cases same : a = v.counterValue
  · obtain ⟨within, after⟩ := scan_same same h
    exact Or.inl ⟨same, within pos, after⟩
  obtain ⟨more, rfl⟩ : ∃ more, count = more + 1 := ⟨count - 1, by omega⟩
  rw [List.replicate_succ, scan] at h
  cases moved : advance v a with
  | none => simp [moved] at h
  | some next =>
    obtain ⟨follows, complete, rfl⟩ := advance_turn same moved
    simp only [moved] at h
    obtain ⟨within, rfl⟩ := scan_same (v := turn v a) rfl h
    refine Or.inr ⟨same, follows, complete, fun several => ?_, ?_⟩
    · have : 1 + more ≤ limit (turn v a) := within (by omega)
      omega
    · simp only [turn, Nat.add_comm]

/-! ## The loop of a call -/

variable {validateFrom index : Nat} {pass : Pass}

/-- The pass of a validator that checks, with nothing found amiss. -/
structure Clean (pass : Pass) : Prop where
  running : pass.validator.state = .running
  ok : pass.outcome.ok = true
  limit : pass.runLimit = limit pass.validator

theorem checkCounter_some (index : Nat) (clean : Clean pass) {counter : Nat}
    {next : Validator}
    (moved : advance pass.validator counter = some next) :
    ∃ after, checkCounter index counter pass = .ok after ∧ after.validator = next ∧
      Clean after := by
  obtain ⟨running, ok, bound⟩ := clean
  by_cases same : counter = pass.validator.counterValue
  · obtain ⟨room, rfl⟩ := advance_stay same moved
    refine ⟨{ pass with validator := stay pass.validator }, ?_, rfl, running, ok, bound⟩
    simp only [checkCounter, if_pos same]
    rw [if_neg (by omega), stay]
  · obtain ⟨follows, complete, rfl⟩ := advance_turn same moved
    have ends := And.intro follows complete
    rw [Complete] at ends
    simp only [checkCounter, if_neg same, if_pos ends]
    by_cases learned : pass.validator.samplesPerCounter = 0
    · have known : pass.validator.runLength ≠ 0 := by
        intro zero
        simp [Complete, learned, zero, isKnownSamplesPerSequenceCounter,
          samplesPerSequenceCounter, legacySamplesPerSequenceCounter] at complete
      refine ⟨_, if_pos learned, by simp [turn, learned], running, ok, ?_⟩
      simp [limit, initialRunLimit, known]
    · refine ⟨_, if_neg learned, by simp [turn, learned], running, ok, ?_⟩
      simpa [limit, initialRunLimit, learned] using bound

theorem checkCounter_none (index : Nat) (clean : Clean pass) {counter : Nat}
    (stuck : advance pass.validator counter = none) :
    ∃ after, checkCounter index counter pass = .error after ∧
      after.validator.state = .failed ∧ after.outcome.ok = false ∧
      after.outcome.mismatchSampleIndex = index := by
  obtain ⟨_, _, bound⟩ := clean
  unfold advance at stuck
  by_cases same : counter = pass.validator.counterValue
  · have excess : pass.validator.runLength + 1 > pass.runLimit := by
      rw [if_pos same] at stuck
      split at stuck
      · omega
      · cases stuck
    simp only [checkCounter, if_pos same, if_pos excess]
    exact ⟨_, rfl, rfl, rfl, rfl⟩
  · rw [if_neg same] at stuck
    split at stuck
    · cases stuck
    next wrong =>
      rw [Complete] at wrong
      simp only [checkCounter, if_neg same, if_neg wrong]
      exact ⟨_, rfl, rfl, rfl, rfl⟩

/-- What a call leaves behind, for what the scan of its counters came to. -/
def Reports (v : Validator) (o : Outcome) : Except Nat Validator → Prop
  | .ok next => v = next ∧ o.ok = true
  | .error stop => v.state = .failed ∧ o.ok = false ∧ o.mismatchSampleIndex = stop

theorem Clean.tallied (clean : Clean pass) (tally : BufferTally) :
    Clean { pass with outcome := { pass.outcome with tally } } :=
  ⟨clean.running, clean.ok, clean.limit⟩

theorem loop_checks (clean : Clean pass) (from_ : validateFrom ≤ index) (words : List Word) :
    Reports (loop true validateFrom index pass words).1.validator
      (loop true validateFrom index pass words).1.outcome
      (scan pass.validator index (words.map Word.counter)) := by
  induction words generalizing pass index with
  | nil => exact ⟨rfl, clean.ok⟩
  | cons word rest ih =>
    simp only [loop, List.map_cons, scan, from_, and_self, if_true]
    cases moved : advance pass.validator word.counter with
    | some next =>
      obtain ⟨after, checked, rfl, clean'⟩ := checkCounter_some index clean moved
      simp only [checked]
      exact ih (clean'.tallied _) (by omega)
    | none =>
      obtain ⟨after, checked, failed⟩ := checkCounter_none index clean moved
      simp only [checked]
      exact failed

theorem loop_from (clean : Clean pass) (before : index ≤ validateFrom) (words : List Word) :
    Reports (loop true validateFrom index pass words).1.validator
      (loop true validateFrom index pass words).1.outcome
      (scan pass.validator validateFrom ((words.drop (validateFrom - index)).map Word.counter)) := by
  induction words generalizing pass index with
  | nil =>
    rw [List.drop_nil]
    exact ⟨rfl, clean.ok⟩
  | cons word rest ih =>
    rcases Nat.eq_or_lt_of_le before with rfl | early
    · rw [Nat.sub_self, List.drop_zero]
      exact loop_checks clean (Nat.le_refl _) _
    · have skip : ¬ (True ∧ index ≥ validateFrom) := by omega
      obtain ⟨gap, more⟩ : ∃ gap, validateFrom - index = gap + 1 :=
        ⟨validateFrom - index - 1, by omega⟩
      have further := ih (clean.tallied (pass.outcome.tally.measure word.strip.value))
        (show index + 1 ≤ validateFrom by omega)
      rw [show validateFrom - (index + 1) = gap by omega] at further
      rw [more, List.drop_succ_cons]
      simpa only [loop, skip, if_false] using further

/-! ## One call after another -/

theorem process_empty (v : Validator) {buffer : List Byte} (none : samples buffer = []) :
    process v buffer = (v, {}, buffer) := by
  simp [process, none]

theorem process_running {v : Validator} (running : v.state = .running) (buffer : List Byte) :
    Reports (process v buffer).1 (process v buffer).2.1
      (scan v 0 ((samples buffer).map Word.counter)) := by
  by_cases none : samples buffer = []
  · rw [process_empty v none, none]
    exact ⟨rfl, rfl⟩
  · have live : ¬ (samples buffer).length = 0 := by simpa using none
    have locked : synchronise v (samples buffer) = (v, {}, 0) := by
      simp [synchronise, running]
    have clean : Clean { validator := v, runLimit := initialRunLimit v, outcome := {} } :=
      ⟨running, rfl, rfl⟩
    have checks := loop_checks clean (Nat.le_refl 0) (samples buffer)
    simpa [process, live, running, locked] using checks

/-- The validator at the change of counter it has just found. -/
def acquired (counter : Nat) : Validator := { state := .running, counterValue := counter }

theorem search_finds {first : Nat} {same rest : List Word} {change : Word}
    (constant : ∀ w ∈ same, w.counter = first) (changes : change.counter ≠ first)
    (index : Nat) : search first index (same ++ change :: rest) =
      some (index + same.length, change.counter) := by
  induction same generalizing index with
  | nil => simp [search, changes]
  | cons w same ih =>
    have this : w.counter = first := constant w (by simp)
    rw [List.cons_append, search, if_neg (by simp [this]),
      ih (fun w mem => constant w (by simp [mem])), List.length_cons]
    simp only [Nat.add_assoc, Nat.add_comm 1]

/-- The call that acquires lock checks from the first change of the counter on. -/
theorem process_locks {opening change : Word} {same rest : List Word} {buffer : List Byte}
    (content : samples buffer = opening :: same ++ change :: rest)
    (constant : ∀ w ∈ same, w.counter = opening.counter)
    (changes : change.counter ≠ opening.counter)
    (near : same.length + 1 ≤ maximumSamplesPerSequenceCounter) :
    Reports (process {} buffer).1 (process {} buffer).2.1
      (scan (acquired change.counter) (same.length + 1)
        ((change :: rest).map Word.counter)) := by
  have size : (samples buffer).length = same.length + rest.length + 2 := by
    rw [content]
    simp only [List.cons_append, List.length_cons, List.length_append]
    omega
  obtain ⟨more, span⟩ : ∃ more, min (samples buffer).length
      (maximumSamplesPerSequenceCounter + 1) = same.length + (more + 1) + 1 :=
    ⟨min (samples buffer).length (maximumSamplesPerSequenceCounter + 1) - (same.length + 2),
      by omega⟩
  have window : ((opening :: same ++ change :: rest).take (same.length + (more + 1) + 1)).drop 1 =
      same ++ change :: rest.take more := by
    rw [List.cons_append, List.take_succ_cons, List.drop_succ_cons, List.drop_zero,
      List.take_length_add_append, List.take_succ_cons]
  have locked : synchronise {} (samples buffer) =
      (acquired change.counter,
        { firstCounter := opening.counter, synchronisedHere := true
          synchronisationSampleIndex := same.length + 1 }, same.length + 1) := by
    rw [content] at span ⊢
    simp only [synchronise, List.cons_append] at span ⊢
    rw [span, ← List.cons_append, window, search_finds constant changes, Nat.add_comm 1, acquired]
  have clean : Clean
      { validator := acquired change.counter
        runLimit := initialRunLimit (acquired change.counter)
        outcome :=
          { firstCounter := opening.counter, synchronisedHere := true
            synchronisationSampleIndex := same.length + 1 } } := ⟨rfl, rfl, rfl⟩
  have checks := loop_from clean (Nat.zero_le (same.length + 1)) (samples buffer)
  have tail : (samples buffer).drop (same.length + 1 - 0) = change :: rest := by
    rw [content, Nat.sub_zero, List.drop_left' (by simp)]
  rw [tail] at checks
  have live : ¬ (samples buffer).length = 0 := by omega
  have running : (acquired change.counter).state = .running := rfl
  simpa [process, live, locked, running] using checks

/-! ## Every buffer -/

/-- Some call fails, at the sample `stop` of the stream. -/
def FailsAt (buffers : List (List Byte)) (outcomes : List Outcome) (stop : Nat) : Prop :=
  ∃ (j : Nat) (outcome : Outcome), outcomes[j]? = some outcome ∧ outcome.ok = false ∧
    (samples (buffers.take j).flatten).length + outcome.mismatchSampleIndex = stop

/-- What the calls for all buffers leave behind. -/
def ReportsAll (v : Validator) (buffers : List (List Byte)) (outcomes : List Outcome) :
    Except Nat Validator → Prop
  | .ok next => v = next ∧ ∀ o ∈ outcomes, o.ok = true
  | .error stop => FailsAt buffers outcomes stop

theorem scan_shift (v : Validator) (index : Nat) (cs : List Nat) :
    scan v index cs = match scan v 0 cs with
      | .ok next => .ok next
      | .error stop => .error (index + stop) := by
  suffices ∀ from_, scan v (index + from_) cs = match scan v from_ cs with
      | .ok next => .ok next
      | .error stop => .error (index + stop) from this 0
  intro from_
  induction cs generalizing v from_ with
  | nil => rfl
  | cons c cs ih =>
    simp only [scan]
    cases advance v c with
    | none => rfl
    | some next => exact ih next (from_ + 1)

theorem scan_state {v w : Validator} {index : Nat} {cs : List Nat}
    (h : scan v index cs = .ok w) : w.state = v.state := by
  induction cs generalizing v index with
  | nil => cases h; rfl
  | cons c cs ih =>
    rw [scan] at h
    cases moved : advance v c with
    | none => simp [moved] at h
    | some next =>
      simp only [moved] at h
      rw [ih h]
      by_cases same : c = v.counterValue
      · rw [(advance_stay same moved).2, stay]
      · rw [(advance_turn same moved).2.2, turn]

/-- The calls after the one that has been scanned as far as `next`. -/
theorem processAll_step {v : Validator} {buffer : List Byte} {rest : List (List Byte)}
    {scanned : Except Nat Validator} (even : 2 ∣ buffer.length)
    (call : Reports (process v buffer).1 (process v buffer).2.1 scanned)
    (later : ∀ next, scanned = .ok next →
      ReportsAll (processAll next rest).1 rest (processAll next rest).2
        (scan next 0 ((samples rest.flatten).map Word.counter))) :
    ReportsAll (processAll v (buffer :: rest)).1 (buffer :: rest)
      (processAll v (buffer :: rest)).2
      (scanned.bind fun next =>
        scan next (samples buffer).length ((samples rest.flatten).map Word.counter)) := by
  cases scanned with
  | error stop => exact ⟨0, _, rfl, call.2.1, by simpa [samples] using call.2.2⟩
  | ok next =>
    obtain ⟨rfl, ok⟩ := call
    have after := later _ rfl
    rw [Except.bind, scan_shift]
    cases whole : scan (process v buffer).1 0 ((samples rest.flatten).map Word.counter) with
    | ok last =>
      rw [whole] at after
      refine ⟨after.1, fun o mem => ?_⟩
      rcases List.mem_cons.mp mem with rfl | mem
      · exact ok
      · exact after.2 o mem
    | error stop =>
      rw [whole] at after
      obtain ⟨j, outcome, found, failed, place⟩ := after
      refine ⟨j + 1, outcome, found, failed, ?_⟩
      rw [List.take_succ_cons, List.flatten_cons, samples_append even, List.length_append,
        Nat.add_assoc, place]

theorem processAll_running {v : Validator} (running : v.state = .running)
    {buffers : List (List Byte)} (even : ∀ b ∈ buffers, 2 ∣ b.length) :
    ReportsAll (processAll v buffers).1 buffers (processAll v buffers).2
      (scan v 0 ((samples buffers.flatten).map Word.counter)) := by
  induction buffers generalizing v with
  | nil => exact ⟨rfl, by simp [processAll]⟩
  | cons buffer rest ih =>
    have sized := even buffer (by simp)
    have steps := processAll_step sized (process_running running buffer) fun next scanned =>
      ih ((scan_state scanned).trans running) fun b mem => even b (by simp [mem])
    rw [List.flatten_cons, samples_append sized, List.map_append, scan_append,
      List.length_map, Nat.zero_add]
    exact steps

/-- The first buffer acquires lock, and everything from the change on is scanned. -/
theorem processAll_locks {opening change : Word} {same rest : List Word} {first : List Byte}
    {buffers : List (List Byte)} (content : samples first = opening :: same ++ change :: rest)
    (constant : ∀ w ∈ same, w.counter = opening.counter)
    (changes : change.counter ≠ opening.counter)
    (near : same.length + 1 ≤ maximumSamplesPerSequenceCounter)
    (even : ∀ b ∈ first :: buffers, 2 ∣ b.length) :
    ReportsAll (processAll {} (first :: buffers)).1 (first :: buffers)
      (processAll {} (first :: buffers)).2
      (scan (acquired change.counter) (same.length + 1)
        (((samples (first :: buffers).flatten).drop (same.length + 1)).map Word.counter)) := by
  have sized := even first (by simp)
  have others : ∀ b ∈ buffers, 2 ∣ b.length := fun b mem => even b (by simp [mem])
  have steps := processAll_step sized (process_locks content constant changes near)
    fun next scanned => processAll_running (scan_state scanned) others
  have stream : (samples (first :: buffers).flatten).drop (same.length + 1) =
      (change :: rest) ++ samples buffers.flatten := by
    rw [List.flatten_cons, samples_append sized, content, List.append_assoc,
      List.drop_left' (by simp)]
  have size : (samples first).length = same.length + 1 + (change :: rest).length := by
    rw [content]
    simp only [List.cons_append, List.length_cons, List.length_append]
    omega
  rw [stream, List.map_append, scan_append, List.length_map, ← size]
  exact steps

end SequenceScan
