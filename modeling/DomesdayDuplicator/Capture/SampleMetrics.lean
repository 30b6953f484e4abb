import DomesdayDuplicator.Capture.SequenceValidator

/-!
# What the signal looked like

`sample_metrics.cpp`: the tallies of the buffers added up, over the session and over the
span of a capture. A root mean square is left as the sum and the count it is taken of.
-/

namespace SampleMetrics

open SequenceValidator

/-! ## Tallies -/

/-- The tally of both, before the sums are cut to 64 bits. -/
def plus (t u : BufferTally) : BufferTally where
  sampleCount := t.sampleCount + u.sampleCount
  minimumValue := min t.minimumValue u.minimumValue
  maximumValue := max t.maximumValue u.maximumValue
  clippedLowCount := t.clippedLowCount + u.clippedLowCount
  clippedHighCount := t.clippedHighCount + u.clippedHighCount
  sumOfSquares := t.sumOfSquares + u.sumOfSquares

def narrow (t : BufferTally) : BufferTally where
  sampleCount := t.sampleCount % 2 ^ 64
  minimumValue := t.minimumValue
  maximumValue := t.maximumValue
  clippedLowCount := t.clippedLowCount % 2 ^ 64
  clippedHighCount := t.clippedHighCount % 2 ^ 64
  sumOfSquares := t.sumOfSquares % 2 ^ 64

def merge (t u : BufferTally) : BufferTally := narrow (plus t u)

/-- The tally of samples measured one after the other. -/
def tallyOf (values : List Nat) : BufferTally := values.foldl BufferTally.measure {}

theorem plus_assoc (t u w : BufferTally) : plus (plus t u) w = plus t (plus u w) := by
  simp only [plus, Nat.add_assoc, Nat.min_assoc, Nat.max_assoc]

theorem merge_narrow (t u : BufferTally) : merge (narrow t) u = merge t u := by
  simp only [merge, narrow, plus, Nat.mod_add_mod]

theorem measure_plus {t : BufferTally} (seeded : t.minimumValue ≤ 65535) (value : Nat) :
    t.measure value = plus t (BufferTally.measure {} value) := by
  simp only [BufferTally.measure, plus, Nat.zero_add, Nat.zero_max]
  rw [← Nat.min_assoc, Nat.min_eq_left seeded]

theorem measure_seeded {t : BufferTally} (seeded : t.minimumValue ≤ 65535) (value : Nat) :
    (t.measure value).minimumValue ≤ 65535 := Nat.le_trans (Nat.min_le_left _ _) seeded

theorem foldl_measure {t : BufferTally} (seeded : t.minimumValue ≤ 65535) (values : List Nat) :
    values.foldl BufferTally.measure t = plus t (tallyOf values) := by
  induction values generalizing t with
  | nil =>
    rw [List.foldl_nil, tallyOf, List.foldl_nil, plus]
    simp only [Nat.min_eq_left seeded, Nat.add_zero, Nat.max_zero]
  | cons value rest ih =>
    have whole : tallyOf (value :: rest) = plus (BufferTally.measure {} value) (tallyOf rest) :=
      ih (measure_seeded (Nat.le_refl _) value)
    rw [List.foldl_cons, ih (measure_seeded seeded value), measure_plus seeded, plus_assoc, whole]

theorem tallyOf_append (first second : List Nat) :
    tallyOf (first ++ second) = plus (tallyOf first) (tallyOf second) := by
  have seeded : ∀ (values : List Nat) (t : BufferTally), t.minimumValue ≤ 65535 →
      (values.foldl BufferTally.measure t).minimumValue ≤ 65535 := by
    intro values
    induction values with
    | nil => exact fun t h => h
    | cons value rest ih => exact fun t h => ih _ (measure_seeded h value)
  rw [tallyOf, List.foldl_append]
  exact foldl_measure (seeded first {} (Nat.le_refl _)) second

theorem foldl_sampleCount (values : List Nat) (t : BufferTally) :
    (values.foldl BufferTally.measure t).sampleCount = t.sampleCount + values.length := by
  induction values generalizing t with
  | nil => rfl
  | cons value rest ih =>
    have one : (t.measure value).sampleCount = t.sampleCount + 1 := rfl
    rw [List.foldl_cons, ih, List.length_cons, one]
    omega

theorem tallyOf_sampleCount (values : List Nat) : (tallyOf values).sampleCount = values.length :=
  (foldl_sampleCount values {}).trans (Nat.zero_add _)

/-- A tally with the samples added; with none it is left alone. -/
def added (t : BufferTally) (values : List Nat) : BufferTally :=
  if values = [] then t else merge t (tallyOf values)

theorem added_append (t : BufferTally) (first second : List Nat) :
    added (added t first) second = added t (first ++ second) := by
  by_cases none : second = []
  · rw [none, List.append_nil, added, if_pos rfl]
  by_cases nothing : first = []
  · rw [nothing, List.nil_append, added.eq_def t [], if_pos rfl]
  · have both : first ++ second ≠ [] := fun h => nothing (List.append_eq_nil_iff.mp h).left
    rw [added, if_neg none, added, if_neg nothing, added, if_neg both, merge.eq_def t (tallyOf first),
      merge_narrow, tallyOf_append, merge, merge, plus_assoc]

/-! ## The metrics -/

structure Metrics where
  total : BufferTally := {}
  recent : BufferTally := {}
  /-- The span of a capture, and whether it is open. -/
  capture : BufferTally := {}
  capturing : Bool := false
  deriving DecidableEq, Repr

namespace Metrics

def accumulate (tally : BufferTally) (m : Metrics) : Metrics :=
  if tally.sampleCount = 0 then m
  else
    { m with
      total := merge m.total tally
      recent := tally
      capture := if m.capturing then merge m.capture tally else m.capture }

def beginCaptureSpan (m : Metrics) : Metrics := { m with capture := {}, capturing := true }

def endCaptureSpan (m : Metrics) : Metrics := { m with capturing := false }

end Metrics

/-- What a snapshot says of a tally. -/
structure Figures where
  sampleCount : Nat
  minimumValue : Nat
  maximumValue : Nat
  clippedLowCount : Nat
  clippedHighCount : Nat
  rms : Nat × Nat
  deriving DecidableEq, Repr

def figures (t : BufferTally) : Figures where
  sampleCount := t.sampleCount
  minimumValue := if t.sampleCount = 0 then 0 else t.minimumValue
  maximumValue := t.maximumValue
  clippedLowCount := t.clippedLowCount
  clippedHighCount := t.clippedHighCount
  rms := (t.sumOfSquares, t.sampleCount)

structure Snapshot where
  total : Figures
  recent : Figures
  capture : Figures
  deriving DecidableEq, Repr

def Metrics.snapshot (m : Metrics) : Snapshot :=
  ⟨figures m.total, figures m.recent, figures m.capture⟩

theorem accumulate_one (m : Metrics) (values : List Nat) :
    (m.accumulate (tallyOf values)).total = added m.total values ∧
    (m.accumulate (tallyOf values)).capture =
      (if m.capturing then added m.capture values else m.capture) ∧
    (m.accumulate (tallyOf values)).capturing = m.capturing := by
  rw [Metrics.accumulate, tallyOf_sampleCount, added, added]
  by_cases none : values = []
  · rw [if_pos (List.length_eq_zero_iff.mpr none), if_pos none, if_pos none, ite_self]
    exact ⟨rfl, rfl, rfl⟩
  · rw [if_neg (mt List.length_eq_zero_iff.mp none), if_neg none, if_neg none]
    exact ⟨rfl, rfl, rfl⟩

/-- The sums do not depend on where the samples were cut into buffers. -/
theorem accumulate_all (m : Metrics) (parts : List (List Nat)) :
    (parts.foldl (fun m part => m.accumulate (tallyOf part)) m).total = added m.total parts.flatten ∧
    (parts.foldl (fun m part => m.accumulate (tallyOf part)) m).capture =
      (if m.capturing then added m.capture parts.flatten else m.capture) ∧
    (parts.foldl (fun m part => m.accumulate (tallyOf part)) m).capturing = m.capturing := by
  induction parts generalizing m with
  | nil => exact ⟨rfl, (ite_self _).symm, rfl⟩
  | cons part rest ih =>
    obtain ⟨total, capture, capturing⟩ := ih (m.accumulate (tallyOf part))
    obtain ⟨one, span, still⟩ := accumulate_one m part
    rw [List.foldl_cons, List.flatten_cons, ← added_append, ← added_append]
    refine ⟨total.trans (by rw [one]), capture.trans ?_, capturing.trans still⟩
    rw [still, span]
    cases m.capturing with
    | false => rfl
    | true => rfl

end SampleMetrics
