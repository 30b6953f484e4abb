import Mathlib.Data.List.DropRight
import Mathlib.Data.List.SplitBy
import Mathlib.Algebra.BigOperators.Group.List.Basic
import Mathlib.Data.Nat.ModEq
import Mathlib.Algebra.Ring.Rat

/-!
# The amplitude history

`ddd-gui/src/analysis/amplitude_history.cpp`: the ring of points, and the sampler that makes a
point of the snapshots of an interval. The times and the levels are `double`s, of which only the
operations are used that the code uses.
-/

namespace Amplitude

/-! ## The ring -/

/-- A fixed-length ring of points, oldest first. -/
structure AmplitudeHistory (Point : Type) where
  points : List Point
  first : Nat
  size : Nat
  first_lt : first < points.length
  size_le : size ≤ points.length

namespace AmplitudeHistory

variable {Point : Type}

def new [Inhabited Point] (capacity : Nat) : AmplitudeHistory Point where
  points := List.replicate (max capacity 1) default
  first := 0
  size := 0
  first_lt := by simp
  size_le := Nat.zero_le _

def capacity (h : AmplitudeHistory Point) : Nat := h.points.length

def append (h : AmplitudeHistory Point) (point : Point) : AmplitudeHistory Point :=
  if room : h.size < h.capacity then
    { h with
      points := h.points.set ((h.first + h.size) % h.capacity) point
      size := h.size + 1
      first_lt := by rw [List.length_set]; exact h.first_lt
      size_le := by rw [List.length_set]; exact room }
  else
    { h with
      points := h.points.set h.first point
      first := (h.first + 1) % h.capacity
      first_lt := by
        rw [List.length_set]
        exact Nat.mod_lt _ (Nat.zero_lt_of_lt h.first_lt)
      size_le := by rw [List.length_set]; exact h.size_le }

def clear (h : AmplitudeHistory Point) : AmplitudeHistory Point where
  points := h.points
  first := 0
  size := 0
  first_lt := Nat.zero_lt_of_lt h.first_lt
  size_le := Nat.zero_le _

theorem append_capacity (h : AmplitudeHistory Point) (point : Point) :
    (h.append point).capacity = h.capacity := by
  unfold append
  split
  · exact List.length_set
  · exact List.length_set

theorem place_injective (h : AmplitudeHistory Point) {i j : Nat} (first : i < h.capacity)
    (second : j < h.capacity) (same : (h.first + i) % h.capacity = (h.first + j) % h.capacity) :
    i = j := by
  have alike : i % h.capacity = j % h.capacity := Nat.ModEq.add_left_cancel' h.first same
  rwa [Nat.mod_eq_of_lt first, Nat.mod_eq_of_lt second] at alike

variable [Inhabited Point]

/-- `At`: index 0 is the oldest point still held. -/
def pointAt (h : AmplitudeHistory Point) (index : Nat) : Point :=
  if h.size ≤ index then default else h.points.getD ((h.first + index) % h.capacity) default

/-- The points that `At` gives, in its order. -/
def held (h : AmplitudeHistory Point) : List Point := (List.range h.size).map h.pointAt

/-- With room left the point is added behind the others. -/
theorem held_append_room {h : AmplitudeHistory Point} (room : h.size < h.capacity)
    (point : Point) : (h.append point).held = h.held ++ [point] := by
  have place : (h.first + h.size) % h.capacity < h.points.length :=
    Nat.mod_lt _ (Nat.zero_lt_of_lt room)
  have size : (h.append point).size = h.size + 1 := by rw [append, dif_pos room]
  have first : (h.append point).first = h.first := by rw [append, dif_pos room]
  have points : (h.append point).points =
      h.points.set ((h.first + h.size) % h.capacity) point := by rw [append, dif_pos room]
  rw [held, size, List.range_succ, List.map_append, List.map_singleton, held]
  congr 1
  · refine List.map_congr_left fun i among => ?_
    have less : i < h.size := List.mem_range.mp among
    have apart : (h.first + h.size) % h.capacity ≠ (h.first + i) % h.capacity := fun same =>
      Nat.ne_of_gt less (h.place_injective room (less.trans room) same)
    rw [pointAt, if_neg (by omega), pointAt, if_neg (by omega), append_capacity, first, points,
      List.getD_eq_getElem?_getD, List.getElem?_set_ne apart, ← List.getD_eq_getElem?_getD]
  · rw [pointAt, if_neg (by omega), append_capacity, first, points, List.getD_eq_getElem?_getD,
      List.getElem?_set_self place, Option.getD_some]

/-- A full ring gives up its oldest point. -/
theorem held_append_full {h : AmplitudeHistory Point} (full : ¬ h.size < h.capacity)
    (point : Point) : (h.append point).held = h.held.tail ++ [point] := by
  have whole : h.size = h.capacity := Nat.le_antisymm h.size_le (Nat.le_of_not_lt full)
  obtain ⟨n, more⟩ : ∃ n, h.capacity = n + 1 :=
    Nat.exists_eq_add_one_of_ne_zero (Nat.ne_of_gt (Nat.zero_lt_of_lt h.first_lt))
  have size : (h.append point).size = n + 1 := by
    rw [append, dif_neg full]
    exact whole.trans more
  have first : (h.append point).first = (h.first + 1) % h.capacity := by rw [append, dif_neg full]
  have points : (h.append point).points = h.points.set h.first point := by
    rw [append, dif_neg full]
  have oldest : (h.first + 0) % h.capacity = h.first := Nat.mod_eq_of_lt h.first_lt
  have moved (i : Nat) : ((h.first + 1) % h.capacity + i) % h.capacity =
      (h.first + (i + 1)) % h.capacity := by
    rw [Nat.mod_add_mod]
    congr 1
    omega
  rw [held, size, List.range_succ, List.map_append, List.map_singleton, held, whole, more,
    List.range_succ_eq_map, List.map_cons, List.tail_cons, List.map_map]
  congr 1
  · refine List.map_congr_left fun i among => ?_
    have less : i < n := List.mem_range.mp among
    have apart : h.first ≠ (h.first + (i + 1)) % h.capacity := fun same =>
      Nat.succ_ne_zero i (h.place_injective (by omega) (by omega) (oldest.trans same).symm)
    rw [Function.comp_apply, pointAt, if_neg (by omega), pointAt, if_neg (by omega),
      append_capacity, first, points, moved, List.getD_eq_getElem?_getD,
      List.getElem?_set_ne apart, ← List.getD_eq_getElem?_getD]
  · have around : (h.first + (n + 1)) % h.capacity = h.first := by
      rw [more] at oldest ⊢
      rw [Nat.add_mod_right]
      exact oldest
    rw [pointAt, if_neg (by omega), append_capacity, first, points, moved, around,
      List.getD_eq_getElem?_getD, List.getElem?_set_self h.first_lt, Option.getD_some]

theorem length_held (h : AmplitudeHistory Point) : h.held.length = h.size := by
  rw [held, List.length_map, List.length_range]

theorem held_append (h : AmplitudeHistory Point) (point : Point) :
    (h.append point).held = (h.held ++ [point]).rtake h.capacity := by
  by_cases room : h.size < h.capacity
  · rw [held_append_room room, List.rtake, List.length_append, length_held, List.length_singleton,
      Nat.sub_eq_zero_of_le room, List.drop_zero]
  · have whole : h.size = h.capacity := Nat.le_antisymm h.size_le (Nat.le_of_not_lt room)
    have some : 0 < h.held.length := by
      rw [length_held, whole]
      exact Nat.zero_lt_of_lt h.first_lt
    rw [held_append_full room, List.rtake, List.length_append, length_held, List.length_singleton,
      whole, Nat.add_sub_cancel_left, List.drop_append_of_le_length some, List.drop_one]

end AmplitudeHistory

inductive Call (Point : Type)
  | append (point : Point)
  | clear

namespace Call

variable {Point : Type}

def apply (h : AmplitudeHistory Point) : Call Point → AmplitudeHistory Point
  | append point => h.append point
  | clear => h.clear

/-- The points appended since the ring was last empty. -/
def appended (points : List Point) : Call Point → List Point
  | append point => points ++ [point]
  | clear => []

end Call

theorem rtake_snoc {α : Type} (l : List α) (a : α) (n : Nat) :
    (l.rtake n ++ [a]).rtake n = (l ++ [a]).rtake n := by
  cases n with
  | zero => simp
  | succ n =>
    rw [List.rtake_concat_succ, List.rtake_concat_succ, List.rtake, List.rtake, List.rtake,
      List.drop_drop, List.length_drop]
    congr 2
    omega

/-- Whatever is appended and cleared, the ring holds the last points there were. -/
theorem held_last {Point : Type} [Inhabited Point] (calls : List (Call Point))
    {h : AmplitudeHistory Point} {points : List Point} (holds : h.held = points.rtake h.capacity) :
    (calls.foldl Call.apply h).held = (calls.foldl Call.appended points).rtake h.capacity := by
  induction calls generalizing h points with
  | nil => exact holds
  | cons call rest ih =>
    cases call with
    | append point =>
      have more : (h.append point).held = (points ++ [point]).rtake (h.append point).capacity := by
        rw [h.held_append, holds, h.append_capacity, rtake_snoc]
      have last := ih more
      rwa [h.append_capacity] at last
    | clear =>
      have none : h.clear.held = ([] : List Point).rtake h.clear.capacity := by
        rw [List.rtake_nil]
        rfl
      exact ih none

/-! ## The sampler -/

structure AmplitudePoint (Double : Type) where
  seconds : Double
  rmsCodes : Double
  minimumCode : Nat
  maximumCode : Nat
  clippedCount : Nat
  deriving DecidableEq

instance {Double : Type} [Zero Double] : Inhabited (AmplitudePoint Double) := ⟨0, 0, 0, 0, 0⟩

/-- What the sampler reads of a `SampleMetricsSnapshot`. -/
structure SampleMetricsSnapshot (Double : Type) where
  sampleCount : Nat
  clippedLowCount : Nat
  clippedHighCount : Nat
  recentMinimumValue : Nat
  recentMaximumValue : Nat
  recentRms : Double
  deriving DecidableEq

structure AmplitudeSampler (Double : Type) where
  intervalSeconds : Double
  started : Bool
  intervalEndSeconds : Double
  lastElapsedSeconds : Double
  rmsTotal : Double
  observationCount : Nat
  minimumCode : Nat
  maximumCode : Nat
  haveExtremes : Bool
  lastClippedTotal : Nat
  haveClippedTotal : Bool

section Sampler

variable {Double : Type} [Zero Double] [Add Double] [Div Double] [NatCast Double]
  [LT Double] [DecidableLT Double] [LE Double] [DecidableLE Double]

def kDefaultIntervalSeconds [OfScientific Double] : Double := 0.1

/-- The cumulative total of a snapshot. -/
def clippedTotal (metrics : SampleMetricsSnapshot Double) : Nat :=
  (metrics.clippedLowCount + metrics.clippedHighCount) % 2 ^ 64

namespace AmplitudeSampler

def reset (s : AmplitudeSampler Double) : AmplitudeSampler Double where
  intervalSeconds := s.intervalSeconds
  started := false
  intervalEndSeconds := 0
  lastElapsedSeconds := 0
  rmsTotal := 0
  observationCount := 0
  minimumCode := 0
  maximumCode := 0
  haveExtremes := false
  lastClippedTotal := 0
  haveClippedTotal := false

def new [OfScientific Double] (intervalSeconds : Double) : AmplitudeSampler Double where
  intervalSeconds := if 0 < intervalSeconds then intervalSeconds else kDefaultIntervalSeconds
  started := false
  intervalEndSeconds := 0
  lastElapsedSeconds := 0
  rmsTotal := 0
  observationCount := 0
  minimumCode := 0
  maximumCode := 0
  haveExtremes := false
  lastClippedTotal := 0
  haveClippedTotal := false

/-- The clock has gone back: what is under way belongs to a run that is over. -/
def restart (elapsedSeconds : Double) (s : AmplitudeSampler Double) : AmplitudeSampler Double :=
  if s.started ∧ elapsedSeconds < s.lastElapsedSeconds then
    { s with
      lastElapsedSeconds := elapsedSeconds
      rmsTotal := 0
      observationCount := 0
      haveExtremes := false
      lastClippedTotal := 0
      haveClippedTotal := false
      started := false }
  else { s with lastElapsedSeconds := elapsedSeconds }

def begin (elapsedSeconds : Double) (s : AmplitudeSampler Double) : AmplitudeSampler Double :=
  if s.started then s
  else { s with started := true, intervalEndSeconds := elapsedSeconds + s.intervalSeconds }

def accumulate (metrics : SampleMetricsSnapshot Double) (s : AmplitudeSampler Double) :
    AmplitudeSampler Double :=
  { s with
    rmsTotal := s.rmsTotal + metrics.recentRms
    observationCount := s.observationCount + 1
    haveExtremes := true
    minimumCode :=
      if s.haveExtremes then min s.minimumCode metrics.recentMinimumValue
      else metrics.recentMinimumValue
    maximumCode :=
      if s.haveExtremes then max s.maximumCode metrics.recentMaximumValue
      else metrics.recentMaximumValue }

/-- The point of an interval that has closed. -/
def point (elapsedSeconds : Double) (total : Nat) (s : AmplitudeSampler Double) :
    AmplitudePoint Double where
  seconds := elapsedSeconds
  rmsCodes := if 0 < s.observationCount then s.rmsTotal / s.observationCount else 0
  minimumCode := s.minimumCode
  maximumCode := s.maximumCode
  clippedCount :=
    if s.haveClippedTotal ∧ s.lastClippedTotal ≤ total then total - s.lastClippedTotal else 0

/-- The next interval begins; it ends later than now. -/
def next (elapsedSeconds : Double) (total : Nat) (s : AmplitudeSampler Double) :
    AmplitudeSampler Double :=
  { s with
    lastClippedTotal := total
    haveClippedTotal := true
    rmsTotal := 0
    observationCount := 0
    haveExtremes := false
    intervalEndSeconds :=
      if s.intervalEndSeconds + s.intervalSeconds ≤ elapsedSeconds then
        elapsedSeconds + s.intervalSeconds
      else s.intervalEndSeconds + s.intervalSeconds }

def observe (elapsedSeconds : Double) (metrics : SampleMetricsSnapshot Double)
    (s : AmplitudeSampler Double) : AmplitudeSampler Double × Option (AmplitudePoint Double) :=
  if metrics.sampleCount = 0 then (s, none)
  else
    let s := accumulate metrics (begin elapsedSeconds (restart elapsedSeconds s))
    let total := clippedTotal metrics
    if elapsedSeconds < s.intervalEndSeconds then (s, none)
    else (next elapsedSeconds total s, some (point elapsedSeconds total s))

theorem reset_observe (elapsedSeconds : Double) (metrics : SampleMetricsSnapshot Double)
    (s : AmplitudeSampler Double) : (observe elapsedSeconds metrics s).1.reset = s.reset := by
  have restarted : (restart elapsedSeconds s).intervalSeconds = s.intervalSeconds := by
    unfold restart
    split <;> rfl
  have begun : (begin elapsedSeconds (restart elapsedSeconds s)).intervalSeconds =
      s.intervalSeconds := by
    rw [← restarted]
    unfold begin
    split <;> rfl
  unfold observe
  split
  · rfl
  · dsimp only
    split
    · rw [reset, reset, accumulate, begun]
    · rw [reset, reset, next, accumulate, begun]

/-- Where the clock goes back a reset sampler would do the same. -/
theorem observe_restarted {elapsedSeconds : Double} (metrics : SampleMetricsSnapshot Double)
    {s : AmplitudeSampler Double} (started : s.started = true)
    (back : elapsedSeconds < s.lastElapsedSeconds) :
    (metrics.sampleCount ≠ 0) →
      observe elapsedSeconds metrics s = observe elapsedSeconds metrics s.reset := by
  intro counted
  have same : accumulate metrics (begin elapsedSeconds (restart elapsedSeconds s)) =
      accumulate metrics (begin elapsedSeconds (restart elapsedSeconds s.reset)) := by
    have first : restart elapsedSeconds s.reset =
        { s.reset with lastElapsedSeconds := elapsedSeconds } :=
      if_neg fun again => Bool.false_ne_true again.1
    rw [first, restart, if_pos ⟨started, back⟩]
    simp [begin, accumulate, reset]
  rw [observe, observe, if_neg counted, if_neg counted, same]

/-- What an observation does to the clock and to the clip total where it restarts nothing. -/
theorem observe_spec {elapsedSeconds : Double} {metrics : SampleMetricsSnapshot Double}
    {s : AmplitudeSampler Double} (counted : metrics.sampleCount ≠ 0)
    (onwards : ¬ (s.started = true ∧ elapsedSeconds < s.lastElapsedSeconds)) :
    (observe elapsedSeconds metrics s).1.started = true ∧
    (observe elapsedSeconds metrics s).1.lastElapsedSeconds = elapsedSeconds ∧
    match (observe elapsedSeconds metrics s).2 with
    | none =>
      (observe elapsedSeconds metrics s).1.haveClippedTotal = s.haveClippedTotal ∧
      (observe elapsedSeconds metrics s).1.lastClippedTotal = s.lastClippedTotal
    | some point =>
      (observe elapsedSeconds metrics s).1.haveClippedTotal = true ∧
      (observe elapsedSeconds metrics s).1.lastClippedTotal = clippedTotal metrics ∧
      point.clippedCount =
        if s.haveClippedTotal then clippedTotal metrics - s.lastClippedTotal else 0 := by
  have restarted : restart elapsedSeconds s = { s with lastElapsedSeconds := elapsedSeconds } :=
    if_neg onwards
  have begun : (begin elapsedSeconds (restart elapsedSeconds s)).started = true ∧
      (begin elapsedSeconds (restart elapsedSeconds s)).lastElapsedSeconds = elapsedSeconds ∧
      (begin elapsedSeconds (restart elapsedSeconds s)).haveClippedTotal = s.haveClippedTotal ∧
      (begin elapsedSeconds (restart elapsedSeconds s)).lastClippedTotal = s.lastClippedTotal := by
    rw [restarted, begin]
    split
    next started => exact ⟨started, rfl, rfl, rfl⟩
    · exact ⟨rfl, rfl, rfl, rfl⟩
  obtain ⟨started, elapsed, have_, last⟩ := begun
  rw [observe, if_neg counted]
  dsimp only
  split
  · exact ⟨started, elapsed, have_, last⟩
  · refine ⟨started, elapsed, rfl, rfl, ?_⟩
    rw [point, accumulate]
    dsimp only
    rw [have_, last]
    by_cases earlier : s.haveClippedTotal = true
    · rw [if_pos earlier]
      split
      · rfl
      next more =>
        rw [Nat.sub_eq_zero_of_le]
        exact Nat.le_of_lt (Nat.lt_of_not_le fun le => more ⟨earlier, le⟩)
    · rw [if_neg earlier, if_neg fun both => earlier both.1]

end AmplitudeSampler

open AmplitudeSampler (observe)

/-- One call of `Observe`. -/
abbrev Observation (Double : Type) : Type := Double × SampleMetricsSnapshot Double

def counted (o : Observation Double) : Bool := o.2.sampleCount ≠ 0

/-- The points of a sequence of calls, each with the cumulative total it was made at. -/
def emitted (s : AmplitudeSampler Double) :
    List (Observation Double) → List (Nat × AmplitudePoint Double)
  | [] => []
  | o :: rest =>
    match observe o.1 o.2 s with
    | (s, none) => emitted s rest
    | (s, some point) => (clippedTotal o.2, point) :: emitted s rest

/-- The calls that have samples, up to where the clock goes back and from there on. -/
def stretches (observations : List (Observation Double)) : List (List (Observation Double)) :=
  (observations.filter counted).splitBy fun earlier later => ¬ later.1 < earlier.1

theorem emitted_counted (s : AmplitudeSampler Double) (observations : List (Observation Double)) :
    emitted s observations = emitted s (observations.filter counted) := by
  induction observations generalizing s with
  | nil => rfl
  | cons o rest ih =>
    by_cases samples : o.2.sampleCount = 0
    · have same : observe o.1 o.2 s = (s, none) := by rw [observe, if_pos samples]
      rw [List.filter_cons_of_neg (by simp [counted, samples]), emitted, same]
      exact ih s
    · rw [List.filter_cons_of_pos (by simp [counted, samples]), emitted, emitted]
      cases observe o.1 o.2 s with
      | mk next point =>
        cases point with
        | none => exact ih next
        | some point => exact congrArg (List.cons _) (ih next)

/-- The differences of running totals from one on. -/
def gaps (last : Nat) : List Nat → List Nat
  | [] => []
  | total :: rest => (total - last) :: gaps total rest

theorem sum_gaps {last : Nat} {totals : List Nat} (rising : (last :: totals).Pairwise (· ≤ ·)) :
    (gaps last totals).sum = totals.getLastD last - last := by
  induction totals generalizing last with
  | nil => exact (Nat.sub_self last).symm
  | cons total rest ih =>
    obtain ⟨first, later⟩ := List.pairwise_cons.mp rising
    have from_ := ih later
    have up : last ≤ total := first total List.mem_cons_self
    have end_ : total ≤ rest.getLastD total := by
      rw [List.getLastD_eq_getLast?]
      cases final : rest.getLast? with
      | none => exact le_rfl
      | some t => exact (List.pairwise_cons.mp later).1 t (List.mem_of_getLast? final)
    rw [gaps, List.sum_cons, from_, List.getLastD_cons]
    omega

/-- The sampler has come to `last`, and what is to come does not go back. -/
structure Onwards (s : AmplitudeSampler Double) (rest : List (Observation Double)) : Prop where
  samples : ∀ o ∈ rest, o.2.sampleCount ≠ 0
  chain : rest.IsChain fun earlier later => ¬ later.1 < earlier.1
  first : ∀ o ∈ rest.head?, ¬ (s.started = true ∧ o.1 < s.lastElapsedSeconds)

theorem Onwards.next {s : AmplitudeSampler Double} {o : Observation Double}
    {rest : List (Observation Double)} (h : Onwards s (o :: rest)) :
    Onwards (observe o.1 o.2 s).1 rest := by
  obtain ⟨-, elapsed, -⟩ :=
    AmplitudeSampler.observe_spec (h.samples o List.mem_cons_self) (h.first o rfl)
  constructor
  case samples => exact fun p among => h.samples p (List.mem_cons_of_mem _ among)
  case chain => exact h.chain.tail
  case first =>
    rintro p here ⟨-, back⟩
    rw [elapsed] at back
    cases rest with
    | nil => cases here
    | cons q rest =>
      cases here
      exact (List.isChain_cons_cons.mp h.chain).1 back

/-- With a total to subtract from, every point counts from the one before it. -/
theorem clips_gaps {s : AmplitudeSampler Double} {rest : List (Observation Double)}
    (h : Onwards s rest) (have_ : s.haveClippedTotal = true) :
    (emitted s rest).map (fun made => made.2.clippedCount) =
      gaps s.lastClippedTotal ((emitted s rest).map Prod.fst) := by
  induction rest generalizing s with
  | nil => rfl
  | cons o rest ih =>
    obtain ⟨-, -, step⟩ :=
      AmplitudeSampler.observe_spec (h.samples o List.mem_cons_self) (h.first o rfl)
    have later := ih h.next
    rw [emitted]
    cases made : observe o.1 o.2 s with
    | mk after point =>
      rw [made] at step later
      cases point with
      | none =>
        obtain ⟨same, total⟩ := step
        rw [← total]
        exact later (same.trans have_)
      | some point =>
        obtain ⟨now, total, count⟩ := step
        rw [if_pos have_] at count
        have rest := later now
        rw [total] at rest
        rw [List.map_cons, List.map_cons, gaps, rest, count]

/-- The first point has nothing to subtract from. -/
theorem clips_first {s : AmplitudeSampler Double} {rest : List (Observation Double)}
    (h : Onwards s rest) (none : s.haveClippedTotal = false) :
    (emitted s rest).map (fun made => made.2.clippedCount) =
      gaps (((emitted s rest).map Prod.fst).headD 0) ((emitted s rest).map Prod.fst) := by
  induction rest generalizing s with
  | nil => rfl
  | cons o rest ih =>
    obtain ⟨-, -, step⟩ :=
      AmplitudeSampler.observe_spec (h.samples o List.mem_cons_self) (h.first o rfl)
    rw [emitted]
    have later := ih h.next
    have counts := clips_gaps h.next
    cases made : observe o.1 o.2 s with
    | mk after point =>
      rw [made] at step later counts
      cases point with
      | none => exact later (step.1.trans none)
      | some point =>
        obtain ⟨now, total, count⟩ := step
        rw [none, if_neg Bool.false_ne_true] at count
        have rest := counts now
        rw [total] at rest
        rw [List.map_cons, List.map_cons, List.headD_cons, gaps, rest, count, Nat.sub_self]

/-- A stretch from a sampler it follows on to, and the rest of the calls from where it ends. -/
theorem emitted_stretch {s : AmplitudeSampler Double} {stretch : List (Observation Double)}
    (h : Onwards s stretch) (some : stretch ≠ []) (rest : List (Observation Double)) :
    ∃ after : AmplitudeSampler Double,
      emitted s (stretch ++ rest) = emitted s stretch ++ emitted after rest ∧
      after.reset = s.reset ∧ after.started = true ∧
      after.lastElapsedSeconds = (stretch.getLast some).1 := by
  induction stretch generalizing s with
  | nil => exact absurd rfl some
  | cons o stretch ih =>
    obtain ⟨started, elapsed, -⟩ :=
      AmplitudeSampler.observe_spec (h.samples o List.mem_cons_self) (h.first o rfl)
    have kept := AmplitudeSampler.reset_observe o.1 o.2 s
    have made : ∃ front, ∀ l, emitted s (o :: l) = front ++ emitted (observe o.1 o.2 s).1 l := by
      cases result : observe o.1 o.2 s with
      | mk next point =>
        cases point with
        | none => exact ⟨[], fun l => by rw [emitted, result]; rfl⟩
        | some point => exact ⟨[(clippedTotal o.2, point)], fun l => by rw [emitted, result]; rfl⟩
    obtain ⟨front, made⟩ := made
    by_cases last : stretch = []
    · subst last
      refine ⟨(observe o.1 o.2 s).1, ?_, kept, started, elapsed⟩
      rw [List.singleton_append, made, made, emitted, List.append_nil]
    · obtain ⟨after, whole, reset, on, final⟩ := ih h.next last
      refine ⟨after, ?_, reset.trans kept, on, ?_⟩
      · rw [List.cons_append, made, made, whole, List.append_assoc]
      · rw [final, List.getLast_cons last]

theorem emitted_restarted {s : AmplitudeSampler Double} {o : Observation Double}
    (rest : List (Observation Double)) (samples : o.2.sampleCount ≠ 0) (started : s.started = true)
    (back : o.1 < s.lastElapsedSeconds) : emitted s (o :: rest) = emitted s.reset (o :: rest) := by
  rw [emitted, emitted, AmplitudeSampler.observe_restarted o.2 started back samples]

theorem emitted_flatten {s : AmplitudeSampler Double} {parts : List (List (Observation Double))}
    (fresh : ∀ part ∈ parts, Onwards s.reset part ∧ part ≠ [])
    (back : parts.IsChain fun before after =>
      ∃ some more, (after.head more).1 < (before.getLast some).1) :
    emitted s.reset parts.flatten = parts.flatMap (emitted s.reset) := by
  induction parts with
  | nil => rfl
  | cons part parts ih =>
    obtain ⟨onwards, some⟩ := fresh part List.mem_cons_self
    have rest := ih (fun p among => fresh p (List.mem_cons_of_mem _ among)) back.tail
    obtain ⟨after, whole, reset, started, elapsed⟩ :=
      emitted_stretch onwards some parts.flatten
    have reset' : after.reset = s.reset := reset
    rw [List.flatten_cons, whole, List.flatMap_cons, ← rest]
    congr 1
    cases parts with
    | nil => rfl
    | cons next parts =>
      obtain ⟨first, more, earlier⟩ := (List.isChain_cons_cons.mp back).1
      obtain ⟨o, tail, rfl⟩ := List.exists_cons_of_ne_nil more
      have samples := (fresh _ (List.mem_cons_of_mem _ List.mem_cons_self)).1.samples o
        List.mem_cons_self
      rw [List.flatten_cons, List.cons_append, ← reset']
      exact emitted_restarted _ samples started (by rw [elapsed]; exact earlier)

omit [Add Double] [Div Double] [NatCast Double] [LE Double] [DecidableLE Double] in
theorem fresh_stretch (s : AmplitudeSampler Double)
    {observations stretch : List (Observation Double)} (among : stretch ∈ stretches observations) : Onwards s.reset stretch := by
  have whole := List.flatten_splitBy (fun earlier later : Observation Double =>
    decide (¬ later.1 < earlier.1)) (observations.filter counted)
  constructor
  case samples =>
    intro o member
    have of_all : o ∈ observations.filter counted := by
      rw [← whole]
      exact List.mem_flatten_of_mem among member
    simpa [counted] using (List.mem_filter.mp of_all).2
  case chain =>
    refine (List.isChain_of_mem_splitBy among).imp fun a b onwards => ?_
    exact of_decide_eq_true onwards
  case first =>
    rintro o - ⟨started, -⟩
    cases started

/-- The points of all calls are those of their stretches, each from a reset sampler. -/
theorem emitted_stretches (s : AmplitudeSampler Double)
    (observations : List (Observation Double)) :
    emitted s.reset observations = (stretches observations).flatMap (emitted s.reset) := by
  have back : (stretches observations).IsChain fun before after =>
      ∃ some more, (after.head more).1 < (before.getLast some).1 := by
    refine (List.isChain_getLast_head_splitBy _ _).imp fun before after apart => ?_
    obtain ⟨some, more, turned⟩ := apart
    exact ⟨some, more, by simpa using turned⟩
  have parts := emitted_flatten
    (fun part among => ⟨fresh_stretch s among, List.ne_nil_of_mem_splitBy among⟩) back
  rwa [stretches, List.flatten_splitBy, ← emitted_counted] at parts

theorem totals_sublist (s : AmplitudeSampler Double) (observations : List (Observation Double)) :
    ((emitted s observations).map Prod.fst).Sublist
      (observations.map fun o => clippedTotal o.2) := by
  induction observations generalizing s with
  | nil => exact List.Sublist.refl _
  | cons o rest ih =>
    rw [emitted]
    cases observe o.1 o.2 s with
    | mk next point =>
      cases point with
      | none => exact (ih next).cons _
      | some point => exact (ih next).cons_cons _

/-- However the calls fall into intervals, the counts of a stretch add up to what was clipped
from its first point to its last; the first reports none, and where the clock goes back it begins
anew. The ring holds the last points there were. -/
theorem clips_accounted (s : AmplitudeSampler Double) (observations : List (Observation Double))
    {Point : Type} [Inhabited Point] (capacity : Nat) (calls : List (Call Point)) :
    emitted s.reset observations = (stretches observations).flatMap (emitted s.reset) ∧
    (∀ stretch ∈ stretches observations,
      (stretch.map fun o => clippedTotal o.2).Pairwise (· ≤ ·) →
      let totals := (emitted s.reset stretch).map Prod.fst
      let counts := (emitted s.reset stretch).map fun made => made.2.clippedCount
      counts.sum = totals.getLastD 0 - totals.headD 0 ∧ counts.headD 0 = 0) ∧
    (calls.foldl Call.apply (AmplitudeHistory.new capacity)).held =
      (calls.foldl Call.appended []).rtake (max capacity 1) := by
  refine ⟨emitted_stretches s observations, fun stretch among rising => ?_, ?_⟩
  · intro totals counts
    have differences : counts = gaps (totals.headD 0) totals :=
      clips_first (fresh_stretch s among) rfl
    have rising : totals.Pairwise (· ≤ ·) := rising.sublist (totals_sublist s.reset stretch)
    rw [differences]
    cases whole : totals with
    | nil => exact ⟨rfl, rfl⟩
    | cons first rest =>
      rw [whole] at rising
      have all : (first :: first :: rest).Pairwise (· ≤ ·) := by
        refine List.pairwise_cons.mpr ⟨fun t among => ?_, rising⟩
        rcases List.mem_cons.mp among with rfl | among
        · exact le_rfl
        · exact (List.pairwise_cons.mp rising).1 t among
      rw [List.headD_cons, sum_gaps all, List.getLastD_cons, List.getLastD_cons]
      exact ⟨rfl, Nat.sub_self first⟩
  · let ring : AmplitudeHistory Point := AmplitudeHistory.new capacity
    have empty : ring.held = ([] : List Point).rtake ring.capacity := by
      rw [List.rtake_nil]
      rfl
    have size : ring.capacity = max capacity 1 := List.length_replicate
    rw [held_last calls empty, size]

end Sampler

/-! ## Two runs of the clock -/

def snapshot (clipped : Nat) : SampleMetricsSnapshot Rat := ⟨1, clipped, 0, 0, 1023, 100⟩

/-- The totals at seconds 0, 1 and 2; then the clock goes back. -/
def runs : List (Observation Rat) :=
  [(0, snapshot 0), (1, snapshot 15), (2, snapshot 45), (0, snapshot 7), (1, snapshot 9)]

theorem clips_accounted_runs :
    ((emitted (AmplitudeSampler.new 1).reset (runs.take 3)).map fun made =>
      made.2.clippedCount).sum = 30 ∧
    ([Call.append 1, .append 2, .append 3].foldl Call.apply (AmplitudeHistory.new 2)).held =
      [2, 3] := by
  obtain ⟨-, counts, held⟩ := clips_accounted (AmplitudeSampler.new 1) runs 2
    [Call.append 1, .append 2, .append 3]
  have stretch : runs.take 3 ∈ stretches runs := by decide +kernel
  have first := (counts _ stretch (by decide)).1
  rw [first, held]
  constructor
  · decide +kernel
  · decide

/-- Fifteen samples clip in the first interval, and no point says so. -/
theorem first_interval_uncounted :
    ¬ ∀ observations : List (Observation Rat),
      (observations.map fun o => clippedTotal o.2).Pairwise (· ≤ ·) →
        ((emitted (AmplitudeSampler.new 1) observations).map fun made =>
          made.2.clippedCount).sum =
        ((emitted (AmplitudeSampler.new 1) observations).map Prod.fst).getLastD 0 := by
  intro all
  have counts := all (runs.take 2) (by decide)
  revert counts
  decide +kernel

end Amplitude
