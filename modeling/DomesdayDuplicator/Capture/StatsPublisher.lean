import DomesdayDuplicator.Foundations.Execution
import Mathlib.Algebra.Ring.Parity
import Mathlib.Data.Fintype.Pi
import Mathlib.Data.Fin.VecNotation
import Mathlib.Logic.Function.Basic

/-!
# The statistics' sequence lock

`StatsPublisher` as its steps: one writer and any number of readers, each copying the value a
word at a time. `sequence_` is kept as the number of increments it has had, and a thread sees
that number modulo 2^64. Memory is sequentially consistent.
-/

namespace StatsPublisher

open Execution

variable {Word Reader : Type} {width : Nat}

/-- A `CaptureStats` as the words it is copied in. -/
abbrev Stats (Word : Type) (width : Nat) : Type := Fin width → Word

/-- Where the writer is in `Publish`. -/
inductive Publishing (Word : Type) (width : Nat)
  | outside
  | announcing (stats : Stats Word width)
  | copying (stats : Stats Word width) (copied : Nat)

/-- Where a reader is in `Read`, with its own copy. -/
inductive Reading (Word : Type) (width : Nat)
  | outside
  | loading (copy : Stats Word width)
  | copying (before : Nat) (copied : Nat) (copy : Stats Word width)
  | comparing (before : Nat) (copy : Stats Word width)

structure Publisher (Word Reader : Type) (width : Nat) where
  increments : Nat
  value : Stats Word width
  publishing : Publishing Word width
  reading : Reader → Reading Word width

/-- What a load of `sequence_` gives after so many increments. -/
def sequence (increments : Nat) : Nat := increments % 2 ^ 64

inductive Event (Word Reader : Type) (width : Nat)
  | quiet
  | published (stats : Stats Word width)
  | returned (reader : Reader) (copy : Stats Word width)

inductive Action (Word Reader : Type) (width : Nat)
  | publish (stats : Stats Word width)
  | publishStep
  | read (reader : Reader)
  | readStep (reader : Reader)

def start (initial : Stats Word width) : Publisher Word Reader width where
  increments := 0
  value := initial
  publishing := .outside
  reading := fun _ => .outside

def publishStep (s : Publisher Word Reader width) :
    Publisher Word Reader width × Event Word Reader width :=
  match s.publishing with
  | .outside => (s, .quiet)
  | .announcing stats =>
    ({ s with increments := s.increments + 1, publishing := .copying stats 0 }, .quiet)
  | .copying stats copied =>
    if here : copied < width then
      ({ s with value := Function.update s.value ⟨copied, here⟩ (stats ⟨copied, here⟩)
                publishing := .copying stats (copied + 1) }, .quiet)
    else ({ s with increments := s.increments + 1, publishing := .outside }, .published stats)

section Readers

variable [DecidableEq Reader]

def Publisher.place (s : Publisher Word Reader width) (r : Reader) (reading : Reading Word width) :
    Publisher Word Reader width :=
  { s with reading := Function.update s.reading r reading }

def readStep (s : Publisher Word Reader width) (r : Reader) :
    Publisher Word Reader width × Event Word Reader width :=
  match s.reading r with
  | .outside => (s, .quiet)
  | .loading copy =>
    if sequence s.increments &&& 1 ≠ 0 then (s, .quiet)
    else (s.place r (.copying s.increments 0 copy), .quiet)
  | .copying before copied copy =>
    if here : copied < width then
      (s.place r (.copying before (copied + 1)
        (Function.update copy ⟨copied, here⟩ (s.value ⟨copied, here⟩))), .quiet)
    else (s.place r (.comparing before copy), .quiet)
  | .comparing before copy =>
    if sequence before = sequence s.increments then (s.place r .outside, .returned r copy)
    else (s.place r (.loading copy), .quiet)

/-- A step of the thread the action belongs to; a call made during a call changes nothing. A
reader's copy begins as a fresh `CaptureStats`. -/
def step (initial : Stats Word width) (s : Publisher Word Reader width) :
    Action Word Reader width → Publisher Word Reader width × Event Word Reader width
  | .publish stats =>
    match s.publishing with
    | .outside => ({ s with publishing := .announcing stats }, .quiet)
    | _ => (s, .quiet)
  | .publishStep => publishStep s
  | .read r =>
    match s.reading r with
    | .outside => (s.place r (.loading initial), .quiet)
    | _ => (s, .quiet)
  | .readStep r => readStep s r

def machine (initial : Stats Word width) :
    Machine (Publisher Word Reader width) (Action Word Reader width) (Event Word Reader width) :=
  ⟨step initial⟩

/-- Fewer than 2^63 publishes begin and end between the two loads of one attempt to read. -/
def Prompt (s : Publisher Word Reader width) (a : Action Word Reader width) : Prop :=
  ∀ r before copy, a = .readStep r → s.reading r = .comparing before copy →
    s.increments < before + 2 ^ 64

end Readers

/-! ## What a run reports -/

def published (es : List (Event Word Reader width)) : List (Stats Word width) :=
  es.filterMap fun
    | .published stats => some stats
    | _ => none

theorem published_append (first second : List (Event Word Reader width)) :
    published (first ++ second) = published first ++ published second := List.filterMap_append ..

/-- The value between two publishes. -/
def latest (initial : Stats Word width) (es : List (Event Word Reader width)) :
    Stats Word width := (published es).getLastD initial

theorem latest_quiet (initial : Stats Word width) (es : List (Event Word Reader width)) :
    latest initial (es ++ [.quiet]) = latest initial es := by
  simp [latest, published]

theorem latest_returned (initial : Stats Word width) (es : List (Event Word Reader width))
    (r : Reader) (copy : Stats Word width) :
    latest initial (es ++ [.returned r copy]) = latest initial es := by
  simp [latest, published]

theorem latest_published (initial : Stats Word width) (es : List (Event Word Reader width))
    (stats : Stats Word width) : latest initial (es ++ [.published stats]) = stats := by
  simp [latest, published]

theorem latest_mem (initial : Stats Word width) (es : List (Event Word Reader width)) :
    latest initial es ∈ initial :: published es := by
  rw [latest, List.getLastD_eq_getLast?]
  cases final : (published es).getLast? with
  | none => exact List.mem_cons_self
  | some stats => exact List.mem_cons_of_mem _ (List.mem_of_getLast? final)

/-! ## The invariant -/

/-- The value is whole unless the counter is odd. -/
def Written (last : Stats Word width) (increments : Nat) (value : Stats Word width) :
    Publishing Word width → Prop
  | .outside | .announcing _ => Even increments ∧ value = last
  | .copying stats copied => Odd increments ∧ ∀ i : Fin width, i.val < copied → value i = stats i

/-- What a reader has copied is of the value as long as the counter stays what it was. -/
def Held (increments : Nat) (value : Stats Word width) : Reading Word width → Prop
  | .outside | .loading _ => True
  | .copying before copied copy =>
    Even before ∧ before ≤ increments ∧
      (before = increments → ∀ i : Fin width, i.val < copied → copy i = value i)
  | .comparing before copy =>
    Even before ∧ before ≤ increments ∧ (before = increments → copy = value)

structure Sound (initial : Stats Word width) (es : List (Event Word Reader width))
    (s : Publisher Word Reader width) : Prop where
  written : Written (latest initial es) s.increments s.value s.publishing
  held : ∀ r, Held s.increments s.value (s.reading r)

theorem sound_start (initial : Stats Word width) :
    Sound initial [] (start initial : Publisher Word Reader width) where
  written := ⟨Even.zero, rfl⟩
  held := fun _ => trivial

theorem Written.whole {last value : Stats Word width} {increments : Nat}
    {publishing : Publishing Word width} (written : Written last increments value publishing)
    (even : Even increments) : value = last := by
  cases publishing with
  | outside => exact written.2
  | announcing stats => exact written.2
  | copying stats copied => exact absurd even (Nat.not_even_iff_odd.mpr written.1)

theorem Held.moved {increments later : Nat} {value changed : Stats Word width}
    {reading : Reading Word width} (held : Held increments value reading)
    (less : increments < later) : Held later changed reading := by
  cases reading with
  | outside => trivial
  | loading copy => trivial
  | copying before copied copy =>
    obtain ⟨even, below, -⟩ := held
    exact ⟨even, by omega, fun same => by omega⟩
  | comparing before copy =>
    obtain ⟨even, below, -⟩ := held
    exact ⟨even, by omega, fun same => by omega⟩

/-- No reader counts on a value that is being written. -/
theorem Held.rewritten {increments : Nat} {value changed : Stats Word width}
    {reading : Reading Word width} (held : Held increments value reading)
    (odd : Odd increments) : Held increments changed reading := by
  have flux {before : Nat} (even : Even before) : before ≠ increments := by
    rintro rfl
    exact Nat.not_even_iff_odd.mpr odd even
  cases reading with
  | outside => trivial
  | loading copy => trivial
  | copying before copied copy =>
    obtain ⟨even, below, -⟩ := held
    exact ⟨even, below, fun same => absurd same (flux even)⟩
  | comparing before copy =>
    obtain ⟨even, below, -⟩ := held
    exact ⟨even, below, fun same => absurd same (flux even)⟩

namespace Sound

variable {initial : Stats Word width} {es : List (Event Word Reader width)}
  {s : Publisher Word Reader width}

theorem quiet (h : Sound initial es s) : Sound initial (es ++ [.quiet]) s where
  written := by
    rw [latest_quiet]
    exact h.written
  held := h.held

theorem returned (h : Sound initial es s) (r : Reader) (copy : Stats Word width) :
    Sound initial (es ++ [.returned r copy]) s where
  written := by
    rw [latest_returned]
    exact h.written
  held := h.held

theorem publishStep (h : Sound initial es s) :
    Sound initial (es ++ [(publishStep s).2]) (StatsPublisher.publishStep s).1 := by
  have written := h.written
  rw [StatsPublisher.publishStep]
  cases at_ : s.publishing with
  | outside => exact h.quiet
  | announcing stats =>
    rw [at_] at written
    refine Sound.quiet ⟨⟨written.1.add_one, fun i none => absurd none (Nat.not_lt_zero _)⟩, ?_⟩
    exact fun r => (h.held r).moved (Nat.lt_succ_self _)
  | copying stats copied =>
    rw [at_] at written
    obtain ⟨odd, same⟩ := written
    dsimp only
    split
    next here =>
      refine Sound.quiet ⟨⟨odd, fun i less => ?_⟩, fun r => (h.held r).rewritten odd⟩
      by_cases last : i = ⟨copied, here⟩
      · subst last
        exact Function.update_self ..
      · have before : i.val < copied := by
          have : i.val ≠ copied := fun eq => last (Fin.ext eq)
          omega
        exact (Function.update_of_ne last _ _).trans (same i before)
    next whole =>
      have complete : s.value = stats := funext fun i => same i (by omega)
      refine ⟨⟨odd.add_one, complete.trans (latest_published initial es stats).symm⟩, ?_⟩
      exact fun r => (h.held r).moved (Nat.lt_succ_self _)

/-- What an attempt comes to whose two loads agree. -/
theorem agreed (h : Sound initial es s) {r : Reader} {before : Nat} {copy : Stats Word width}
    (here : s.reading r = .comparing before copy)
    (same : sequence before = sequence s.increments) (prompt : s.increments < before + 2 ^ 64) :
    copy = latest initial es := by
  have held := h.held r
  rw [here] at held
  obtain ⟨even, below, taken⟩ := held
  have still : before = s.increments := by
    rw [sequence, sequence] at same
    omega
  exact (taken still).trans (h.written.whole (still ▸ even))

section Readers

variable [DecidableEq Reader]

theorem place (h : Sound initial es s) (r : Reader) (reading : Reading Word width)
    (held : Held s.increments s.value reading) : Sound initial es (s.place r reading) where
  written := h.written
  held := fun other => by
    show Held s.increments s.value (Function.update s.reading r reading other)
    by_cases same : other = r
    · rw [same, Function.update_self]
      exact held
    · rw [Function.update_of_ne same]
      exact h.held other

theorem readStep (h : Sound initial es s) (r : Reader) :
    Sound initial (es ++ [(readStep s r).2]) (StatsPublisher.readStep s r).1 := by
  have held := h.held r
  rw [StatsPublisher.readStep]
  cases at_ : s.reading r with
  | outside => exact h.quiet
  | loading copy =>
    dsimp only
    split
    · exact h.quiet
    next even =>
      have even : Even s.increments := by
        rw [sequence, not_not, Nat.and_one_is_mod] at even
        rw [Nat.even_iff]
        omega
      have nothing : Held s.increments s.value (.copying s.increments 0 copy) :=
        ⟨even, le_rfl, fun _ i none => absurd none (Nat.not_lt_zero _)⟩
      exact (h.place r _ nothing).quiet
  | copying before copied copy =>
    rw [at_] at held
    obtain ⟨even, below, same⟩ := held
    dsimp only
    split
    next here =>
      have more : Held s.increments s.value (.copying before (copied + 1)
          (Function.update copy ⟨copied, here⟩ (s.value ⟨copied, here⟩))) := by
        refine ⟨even, below, fun still i less => ?_⟩
        by_cases last : i = ⟨copied, here⟩
        · subst last
          exact Function.update_self ..
        · have earlier : i.val < copied := by
            have : i.val ≠ copied := fun eq => last (Fin.ext eq)
            omega
          exact (Function.update_of_ne last _ _).trans (same still i earlier)
      exact (h.place r _ more).quiet
    next whole =>
      have taken : Held s.increments s.value (.comparing before copy) :=
        ⟨even, below, fun still => funext fun i => same still i (by omega)⟩
      exact (h.place r _ taken).quiet
  | comparing before copy =>
    dsimp only
    split
    · exact (h.place r .outside trivial).returned r copy
    · exact (h.place r (.loading copy) trivial).quiet

end Readers

end Sound

/-! ## Runs -/

section Runs

variable [DecidableEq Reader] {initial : Stats Word width}

theorem sound_step {es : List (Event Word Reader width)} {s : Publisher Word Reader width}
    (h : Sound initial es s) (a : Action Word Reader width) :
    Sound initial (es ++ [(step initial s a).2]) (step initial s a).1 := by
  cases a with
  | publish stats =>
    have written := h.written
    rw [step]
    cases place : s.publishing with
    | outside =>
      rw [place] at written
      exact Sound.quiet ⟨written, h.held⟩
    | announcing stats => exact h.quiet
    | copying stats copied => exact h.quiet
  | publishStep => exact h.publishStep
  | read r =>
    rw [step]
    cases place : s.reading r with
    | outside => exact (h.place r (.loading initial) trivial).quiet
    | loading copy => exact h.quiet
    | copying before copied copy => exact h.quiet
    | comparing before copy => exact h.quiet
  | readStep r => exact h.readStep r

/-- Only the second load of an attempt returns anything. -/
theorem step_returned {s : Publisher Word Reader width} {a : Action Word Reader width}
    {r : Reader} {copy : Stats Word width} (event : (step initial s a).2 = .returned r copy) :
    a = .readStep r ∧ ∃ before, s.reading r = .comparing before copy ∧
      sequence before = sequence s.increments := by
  cases a with
  | publish stats =>
    rw [step] at event
    split at event <;> cases event
  | publishStep =>
    rw [step, publishStep] at event
    split at event
    · cases event
    · cases event
    · split at event <;> cases event
  | read r =>
    rw [step] at event
    split at event <;> cases event
  | readStep reader =>
    rw [step, readStep] at event
    split at event
    · cases event
    · split at event <;> cases event
    · split at event <;> cases event
    next before taken place =>
      split at event
      next same =>
        cases event
        exact ⟨rfl, before, place, same⟩
      · cases event

abbrev Trace (initial : Stats Word width) :
    List (Event Word Reader width) → Publisher Word Reader width → Prop :=
  Run (machine initial) Prompt (start initial)

theorem trace_sound {es : List (Event Word Reader width)} {s : Publisher Word Reader width}
    (run : Trace initial es s) : Sound initial es s :=
  run.invariant_events (Sound initial) (sound_start initial) fun _ _ a h _ => sound_step h a

/-- However the threads' steps fall, what a reader returns is what a publish that was over had
left, or the value from before the first. -/
theorem returned_in_full {initial : Stats Word width} {es rest : List (Event Word Reader width)}
    {r : Reader} {copy : Stats Word width} {s : Publisher Word Reader width}
    (run : Trace initial (es ++ .returned r copy :: rest) s) :
    copy ∈ initial :: published es := by
  obtain ⟨mid, a, before, prompt, event, -⟩ := run.split
  obtain ⟨rfl, loaded, place, same⟩ := step_returned event
  rw [(trace_sound before).agreed place same (prompt r loaded copy rfl place)]
  exact latest_mem initial es

/-! ## What a run can still return -/

/-- The rest of a publish's copy, with nobody in between. -/
theorem copies (initial : Stats Word width) {stats : Stats Word width} (left : Nat) {copied : Nat}
    {s : Publisher Word Reader width} (place : s.publishing = .copying stats copied)
    (all : copied + left = width) (same : ∀ i : Fin width, i.val < copied → s.value i = stats i) :
    ∃ es, Run (machine initial) Any s es
        { s with value := stats, publishing := .copying stats width } ∧
      published es = [] := by
  induction left generalizing copied s with
  | zero =>
    obtain rfl : copied = width := all
    have whole : s.value = stats := funext fun i => same i i.isLt
    refine ⟨[], ?_, rfl⟩
    rw [← whole]
    nth_rewrite 2 [whole]
    rw [← place]
    exact .refl
  | succ left ih =>
    have here : copied < width := by omega
    let t : Publisher Word Reader width :=
      { s with value := Function.update s.value ⟨copied, here⟩ (stats ⟨copied, here⟩)
               publishing := .copying stats (copied + 1) }
    have one : (machine initial).step s .publishStep = (t, .quiet) := by
      show publishStep s = _
      rw [publishStep, place]
      exact dif_pos here
    have more : ∀ i : Fin width, i.val < copied + 1 → t.value i = stats i := by
      intro i less
      by_cases last : i = ⟨copied, here⟩
      · subst last
        exact Function.update_self ..
      · have : i.val ≠ copied := fun eq => last (Fin.ext eq)
        exact (Function.update_of_ne last _ _).trans (same i (by omega))
    obtain ⟨es, run, nothing⟩ := ih (s := t) rfl (by omega) more
    refine ⟨[.quiet] ++ es, (Run.next .refl .publishStep trivial one).append run, ?_⟩
    rw [published] at nothing ⊢
    simp [nothing]

theorem publishes_once (initial stats : Stats Word width) {s : Publisher Word Reader width}
    (place : s.publishing = .outside) :
    ∃ es, Run (machine initial) Any s es
        { s with increments := s.increments + 2, value := stats } ∧ published es = [stats] := by
  let t : Publisher Word Reader width :=
    { s with increments := s.increments + 1, publishing := .copying stats 0 }
  have call : (machine initial).step s (.publish stats) =
      ({ s with publishing := .announcing stats }, .quiet) := by
    show step initial s (.publish stats) = _
    rw [step, place]
  have announce : (machine initial).step { s with publishing := .announcing stats } .publishStep =
      (t, .quiet) := rfl
  obtain ⟨es, run, nothing⟩ := copies initial (s := t) width rfl (Nat.zero_add _)
    fun i none => absurd none (Nat.not_lt_zero _)
  have ends : (machine initial).step { t with value := stats, publishing := .copying stats width }
      .publishStep = ({ s with increments := s.increments + 2, value := stats },
        .published stats) := by
    show publishStep { t with value := stats, publishing := .copying stats width } = _
    rw [publishStep]
    dsimp only
    rw [dif_neg (Nat.lt_irrefl _), ← place]
  have begins : Run (machine initial) Any s ([] ++ [.quiet] ++ [.quiet]) t :=
    (Run.next .refl (.publish stats) trivial call).next .publishStep trivial announce
  refine ⟨_, (begins.append run).next .publishStep trivial ends, ?_⟩
  rw [published] at nothing ⊢
  simp [nothing]

/-- Any number of publishes of one value, with nobody in between. -/
theorem publishes (initial stats : Stats Word width) (n : Nat) {s : Publisher Word Reader width}
    (place : s.publishing = .outside) :
    ∃ es, Run (machine initial) Any s es
        { s with increments := s.increments + 2 * (n + 1), value := stats } ∧
      published es = List.replicate (n + 1) stats := by
  induction n with
  | zero => exact publishes_once initial stats place
  | succ n ih =>
    obtain ⟨es, run, given⟩ := ih
    obtain ⟨fs, more, last⟩ := publishes_once initial stats
      (s := { s with increments := s.increments + 2 * (n + 1), value := stats }) place
    refine ⟨es ++ fs, run.append more, ?_⟩
    rw [published_append, given, last, ← List.replicate_succ']

end Runs

/-! ## Two words -/

def zeros : Stats Nat 2 := ![0, 0]

def ones : Stats Nat 2 := ![1, 1]

/-- One reader. -/
abbrev alone : Machine (Publisher Nat Unit 2) (Action Nat Unit 2) (Event Nat Unit 2) :=
  machine zeros

def promptly (s : Publisher Nat Unit 2) : Action Nat Unit 2 → Bool
  | .readStep r =>
    match s.reading r with
    | .comparing before _ => decide (s.increments < before + 2 ^ 64)
    | _ => true
  | _ => true

theorem promptly_sound (s : Publisher Nat Unit 2) (a : Action Nat Unit 2)
    (passes : promptly s a = true) : Prompt s a := by
  rintro r before copy rfl place
  rw [promptly, place] at passes
  exact of_decide_eq_true passes

/-- A publish that begins and ends between the words of a read, which then starts again. -/
def overtaken : List (Action Nat Unit 2) :=
  [.read (), .readStep (), .readStep (), .publish ones, .publishStep, .publishStep, .publishStep,
    .publishStep, .readStep (), .readStep (), .readStep (), .readStep (), .readStep (),
    .readStep (), .readStep (), .readStep ()]

theorem returned_in_full_overtaken :
    ∃ es, (alone.trace (start zeros) overtaken).1 = es ++ [.returned () ones] ∧
      ones ∈ zeros :: published es := by
  obtain ⟨copy, events, whole⟩ : ∃ copy, (alone.trace (start zeros) overtaken).1 =
      [.quiet, .quiet, .quiet, .quiet, .quiet, .quiet, .quiet, .published ones, .quiet, .quiet,
        .quiet, .quiet, .quiet, .quiet, .quiet] ++ [.returned () copy] ∧ copy = ones :=
    ⟨_, rfl, by decide⟩
  have run := Run.of_trace alone promptly (start zeros) overtaken (by decide)
    promptly_sound
  rw [events, whole] at run
  exact ⟨_, whole ▸ events, returned_in_full run⟩

/-- Nothing has been published when the first value is returned, and 2^63 publishes between the
words of one read go unseen. -/
theorem unpublished_and_mixed :
    (∃ es s, Run alone Any (start zeros) (es ++ [.returned () zeros]) s ∧ published es = []) ∧
    ∃ es s, Run alone Any (start zeros) (es ++ [.returned () ![0, 1]]) s ∧
      ∀ stats ∈ zeros :: published es, stats ≠ ![0, 1] := by
  have free : ∀ s a, (fun (_ : Publisher Nat Unit 2) (_ : Action Nat Unit 2) => true) s a = true →
      Any s a := fun _ _ _ => trivial
  constructor
  · let reads : List (Action Nat Unit 2) :=
      [.read (), .readStep (), .readStep (), .readStep (), .readStep (), .readStep ()]
    obtain ⟨copy, events, whole⟩ : ∃ copy, (alone.trace (start zeros) reads).1 =
        [.quiet, .quiet, .quiet, .quiet, .quiet] ++ [.returned () copy] ∧ copy = zeros :=
      ⟨_, rfl, by decide⟩
    have run := Run.of_trace alone (fun _ _ => true) (start zeros) reads (by decide) free
    rw [events, whole] at run
    exact ⟨_, _, run, rfl⟩
  · let reads : List (Action Nat Unit 2) := [.read (), .readStep (), .readStep ()]
    let s := (alone.trace (start zeros) reads).2
    have first := Run.of_trace alone (fun _ _ => true) (start zeros) reads (by decide) free
    obtain ⟨es, run, given⟩ := publishes zeros ones (2 ^ 63 - 1) (s := s) rfl
    have total : s.increments + 2 * (2 ^ 63 - 1 + 1) = 18446744073709551616 := by decide
    rw [total] at run
    let t : Publisher Nat Unit 2 := { s with increments := 18446744073709551616, value := ones }
    let copy : Stats Nat 2 := Function.update (Function.update zeros 0 0) 1 1
    have words : alone.step t (.readStep ()) = (t.place () (.copying 0 2 copy), .quiet) := rfl
    have all : alone.step (t.place () (.copying 0 2 copy)) (.readStep ()) =
        ((t.place () (.copying 0 2 copy)).place () (.comparing 0 copy), .quiet) := rfl
    have ends : alone.step ((t.place () (.copying 0 2 copy)).place () (.comparing 0 copy))
        (.readStep ()) =
        (((t.place () (.copying 0 2 copy)).place () (.comparing 0 copy)).place () .outside,
          .returned () copy) :=
      if_pos (by decide : sequence 0 = sequence 18446744073709551616)
    have last := (((first.append run).next _ trivial words).next _ trivial all).next _ trivial ends
    have mixed : copy = ![0, 1] := by decide
    rw [mixed] at last
    refine ⟨_, _, last, ?_⟩
    have none : published (alone.trace (start zeros) reads).1 = [] := rfl
    have quiet : published [(.quiet : Event Nat Unit 2)] = [] := rfl
    rw [published_append, published_append, published_append, none, quiet, List.nil_append,
      List.append_nil, List.append_nil, given]
    intro stats among
    rcases List.mem_cons.mp among with rfl | among
    · decide
    · obtain rfl := List.eq_of_mem_replicate among
      decide

end StatsPublisher
