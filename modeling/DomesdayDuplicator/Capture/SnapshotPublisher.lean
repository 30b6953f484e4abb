import DomesdayDuplicator.Foundations.Execution
import Mathlib.Data.List.Nodup
import Mathlib.Logic.Function.Basic

/-!
# The snapshot triple buffer

`SnapshotPublisher` as its steps. The bytes of a buffer are copied one at a time and each of its
fields is written on its own, so a buffer used by both threads at once would show; an operation
on one of the two atomics is one step together with the bookkeeping of the thread's own index
that follows it. Memory is sequentially consistent, and a 64-bit count of publishes does not
wrap.
-/

namespace SnapshotPublisher

open Execution

structure Buffer where
  data : List UInt8
  used : Nat
  generation : Nat

def Buffer.snapshot (b : Buffer) : List UInt8 × Nat := (b.data.take b.used, b.generation)

/-- Where the writer is in `Publish`. -/
inductive Publishing
  | outside
  | copying (wire : List UInt8) (copied : Nat)
  | counting (wire : List UInt8)
  | stamping (wire : List UInt8) (generation : Nat)
  | handing (wire : List UInt8) (generation : Nat)
  deriving DecidableEq

/-- Where the reader is in `TryRead`. -/
inductive Reading
  | outside
  | exchanging
  | sizing
  | copying (used : Nat) (out : List UInt8)
  | stamping (out : List UInt8)
  deriving DecidableEq

structure Publisher where
  buffers : Nat → Buffer
  writeIndex : Nat
  readIndex : Nat
  ready : Nat
  generation : Nat
  publishing : Publishing
  reading : Reading

def freshFlag : Nat := 4

def indexMask : Nat := 3

inductive Event
  | quiet
  | published (bytes : List UInt8) (generation : Nat)
  | nothingNew
  | obtained (bytes : List UInt8) (generation : Nat)

inductive Action
  | publish (wire : List UInt8)
  | publishStep
  | tryRead
  | readStep

def start (snapshotBytes : Nat) : Publisher where
  buffers := fun _ => ⟨List.replicate snapshotBytes 0, 0, 0⟩
  writeIndex := 0
  readIndex := 1
  ready := 2
  generation := 0
  publishing := .outside
  reading := .outside

def Publisher.setTarget (s : Publisher) (target : Buffer) : Publisher :=
  { s with buffers := Function.update s.buffers s.writeIndex target }

section Operations

variable (snapshotBytes : Nat)

def publishStep (s : Publisher) : Publisher × Event :=
  let target := s.buffers s.writeIndex
  match s.publishing with
  | .outside => (s, .quiet)
  | .copying wire copied =>
    if copied < min wire.length snapshotBytes then
      ({ s.setTarget { target with data := target.data.set copied (wire.getD copied 0) } with
          publishing := .copying wire (copied + 1) }, .quiet)
    else
      ({ s.setTarget { target with used := copied } with publishing := .counting wire }, .quiet)
  | .counting wire =>
    ({ s with generation := s.generation + 1
              publishing := .stamping wire (s.generation + 1) }, .quiet)
  | .stamping wire generation =>
    ({ s.setTarget { target with generation := generation } with
        publishing := .handing wire generation }, .quiet)
  | .handing wire generation =>
    ({ s with ready := s.writeIndex ||| freshFlag
              writeIndex := s.ready &&& indexMask
              publishing := .outside },
      .published (wire.take snapshotBytes) generation)

def readStep (s : Publisher) : Publisher × Event :=
  let source := s.buffers s.readIndex
  match s.reading with
  | .outside => (s, .quiet)
  | .exchanging =>
    ({ s with ready := s.readIndex, readIndex := s.ready &&& indexMask, reading := .sizing },
      .quiet)
  | .sizing => ({ s with reading := .copying source.used [] }, .quiet)
  | .copying used out =>
    if out.length < used then
      ({ s with reading := .copying used (out ++ [source.data.getD out.length 0]) }, .quiet)
    else ({ s with reading := .stamping out }, .quiet)
  | .stamping out => ({ s with reading := .outside }, .obtained out source.generation)

/-- A step of the thread the action belongs to; a call made during a call changes nothing. -/
def step (s : Publisher) : Action → Publisher × Event
  | .publish wire =>
    (if s.publishing = .outside then { s with publishing := .copying wire 0 } else s, .quiet)
  | .publishStep => publishStep snapshotBytes s
  | .tryRead =>
    if s.reading ≠ .outside then (s, .quiet)
    else if s.ready &&& freshFlag = 0 then (s, .nothingNew)
    else ({ s with reading := .exchanging }, .quiet)
  | .readStep => readStep s

def machine : Machine Publisher Action Event := ⟨step snapshotBytes⟩

abbrev Trace := Run (machine snapshotBytes) Any (start snapshotBytes)

end Operations

/-! ## What a run reports -/

def published (es : List Event) : List (List UInt8 × Nat) :=
  es.filterMap fun
    | .published bytes generation => some (bytes, generation)
    | _ => none

def obtained (es : List Event) : List (List UInt8 × Nat) :=
  es.filterMap fun
    | .obtained bytes generation => some (bytes, generation)
    | _ => none

/-! ## The three indices -/

def indices (s : Publisher) : List Nat := [s.writeIndex, s.ready &&& indexMask, s.readIndex]

def Apart (s : Publisher) : Prop := (indices s).Perm [0, 1, 2]

theorem fresh_index {i : Nat} (small : i < 3) :
    (i ||| freshFlag) &&& indexMask = i ∧ (i ||| freshFlag) &&& freshFlag ≠ 0 := by
  have cases : i = 0 ∨ i = 1 ∨ i = 2 := by omega
  rcases cases with rfl | rfl | rfl <;> decide

theorem stale_index {i : Nat} (small : i < 3) :
    i &&& indexMask = i ∧ i &&& freshFlag = 0 := by
  have cases : i = 0 ∨ i = 1 ∨ i = 2 := by omega
  rcases cases with rfl | rfl | rfl <;> decide

namespace Apart

variable {s t : Publisher}

theorem small (apart : Apart s) {i : Nat} (member : i ∈ indices s) : i < 3 := by
  have : i ∈ [0, 1, 2] := apart.mem_iff.mp member
  simp only [List.mem_cons, List.not_mem_nil, or_false] at this
  omega

theorem different (apart : Apart s) :
    s.writeIndex ≠ s.ready &&& indexMask ∧ s.writeIndex ≠ s.readIndex ∧
      s.ready &&& indexMask ≠ s.readIndex := by
  have nodup : (indices s).Nodup := apart.nodup_iff.mpr (by decide)
  simp only [indices, List.nodup_cons, List.mem_cons, List.not_mem_nil, or_false, not_or] at nodup
  exact ⟨nodup.1.1, nodup.1.2, nodup.2.1⟩

/-- The writer gives its buffer for the one nobody is reading. -/
theorem handOver (apart : Apart s) (write : t.writeIndex = s.ready &&& indexMask)
    (ready : t.ready = s.writeIndex ||| freshFlag) (read : t.readIndex = s.readIndex) :
    Apart t := by
  have same := (fresh_index (apart.small (i := s.writeIndex) (by simp [indices]))).1
  refine List.Perm.trans ?_ apart
  rw [indices, indices, write, ready, read, same]
  exact List.Perm.swap _ _ _

/-- The reader gives its buffer for the newest one. -/
theorem takeOver (apart : Apart s) (read : t.readIndex = s.ready &&& indexMask)
    (ready : t.ready = s.readIndex) (write : t.writeIndex = s.writeIndex) : Apart t := by
  have same := (stale_index (apart.small (i := s.readIndex) (by simp [indices]))).1
  refine List.Perm.trans ?_ apart
  rw [indices, indices, write, ready, read, same]
  exact (List.Perm.swap _ _ _).cons _

end Apart

/-! ## The invariant -/

/-- What the writer's buffer holds by now. -/
def Written (snapshotBytes : Nat) (target : Buffer) : Publishing → Prop
  | .outside => True
  | .copying wire copied =>
    copied ≤ min wire.length snapshotBytes ∧ target.data.take copied = wire.take copied
  | .counting wire | .stamping wire _ => target.data.take target.used = wire.take snapshotBytes
  | .handing wire generation => target.snapshot = (wire.take snapshotBytes, generation)

/-- The publishes counted so far, and the one that is on its way. -/
def Counted (count generation : Nat) : Publishing → Prop
  | .stamping _ stamp | .handing _ stamp => stamp = generation ∧ generation = count + 1
  | _ => generation = count

/-- The snapshot the reader is taking out. -/
def inHand (s : Publisher) : List (List UInt8 × Nat) :=
  match s.reading with
  | .outside | .exchanging => []
  | .sizing | .copying _ _ | .stamping _ => [(s.buffers s.readIndex).snapshot]

/-- What the reader has copied of its buffer by now. -/
def Copied (s : Publisher) : Prop :=
  let source := s.buffers s.readIndex
  match s.reading with
  | .outside | .sizing => True
  | .exchanging => s.ready &&& freshFlag ≠ 0
  | .copying used out =>
    used = source.used ∧ out.length ≤ used ∧ out = source.data.take out.length
  | .stamping out => out = source.data.take source.used

structure Sound (snapshotBytes : Nat) (given taken : List (List UInt8 × Nat))
    (s : Publisher) : Prop where
  apart : Apart s
  size : ∀ i, (s.buffers i).data.length = snapshotBytes
  used : ∀ i, (s.buffers i).used ≤ snapshotBytes
  written : Written snapshotBytes (s.buffers s.writeIndex) s.publishing
  counted : Counted given.length s.generation s.publishing
  numbered : given.map Prod.snd = List.range' 1 given.length
  copied : Copied s
  complete : ∀ snapshot ∈ taken ++ inHand s, snapshot ∈ given
  rising : ((taken ++ inHand s).map Prod.snd).Pairwise (· < ·)
  fresh : s.ready &&& freshFlag ≠ 0 →
    (s.buffers (s.ready &&& indexMask)).snapshot ∈ given ∧
      ∀ snapshot ∈ taken ++ inHand s,
        snapshot.2 < (s.buffers (s.ready &&& indexMask)).generation

namespace Sound

variable {snapshotBytes : Nat} {given taken : List (List UInt8 × Nat)} {s : Publisher}

theorem initial : Sound snapshotBytes [] [] (start snapshotBytes) where
  apart := by
    simp only [Apart, indices, start, indexMask, Nat.reduceAnd]
    decide
  size := by simp [start]
  used := by simp [start]
  written := trivial
  counted := rfl
  numbered := rfl
  copied := trivial
  complete := by simp [start, inHand]
  rising := by simp [start, inHand]
  fresh := by simp [start, freshFlag]

/-- Every publish has its own number. -/
theorem generation_le (h : Sound snapshotBytes given taken s) {snapshot : List UInt8 × Nat}
    (member : snapshot ∈ given) : snapshot.2 ≤ given.length := by
  have listed : snapshot.2 ∈ given.map Prod.snd := List.mem_map_of_mem member
  rw [h.numbered, List.mem_range'_1] at listed
  omega

/-- The writer moves on with nothing but its own buffer touched. -/
theorem writing (h : Sound snapshotBytes given taken s) (target : Buffer) (p : Publishing)
    (generation : Nat) (size : target.data.length = snapshotBytes)
    (used : target.used ≤ snapshotBytes) (written : Written snapshotBytes target p)
    (counted : Counted given.length generation p) :
    Sound snapshotBytes given taken
      { s.setTarget target with publishing := p, generation := generation } := by
  obtain ⟨unready, unread, -⟩ := h.apart.different
  have read : (s.setTarget target).buffers s.readIndex = s.buffers s.readIndex :=
    Function.update_of_ne (Ne.symm unread) _ _
  have newest : (s.setTarget target).buffers (s.ready &&& indexMask) =
      s.buffers (s.ready &&& indexMask) := Function.update_of_ne (Ne.symm unready) _ _
  have every {P : Buffer → Prop} (own : P target) (others : ∀ i, P (s.buffers i)) (i : Nat) :
      P ((s.setTarget target).buffers i) := by
    by_cases here : i = s.writeIndex
    · subst here
      simpa [Publisher.setTarget] using own
    · simpa [Publisher.setTarget, Function.update_of_ne here] using others i
  have hand : inHand { s.setTarget target with publishing := p, generation := generation } =
      inHand s := by
    simp only [inHand]
    rw [← read]
    rfl
  constructor
  case apart => exact h.apart
  case size => exact every (P := fun b => b.data.length = snapshotBytes) size h.size
  case used => exact every (P := fun b => b.used ≤ snapshotBytes) used h.used
  case written => simpa [Publisher.setTarget] using written
  case counted => exact counted
  case numbered => exact h.numbered
  case copied =>
    have copied := h.copied
    simp only [Copied] at copied ⊢
    rw [← read] at copied
    exact copied
  case complete => rw [hand]; exact h.complete
  case rising => rw [hand]; exact h.rising
  case fresh =>
    rw [hand]
    intro fresh
    have before := h.fresh fresh
    rw [← newest] at before
    exact before

/-- The exchange of `Publish`. -/
theorem handingOver (h : Sound snapshotBytes given taken s) {wire : List UInt8}
    {generation : Nat} (here : s.publishing = .handing wire generation) :
    Sound snapshotBytes (given ++ [(wire.take snapshotBytes, generation)]) taken
      { s with
        ready := s.writeIndex ||| freshFlag
        writeIndex := s.ready &&& indexMask
        publishing := .outside } := by
  have written := h.written
  have counted := h.counted
  rw [here] at written counted
  obtain ⟨rfl, next⟩ := counted
  have small : s.writeIndex < 3 := h.apart.small (by simp [indices])
  have older {snapshot : List UInt8 × Nat} (member : snapshot ∈ taken ++ inHand s) :
      snapshot.2 < s.generation := by
    have := h.generation_le (h.complete _ member)
    omega
  constructor
  case apart => exact h.apart.handOver rfl rfl rfl
  case size => exact h.size
  case used => exact h.used
  case written => trivial
  case counted => simpa [Counted] using next
  case numbered =>
    rw [List.map_append, h.numbered, List.length_append, List.length_singleton,
      List.range'_concat, next]
    simp [Nat.add_comm]
  case copied =>
    have copied := h.copied
    cases reading : s.reading with
    | exchanging =>
      simp only [Copied]
      exact (fresh_index small).2
    | outside | sizing => simp only [Copied]
    | copying used out | stamping out =>
      simp only [Copied, reading] at copied ⊢
      exact copied
  case complete => exact fun snapshot member => List.mem_append_left _ (h.complete _ member)
  case rising => exact h.rising
  case fresh =>
    intro _
    dsimp only
    rw [(fresh_index small).1]
    have whole : (s.buffers s.writeIndex).snapshot = (wire.take snapshotBytes, s.generation) :=
      written
    refine ⟨by simp [whole], fun snapshot member => ?_⟩
    have stamp : (s.buffers s.writeIndex).generation = s.generation :=
      congrArg Prod.snd whole
    rw [stamp]
    exact older member

/-- The reader moves on with its buffer. -/
theorem readingOn (h : Sound snapshotBytes given taken s) (r : Reading)
    (hand : inHand { s with reading := r } = inHand s)
    (copied : Copied { s with reading := r }) :
    Sound snapshotBytes given taken { s with reading := r } where
  apart := h.apart
  size := h.size
  used := h.used
  written := h.written
  counted := h.counted
  numbered := h.numbered
  copied := copied
  complete := by rw [hand]; exact h.complete
  rising := by rw [hand]; exact h.rising
  fresh := by rw [hand]; exact h.fresh

/-- The exchange of `TryRead`. -/
theorem takingOver (h : Sound snapshotBytes given taken s) (here : s.reading = .exchanging) :
    Sound snapshotBytes given taken
      { s with ready := s.readIndex, readIndex := s.ready &&& indexMask, reading := .sizing } := by
  have copied := h.copied
  simp only [Copied, here] at copied
  obtain ⟨newest, newer⟩ := h.fresh copied
  have empty : inHand s = [] := by simp [inHand, here]
  have small : s.readIndex < 3 := h.apart.small (by simp [indices])
  have complete := h.complete
  have rising := h.rising
  rw [empty, List.append_nil] at newer complete rising
  constructor
  case apart => exact h.apart.takeOver rfl rfl rfl
  case size => exact h.size
  case used => exact h.used
  case written => exact h.written
  case counted => exact h.counted
  case numbered => exact h.numbered
  case copied => trivial
  case complete =>
    intro snapshot member
    rcases List.mem_append.mp member with old | new
    · exact complete _ old
    · simp only [inHand, List.mem_singleton] at new
      rwa [new]
  case rising =>
    simp only [inHand, List.map_append, List.map_cons, List.map_nil]
    rw [List.pairwise_append]
    refine ⟨rising, List.pairwise_singleton _ _, fun a before b after => ?_⟩
    obtain ⟨snapshot, member, rfl⟩ := List.mem_map.mp before
    rw [List.mem_singleton.mp after]
    exact newer _ member
  case fresh =>
    intro fresh
    exact absurd (stale_index small).2 fresh

/-- The end of `TryRead`. -/
theorem obtaining (h : Sound snapshotBytes given taken s) {out : List UInt8}
    (here : s.reading = .stamping out) :
    Sound snapshotBytes given (taken ++ [(out, (s.buffers s.readIndex).generation)])
      { s with reading := .outside } := by
  have copied := h.copied
  simp only [Copied, here] at copied
  have hand : taken ++ inHand s = taken ++ [(out, (s.buffers s.readIndex).generation)] ++
      inHand { s with reading := .outside } := by
    simp [inHand, here, copied, Buffer.snapshot]
  constructor
  case apart => exact h.apart
  case size => exact h.size
  case used => exact h.used
  case written => exact h.written
  case counted => exact h.counted
  case numbered => exact h.numbered
  case copied => trivial
  case complete => rw [← hand]; exact h.complete
  case rising => rw [← hand]; exact h.rising
  case fresh => rw [← hand]; exact h.fresh

end Sound

/-! ## Steps -/

section Steps

variable {snapshotBytes : Nat} {given taken : List (List UInt8 × Nat)} {s : Publisher}

/-- The account after a step, with what the step reported. -/
def Accounts (snapshotBytes : Nat) (given taken : List (List UInt8 × Nat)) :
    Publisher × Event → Prop
  | (s, .published bytes generation) =>
    Sound snapshotBytes (given ++ [(bytes, generation)]) taken s
  | (s, .obtained bytes generation) =>
    Sound snapshotBytes given (taken ++ [(bytes, generation)]) s
  | (s, _) => Sound snapshotBytes given taken s

theorem publishStep_accounts (h : Sound snapshotBytes given taken s) :
    Accounts snapshotBytes given taken (publishStep snapshotBytes s) := by
  have written := h.written
  have counted := h.counted
  have size := h.size s.writeIndex
  have used := h.used s.writeIndex
  unfold publishStep
  cases here : s.publishing <;> rw [here] at written counted <;> dsimp only
  case outside => exact h
  case copying wire copied =>
    obtain ⟨inside, same⟩ := written
    split
    next more =>
      refine h.writing _ (.copying wire (copied + 1)) s.generation (by simpa using size) used
        ⟨more, ?_⟩ counted
      have byte : copied < wire.length := by omega
      have room : copied < (s.buffers s.writeIndex).data.length := by omega
      rw [List.take_add_one, List.take_add_one, List.take_set_of_le (Nat.le_refl _), same]
      simp [room, byte, List.getD]
    next done =>
      refine h.writing { s.buffers s.writeIndex with used := copied } (.counting wire)
        s.generation size (by dsimp only; omega) ?_ counted
      have whole : copied = min wire.length snapshotBytes := by omega
      change (s.buffers s.writeIndex).data.take copied = wire.take snapshotBytes
      rw [same, whole, Nat.min_comm, ← List.take_take, List.take_length]
  case counting wire =>
    have next : s.generation + 1 = given.length + 1 := congrArg (· + 1) counted
    have counting := h.writing (s.buffers s.writeIndex) (.stamping wire (s.generation + 1)) _ size
      used written ⟨rfl, next⟩
    simpa [Accounts, Publisher.setTarget] using counting
  case stamping wire generation =>
    refine h.writing { s.buffers s.writeIndex with generation := generation }
      (.handing wire generation) s.generation size used ?_ counted
    simp only [Written, Buffer.snapshot]
    exact congrArg (·, generation) written
  case handing wire generation => exact h.handingOver here

theorem readStep_accounts (h : Sound snapshotBytes given taken s) :
    Accounts snapshotBytes given taken (readStep s) := by
  have copied := h.copied
  unfold readStep
  cases here : s.reading <;> simp only [Copied, here] at copied <;> dsimp only
  case outside => exact h
  case exchanging => exact h.takingOver here
  case sizing => exact h.readingOn _ (by simp [inHand, here]) (by simp [Copied])
  case copying used out =>
    obtain ⟨rfl, inside, same⟩ := copied
    split
    next more =>
      refine h.readingOn _ (by simp [inHand, here]) ?_
      have size := h.size s.readIndex
      have used := h.used s.readIndex
      have byte : out.length < (s.buffers s.readIndex).data.length := by omega
      simp only [Copied, List.length_append, List.length_singleton]
      refine ⟨trivial, more, ?_⟩
      rw [List.take_add_one, ← same]
      simp [byte, List.getD]
    next done =>
      refine h.readingOn _ (by simp [inHand, here]) ?_
      have whole : out.length = (s.buffers s.readIndex).used := by omega
      simp only [Copied]
      rw [← whole]
      exact same
  case stamping out => exact h.obtaining here

theorem step_accounts (h : Sound snapshotBytes given taken s) (a : Action) :
    Accounts snapshotBytes given taken (step snapshotBytes s a) := by
  cases a with
  | publish wire =>
    simp only [step, Accounts]
    split
    next idle =>
      have counted := h.counted
      rw [idle] at counted
      have begun := h.writing (s.buffers s.writeIndex) (.copying wire 0) s.generation
        (h.size _) (h.used _) ⟨Nat.zero_le _, by simp⟩ counted
      simpa [Publisher.setTarget] using begun
    · exact h
  | publishStep => exact publishStep_accounts h
  | tryRead =>
    simp only [step]
    split
    · exact h
    next idle =>
      simp only [ne_eq, Decidable.not_not] at idle
      split
      · exact h
      next fresh => exact h.readingOn .exchanging (by simp [inHand, idle]) fresh
  | readStep => exact readStep_accounts h

end Steps

/-! ## Every run -/

theorem sound_of_run {snapshotBytes : Nat} {es : List Event} {s : Publisher}
    (run : Trace snapshotBytes es s) : Sound snapshotBytes (published es) (obtained es) s := by
  refine run.invariant_events
    (fun es s => Sound snapshotBytes (published es) (obtained es) s) Sound.initial ?_
  intro es s a h _
  have next := step_accounts h a
  unfold Accounts at next
  simp only [machine]
  split at next <;> rename_i reported <;> rw [reported] <;> simpa [published, obtained] using next

/-- Whatever the order of the two threads' steps: the three indices are the three buffers, what
the reader obtains is what one publish, and only that one, left, and each snapshot it obtains is
newer than the one before. -/
theorem one_publish_each {snapshotBytes : Nat} {es : List Event} {s : Publisher}
    (run : Trace snapshotBytes es s) :
    (indices s).Perm [0, 1, 2] ∧
      (∀ snapshot ∈ obtained es, snapshot ∈ published es) ∧
      ((published es).map Prod.snd).Nodup ∧
      ((obtained es).map Prod.snd).Pairwise (· < ·) := by
  have h := sound_of_run run
  refine ⟨h.apart, fun snapshot member => h.complete _ (List.mem_append_left _ member), ?_, ?_⟩
  · rw [h.numbered]
    exact List.nodup_range'
  · have rising := h.rising
    rw [List.map_append] at rising
    exact (List.pairwise_append.mp rising).1

/-- Two publishes of four-byte buffers, the second while the first is being taken out. -/
def overlapping : List Action :=
  [.publish [1, 2, 3]] ++ List.replicate 7 .publishStep ++ [.tryRead] ++
    List.replicate 3 .readStep ++ [.publish [7, 8, 9, 10, 11]] ++ List.replicate 8 .publishStep ++
    List.replicate 4 .readStep ++ [.tryRead] ++ List.replicate 8 .readStep

theorem one_publish_each_overlapping :
    let out := (machine 4).trace (start 4) overlapping
    obtained out.1 = [([1, 2, 3], 1), ([7, 8, 9, 10], 2)] ∧
      ∀ snapshot ∈ obtained out.1, snapshot ∈ published out.1 := by
  have run := Run.of_trace (machine 4) (fun _ _ => true) (start 4) overlapping rfl
    fun s a _ => (trivial : Any s a)
  exact ⟨by decide, (one_publish_each run).2.1⟩

end SnapshotPublisher
