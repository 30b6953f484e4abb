import DomesdayDuplicator.Capture.CaptureController

/-!
# Every capture file is finished once

The controller keeps the path and the metadata of one file, and one number for the
detach it waits for. As long as no step needs a second set of them, every file is
finished once, as what it was opened as and with what its sink was given.
-/

namespace CaptureBookkeeping

open Execution CaptureController
open SinkChange (Sink Pipeline Pass Caller)

universe u

/-! ## The file in the pipeline -/

/-- A pass with no sink in hand. -/
def Empty : Pass Nat → Prop
  | .idle | .loaded _ | .taken _ none => True
  | _ => False

/-- File `f` is attached, or on its way to it. -/
inductive Held (f : Nat) (p : Pipeline Nat) : Prop
  | waiting (pending : p.pendingSink = some f) (sink : p.sink = some .null) (pass : Empty p.pass)
  | taken (seen : Nat) (pass : p.pass = .taken seen (some f)) (pending : p.pendingSink = none)
      (sink : p.sink = some .null)
  | swapping (seen : Nat) (pass : p.pass = .swapping seen (.attached f))
      (pending : p.pendingSink = none) (sink : p.sink = some .null)
  | installed (sink : p.sink = some (.attached f)) (pending : p.pendingSink = none)
      (pass : Empty p.pass ∨ ∃ seen, p.pass = .swapped seen)

/-- No file is attached and no change is on its way. -/
structure Clear (p : Pipeline Nat) : Prop where
  pending : p.pendingSink = none
  flag : p.pendingDetach = false
  sink : p.sink = some .null
  pass : Empty p.pass

/-- What a pass has seen was numbered before. -/
def Bounded (p : Pipeline Nat) : Prop :=
  p.sinkChangeCount ≤ p.sinkChangeRequests ∧
    match p.pass with
    | .idle => True
    | .loaded seen | .taken seen _ | .swapping seen _ | .swapped seen =>
      seen ≤ p.sinkChangeRequests

/-- Request `n` is not counted, nor is it by the swap under way. -/
def Behind (n : Nat) (p : Pipeline Nat) : Prop :=
  p.sinkChangeCount < n ∧
    match p.pass with
    | .taken seen (some _) | .swapping seen _ | .swapped seen => seen < n
    | _ => True

/-- The detach numbered `n`, of file `f`: asked for, taken by a pass, swapped, counted. -/
inductive Detached (f n : Nat) (p : Pipeline Nat) : Prop
  | asked (held : Held f p) (pending : p.pendingSink = none) (flag : p.pendingDetach = true)
      (behind : Behind n p)
  | leaving (pass : p.pass = .swapping n .null) (sink : p.sink = some (.attached f))
      (pending : p.pendingSink = none) (flag : p.pendingDetach = false)
      (count : p.sinkChangeCount < n)
  | retiring (pass : p.pass = .swapped n) (sink : p.sink = some .null)
      (retired : p.retiredSink = some (.attached f)) (pending : p.pendingSink = none)
      (flag : p.pendingDetach = false) (count : p.sinkChangeCount < n)
  | acknowledged (clear : Clear p) (retired : p.retiredSink = some (.attached f))
      (count : p.sinkChangeCount = n)

/-- A pass that takes the flag of a detach has begun after the detach was numbered. -/
def Prompt (p : Pipeline Nat) : Prop :=
  match p.pass with
  | .taken seen _ => p.pendingDetach = true →
      p.caller ≠ .detached ∧ (p.caller = .idle → seen = p.sinkChangeRequests)
  | _ => True

section Passes

open SinkChange

variable {p : Pipeline Nat} {f n : Nat}

theorem Clear.next (h : Clear p) : Clear (processingStep p) ∧
    (processingStep p).sinkChangeCount = p.sinkChangeCount ∧
    (processingStep p).retiredSink = p.retiredSink := by
  obtain ⟨pending, flag, sink, empty⟩ := h
  cases pass : p.pass with
  | idle =>
    simp only [processingStep, pass]
    exact ⟨⟨pending, flag, sink, trivial⟩, by simp, by simp⟩
  | loaded seen =>
    simp only [processingStep, pass, pending]
    exact ⟨⟨rfl, flag, sink, trivial⟩, by simp, by simp⟩
  | taken seen incoming =>
    cases incoming with
    | none =>
      simp only [processingStep, pass, flag]
      exact ⟨⟨pending, rfl, sink, trivial⟩, by simp, by simp⟩
    | some g => simp [pass, Empty] at empty
  | swapping seen r => simp [pass, Empty] at empty
  | swapped seen => simp [pass, Empty] at empty

/-- A pass that does not take a flag brings the file along. -/
theorem Held.next (h : Held f p)
    (quiet : p.pendingDetach = true → ∀ seen incoming, p.pass ≠ .taken seen incoming) :
    Held f (processingStep p) ∧
      (processingStep p).pendingDetach = p.pendingDetach ∧
      (p.pendingSink = none → (processingStep p).pendingSink = none) := by
  have low : ∀ {seen incoming}, p.pass = .taken seen incoming → p.pendingDetach = false := by
    intro seen incoming pass
    by_contra up
    exact quiet (by simpa using up) seen incoming pass
  cases h with
  | waiting pending sink empty =>
    cases pass : p.pass with
    | idle =>
      simp only [processingStep, pass]
      exact ⟨.waiting pending sink trivial, by simp, by simp⟩
    | loaded seen =>
      simp only [processingStep, pass, pending]
      exact ⟨.taken seen rfl rfl sink, by simp, by simp⟩
    | taken seen incoming =>
      cases incoming with
      | none =>
        simp only [processingStep, pass, low pass]
        exact ⟨.waiting pending sink trivial, by simp, by simp⟩
      | some g => simp [pass, Empty] at empty
    | swapping seen r => simp [pass, Empty] at empty
    | swapped seen => simp [pass, Empty] at empty
  | taken seen pass pending sink =>
    simp only [processingStep, pass, low pass]
    exact ⟨.swapping seen rfl pending sink, by simp, by simp⟩
  | swapping seen pass pending sink =>
    simp only [processingStep, pass]
    exact ⟨.installed rfl pending (Or.inr ⟨seen, rfl⟩), by simp, by simp⟩
  | installed sink pending pass =>
    rcases pass with empty | ⟨seen, pass⟩
    · cases pass : p.pass with
      | idle =>
        simp only [processingStep, pass]
        exact ⟨.installed sink pending (Or.inl trivial), by simp, by simp⟩
      | loaded seen =>
        simp only [processingStep, pass, pending]
        exact ⟨.installed sink rfl (Or.inl trivial), by simp, by simp⟩
      | taken seen incoming =>
        cases incoming with
        | none =>
          simp only [processingStep, pass, low pass]
          exact ⟨.installed sink pending (Or.inl trivial), by simp, by simp⟩
        | some g => simp [pass, Empty] at empty
      | swapping seen r => simp [pass, Empty] at empty
      | swapped seen => simp [pass, Empty] at empty
    · simp only [processingStep, pass]
      exact ⟨.installed sink pending (Or.inl trivial), by simp, by simp⟩

theorem Bounded.next (h : Bounded p) : Bounded (processingStep p) := by
  obtain ⟨count, seen⟩ := h
  cases pass : p.pass with
  | taken s incoming =>
    simp only [pass] at seen
    simp only [processingStep, pass, Bounded]
    cases still : incoming.isNone && !p.pendingDetach with
    | true => exact ⟨count, trivial⟩
    | false => exact ⟨count, seen⟩
  | _ =>
    simp only [pass] at seen
    simp_all [processingStep, Bounded]

/-- While the detach is asked for, no swap but the one that takes it counts it. -/
theorem Behind.next (h : Behind n p)
    (quiet : ∀ seen incoming, p.pass ≠ .taken seen incoming) (pending : p.pendingSink = none) :
    Behind n (processingStep p) := by
  obtain ⟨count, seen⟩ := h
  cases pass : p.pass with
  | taken s incoming => exact absurd pass (quiet s incoming)
  | _ =>
    simp only [pass] at seen
    simp_all [processingStep, Behind]

theorem Detached.next (h : Detached f n p) (prompt : Prompt p) (idle : p.caller = .idle)
    (numbered : n = p.sinkChangeRequests) : Detached f n (processingStep p) := by
  cases h with
  | asked held pending flag behind =>
    by_cases taking : ∃ seen incoming, p.pass = .taken seen incoming
    · obtain ⟨seen, incoming, pass⟩ := taking
      have current : seen = n := by
        simp only [Prompt, pass] at prompt
        rw [numbered]
        exact (prompt flag).2 idle
      cases held with
      | waiting waits => simp [waits] at pending
      | taken seen' pass' =>
        obtain ⟨rfl, rfl⟩ : seen = seen' ∧ incoming = some f := by simpa [pass] using pass'
        have late := behind.2
        simp only [pass] at late
        omega
      | swapping seen' pass' => simp [pass] at pass'
      | installed sink _ empty =>
        cases incoming with
        | some g => simp [pass, Empty] at empty
        | none =>
          subst current
          simp only [processingStep, pass, flag]
          exact .leaving rfl sink pending rfl behind.1
    · simp only [not_exists] at taking
      obtain ⟨held', flag', pending'⟩ := held.next fun _ => taking
      exact .asked held' (pending' pending) (flag'.trans flag) (behind.next taking pending)
  | leaving pass sink pending flag count =>
    simp only [processingStep, pass, sink]
    exact .retiring rfl rfl rfl pending flag count
  | retiring pass sink retired pending flag count =>
    simp only [processingStep, pass]
    exact .acknowledged ⟨pending, flag, sink, trivial⟩ retired rfl
  | acknowledged clear retired count =>
    obtain ⟨clear', count', retired'⟩ := clear.next
    exact .acknowledged clear' (retired'.trans retired) (count'.trans count)

/-- What a step of the pipeline that is not the caller's leaves of the file in it. -/
structure Carried (p q : Pipeline Nat) : Prop where
  caller : q.caller = p.caller
  requests : q.sinkChangeRequests = p.sinkChangeRequests
  bounded : Bounded p → Bounded q
  clear : Clear p → Clear q ∧ q.retiredSink = p.retiredSink
  held : ∀ f, Held f p → (p.pendingDetach = true → p.caller = .detached) →
    Held f q ∧ q.pendingDetach = p.pendingDetach ∧ (p.pendingSink = none → q.pendingSink = none)
  detached : ∀ f n, Detached f n p → p.caller = .idle → n = p.sinkChangeRequests →
    Detached f n q

theorem Carried.refl (p : Pipeline Nat) : Carried p p := by
  constructor
  · rfl
  · rfl
  · exact fun h => h
  · exact fun h => ⟨h, rfl⟩
  · exact fun f h _ => ⟨h, rfl, fun none => none⟩
  · exact fun f n h _ _ => h

theorem processingStep_requests (p : Pipeline Nat) :
    (processingStep p).sinkChangeRequests = p.sinkChangeRequests := by
  cases pass : p.pass <;> simp [processingStep, pass]

theorem Carried.next (prompt : Prompt p) : Carried p (processingStep p) := by
  constructor
  · exact processingStep_caller p
  · exact processingStep_requests p
  · exact Bounded.next
  · intro clear
    exact ⟨clear.next.1, clear.next.2.2⟩
  · intro f held flagged
    apply held.next
    intro flag seen incoming pass
    simp only [Prompt, pass] at prompt
    exact (prompt flag).1 (flagged flag)
  · exact fun f n h idle numbered => h.next prompt idle numbered

/-! ## The calls -/

/-- Neither the place of the caller nor the numbers matter to a file on its way. -/
theorem Held.of_eq {q : Pipeline Nat} (h : Held f p) (pending : q.pendingSink = p.pendingSink)
    (sink : q.sink = p.sink) (pass : q.pass = p.pass) : Held f q := by
  cases h with
  | waiting pending' sink' pass' =>
    exact .waiting (pending.trans pending') (sink.trans sink') (pass ▸ pass')
  | taken seen pass' pending' sink' =>
    exact .taken seen (pass.trans pass') (pending.trans pending') (sink.trans sink')
  | swapping seen pass' pending' sink' =>
    exact .swapping seen (pass.trans pass') (pending.trans pending') (sink.trans sink')
  | installed sink' pending' pass' =>
    exact .installed (sink.trans sink') (pending.trans pending') (pass ▸ pass')

/-- The file that is in place is the one that is held. -/
theorem Held.attached {g : Nat} (h : Held f p) (sink : p.sink = some (.attached g)) : g = f := by
  cases h with
  | waiting _ null => simp [null] at sink
  | taken _ _ _ null => simp [null] at sink
  | swapping _ _ _ null => simp [null] at sink
  | installed sink' => simpa [sink'] using sink.symm

theorem Detached.attached {g : Nat} (h : Detached f n p) (sink : p.sink = some (.attached g)) :
    g = f := by
  cases h with
  | asked held => exact held.attached sink
  | leaving _ sink' => simpa [sink'] using sink.symm
  | retiring _ null => simp [null] at sink
  | acknowledged clear => simp [clear.sink] at sink

theorem Detached.counted (h : Detached f n p) (count : n ≤ p.sinkChangeCount) :
    Clear p ∧ p.retiredSink = some (.attached f) := by
  cases h with
  | asked _ _ _ behind => exact absurd behind.1 (by omega)
  | leaving _ _ _ _ below => omega
  | retiring _ _ _ _ _ below => omega
  | acknowledged clear retired => exact ⟨clear, retired⟩

/-- No request is numbered yet that a pass could have seen before it is made. -/
theorem Bounded.behind (h : Bounded p) : Behind (p.sinkChangeRequests + 1) p := by
  obtain ⟨count, seen⟩ := h
  refine ⟨by omega, ?_⟩
  cases pass : p.pass with
  | taken s incoming =>
    simp only [pass] at seen
    cases incoming with
    | none => trivial
    | some g => exact Nat.lt_succ_of_le seen
  | swapping s r =>
    simp only [pass] at seen
    exact Nat.lt_succ_of_le seen
  | swapped s =>
    simp only [pass] at seen
    exact Nat.lt_succ_of_le seen
  | _ => trivial

theorem Bounded.numbered (h : Bounded p) :
    Bounded { p with sinkChangeRequests := p.sinkChangeRequests + 1, caller := .idle } := by
  obtain ⟨count, seen⟩ := h
  refine ⟨Nat.le_succ_of_le count, ?_⟩
  cases pass : p.pass with
  | idle => trivial
  | _ =>
    simp only [pass] at seen
    exact Nat.le_succ_of_le seen

/-- Between two passes nothing holds a detach back: one complete pass counts it. -/
theorem Detached.collected (h : Detached f n p) (idle : p.caller = .idle)
    (numbered : n = p.sinkChangeRequests) (between : p.pass = .idle) {k : Nat} (positive : 0 < k)
    (complete : (processingStep^[k] p).pass = .idle) :
    n ≤ (processingStep^[k] p).sinkChangeCount := by
  have kept : Detached f n (processingStep^[k] p) ∧ Punctual (processingStep^[k] p) ∧
      n = (processingStep^[k] p).sinkChangeRequests := by
    clear complete positive
    induction k with
    | zero => exact ⟨h, ⟨idle, by simp [between]⟩, numbered⟩
    | succ k ih =>
      obtain ⟨detached, punctual, current⟩ := ih
      rw [Function.iterate_succ_apply']
      have prompt : Prompt (processingStep^[k] p) := by
        generalize processingStep^[k] p = q at punctual
        obtain ⟨alone, seen⟩ := punctual
        cases pass : q.pass <;> simp_all [Prompt]
      exact ⟨detached.next prompt punctual.1 current, punctual.processingStep,
        current.trans (processingStep_requests _).symm⟩
  obtain ⟨detached, -, -⟩ := kept
  obtain ⟨-, flag⟩ := cleared_of_pass between positive complete
  cases detached with
  | asked _ _ up => simp [flag] at up
  | leaving pass => simp [complete] at pass
  | retiring pass => simp [complete] at pass
  | acknowledged _ _ count => exact Nat.le_of_eq count.symm

end Passes

end CaptureBookkeeping
