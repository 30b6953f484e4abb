import Mathlib.Data.List.Infix

/-!
# Readers that return a source piece by piece

`read n` returns some of what is left, at most `n`, and says whether that was the last
of it. A reader that is faithful to what is left returns a source whole, in order and
once, whatever it is asked for, and comes to say that it has.
-/

namespace ChunkedReader

universe u v w

variable {σ : Type u} {α : Type v} {ε : Type w}

/-- What a call returns, and whether it says that nothing is left. -/
structure Answer (α : Type v) where
  chunk : List α
  ended : Bool
  deriving DecidableEq, Repr

/-- Calls for so many each, up to the first that fails. -/
def calls (read : Nat → σ → Except ε (Answer α × σ)) :
    List Nat → σ → Except ε (List (Answer α) × σ)
  | [], s => .ok ([], s)
  | n :: rest, s =>
    match read n s with
    | .error message => .error message
    | .ok (answer, t) =>
      match calls read rest t with
      | .error message => .error message
      | .ok (answers, u) => .ok (answer :: answers, u)

def returned (answers : List (Answer α)) : List α := answers.flatMap Answer.chunk

/-- A call that is asked for something succeeds, and returns the first of what is left;
it says that nothing is left only when that is so, and else returns something. -/
structure Faithful (read : Nat → σ → Except ε (Answer α × σ)) (Ok : σ → Prop)
    (left : σ → List α) : Prop where
  reads : ∀ {s n}, Ok s → 0 < n → ∃ answer t, read n s = .ok (answer, t) ∧ Ok t ∧
    left s = answer.chunk ++ left t ∧ (answer.ended = true → left t = []) ∧
    (answer.ended = false → answer.chunk ≠ [])

/-- What is returned is the source from its beginning, all of it when a call says so and
nothing after that, and some call does say so once there have been enough. -/
structure Whole (source : List α) (answers : List (Answer α)) : Prop where
  part : returned answers <+: source
  ends : ∀ before last after, answers = before ++ last :: after → last.ended = true →
    returned (before ++ [last]) = source ∧ ∀ later ∈ after, later.chunk = []
  comes : source.length < answers.length → ∃ answer ∈ answers, answer.ended = true

theorem returned_cons (answer : Answer α) (answers : List (Answer α)) :
    returned (answer :: answers) = answer.chunk ++ returned answers :=
  List.flatMap_cons

theorem whole_nil (source : List α) : Whole source [] := by
  constructor
  · exact List.nil_prefix
  · intro before last after none
    exact absurd none (by simp)
  · exact fun less => absurd less (Nat.not_lt_zero _)

theorem Whole.cons {source : List α} {answers : List (Answer α)} (h : Whole source answers)
    {answer : Answer α} (ended : answer.ended = true → source = [])
    (some : answer.ended = false → answer.chunk ≠ []) :
    Whole (answer.chunk ++ source) (answer :: answers) := by
  constructor
  · rw [returned_cons]
    exact (List.prefix_append_right_inj _).mpr h.part
  · intro before last after split final
    cases before with
    | nil =>
      obtain ⟨rfl, rfl⟩ : answer = last ∧ answers = after := by simpa using split
      have nothing := ended final
      refine ⟨by simp [returned, nothing], ?_⟩
      have none : returned answers = [] := List.prefix_nil.mp (nothing ▸ h.part)
      exact fun later among => List.flatMap_eq_nil_iff.mp none later among
    | cons first before =>
      obtain ⟨rfl, rest⟩ : answer = first ∧ answers = before ++ last :: after := by
        simpa using split
      obtain ⟨all, none⟩ := h.ends before last after rest final
      refine ⟨?_, none⟩
      rw [List.cons_append, returned_cons, all]
  · intro enough
    cases final : answer.ended with
    | true => exact ⟨answer, by simp, final⟩
    | false =>
      have one := List.length_pos_of_ne_nil (some final)
      rw [List.length_append, List.length_cons] at enough
      obtain ⟨later, among, last⟩ := h.comes (by omega)
      exact ⟨later, List.mem_cons_of_mem _ among, last⟩

/-- However a source is asked for, it is returned whole. -/
theorem Faithful.whole {read : Nat → σ → Except ε (Answer α × σ)} {Ok : σ → Prop}
    {left : σ → List α} (h : Faithful read Ok left) {s : σ} (ok : Ok s) {sizes : List Nat}
    (positive : ∀ n ∈ sizes, 0 < n) : ∃ answers t, calls read sizes s = .ok (answers, t) ∧
      answers.length = sizes.length ∧ Whole (left s) answers := by
  induction sizes generalizing s with
  | nil => exact ⟨[], s, rfl, rfl, whole_nil _⟩
  | cons n rest ih =>
    obtain ⟨answer, t, read, ok, left, ended, some⟩ := h.reads ok (positive n (by simp))
    obtain ⟨answers, u, later, length, whole⟩ := ih ok fun m among =>
      positive m (List.mem_cons_of_mem _ among)
    refine ⟨answer :: answers, u, ?_, by simp [length], ?_⟩
    · rw [calls, read]
      dsimp only
      rw [later]
    · rw [left]
      exact whole.cons ended some

end ChunkedReader
