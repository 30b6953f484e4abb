import Mathlib.Data.List.Basic

/-!
# Blocks marked in a bit map

A row of units with a bit for each. A block sets the bits of all its units but the last, so
that its end can be read off the map without a table of lengths: the next clear bit is its
last unit. A block is placed behind a clear bit. `Scanned` is the invariant of a search that
counts clear bits forwards until it has enough of them.
-/

namespace MarkedBlocks

abbrev Bits := Nat → Bool

structure Block where
  start : Nat
  units : Nat
  deriving DecidableEq, Repr

def Block.Covers (b : Block) (i : Nat) : Prop := b.start ≤ i ∧ i < b.start + b.units

/-- Every unit but the last. -/
def Block.Marks (b : Block) (i : Nat) : Prop := b.start ≤ i ∧ i + 1 < b.start + b.units

def Apart (b c : Block) : Prop := ∀ i, b.Covers i → ¬ c.Covers i

def Clear (bits : Bits) (first count : Nat) : Prop :=
  ∀ i, first ≤ i → i < first + count → bits i = false

def mark (bits : Bits) (first count : Nat) (value : Bool) : Bits :=
  fun i => if first ≤ i ∧ i < first + count then value else bits i

/-- The map shows these blocks and nothing else. -/
structure Represents (size : Nat) (bits : Bits) (blocks : List Block) : Prop where
  placed : ∀ b ∈ blocks, 0 < b.start ∧ 2 ≤ b.units ∧ b.start + b.units ≤ size
  apart : blocks.Pairwise Apart
  marked : ∀ i, bits i = true ↔ ∃ b ∈ blocks, b.Marks i

variable {size : Nat} {bits : Bits} {blocks before after : List Block} {b c : Block}

theorem Apart.symm (h : Apart b c) : Apart c b :=
  fun i there here => h i here there

theorem Block.Marks.covers {i : Nat} (h : b.Marks i) : b.Covers i := by
  refine ⟨h.1, ?_⟩
  have := h.2
  omega

/-- A unit of a block is its last one or carries its mark. -/
theorem Block.Covers.last_or_marks {i : Nat} (h : b.Covers i) :
    i + 1 = b.start + b.units ∨ b.Marks i := by
  obtain ⟨starts, ends⟩ := h
  by_cases last : i + 1 = b.start + b.units
  · exact Or.inl last
  · exact Or.inr ⟨starts, by omega⟩

theorem represents_nil (empty : ∀ i, bits i = false) : Represents size bits [] where
  placed := nofun
  apart := .nil
  marked := fun i => by simp [empty i]

theorem Represents.clear_iff (h : Represents size bits blocks) {i : Nat} :
    bits i = false ↔ ∀ b ∈ blocks, ¬ b.Marks i := by
  rw [← Bool.not_eq_true, h.marked]
  simp

/-! ## Placing and taking away -/

/-- Behind a clear bit, on clear bits. -/
theorem Represents.place (h : Represents size bits blocks) {gap units : Nat}
    (clear : Clear bits gap (units + 1)) (enough : 2 ≤ units) (fits : gap + units < size) :
    Represents size (mark bits (gap + 1) (units - 1) true) (⟨gap + 1, units⟩ :: blocks) where
  placed := by
    intro b member
    rcases List.mem_cons.mp member with rfl | old
    · exact ⟨Nat.succ_pos _, enough, by dsimp only; omega⟩
    · exact h.placed b old
  apart := by
    refine List.pairwise_cons.mpr ⟨fun b old i here there => ?_, h.apart⟩
    obtain ⟨-, sized, -⟩ := h.placed b old
    obtain ⟨starts, ends⟩ : gap + 1 ≤ i ∧ i < gap + 1 + units := here
    -- an old block has no mark here, so this would be its last unit, with a mark before it
    rcases there.last_or_marks with last | marks
    · have marks : b.Marks (i - 1) := ⟨by omega, by omega⟩
      have set := (h.marked (i - 1)).mpr ⟨b, old, marks⟩
      rw [clear (i - 1) (by omega) (by omega)] at set
      cases set
    · have set := (h.marked i).mpr ⟨b, old, marks⟩
      rw [clear i (by omega) (by omega)] at set
      cases set
  marked := by
    intro i
    by_cases inside : gap + 1 ≤ i ∧ i < gap + 1 + (units - 1)
    · rw [mark, if_pos inside]
      have marks : (⟨gap + 1, units⟩ : Block).Marks i := ⟨inside.1, by dsimp only; omega⟩
      exact ⟨fun _ => ⟨_, List.mem_cons_self .., marks⟩, fun _ => rfl⟩
    · rw [mark, if_neg inside, h.marked]
      constructor
      · rintro ⟨b, old, marks⟩
        exact ⟨b, List.mem_cons_of_mem _ old, marks⟩
      · rintro ⟨b, member, marks⟩
        rcases List.mem_cons.mp member with rfl | old
        · obtain ⟨starts, ends⟩ : gap + 1 ≤ i ∧ i + 1 < gap + 1 + units := marks
          exact absurd ⟨starts, by omega⟩ inside
        · exact ⟨b, old, marks⟩

theorem Represents.apart_rest (h : Represents size bits (before ++ b :: after)) :
    ∀ c ∈ before ++ after, Apart b c := by
  obtain ⟨-, ordered, across⟩ := List.pairwise_append.mp h.apart
  intro c member
  rcases List.mem_append.mp member with early | late
  · exact (across c early b (List.mem_cons_self ..)).symm
  · exact (List.pairwise_cons.mp ordered).1 c late

theorem mem_rest {α : Type} {before after : List α} {b c : α} (member : c ∈ before ++ after) :
    c ∈ before ++ b :: after := by
  rcases List.mem_append.mp member with early | late
  · exact List.mem_append_left _ early
  · exact List.mem_append_right _ (List.mem_cons_of_mem _ late)

/-- The end of a block can be read off the map. -/
theorem Represents.ends (h : Represents size bits (before ++ b :: after)) :
    (∀ i, b.start ≤ i → i < b.start + (b.units - 1) → bits i = true) ∧
      bits (b.start + (b.units - 1)) = false := by
  have member : b ∈ before ++ b :: after := by simp
  obtain ⟨-, sized, -⟩ := h.placed b member
  constructor
  · intro i starts ends
    exact (h.marked i).mpr ⟨b, member, starts, by omega⟩
  · rw [h.clear_iff]
    intro c there marks
    rcases List.mem_append.mp there with early | late
    · exact h.apart_rest c (List.mem_append_left _ early) _ ⟨by omega, by omega⟩ marks.covers
    · rcases List.mem_cons.mp late with rfl | late
      · have := marks.2
        omega
      · exact h.apart_rest c (List.mem_append_right _ late) _ ⟨by omega, by omega⟩ marks.covers

theorem Represents.remove (h : Represents size bits (before ++ b :: after)) :
    Represents size (mark bits b.start (b.units - 1) false) (before ++ after) where
  placed := fun c member => h.placed c (mem_rest member)
  apart := h.apart.sublist (List.Sublist.append_left (List.sublist_cons_self _ _) _)
  marked := by
    intro i
    by_cases inside : b.start ≤ i ∧ i < b.start + (b.units - 1)
    · rw [mark, if_pos inside]
      refine ⟨nofun, ?_⟩
      rintro ⟨c, member, marks⟩
      exact absurd marks.covers (h.apart_rest c member i ⟨inside.1, by omega⟩)
    · rw [mark, if_neg inside, h.marked]
      constructor
      · rintro ⟨c, member, marks⟩
        rcases List.mem_append.mp member with early | late
        · exact ⟨c, List.mem_append_left _ early, marks⟩
        · rcases List.mem_cons.mp late with rfl | late
          · exact absurd ⟨marks.1, by have := marks.2; omega⟩ inside
          · exact ⟨c, List.mem_append_right _ late, marks⟩
      · rintro ⟨c, member, marks⟩
        exact ⟨c, mem_rest member, marks⟩

/-- The bit a block was placed behind stays clear, and so there is room for the block again. -/
theorem Represents.room (h : Represents size bits (before ++ b :: after)) :
    Clear (mark bits b.start (b.units - 1) false) (b.start - 1) (b.units + 1) := by
  obtain ⟨positive, sized, -⟩ := h.placed b (by simp)
  intro i starts ends
  rw [mark]
  split
  · rfl
  · rename_i outside
    by_cases last : i = b.start + (b.units - 1)
    · rw [last, h.ends.2]
    · rw [h.clear_iff]
      intro c there marks
      have there_too : c.Covers b.start := ⟨by have := marks.1; omega, by have := marks.2; omega⟩
      rcases List.mem_append.mp there with early | late
      · exact h.apart_rest c (List.mem_append_left _ early) _ ⟨Nat.le_refl _, by omega⟩ there_too
      · rcases List.mem_cons.mp late with rfl | late
        · have := marks.1
          omega
        · exact h.apart_rest c (List.mem_append_right _ late) _ ⟨Nat.le_refl _, by omega⟩ there_too

/-! ## Searching forwards -/

/-- The bits from `low` up to `here` have been looked at; the last `count` of them are clear,
and no run of more than `short` of them was. -/
structure Scanned (bits : Bits) (low here count short : Nat) : Prop where
  within : low + count ≤ here
  clear : Clear bits (here - count) count
  edge : low + count = here ∨ bits (here - count - 1) = true
  fewer : count ≤ short
  none : ∀ gap, low ≤ gap → gap + short < here → ¬ Clear bits gap (short + 1)

variable {low here count short : Nat}

theorem scanned_start : Scanned bits low low 0 short where
  within := Nat.le_refl _
  clear := fun i starts ends => by omega
  edge := Or.inl rfl
  fewer := Nat.zero_le _
  none := fun gap starts ends => by omega

theorem Scanned.skip (h : Scanned bits low here count short) (set : bits here = true) :
    Scanned bits low (here + 1) 0 short where
  within := by have := h.within; omega
  clear := fun i starts ends => by omega
  edge := Or.inr (by simpa using set)
  fewer := Nat.zero_le _
  none := by
    intro gap starts ends clear
    by_cases later : gap + short = here
    · have none := clear here (by omega) (by omega)
      rw [set] at none
      cases none
    · exact h.none gap starts (by omega) clear

theorem Scanned.grown (h : Scanned bits low here count short) (none : bits here = false) :
    Clear bits (here - count) (count + 1) := by
  have := h.within
  intro i starts ends
  by_cases last : i = here
  · rw [last, none]
  · exact h.clear i starts (by omega)

theorem Scanned.grow (h : Scanned bits low here count short) (none : bits here = false)
    (still : count < short) : Scanned bits low (here + 1) (count + 1) short where
  within := by have := h.within; omega
  clear := by
    rw [Nat.add_sub_add_right]
    exact h.grown none
  edge := by
    rw [Nat.add_sub_add_right]
    exact h.edge.imp (fun at_low => by omega) id
  fewer := still
  none := by
    intro gap starts ends clear
    by_cases later : gap + short = here
    · -- the run would reach back past the edge of the one that is counted
      rcases h.edge with at_low | set
      · omega
      · have := h.within
        have none := clear (here - count - 1) (by omega) (by omega)
        rw [set] at none
        cases none
    · exact h.none gap starts (by omega) clear

end MarkedBlocks
