import Mathlib.Data.BitVec
import Mathlib.Data.List.GetD

/-!
# A memory with addresses that wrap

Runs of cells written one after the other into a memory that is addressed by words of a
fixed width: the last run that reaches a cell is the one it holds.
-/

namespace AddressSpace

universe u

variable {w : Nat} {α : Type u}

abbrev Store (w : Nat) (α : Type u) := BitVec w → α

def place (m : Store w α) (address : BitVec w) (data : List α) : Store w α :=
  fun x => data.getD (x - address).toNat (m x)

/-- A run, with where it goes. -/
abbrev Write (w : Nat) (α : Type u) := BitVec w × List α

def placeAll (m : Store w α) (writes : List (Write w α)) : Store w α :=
  writes.foldl (fun m write => place m write.1 write.2) m

def Write.covers (write : Write w α) (x : BitVec w) : Prop := (x - write.1).toNat < write.2.length

variable {m : Store w α} {address x : BitVec w} {data : List α}

@[simp] theorem place_nil : place m address [] = m := rfl

theorem place_else (outside : data.length ≤ (x - address).toNat) : place m address data x = m x :=
  List.getD_eq_default _ _ outside

theorem place_at {i : Nat} (fits : data.length ≤ 2 ^ w) (inside : i < data.length) (default : α) :
    place m address data (address + BitVec.ofNat w i) = data.getD i default := by
  have offset : (address + BitVec.ofNat w i - address).toNat = i := by
    rw [BitVec.add_comm, BitVec.add_sub_cancel, BitVec.toNat_ofNat, Nat.mod_eq_of_lt (by omega)]
  rw [place, offset, List.getD_eq_getElem _ _ inside, List.getD_eq_getElem _ _ inside]

/-- How far a cell is from a place further on. -/
theorem toNat_sub_add {n : Nat} (small : n ≤ 2 ^ w) :
    (x - (address + BitVec.ofNat w n)).toNat =
      if n ≤ (x - address).toNat then (x - address).toNat - n
      else (x - address).toNat + 2 ^ w - n := by
  have bound := (x - address).isLt
  have split : x - (address + BitVec.ofNat w n) = (x - address) - BitVec.ofNat w n := by
    rw [BitVec.sub_eq_add_neg, BitVec.neg_add, BitVec.sub_eq_add_neg, BitVec.sub_eq_add_neg,
      BitVec.sub_eq_add_neg, BitVec.add_assoc]
  rw [split, BitVec.toNat_sub, BitVec.toNat_ofNat]
  generalize (x - address).toNat = i at bound
  rcases Nat.lt_or_eq_of_le small with less | rfl
  · rw [Nat.mod_eq_of_lt less]
    split
    · rw [show 2 ^ w - n + i = (i - n) + 2 ^ w by omega, Nat.add_mod_right,
        Nat.mod_eq_of_lt (by omega)]
    · rw [Nat.mod_eq_of_lt (by omega)]
      omega
  · rw [Nat.mod_self, if_neg (by omega), Nat.sub_zero, Nat.add_mod_left, Nat.mod_eq_of_lt bound]
    omega

/-- Two runs end to end are one. -/
theorem place_append {more : List α} (fits : (data ++ more).length ≤ 2 ^ w) :
    place (place m address data) (address + BitVec.ofNat w data.length) more =
      place m address (data ++ more) := by
  rw [List.length_append] at fits
  funext x
  have far : (x - (address + BitVec.ofNat w data.length)).toNat =
      if data.length ≤ (x - address).toNat then (x - address).toNat - data.length
      else (x - address).toNat + 2 ^ w - data.length := toNat_sub_add (by omega)
  rw [place, place, place, far]
  by_cases later : data.length ≤ (x - address).toNat
  · rw [if_pos later, List.getD_append_right _ _ _ _ later, List.getD_eq_default data _ later]
  · rw [if_neg later, List.getD_append _ _ _ _ (by omega), List.getD_eq_default more _ (by omega)]

theorem placeAll_else {writes : List (Write w α)} (clear : ∀ write ∈ writes, ¬ write.covers x) :
    placeAll m writes x = m x := by
  induction writes generalizing m with
  | nil => rfl
  | cons first rest ih =>
    rw [placeAll, List.foldl_cons]
    refine (ih fun write later => clear write (List.mem_cons_of_mem _ later)).trans ?_
    exact place_else (Nat.le_of_not_lt (clear first (List.mem_cons_self ..)))

/-- A cell holds what the last run that reaches it put there. -/
theorem placeAll_last {early late : List (Write w α)} {i : Nat} (fits : data.length ≤ 2 ^ w)
    (inside : i < data.length) (default : α)
    (clear : ∀ write ∈ late, ¬ write.covers (address + BitVec.ofNat w i)) :
    placeAll m (early ++ (address, data) :: late) (address + BitVec.ofNat w i) =
      data.getD i default := by
  rw [placeAll, List.foldl_append, List.foldl_cons]
  exact (placeAll_else clear).trans (place_at fits inside default)

end AddressSpace
