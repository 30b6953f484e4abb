import Mathlib.Data.BitVec
import Mathlib.Data.List.GetD

/-!
# Fields of a block

Bytes at fixed offsets of a block. What a writer puts into one field a reader of
that field takes out, and a reader of another field does not see it.
-/

namespace ByteFields

abbrev Byte := BitVec 8

variable {block bytes : List Byte}

def field (block : List Byte) (offset size : Nat) : List Byte := (block.drop offset).take size

def put (offset : Nat) (bytes block : List Byte) : List Byte :=
  block.take offset ++ bytes ++ block.drop (offset + bytes.length)

@[simp] theorem length_put {offset : Nat} (fits : offset + bytes.length ≤ block.length) :
    (put offset bytes block).length = block.length := by
  simp [put]
  omega

theorem length_field {offset size : Nat} (fits : offset + size ≤ block.length) :
    (field block offset size).length = size := by
  simp [field]
  omega

/-- A field as wide as what was put there, or wider. -/
theorem field_put {offset size : Nat} (start : offset ≤ block.length)
    (wide : bytes.length ≤ size) :
    field (put offset bytes block) offset size =
      bytes ++ field block (offset + bytes.length) (size - bytes.length) := by
  have first : (block.take offset).length = offset := by simpa using start
  simp only [field, put, List.append_assoc]
  rw [List.drop_left' first, List.take_append, List.take_of_length_le wide]

theorem field_put_after {offset first size : Nat} (fits : offset + bytes.length ≤ block.length)
    (after : offset + bytes.length ≤ first) :
    field (put offset bytes block) first size = field block first size := by
  obtain ⟨k, rfl⟩ := Nat.exists_eq_add_of_le after
  have whole : (block.take offset ++ bytes).length = offset + bytes.length := by
    simp
    omega
  simp only [field, put]
  rw [← whole, List.drop_append, List.drop_of_length_le (by omega), List.nil_append,
    List.drop_drop, Nat.add_sub_cancel_left]

theorem field_put_before {offset first size : Nat} (fits : offset + bytes.length ≤ block.length)
    (before : first + size ≤ offset) :
    field (put offset bytes block) first size = field block first size := by
  have start : (block.take offset).length = offset := by
    simp
    omega
  have inside : size ≤ ((block.take offset).drop first).length := by
    simp
    omega
  simp only [field, put, List.append_assoc]
  rw [List.drop_append_of_le_length (by omega), List.take_append_of_le_length inside,
    List.drop_take, List.take_take, Nat.min_eq_left (by omega)]

theorem field_add (block : List Byte) (offset a b : Nat) :
    field block offset (a + b) = field block offset a ++ field block (offset + a) b := by
  simp [field, List.take_add]

theorem getD_eq_field (block : List Byte) (i : Nat) :
    block.getD i 0 = (field block i 1).getD 0 0 := by
  simp [field, List.getD_eq_getElem?_getD]

theorem field_append_left {offset size : Nat} (rest : List Byte)
    (inside : offset + size ≤ block.length) :
    field (block ++ rest) offset size = field block offset size := by
  have room : size ≤ (block.drop offset).length := by
    simp
    omega
  simp only [field]
  rw [List.drop_append_of_le_length (by omega), List.take_append_of_le_length room]

theorem field_append_right (block rest : List Byte) (offset size : Nat) :
    field (block ++ rest) (block.length + offset) size = field rest offset size := by
  have past : block.drop (block.length + offset) = [] := List.drop_of_length_le (by omega)
  simp [field, List.drop_append, past]

theorem field_replicate (n offset size : Nat) (fits : offset + size ≤ n) (b : Byte) :
    field (List.replicate n b) offset size = List.replicate size b := by
  simp [field]
  omega

/-! ## Several fields -/

def putAll (fields : List (Nat × List Byte)) (block : List Byte) : List Byte :=
  fields.foldl (fun block entry => put entry.1 entry.2 block) block

/-- The fields lie inside a block of this length. -/
def Fit (fields : List (Nat × List Byte)) (length : Nat) : Prop :=
  ∀ entry ∈ fields, entry.1 + entry.2.length ≤ length

/-- The fields lie outside the bytes from `first` on. -/
def Apart (fields : List (Nat × List Byte)) (first size : Nat) : Prop :=
  ∀ entry ∈ fields, first + size ≤ entry.1 ∨ entry.1 + entry.2.length ≤ first

variable {fields : List (Nat × List Byte)}

@[simp] theorem length_putAll (fit : Fit fields block.length) :
    (putAll fields block).length = block.length := by
  induction fields generalizing block with
  | nil => rfl
  | cons entry rest ih =>
    have here := length_put (fit entry (by simp))
    have there : Fit rest (put entry.1 entry.2 block).length := by
      intro other member
      rw [here]
      exact fit other (by simp [member])
    exact (ih there).trans here

theorem field_putAll_apart {first size : Nat} (fit : Fit fields block.length)
    (apart : Apart fields first size) :
    field (putAll fields block) first size = field block first size := by
  induction fields generalizing block with
  | nil => rfl
  | cons entry rest ih =>
    have inside := fit entry (by simp)
    have there : Fit rest (put entry.1 entry.2 block).length := by
      intro other member
      rw [length_put inside]
      exact fit other (by simp [member])
    have later := ih there fun other member => apart other (by simp [member])
    rcases apart entry (by simp) with before | after
    · exact later.trans (field_put_before inside before)
    · exact later.trans (field_put_after inside after)

/-- The first entry in a field that is wider than it. -/
theorem field_putAll_first {offset size : Nat} (fit : Fit ((offset, bytes) :: fields) block.length)
    (wide : bytes.length ≤ size) (apart : Apart fields offset size) :
    field (putAll ((offset, bytes) :: fields) block) offset size =
      bytes ++ field block (offset + bytes.length) (size - bytes.length) := by
  have inside : offset + bytes.length ≤ block.length := fit (offset, bytes) (by simp)
  have rest : Fit fields (put offset bytes block).length := by
    intro other member
    rw [length_put inside]
    exact fit other (by simp [member])
  have parts : putAll ((offset, bytes) :: fields) block =
      putAll fields (put offset bytes block) := rfl
  rw [parts, field_putAll_apart rest apart, field_put (by omega) wide]

/-- What was put into one field, where no later field lies over it. -/
theorem field_putAll {k offset : Nat} (fit : Fit fields block.length)
    (entry : fields[k]? = some (offset, bytes))
    (apart : Apart (fields.drop (k + 1)) offset bytes.length) :
    field (putAll fields block) offset bytes.length = bytes := by
  have bound := (List.getElem?_eq_some_iff.mp entry).choose
  have split : fields = fields.take k ++ (offset, bytes) :: fields.drop (k + 1) := by
    rw [← (List.getElem?_eq_some_iff.mp entry).choose_spec, List.getElem_cons_drop,
      List.take_append_drop]
  have first : Fit (fields.take k) block.length := fun other member =>
    fit other (List.mem_of_mem_take member)
  have inside : offset + bytes.length ≤ (putAll (fields.take k) block).length := by
    rw [length_putAll first]
    exact fit (offset, bytes) (List.mem_of_getElem? entry)
  have rest : Fit (fields.drop (k + 1)) (put offset bytes (putAll (fields.take k) block)).length := by
    intro other member
    rw [length_put inside, length_putAll first]
    exact fit other (List.mem_of_mem_drop member)
  have parts : putAll fields block =
      putAll (fields.drop (k + 1)) (put offset bytes (putAll (fields.take k) block)) := by
    conv => lhs; rw [split]
    simp [putAll]
  rw [parts, field_putAll_apart rest apart, field_put (by omega) (Nat.le_refl _)]
  simp [field]

end ByteFields
