import Mathlib.Data.BitVec
import Mathlib.Data.List.GetD
import Mathlib.Algebra.Order.Group.Nat

/-!
# Paged memories

A byte memory written in units: a page of an EEPROM is overwritten, a page of a
NOR flash is programmed (bytes are anded in) and a sector of it is erased. A
write that runs past the end of its page wraps to the start of the same page,
so staying inside one is a property to prove and not part of the definition.
`Appending` is the invariant of a writer that goes forwards through a flash and
erases each sector as it enters it; `EraseFirst` is what its command log shows.
-/

namespace PagedMemory

abbrev Memory := Nat → BitVec 8

def read (m : Memory) : Nat → Nat → List (BitVec 8)
  | _, 0 => []
  | a, n + 1 => m a :: read m (a + 1) n

/-- The position in the data of the byte that lands on cell `a` of the page. -/
def pageIndex (size start a : Nat) : Nat :=
  (a % size + (size - start % size)) % size

def overwrite (size : Nat) (m : Memory) (start : Nat) (data : List (BitVec 8)) : Memory :=
  fun a => if a / size = start / size then data.getD (pageIndex size start a) (m a) else m a

def program (size : Nat) (m : Memory) (start : Nat) (data : List (BitVec 8)) : Memory :=
  fun a => if a / size = start / size then
    m a &&& data.getD (pageIndex size start a) 0xFF else m a

def erase (size : Nat) (m : Memory) (start : Nat) : Memory :=
  fun a => if a / size = start / size then 0xFF else m a

/-- A write that failed part way: the unit it was aimed at holds anything. -/
def scramble (size : Nat) (m : Memory) (start : Nat) (leaves : Memory) : Memory :=
  fun a => if a / size = start / size then leaves a else m a

def unitBase (size a : Nat) : Nat := a - a % size

/-! ## Reading -/

@[simp] theorem read_zero (m : Memory) (a : Nat) : read m a 0 = [] := rfl

@[simp] theorem length_read (m : Memory) (a n : Nat) : (read m a n).length = n := by
  induction n generalizing a with
  | zero => rfl
  | succ n ih => simp [read, ih]

theorem read_add (m : Memory) (a n k : Nat) :
    read m a (n + k) = read m a n ++ read m (a + n) k := by
  induction n generalizing a with
  | zero => simp
  | succ n ih =>
    rw [show n + 1 + k = (n + k) + 1 by omega, read, read, ih (a + 1),
      show a + 1 + n = a + (n + 1) by omega]
    rfl

theorem read_congr {m m' : Memory} {a n : Nat}
    (same : ∀ i, i < n → m' (a + i) = m (a + i)) : read m' a n = read m a n := by
  induction n generalizing a with
  | zero => rfl
  | succ n ih =>
    have head : m' a = m a := by simpa using same 0 (by omega)
    have tail : read m' (a + 1) n = read m (a + 1) n := by
      apply ih
      intro i hi
      simpa [Nat.add_assoc, Nat.add_comm 1 i] using same (i + 1) (by omega)
    rw [read, read, head, tail]

theorem getElem_read (m : Memory) (a n i : Nat) (h : i < (read m a n).length) :
    (read m a n)[i] = m (a + i) := by
  induction n generalizing a i with
  | zero => simp at h
  | succ n ih =>
    cases i with
    | zero => rfl
    | succ i =>
      have hi : i < (read m (a + 1) n).length := by simpa [read] using h
      have := ih (a + 1) i hi
      simpa [read, Nat.add_assoc, Nat.add_comm 1 i] using this

/-- Bytes that a memory returns one by one are what a read of it returns. -/
theorem read_eq_of_getElem {m : Memory} {a : Nat} {data : List (BitVec 8)}
    (h : ∀ i (hi : i < data.length), m (a + i) = data[i]) :
    read m a data.length = data := by
  apply List.ext_getElem (by simp)
  intro i hi hd
  rw [getElem_read, h i hd]

/-! ## Units and the position of a byte in its page -/

theorem same_unit {size start k : Nat} (h : start % size + k < size) :
    (start + k) / size = start / size ∧ (start + k) % size = start % size + k := by
  have split : start + k = size * (start / size) + (start % size + k) := by
    rw [← Nat.add_assoc, Nat.div_add_mod]
  have hpos : 0 < size := by omega
  constructor
  · rw [split, Nat.mul_add_div hpos, Nat.div_eq_of_lt h, Nat.add_zero]
  · rw [split, Nat.mul_add_mod, Nat.mod_eq_of_lt h]

theorem unit_lt {size a b : Nat} (hb : b % size = 0) (h : a < b) : a / size < b / size := by
  rcases Nat.eq_zero_or_pos size with rfl | hpos
  · simp at hb; omega
  · have hmul : b = size * (b / size) := by
      have := Nat.div_add_mod b size; omega
    exact Nat.div_lt_of_lt_mul (by omega)

theorem unitBase_le (size a : Nat) : unitBase size a ≤ a := Nat.sub_le _ _

theorem unitBase_of_mod {size a : Nat} (h : a % size = 0) : unitBase size a = a := by
  simp [unitBase, h]

theorem unitBase_eq_of_unit {size a b : Nat} (h : a / size = b / size) :
    unitBase size a = unitBase size b := by
  unfold unitBase
  have ha := Nat.div_add_mod a size
  have hb := Nat.div_add_mod b size
  rw [h] at ha
  omega

/-- A cell of the page receives a byte exactly when it lies in the written span. -/
theorem pageIndex_lt_iff {size start n a : Nat} (fits : start % size + n ≤ size)
    (unit : a / size = start / size) :
    (pageIndex size start a < n ↔ start ≤ a ∧ a < start + n) ∧
      (start ≤ a → pageIndex size start a = a - start) := by
  rcases Nat.eq_zero_or_pos size with rfl | hpos
  · have hstart : start = 0 ∧ n = 0 := by simp at fits; omega
    obtain ⟨rfl, rfl⟩ := hstart
    simp [pageIndex]
  have ha := Nat.div_add_mod a size
  have hs := Nat.div_add_mod start size
  rw [unit] at ha
  have hlt := Nat.mod_lt a hpos
  by_cases above : start ≤ a
  · have index : pageIndex size start a = a - start := by
      unfold pageIndex
      rw [show a % size + (size - start % size) = size + (a - start) by omega,
        Nat.add_mod_left, Nat.mod_eq_of_lt (by omega)]
    rw [index]
    exact ⟨by omega, fun _ => rfl⟩
  · have index : pageIndex size start a = a % size + (size - start % size) := by
      unfold pageIndex
      exact Nat.mod_eq_of_lt (by omega)
    rw [index]
    exact ⟨by omega, fun h => absurd h above⟩

/-! ## What a write leaves alone and what it stores -/

section Frame

variable {size start a : Nat} {m : Memory}

theorem overwrite_outside (h : a / size ≠ start / size) (data : List (BitVec 8)) :
    overwrite size m start data a = m a := by
  simp [overwrite, h]

theorem program_outside (h : a / size ≠ start / size) (data : List (BitVec 8)) :
    program size m start data a = m a := by
  simp [program, h]

theorem erase_outside (h : a / size ≠ start / size) : erase size m start a = m a := by
  simp [erase, h]

theorem scramble_outside (h : a / size ≠ start / size) (leaves : Memory) :
    scramble size m start leaves a = m a := by
  simp [scramble, h]

theorem erase_inside (h : a / size = start / size) : erase size m start a = 0xFF := by
  simp [erase, h]

theorem program_unwritten {data : List (BitVec 8)} (fits : start % size + data.length ≤ size)
    (h : a < start ∨ start + data.length ≤ a) : program size m start data a = m a := by
  by_cases unit : a / size = start / size
  · have index := (pageIndex_lt_iff fits unit).1
    have beyond : data.length ≤ pageIndex size start a := by omega
    simp only [program, unit, if_true, List.getD_eq_default _ _ beyond]
    exact BitVec.and_allOnes (x := m a)
  · exact program_outside unit data

theorem program_written {data : List (BitVec 8)} (fits : start % size + data.length ≤ size)
    {k : Nat} (h : k < data.length) :
    program size m start data (start + k) = m (start + k) &&& data[k] := by
  have unit : (start + k) / size = start / size := (same_unit (by omega)).1
  have index := (pageIndex_lt_iff fits unit).2 (by omega)
  simp only [program, unit, if_true, index, Nat.add_sub_cancel_left]
  rw [List.getD_eq_getElem _ _ h]

theorem overwrite_written {data : List (BitVec 8)} (fits : start % size + data.length ≤ size)
    {k : Nat} (h : k < data.length) : overwrite size m start data (start + k) = data[k] := by
  have unit : (start + k) / size = start / size := (same_unit (by omega)).1
  have index := (pageIndex_lt_iff fits unit).2 (by omega)
  simp only [overwrite, unit, if_true, index, Nat.add_sub_cancel_left]
  rw [List.getD_eq_getElem _ _ h]

end Frame

/-! ## Writing forwards through a NOR flash -/

/-- A span inside one page stays in its sector. -/
theorem span_le_sector {page sector p n : Nat} (hpos : 0 < sector) (dvd : page ∣ sector)
    (fits : p % page + n ≤ page) : p % sector + n ≤ sector := by
  obtain ⟨q, rfl⟩ := dvd
  have hq : 0 < q := Nat.pos_of_mul_pos_left hpos
  have hmod : p % (page * q) = p % page + page * (p / page % q) := Nat.mod_mul
  have hlt : p / page % q + 1 ≤ q := Nat.mod_lt _ hq
  have := Nat.mul_le_mul_left page hlt
  rw [Nat.mul_add] at this
  omega

/-- It ends short of the sector's end unless the next byte opens the next sector. -/
theorem span_in_sector {page sector p n : Nat} (hpos : 0 < sector) (dvd : page ∣ sector)
    (fits : p % page + n ≤ page) (unaligned : (p + n) % sector ≠ 0) :
    p % sector + n < sector := by
  rcases Nat.lt_or_eq_of_le (span_le_sector hpos dvd fits) with lt | eq
  · exact lt
  · exfalso
    apply unaligned
    have := Nat.div_add_mod p sector
    rw [show p + n = sector * (p / sector + 1) by rw [Nat.mul_add, Nat.mul_one]; omega]
    exact Nat.mul_mod_right _ _

/-- The payload so far is stored and the rest of the sector it ends in is blank. -/
structure Appending (sector : Nat) (m : Memory) (base : Nat) (payload : List (BitVec 8)) :
    Prop where
  stored : read m base payload.length = payload
  blank : (base + payload.length) % sector ≠ 0 → ∀ a, base + payload.length ≤ a →
    a / sector = (base + payload.length) / sector → m a = 0xFF

/-- Entering a sector erases it, and only cells above the payload are in it. -/
theorem Appending.erase {sector base : Nat} {m : Memory} {payload : List (BitVec 8)}
    (h : Appending sector m base payload) (aligned : (base + payload.length) % sector = 0) :
    read (PagedMemory.erase sector m (base + payload.length)) base payload.length = payload := by
  rw [← h.stored]
  simp only [length_read]
  apply read_congr
  intro i hi
  exact erase_outside (Nat.ne_of_lt (unit_lt aligned (by omega)))

/-- One program command on the open sector, after the erase that opened it if any. -/
theorem Appending.program {page sector base : Nat} {m : Memory}
    {payload data : List (BitVec 8)} (hpos : 0 < sector) (dvd : page ∣ sector)
    (stored : read m base payload.length = payload)
    (blank : ∀ a, base + payload.length ≤ a →
      a / sector = (base + payload.length) / sector → m a = 0xFF)
    (fits : (base + payload.length) % page + data.length ≤ page) :
    Appending sector (PagedMemory.program page m (base + payload.length) data) base
      (payload ++ data) := by
  generalize hp : base + payload.length = p at *
  have room := span_le_sector hpos dvd fits
  refine ⟨?_, ?_⟩
  · rw [List.length_append, read_add, hp]
    congr 1
    · conv_rhs => rw [← stored]
      apply read_congr
      intro i hi
      exact program_unwritten fits (Or.inl (by omega))
    · apply read_eq_of_getElem
      intro i hi
      rw [program_written fits hi, blank (p + i) (by omega)
        (same_unit (by omega)).1]
      exact BitVec.allOnes_and
  · rw [List.length_append, ← Nat.add_assoc, hp]
    intro unaligned a above unit
    have strict := span_in_sector hpos dvd fits unaligned
    rw [program_unwritten fits (Or.inr above)]
    exact blank a (by omega) (unit.trans (same_unit strict).1)

theorem read_scramble_below {size base : Nat} {m leaves : Memory} {payload : List (BitVec 8)}
    (stored : read m base payload.length = payload) {p : Nat}
    (above : base + payload.length ≤ p) (aligned : p % size = 0) :
    read (scramble size m p leaves) base payload.length = payload := by
  conv_rhs => rw [← stored]
  apply read_congr
  intro i hi
  exact scramble_outside (Nat.ne_of_lt (unit_lt aligned (by omega))) _

/-! ## Command logs -/

inductive Command where
  | erase (start : Nat) (done : Bool)
  | program (start : Nat) (data : List (BitVec 8)) (done : Bool)
  deriving DecidableEq

def Command.start : Command → Nat
  | .erase start _ => start
  | .program start _ _ => start

/-- Every page is programmed after an erase of its sector and never erased later. -/
def EraseFirst (sector : Nat) (log : List Command) : Prop :=
  ∀ before start data done after, log = before ++ .program start data done :: after →
    .erase (unitBase sector start) true ∈ before ∧
      ∀ d, .erase (unitBase sector start) d ∉ after

/-- No command leaves its page, or the region `[low, high)`. -/
def Confined (page sector low high : Nat) (log : List Command) : Prop :=
  ∀ c ∈ log, match c with
    | .erase start _ => start % sector = 0 ∧ low ≤ start ∧ start + sector ≤ high
    | .program start data _ =>
        start % page + data.length ≤ page ∧ low ≤ start ∧ start + data.length ≤ high

/-- Every entry of `done` in order, each tried at least once and at most `bound` times. -/
inductive Retried {α : Type*} (bound : Nat) : List α → List α → Prop
  | nil : Retried bound [] []
  | snoc {done log} (entry : α) (tries : Nat) : Retried bound done log → 0 < tries →
      tries ≤ bound → Retried bound (done ++ [entry]) (log ++ List.replicate tries entry)

theorem EraseFirst.nil (sector : Nat) : EraseFirst sector [] := by
  intro before start data done after h
  simp at h

theorem EraseFirst.snoc_erase {sector start : Nat} {log : List Command} {done : Bool}
    (h : EraseFirst sector log)
    (fresh : ∀ s d b, .program s d b ∈ log → unitBase sector s ≠ start) :
    EraseFirst sector (log ++ [.erase start done]) := by
  intro before s data b after whole
  rcases List.eq_nil_or_concat after with rfl | ⟨init, last, rfl⟩
  · have := (List.append_inj' whole (by simp)).2
    simp at this
  · have parts : log ++ [Command.erase start done] =
        (before ++ .program s data b :: init) ++ [last] := by simpa using whole
    obtain ⟨hlog, hlast⟩ := List.append_inj' parts (by simp)
    have old := h before s data b init hlog
    refine ⟨old.1, ?_⟩
    intro d hd
    rw [List.concat_eq_append, List.mem_append] at hd
    rcases hd with hd | hd
    · exact old.2 d hd
    · have member : Command.program s data b ∈ log := by rw [hlog]; simp
      have : Command.erase (unitBase sector s) d = .erase start done := by
        simp at hlast hd
        rw [hd, hlast]
      exact fresh s data b member (by injection this)

theorem EraseFirst.snoc_program {sector start : Nat} {log : List Command}
    {data : List (BitVec 8)} {done : Bool} (h : EraseFirst sector log)
    (opened : .erase (unitBase sector start) true ∈ log) :
    EraseFirst sector (log ++ [.program start data done]) := by
  intro before s d b after whole
  rcases List.eq_nil_or_concat after with rfl | ⟨init, last, rfl⟩
  · obtain ⟨hlog, hlast⟩ := List.append_inj' whole (by simp)
    simp only [List.cons.injEq, Command.program.injEq, and_true] at hlast
    obtain ⟨rfl, rfl, rfl⟩ := hlast
    subst hlog
    exact ⟨opened, by simp⟩
  · have parts : log ++ [Command.program start data done] =
        (before ++ .program s d b :: init) ++ [last] := by simpa using whole
    obtain ⟨hlog, hlast⟩ := List.append_inj' parts (by simp)
    have old := h before s d b init hlog
    refine ⟨old.1, ?_⟩
    intro e he
    rw [List.concat_eq_append, List.mem_append] at he
    rcases he with he | he
    · exact old.2 e he
    · simp at hlast he
      rw [← hlast] at he
      cases he

theorem Confined.nil (page sector low high : Nat) : Confined page sector low high [] := by
  intro c hc
  simp at hc

theorem Confined.snoc {page sector low high : Nat} {log : List Command} {c : Command}
    (h : Confined page sector low high log) (one : Confined page sector low high [c]) :
    Confined page sector low high (log ++ [c]) := by
  intro d hd
  rcases List.mem_append.mp hd with hd | hd
  · exact h d hd
  · exact one d hd

/-! ## A writer that goes forwards and keeps a log -/

/-- What survives of the writer's work when a command fails. -/
structure Kept (page sector low high : Nat) (m : Memory) (log : List Command)
    (payload : List (BitVec 8)) : Prop where
  stored : read m low payload.length = payload
  eraseFirst : EraseFirst sector log
  confined : Confined page sector low high log

/-- The writer may go on: the payload is stored and the sector it stands in is open. -/
structure Forward (page sector low high : Nat) (m : Memory) (log : List Command)
    (payload : List (BitVec 8)) : Prop extends Kept page sector low high m log payload where
  blank : (low + payload.length) % sector ≠ 0 → ∀ a, low + payload.length ≤ a →
    a / sector = (low + payload.length) / sector → m a = 0xFF
  opened : (low + payload.length) % sector ≠ 0 →
    .erase (unitBase sector (low + payload.length)) true ∈ log
  behind : ∀ start data done, .program start data done ∈ log → start < low + payload.length

section Writer

variable {page sector low high : Nat} {m : Memory} {log : List Command}
  {payload : List (BitVec 8)}

theorem Forward.start (aligned : low % sector = 0) : Forward page sector low high m [] [] where
  stored := rfl
  eraseFirst := EraseFirst.nil sector
  confined := Confined.nil page sector low high
  blank := fun h => absurd (by simpa using aligned) h
  opened := fun h => absurd (by simpa using aligned) h
  behind := by simp

/-- The erase that opens the next sector, whether it works or not. -/
theorem Forward.erase (h : Forward page sector low high m log payload)
    (aligned : (low + payload.length) % sector = 0)
    (room : low + payload.length + sector ≤ high) (done : Bool) (leaves : Memory) :
    Kept page sector low high
      (if done then PagedMemory.erase sector m (low + payload.length)
        else scramble sector m (low + payload.length) leaves)
      (log ++ [.erase (low + payload.length) done]) payload where
  stored := by
    split
    · exact Appending.erase ⟨h.stored, h.blank⟩ aligned
    · exact read_scramble_below h.stored (Nat.le_refl _) aligned
  eraseFirst := by
    apply h.eraseFirst.snoc_erase
    intro start data b mem
    have := h.behind start data b mem
    have := unitBase_le sector start
    omega
  confined := h.confined.snoc (by
    intro c hc
    rw [List.mem_singleton] at hc
    subst hc
    exact ⟨aligned, Nat.le_add_right _ _, room⟩)

/-- The sector the writer stands in is blank from here on. -/
structure Opened (page sector low high : Nat) (m : Memory) (log : List Command)
    (payload : List (BitVec 8)) : Prop extends Kept page sector low high m log payload where
  blank : ∀ a, low + payload.length ≤ a →
    a / sector = (low + payload.length) / sector → m a = 0xFF
  opened : .erase (unitBase sector (low + payload.length)) true ∈ log
  behind : ∀ start data done, .program start data done ∈ log → start < low + payload.length

theorem Forward.inside (h : Forward page sector low high m log payload)
    (inside : (low + payload.length) % sector ≠ 0) :
    Opened page sector low high m log payload :=
  { h.toKept with blank := h.blank inside, opened := h.opened inside, behind := h.behind }

theorem Forward.entered (h : Forward page sector low high m log payload)
    (aligned : (low + payload.length) % sector = 0)
    (room : low + payload.length + sector ≤ high) :
    Opened page sector low high (PagedMemory.erase sector m (low + payload.length))
      (log ++ [.erase (low + payload.length) true]) payload :=
  { h.erase aligned room true m with
    blank := fun _ _ unit => erase_inside unit
    opened := by simp [unitBase_of_mod aligned]
    behind := fun start data done mem => h.behind start data done (by simpa using mem) }

theorem Opened.programmed {data : List (BitVec 8)}
    (h : Opened page sector low high m log payload) (hpos : 0 < sector) (dvd : page ∣ sector)
    (fits : (low + payload.length) % page + data.length ≤ page) (pos : 0 < data.length)
    (room : low + payload.length + data.length ≤ high) :
    Forward page sector low high (program page m (low + payload.length) data)
      (log ++ [.program (low + payload.length) data true]) (payload ++ data) := by
  have written := Appending.program hpos dvd h.stored h.blank fits
  refine ⟨⟨written.stored, h.eraseFirst.snoc_program h.opened, h.confined.snoc ?_⟩,
    written.blank, ?_, ?_⟩
  · intro c hc
    rw [List.mem_singleton] at hc
    subst hc
    exact ⟨fits, Nat.le_add_right _ _, room⟩
  · intro inside
    rw [List.length_append, ← Nat.add_assoc] at inside ⊢
    have unit := (same_unit (span_in_sector hpos dvd fits inside)).1
    rw [unitBase_eq_of_unit unit]
    exact List.mem_append_left _ h.opened
  · intro start d done mem
    rw [List.length_append]
    rcases List.mem_append.mp mem with old | new
    · have := h.behind start d done old
      omega
    · simp only [List.mem_singleton, Command.program.injEq] at new
      omega

theorem Opened.failed {data : List (BitVec 8)} {leaves : Memory}
    (h : Opened page sector low high m log payload)
    (aligned : (low + payload.length) % page = 0) (short : data.length ≤ page)
    (room : low + payload.length + data.length ≤ high) :
    Kept page sector low high (scramble page m (low + payload.length) leaves)
      (log ++ [.program (low + payload.length) data false]) payload where
  stored := read_scramble_below h.stored (Nat.le_refl _) aligned
  eraseFirst := h.eraseFirst.snoc_program h.opened
  confined := h.confined.snoc (by
    intro c hc
    rw [List.mem_singleton] at hc
    subst hc
    exact ⟨by omega, Nat.le_add_right _ _, room⟩)

/-- Somebody else's writes outside `[low, high)` do not matter. -/
theorem Kept.frame {m' : Memory} (h : Kept page sector low high m log payload)
    (within : low + payload.length ≤ high)
    (same : ∀ a, low ≤ a → a < high → m' a = m a) :
    Kept page sector low high m' log payload where
  stored := by
    conv_rhs => rw [← h.stored]
    apply read_congr
    intro i hi
    exact same (low + i) (by omega) (by omega)
  eraseFirst := h.eraseFirst
  confined := h.confined

theorem Forward.frame {m' : Memory} (h : Forward page sector low high m log payload)
    (aligned : high % sector = 0) (within : low + payload.length ≤ high)
    (same : ∀ a, low ≤ a → a < high → m' a = m a) :
    Forward page sector low high m' log payload :=
  { h.toKept.frame within same with
    blank := by
      intro inside a above unit
      have below : low + payload.length < high := by
        rcases Nat.lt_or_eq_of_le within with lt | eq
        · exact lt
        · rw [eq] at inside
          exact absurd aligned inside
      have inRange : a < high := by
        by_contra out
        have := unit_lt aligned below
        have := Nat.div_le_div_right (c := sector) (Nat.le_of_not_lt out)
        omega
      rw [same a (by omega) inRange]
      exact h.blank inside a above unit
    opened := h.opened
    behind := h.behind }

end Writer

end PagedMemory
