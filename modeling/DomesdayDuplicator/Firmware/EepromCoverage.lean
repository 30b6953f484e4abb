import DomesdayDuplicator.Firmware.EepromProgrammer

/-!
# What the EEPROM writer covers

The writes of a run tile the padded image, in whole pages and without leaving a slave, and a
run that succeeds has read every byte of it back from where it was written. The size of the
file is an `int` on the way: the file has to be one whose padded length leaves room for the
rounding.
-/

namespace EepromCoverage

open Attempts EepromProgrammer ProgrammerDownload Tiling UpdateProtocol

/-! ## What a run shows -/

/-- The slaves' addresses end to end. -/
def flat (slave address : BitVec 16) : Nat := slave.toNat * fx3I2cSlaveSize + address.toNat

def written : Event → Option (Piece Byte)
  | .write slave address data _ => some (flat slave address, data)
  | .read .. => none

/-- What was read, at its place. -/
def compared : Event → Option (Piece Byte)
  | .write .. => none
  | .read slave address _ _ data => some (flat slave address, data)

/-- A write that was taken, or a read of the image's bytes at that place. -/
def Good (image : List Byte) : Event → Prop
  | .write _ _ data r => r = data.length
  | .read slave address size r data =>
    r = size ∧ data = (image.drop (flat slave address)).take size

/-- The writes are pieces of the image from its start on, and all of it after a success; the
success is that every byte was read back from the place it was written to. -/
structure Covered (image : List Byte) (outcome : Outcome) (events : List Event) : Prop where
  tiled : ∃ left, Tiles 0 (events.filterMap written ++ left) image ∧
    (outcome = .returned 0 → left = [])
  once : outcome = .returned 0 → ∀ i < image.length,
    (events.filterMap written).countP (Piece.covers i) = 1
  sized : ∀ slave address data r, Event.write slave address data r ∈ events →
    data ≠ [] ∧ fx3I2cPageSize ∣ data.length ∧ data.length ≤ fx3MaxWriteSize ∧
      address.toNat + data.length ≤ fx3I2cSlaveSize
  slaves : ∃ count, fx3I2cSlaveCount image.length = some count ∧ (outcome = .returned 0 →
    ∀ slave, (∃ address data r, Event.write slave address data r ∈ events) ↔
      (slave.toNat : Int) < count)
  verified : outcome = .returned 0 ↔ ∀ e ∈ events, Good image e
  readBack : outcome = .returned 0 → Tiles 0 (events.filterMap compared) image

/-! ## The plan's transfers -/

/-- A transfer of the plan. -/
structure Placed (image : List Byte) (slave : Nat) (piece : Piece Byte) : Prop where
  nonempty : piece.2 ≠ []
  small : piece.2.length ≤ fx3MaxWriteSize
  pages : fx3I2cPageSize ∣ image.length → fx3I2cPageSize ∣ piece.2.length
  inSlave : piece.1 + piece.2.length ≤ fx3I2cSlaveSize
  inside : slave * fx3I2cSlaveSize + piece.1 + piece.2.length ≤ image.length
  bytes : piece.2 = (image.drop (slave * fx3I2cSlaveSize + piece.1)).take piece.2.length

section Plan

variable {image : List Byte} {slave : Nat} {piece part : Piece Byte} {step : Step}

theorem part_slave (member : part ∈ parts image) :
    part.1 / fx3I2cSlaveSize * fx3I2cSlaveSize = part.1 := by
  obtain ⟨k, starts⟩ := cut_starts member
  rw [starts, Nat.zero_add, Nat.mul_div_cancel _ (by decide)]

theorem parts_tile (image : List Byte) : Tiles 0 (parts image) image :=
  tiles_cut (by decide) le_rfl

theorem transfers_tile (bytes : List Byte) : Tiles 0 (transfers bytes) bytes :=
  tiles_cut (by decide) le_rfl

theorem placed_of_part (member : part ∈ parts image) (inner : piece ∈ transfers part.2) :
    Placed image (part.1 / fx3I2cSlaveSize) piece := by
  obtain ⟨-, small, units⟩ := cut_sized (by decide) member
  obtain ⟨nonempty, size, units'⟩ := cut_sized (by decide) inner
  obtain ⟨-, ends, bytes⟩ := (parts_tile image).slice member
  obtain ⟨-, ends', bytes'⟩ := (transfers_tile part.2).slice inner
  have own := part_slave member
  rw [Nat.sub_zero] at bytes bytes'
  constructor
  · exact nonempty
  · exact size
  · exact fun whole => units' _ (by decide) (units _ (by decide) whole)
  · omega
  · omega
  · rw [own, ← List.drop_drop]
    have within : piece.1 + piece.2.length ≤ part.2.length := by omega
    calc piece.2 = (part.2.drop piece.1).take piece.2.length := bytes'
      _ = (((image.drop part.1).take part.2.length).drop piece.1).take piece.2.length := by
        rw [← bytes]
      _ = ((image.drop part.1).drop piece.1).take piece.2.length := by
        rw [List.drop_take, List.take_take, Nat.min_eq_left (by omega)]

theorem write_placed (member : Step.write slave piece ∈ plan image) :
    Placed image slave piece := by
  obtain ⟨part, mine, step⟩ := List.mem_flatMap.mp member
  rw [slaveSteps, List.mem_append, List.mem_map, List.mem_map] at step
  rcases step with ⟨inner, there, same⟩ | ⟨inner, there, same⟩
  · cases same
    exact placed_of_part mine there
  · cases same

theorem verify_placed (member : Step.verify slave piece ∈ plan image) :
    Placed image slave piece := by
  obtain ⟨part, mine, step⟩ := List.mem_flatMap.mp member
  rw [slaveSteps, List.mem_append, List.mem_map, List.mem_map] at step
  rcases step with ⟨inner, there, same⟩ | ⟨inner, there, same⟩
  · cases same
  · cases same
    exact placed_of_part mine there

/-- What a step asks to be written, and what it expects to read. -/
def writes : Step → Option (Piece Byte)
  | .write slave piece => some (shift (slave * fx3I2cSlaveSize) piece)
  | .verify .. => none

def expects : Step → Option (Piece Byte)
  | .write .. => none
  | .verify slave piece => some (shift (slave * fx3I2cSlaveSize) piece)

theorem writes_slaveSteps (member : part ∈ parts image) :
    (slaveSteps part).filterMap writes = (transfers part.2).map (shift part.1) := by
  have none' : ((transfers part.2).map (Step.verify (part.1 / fx3I2cSlaveSize))).filterMap writes =
      [] := by
    rw [List.filterMap_map]
    exact List.filterMap_eq_nil_iff.mpr fun _ _ => rfl
  rw [slaveSteps, List.filterMap_append, none', List.append_nil, List.filterMap_map,
    ← List.filterMap_eq_map]
  refine List.filterMap_congr fun piece _ => ?_
  simp only [Function.comp_apply, writes, part_slave member]

theorem expects_slaveSteps (member : part ∈ parts image) :
    (slaveSteps part).filterMap expects = (transfers part.2).map (shift part.1) := by
  have none' : ((transfers part.2).map (Step.write (part.1 / fx3I2cSlaveSize))).filterMap expects =
      [] := by
    rw [List.filterMap_map]
    exact List.filterMap_eq_nil_iff.mpr fun _ _ => rfl
  rw [slaveSteps, List.filterMap_append, none', List.nil_append, List.filterMap_map,
    ← List.filterMap_eq_map]
  refine List.filterMap_congr fun piece _ => ?_
  simp only [Function.comp_apply, expects, part_slave member]

/-- What is asked of the slaves one after the other tiles the image. -/
theorem plan_tiles {asks : Step → Option (Piece Byte)}
    (own : ∀ part ∈ parts image,
      (slaveSteps part).filterMap asks = (transfers part.2).map (shift part.1)) :
    Tiles 0 ((plan image).filterMap asks) image := by
  rw [plan, List.filterMap_flatMap]
  refine (parts_tile image).flatMap fun part member => ?_
  rw [own part member]
  exact (transfers_tile part.2).shift part.1

/-- The fields of a request hold its slave and its address. -/
theorem Placed.flat (placed : Placed image slave piece) (small : image.length < 2 ^ 31) :
    (BitVec.ofNat 16 piece.1).toNat = piece.1 ∧
      flat (BitVec.ofNat 16 slave) (BitVec.ofNat 16 piece.1) =
        slave * fx3I2cSlaveSize + piece.1 := by
  have some := List.length_pos_iff.mpr placed.nonempty
  have room := placed.inSlave
  have inside := placed.inside
  simp only [EepromCoverage.flat, fx3I2cSlaveSize, BitVec.toNat_ofNat] at *
  rw [Nat.mod_eq_of_lt (by omega), Nat.mod_eq_of_lt (by omega)]
  exact ⟨rfl, rfl⟩

end Plan

/-! ## The run -/

/-- What a read is expected to give. -/
def expected (image : List Byte) : Event → Option (Piece Byte)
  | .write .. => none
  | .read slave address size _ _ =>
    some (flat slave address, (image.drop (flat slave address)).take size)

section Run

variable {device : FlashProgrammer} {image : List Byte} {step : Step}

theorem attempt_written (small : image.length < 2 ^ 31) (member : step ∈ plan image)
    (log : List Event) : written (attempt device log step).2 = writes step := by
  cases step with
  | write slave piece =>
    obtain ⟨-, place⟩ := (write_placed member).flat small
    simp only [attempt, written, writes, shift, place]
  | verify slave piece => rfl

theorem attempt_expected (small : image.length < 2 ^ 31) (member : step ∈ plan image)
    (log : List Event) : expected image (attempt device log step).2 = expects step := by
  cases step with
  | write slave piece => rfl
  | verify slave piece =>
    have placed := verify_placed member
    obtain ⟨-, place⟩ := placed.flat small
    simp only [attempt, expected, expects, shift, place]
    rw [← placed.bytes]

/-- A step succeeds when its event is good. -/
theorem attempt_good (small : image.length < 2 ^ 31) (member : step ∈ plan image)
    (log : List Event) :
    (attempt device log step).1 = true ↔ Good image (attempt device log step).2 := by
  cases step with
  | write slave piece => simp only [attempt, Good, decide_eq_true_eq]
  | verify slave piece =>
    have placed := verify_placed member
    obtain ⟨-, place⟩ := placed.flat small
    simp only [attempt, Good, decide_eq_true_eq, place]
    rw [← placed.bytes, eq_comm (a := piece.2)]

/-- A write of whole pages inside of a slave. -/
def Sized : Event → Prop
  | .write _ address data _ => data ≠ [] ∧ fx3I2cPageSize ∣ data.length ∧
      data.length ≤ fx3MaxWriteSize ∧ address.toNat + data.length ≤ fx3I2cSlaveSize
  | .read .. => True

theorem attempt_sized (small : image.length < 2 ^ 31) (pages : fx3I2cPageSize ∣ image.length)
    (member : step ∈ plan image) (log : List Event) : Sized (attempt device log step).2 := by
  cases step with
  | write slave piece =>
    have placed := write_placed member
    obtain ⟨address, -⟩ := placed.flat small
    simp only [attempt, Sized, address]
    exact ⟨placed.nonempty, placed.pages pages, placed.small, placed.inSlave⟩
  | verify slave piece => trivial

theorem slaveCount_some (fits : image.length + fx3I2cSlaveSize < 2 ^ 31) :
    fx3I2cSlaveCount image.length =
      some (((image.length + 65535) / fx3I2cSlaveSize : Nat) : Int) := by
  have rounded : (image.length : Int) + fx3I2cSlaveSize - 1 = ((image.length + 65535 : Nat) : Int) := by
    rw [fx3I2cSlaveSize]
    omega
  rw [fx3I2cSlaveCount, rounded, Int.natCast_ediv]
  by_cases none' : (image.length : Int) ≤ 0
  · have empty : image.length = 0 := by omega
    rw [if_pos none', empty]
    rfl
  · have room : ¬ (image.length : Int) + fx3I2cSlaveSize > intMax := by
      rw [intMax]
      omega
    rw [if_neg none', if_neg room]

/-- A slave is written to when the image reaches into it. -/
theorem slave_written {events : List Event} (tiles : Tiles 0 (events.filterMap written) image)
    (sized : ∀ e ∈ events, Sized e) (slave : BitVec 16) :
    (∃ address data r, Event.write slave address data r ∈ events) ↔
      slave.toNat * fx3I2cSlaveSize < image.length := by
  constructor
  · rintro ⟨address, data, r, member⟩
    have shown : (flat slave address, data) ∈ events.filterMap written :=
      List.mem_filterMap.mpr ⟨_, member, rfl⟩
    obtain ⟨-, ends, -⟩ := tiles.slice shown
    have some := List.length_pos_iff.mpr (sized _ member).left
    simp only [flat] at ends
    omega
  · intro reaches
    have one := tiles.once (Nat.zero_le _) (by rwa [Nat.zero_add])
    obtain ⟨piece, member, covers⟩ := List.countP_pos_iff.mp (by omega :
      0 < (events.filterMap written).countP (Piece.covers (slave.toNat * fx3I2cSlaveSize)))
    obtain ⟨e, there, shown⟩ := List.mem_filterMap.mp member
    cases e with
    | read => cases shown
    | write slave' address data r =>
      obtain rfl := Option.some.inj shown
      obtain ⟨-, -, -, room⟩ := sized _ there
      obtain ⟨low, high⟩ := Piece.covers_iff.mp covers
      have same : slave'.toNat = slave.toNat := by
        simp only [flat, fx3I2cSlaveSize] at low high room
        omega
      obtain rfl := BitVec.eq_of_toNat_eq same
      exact ⟨address, data, r, there⟩

/-- The writer covers an image of whole pages, whatever the flash programmer answers. -/
theorem covered (device : FlashProgrammer) (pages : fx3I2cPageSize ∣ image.length)
    (fits : image.length + fx3I2cSlaveSize < 2 ^ 31) :
    Covered image (.returned (programLoop device image image.length image.length 0 0 []).1)
      (programLoop device image image.length image.length 0 0 []).2 := by
  have small : image.length < 2 ^ 31 := by omega
  have went := program_went device image
  generalize programLoop device image image.length image.length 0 0 [] = out at went
  have success : Outcome.returned out.1 = .returned 0 ↔
      (perform (attempt device) [] (plan image)).1 = true := by
    rw [Outcome.returned.injEq]
    exact went.zero
  rw [went.log]
  obtain ⟨left, shown, complete⟩ := @perform_filterMap _ _ (attempt device) [] (plan image) _
    written writes fun log step member => attempt_written small member log
  have tiled : Tiles 0 ((plan image).filterMap writes) image :=
    plan_tiles fun part member => writes_slaveSteps member
  rw [List.filterMap_nil, List.nil_append] at shown
  rw [shown] at tiled
  have whole : Outcome.returned out.1 = .returned 0 →
      Tiles 0 ((perform (attempt device) [] (plan image)).2.filterMap written) image := by
    intro zero
    rwa [complete (success.mp zero), List.append_nil] at tiled
  have sized : ∀ e ∈ (perform (attempt device) [] (plan image)).2, Sized e :=
    perform_all nofun fun log step member => attempt_sized small pages member log
  have good : (perform (attempt device) [] (plan image)).1 = true ↔
      ∀ e ∈ (perform (attempt device) [] (plan image)).2, Good image e :=
    perform_ok_iff nofun fun log step member => attempt_good small member log
  constructor
  · exact ⟨left, tiled, fun zero => complete (success.mp zero)⟩
  · exact fun zero i inside => (whole zero).once (Nat.zero_le _) (by rwa [Nat.zero_add])
  · exact fun slave address data r member => sized _ member
  · refine ⟨_, slaveCount_some fits, fun zero slave => ?_⟩
    rw [slave_written (whole zero) sized, Int.ofNat_lt]
    simp only [fx3I2cSlaveSize]
    omega
  · exact success.trans good
  · intro zero
    obtain ⟨left', shown', complete'⟩ := @perform_filterMap _ _ (attempt device) [] (plan image) _
      (expected image) expects fun log step member => attempt_expected small member log
    have tiled' : Tiles 0 ((plan image).filterMap expects) image :=
      plan_tiles fun part member => expects_slaveSteps member
    rw [List.filterMap_nil, List.nil_append, complete' (success.mp zero), List.append_nil] at shown'
    rw [shown'] at tiled'
    have same : ∀ e ∈ (perform (attempt device) [] (plan image)).2,
        compared e = expected image e := by
      intro e member
      have fine := good.mp (success.mp zero) e member
      cases e with
      | write => rfl
      | read slave address size r data => rw [compared, expected, ← fine.right]
    rwa [List.filterMap_congr same]

end Run

/-! ## The file -/

/-- The image with zeros up to a whole page. -/
def padded (file : List Byte) : List Byte :=
  file ++ List.replicate ((file.length + 63) / fx3I2cPageSize * fx3I2cPageSize - file.length) 0

section File

variable {host : Host} {file : List Byte}

theorem length_padded (file : List Byte) :
    (padded file).length = (file.length + 63) / fx3I2cPageSize * fx3I2cPageSize := by
  rw [padded, List.length_append, List.length_replicate]
  simp only [fx3I2cPageSize]
  omega

end File

end EepromCoverage
