import DomesdayDuplicator.Capture.TransferLayout
import Mathlib.Data.Nat.ModEq

/-!
# Planning the ring and its transfers

`DiskBufferRing::PlanGeometry` and `PlanTransferLayout` once more, in the sizes the
machine computes with. Where the layout is accepted nothing wraps: it is the layout of
exact arithmetic, and its divisions come out.
-/

namespace GeometryPlan

open TransferLayout

/-! ## Sizes -/

def stdMax (a b : UInt64) : UInt64 := if a < b then b else a
def stdMin (a b : UInt64) : UInt64 := if b < a then b else a

def stdClamp (v lo hi : UInt64) : UInt64 := if v < lo then lo else if hi < v then hi else v

theorem toNat_stdMax (a b : UInt64) : (stdMax a b).toNat = max a.toNat b.toNat := by
  rw [stdMax]
  split
  · rename_i h
    exact (max_eq_right (Nat.le_of_lt (UInt64.lt_iff_toNat_lt.mp h))).symm
  · rename_i h
    exact (max_eq_left (Nat.le_of_not_lt (mt UInt64.lt_iff_toNat_lt.mpr h))).symm

theorem toNat_stdMin (a b : UInt64) : (stdMin a b).toNat = min a.toNat b.toNat := by
  rw [stdMin]
  split
  · rename_i h
    exact (min_eq_right (Nat.le_of_lt (UInt64.lt_iff_toNat_lt.mp h))).symm
  · rename_i h
    exact (min_eq_left (Nat.le_of_not_lt (mt UInt64.lt_iff_toNat_lt.mpr h))).symm

theorem toNat_add_exact {a b : UInt64} (h : a.toNat + b.toNat < 2 ^ 64) :
    (a + b).toNat = a.toNat + b.toNat := by
  rw [UInt64.toNat_add, Nat.mod_eq_of_lt h]

theorem toNat_mul_exact {a b : UInt64} (h : a.toNat * b.toNat < 2 ^ 64) :
    (a * b).toNat = a.toNat * b.toNat := by
  rw [UInt64.toNat_mul, Nat.mod_eq_of_lt h]

theorem toNat_sub_exact {a b : UInt64} (h : b.toNat ≤ a.toNat) :
    (a - b).toNat = a.toNat - b.toNat := by
  rw [UInt64.toNat_sub_of_le a b (UInt64.le_iff_toNat_le.mpr h)]

/-! ## The ring -/

structure Geometry where
  slotSizeBytes : UInt64
  slotCount : UInt64

def kMinimumQueueSizeBytes : UInt64 := 64 * 1048576
def kMaximumQueueSizeBytes : UInt64 := 512 * 1048576
def kTargetSlotSizeBytes : UInt64 := 2 * 1048576

/-- `PlanGeometry` for any size a slot is aimed at. -/
def planGeometryFor (targetSlotSizeBytes queueSizeBytes endpointMaxPacketBytes : UInt64) :
    Geometry :=
  let clampedQueue := stdClamp queueSizeBytes kMinimumQueueSizeBytes kMaximumQueueSizeBytes
  let slotSizeBytes :=
    if endpointMaxPacketBytes = 0 then targetSlotSizeBytes
    else
      let rounded := targetSlotSizeBytes / endpointMaxPacketBytes * endpointMaxPacketBytes
      if rounded = 0 then endpointMaxPacketBytes else rounded
  { slotSizeBytes, slotCount := stdMax (clampedQueue / slotSizeBytes) 3 }

def planGeometry (queueSizeBytes endpointMaxPacketBytes : UInt64) : Geometry :=
  planGeometryFor kTargetSlotSizeBytes queueSizeBytes endpointMaxPacketBytes

/-! ## The layout -/

structure Options where
  smallTransfers : Bool
  transferQueueBytes : UInt64
  discardSlots : UInt64

def Options.exact (o : Options) : UsbSourceOptions :=
  ⟨o.smallTransfers, o.transferQueueBytes.toNat, o.discardSlots.toNat⟩

def kSmallTransferBytes : UInt64 := 128 * 1024

/-- The loop, for as many turns as are allowed. -/
def nudgeTurns (packetsPerSlot : UInt64) : Nat → UInt64 → Option UInt64
  | 0, _ => none
  | turns + 1, transfersPerSlot =>
    if packetsPerSlot % transfersPerSlot = 0 then some transfersPerSlot
    else nudgeTurns packetsPerSlot turns (transfersPerSlot + 1)

/-- The fields once the transfers of a slot are known. -/
def finishLayout (slotCount transferBytes transfersPerSlot slotSpan wantedDiscard : UInt64) :
    Layout :=
  let discardSlots := stdMin wantedDiscard slotCount
  { transferBytes := transferBytes.toNat
    transfersPerSlot := transfersPerSlot.toNat
    slotSpan := slotSpan.toNat
    transferCount := (transfersPerSlot * slotSpan).toNat
    firstSlotIndex := ((slotCount - discardSlots) % slotCount).toNat
    discardTransfers := (discardSlots * transfersPerSlot).toNat
    discardSlots := discardSlots.toNat
    valid := true }

/-- `PlanTransferLayout`; nothing comes back if its loop takes more turns than that. -/
def planSizes (turns : Nat) (slotBytes slotCount endpointMaxPacketBytes : UInt64) (o : Options) :
    Option Layout :=
  if endpointMaxPacketBytes = 0 then
    some { problem := "the device reported no endpoint packet size" }
  else if slotBytes = 0 ∨ slotBytes % endpointMaxPacketBytes ≠ 0 then
    some { problem := "the buffer size is not a whole number of endpoint packets" }
  else if slotCount < 4 then
    some { problem := "the buffer queue is too small to stream from" }
  else
    let packetsPerSlot := slotBytes / endpointMaxPacketBytes
    if o.smallTransfers then
      let targetPackets := stdMax 1 (kSmallTransferBytes / endpointMaxPacketBytes)
      let atLeast := stdMax 1 ((packetsPerSlot + targetPackets - 1) / targetPackets)
      match nudgeTurns packetsPerSlot turns atLeast with
      | none => none
      | some transfersPerSlot =>
        let queueSpan := stdMax 1 (o.transferQueueBytes / slotBytes)
        some (finishLayout slotCount (packetsPerSlot / transfersPerSlot * endpointMaxPacketBytes)
          transfersPerSlot (stdMin queueSpan (slotCount - 2)) o.discardSlots)
    else some (finishLayout slotCount slotBytes 1 (slotCount - 1) o.discardSlots)

/-! ## No size wraps -/

theorem toNat_eq_zero {a : UInt64} : a = 0 ↔ a.toNat = 0 := UInt64.toNat_inj.symm

/-- The loop is over after as many turns as there are packets, on the divisor it is after. -/
theorem nudgeTurns_exact {packets transfers : UInt64} (turns fuel : Nat)
    (positive : 0 < transfers.toNat) (below : transfers.toNat ≤ packets.toNat)
    (enough : packets.toNat < transfers.toNat + turns)
    (same : packets.toNat ≤ transfers.toNat + fuel) :
    ∃ k, nudgeTurns packets turns transfers = some k ∧
      k.toNat = nudge packets.toNat fuel transfers.toNat := by
  induction turns generalizing transfers fuel with
  | zero => omega
  | succ turns ih =>
    have test : packets % transfers = 0 ↔ packets.toNat % transfers.toNat = 0 := by
      rw [toNat_eq_zero, UInt64.toNat_mod]
    by_cases divides : packets.toNat % transfers.toNat = 0
    · refine ⟨transfers, if_pos (test.mpr divides), ?_⟩
      cases fuel with
      | zero => rfl
      | succ fuel => exact (if_pos divides).symm
    · have short : transfers.toNat ≠ packets.toNat := by
        intro whole
        rw [whole] at divides
        exact divides (Nat.mod_self _)
      have next : (transfers + 1).toNat = transfers.toNat + 1 :=
        toNat_add_exact (show transfers.toNat + 1 < 2 ^ 64 from
          Nat.lt_of_le_of_lt (by omega) packets.toNat_lt)
      cases fuel with
      | zero => omega
      | succ fuel =>
        have one : 0 < (transfers + 1).toNat := by omega
        obtain ⟨k, found, exact'⟩ := ih fuel one (by omega) (by omega) (by omega)
        refine ⟨k, (if_neg (mt test.mp divides)).trans found, ?_⟩
        rw [exact', next]
        exact (if_neg divides).symm

theorem finishLayout_exact {slotCount transferBytes transfersPerSlot slotSpan discard : UInt64}
    (spare : slotSpan.toNat ≤ slotCount.toNat)
    (fits : transfersPerSlot.toNat * slotCount.toNat < 2 ^ 64) :
    finishLayout slotCount transferBytes transfersPerSlot slotSpan discard =
      { transferBytes := transferBytes.toNat
        transfersPerSlot := transfersPerSlot.toNat
        slotSpan := slotSpan.toNat
        transferCount := transfersPerSlot.toNat * slotSpan.toNat
        firstSlotIndex :=
          (slotCount.toNat - min discard.toNat slotCount.toNat) % slotCount.toNat
        discardTransfers := min discard.toNat slotCount.toNat * transfersPerSlot.toNat
        discardSlots := min discard.toNat slotCount.toNat
        valid := true } := by
  have discarded := toNat_stdMin discard slotCount
  have least : (stdMin discard slotCount).toNat ≤ slotCount.toNat := by
    rw [discarded]
    exact min_le_right _ _
  have count : transfersPerSlot.toNat * slotSpan.toNat < 2 ^ 64 :=
    Nat.lt_of_le_of_lt (Nat.mul_le_mul_left _ spare) fits
  have thrown : (stdMin discard slotCount).toNat * transfersPerSlot.toNat < 2 ^ 64 := by
    rw [Nat.mul_comm]
    exact Nat.lt_of_le_of_lt (Nat.mul_le_mul_left _ least) fits
  rw [finishLayout, toNat_mul_exact count, UInt64.toNat_mod, toNat_sub_exact least,
    toNat_mul_exact thrown, discarded]

section Exact

variable {slotBytes slotCount endpoint : UInt64} {o : Options} {turns : Nat}

/-- A slot is at least its packets, and at least the transfers it is cut into. -/
theorem packets_le (slotBytes endpoint : UInt64) :
    (slotBytes / endpoint).toNat ≤ slotBytes.toNat := by
  rw [UInt64.toNat_div]
  exact Nat.div_le_self _ _

theorem planSizes_exact (enough : (slotBytes / endpoint).toNat ≤ turns)
    (fits : 4 ≤ slotCount.toNat → slotBytes.toNat * slotCount.toNat < 2 ^ 64) :
    planSizes turns slotBytes slotCount endpoint o =
      some (planTransferLayout slotBytes.toNat slotCount.toNat endpoint.toNat o.exact) := by
  unfold planSizes planTransferLayout
  by_cases none : endpoint = 0
  · rw [if_pos none, if_pos (toNat_eq_zero.mp none)]
  rw [if_neg none, if_neg (mt toNat_eq_zero.mpr none)]
  have whole : (slotBytes = 0 ∨ slotBytes % endpoint ≠ 0) ↔
      (slotBytes.toNat = 0 ∨ slotBytes.toNat % endpoint.toNat ≠ 0) := by
    rw [toNat_eq_zero, ne_eq, toNat_eq_zero, UInt64.toNat_mod]
  by_cases ragged : slotBytes = 0 ∨ slotBytes % endpoint ≠ 0
  · rw [if_pos ragged, if_pos (whole.mp ragged)]
  rw [if_neg ragged, if_neg (mt whole.mpr ragged)]
  by_cases few : slotCount.toNat < 4
  · rw [if_pos (UInt64.lt_iff_toNat_lt.mpr few), if_pos few]
  rw [if_neg (mt UInt64.lt_iff_toNat_lt.mp few), if_neg few]
  have memory := fits (Nat.le_of_not_lt few)
  have divides : endpoint.toNat ∣ slotBytes.toNat := by
    refine Nat.dvd_of_mod_eq_zero ?_
    by_contra h
    exact ragged (whole.mpr (Or.inr h))
  have positive : 0 < slotBytes.toNat := by
    refine Nat.pos_of_ne_zero fun h => ?_
    exact ragged (whole.mpr (Or.inl h))
  have packets : (slotBytes / endpoint).toNat = slotBytes.toNat / endpoint.toNat :=
    UInt64.toNat_div _ _
  have some' : 0 < (slotBytes / endpoint).toNat := by
    rw [packets]
    exact Nat.div_pos (Nat.le_of_dvd positive divides)
      (Nat.pos_of_ne_zero (mt toNat_eq_zero.mpr none))
  have small : slotBytes.toNat * 4 < 2 ^ 64 :=
    Nat.lt_of_le_of_lt (Nat.mul_le_mul_left _ (Nat.le_of_not_lt few)) memory
  have perSlot : ∀ k, k ≤ slotBytes.toNat → k * slotCount.toNat < 2 ^ 64 := fun k le =>
    Nat.lt_of_le_of_lt (Nat.mul_le_mul_right _ le) memory
  have le := packets_le slotBytes endpoint
  cases o with
  | mk smallTransfers transferQueueBytes discardSlots =>
  cases smallTransfers with
  | false =>
    have less : (slotCount - 1).toNat = slotCount.toNat - 1 :=
      toNat_sub_exact (show 1 ≤ slotCount.toNat by omega)
    simp only [Options.exact, Bool.false_eq_true, if_false]
    have spare : (slotCount - 1).toNat ≤ slotCount.toNat := less ▸ Nat.sub_le _ _
    have one : (1 : UInt64).toNat * slotCount.toNat < 2 ^ 64 := perSlot 1 positive
    rw [finishLayout_exact spare one, less]
    rfl
  | true =>
    simp only [Options.exact, if_true]
    generalize target : stdMax 1 (kSmallTransferBytes / endpoint) = targetPackets
    have targets : targetPackets.toNat = max 1 (kTargetSmallTransferBytes / endpoint.toNat) := by
      rw [← target, toNat_stdMax, UInt64.toNat_div]
      rfl
    have targetBound : targetPackets.toNat ≤ 131072 := by
      rw [targets]
      exact max_le (by decide) (Nat.div_le_self _ _)
    have sum : (slotBytes / endpoint + targetPackets - 1).toNat =
        (slotBytes / endpoint).toNat + targetPackets.toNat - 1 := by
      have add : (slotBytes / endpoint + targetPackets).toNat =
          (slotBytes / endpoint).toNat + targetPackets.toNat := toNat_add_exact (by omega)
      rw [toNat_sub_exact (by rw [add]; exact Nat.le_add_right_of_le some'), add]
      rfl
    generalize first : stdMax 1 ((slotBytes / endpoint + targetPackets - 1) / targetPackets) =
      atLeast
    have firsts : atLeast.toNat = max 1 (((slotBytes / endpoint).toNat + targetPackets.toNat - 1) /
        targetPackets.toNat) := by
      rw [← first, toNat_stdMax, UInt64.toNat_div, sum]
      rfl
    have ceiling : atLeast.toNat ≤ (slotBytes / endpoint).toNat := by
      obtain ⟨k, more⟩ : ∃ k, targetPackets.toNat = k + 1 :=
        Nat.exists_eq_add_of_le' (targets ▸ le_max_left _ _)
      rw [firsts, more]
      refine max_le some' (Nat.div_le_of_le_mul ?_)
      have := Nat.le_mul_of_pos_right k some'
      rw [Nat.succ_mul]
      omega
    have one : 0 < atLeast.toNat := firsts ▸ Nat.lt_of_lt_of_le Nat.one_pos (le_max_left _ _)
    obtain ⟨transfers, found, cuts⟩ := nudgeTurns_exact turns
      (slotBytes / endpoint).toNat one ceiling (by omega) (by omega)
    have chosen : transfers.toNat =
        smallTransfersPerSlot (slotBytes.toNat / endpoint.toNat) endpoint.toNat := by
      rw [cuts, smallTransfersPerSlot, ← targets, firsts, packets]
    obtain ⟨cut, cutPos⟩ := smallTransfersPerSlot_spec (packets ▸ some') endpoint.toNat
    rw [← chosen] at cut cutPos
    rw [found]
    have two : (slotCount - 2).toNat = slotCount.toNat - 2 :=
      toNat_sub_exact (show 2 ≤ slotCount.toNat by omega)
    have bytes : (slotBytes / endpoint / transfers * endpoint).toNat =
        slotBytes.toNat / endpoint.toNat / transfers.toNat * endpoint.toNat := by
      have le' : slotBytes.toNat / endpoint.toNat / transfers.toNat * endpoint.toNat ≤
          slotBytes.toNat :=
        (Nat.mul_le_mul_right _ (Nat.div_le_self _ _)).trans (Nat.div_mul_le_self _ _)
      rw [toNat_mul_exact, UInt64.toNat_div, packets]
      rw [UInt64.toNat_div, packets]
      exact Nat.lt_of_le_of_lt le' slotBytes.toNat_lt
    have span : (stdMin (stdMax 1 (transferQueueBytes / slotBytes)) (slotCount - 2)).toNat =
        min (max 1 (transferQueueBytes.toNat / slotBytes.toNat)) (slotCount.toNat - 2) := by
      rw [toNat_stdMin, toNat_stdMax, UInt64.toNat_div, two]
      rfl
    have within : transfers.toNat ≤ slotBytes.toNat :=
      (Nat.le_of_dvd (packets ▸ some') cut).trans (packets ▸ le)
    dsimp only
    rw [finishLayout_exact (by rw [span]; omega) (perSlot _ within), bytes, span, chosen]

end Exact

/-! ## The plan -/

/-- What the transfers rely on. -/
structure Sound (l : Layout) (slotBytes slotCount endpoint : Nat) : Prop where
  whole : l.transferBytes * l.transfersPerSlot = slotBytes
  packets : endpoint ∣ l.transferBytes
  inFlight : l.transferCount = l.transfersPerSlot * l.slotSpan ∧ 1 ≤ l.slotSpan
  free : l.slotSpan + 1 ≤ slotCount
  first : (l.firstSlotIndex + l.discardSlots) % slotCount = 0
  firstTransfer : (l.firstSlotIndex * l.transfersPerSlot + l.discardTransfers) %
    (slotCount * l.transfersPerSlot) = 0

theorem transferBytes_packets {slotBytes slotCount endpoint : Nat} {options : UsbSourceOptions}
    (valid : (planTransferLayout slotBytes slotCount endpoint options).valid = true) :
    endpoint ∣ (planTransferLayout slotBytes slotCount endpoint options).transferBytes := by
  unfold planTransferLayout at valid ⊢
  split at valid
  · cases valid
  split at valid
  · cases valid
  split at valid
  · cases valid
  next hasPackets whole room =>
    rw [if_neg hasPackets, if_neg whole, if_neg room]
    dsimp only
    split
    · exact Nat.dvd_mul_left _ _
    · refine Nat.dvd_of_mod_eq_zero ?_
      by_contra ragged
      exact whole (Or.inr ragged)

/-- The discarded slots lead round the ring to slot zero. -/
theorem round_to_zero {count discard : Nat} (within : discard ≤ count) :
    ((count - discard) % count + discard) % count = 0 := by
  rw [Nat.mod_add_mod, Nat.sub_add_cancel within, Nat.mod_self]

theorem Sound.of_rolls {l : Layout} {slotBytes slotCount endpoint : Nat}
    (rolls : Rolls l slotBytes slotCount) (packets : endpoint ∣ l.transferBytes) :
    Sound l slotBytes slotCount endpoint := by
  obtain ⟨covers, -, -, span, spare, count, discard, discarded, first⟩ := rolls
  have zero : (l.firstSlotIndex + l.discardSlots) % slotCount = 0 := by
    rw [first]
    exact round_to_zero discard
  refine ⟨by rw [Nat.mul_comm, covers], packets, ⟨count, span⟩, spare, zero, ?_⟩
  rw [discarded, ← Nat.add_mul, Nat.mul_mod_mul_right, zero, Nat.zero_mul]

/-- A ring of four slots or more is no larger than the largest queue. -/
theorem planGeometryFor_fits (target queue endpoint : UInt64) :
    4 ≤ (planGeometryFor target queue endpoint).slotCount.toNat →
      (planGeometryFor target queue endpoint).slotSizeBytes.toNat *
        (planGeometryFor target queue endpoint).slotCount.toNat < 2 ^ 64 := by
  simp only [planGeometryFor]
  generalize (if endpoint = 0 then target else
    if target / endpoint * endpoint = 0 then endpoint else target / endpoint * endpoint) = slot
  generalize clamped : stdClamp queue kMinimumQueueSizeBytes kMaximumQueueSizeBytes = memory
  have bound : memory.toNat ≤ 536870912 := by
    rw [← clamped, stdClamp]
    split
    · decide
    split
    · decide
    · rename_i above
      have above : ¬ kMaximumQueueSizeBytes.toNat < queue.toNat :=
        mt UInt64.lt_iff_toNat_lt.mpr above
      exact Nat.le_of_not_lt above
  rw [toNat_stdMax, UInt64.toNat_div]
  intro four
  have many : max (memory.toNat / slot.toNat) 3 = memory.toNat / slot.toNat := by
    have : (3 : UInt64).toNat = 3 := rfl
    omega
  have three : (3 : UInt64).toNat = 3 := rfl
  rw [three, many]
  have product : slot.toNat * (memory.toNat / slot.toNat) ≤ memory.toNat := Nat.mul_div_le _ _
  omega

/-- Whatever is asked for, the plan is made within as many turns of the loop as a slot has
packets and is the one of exact arithmetic; where it is accepted, it is sound. -/
theorem geometry_sound (target queue endpoint : UInt64) (o : Options) :
    ∃ l, (∀ turns, ((planGeometryFor target queue endpoint).slotSizeBytes / endpoint).toNat ≤ turns →
        planSizes turns (planGeometryFor target queue endpoint).slotSizeBytes
          (planGeometryFor target queue endpoint).slotCount endpoint o = some l) ∧
      l = planTransferLayout (planGeometryFor target queue endpoint).slotSizeBytes.toNat
        (planGeometryFor target queue endpoint).slotCount.toNat endpoint.toNat o.exact ∧
      (l.valid = true → Sound l (planGeometryFor target queue endpoint).slotSizeBytes.toNat
        (planGeometryFor target queue endpoint).slotCount.toNat endpoint.toNat) := by
  refine ⟨_, ?_, rfl, ?_⟩
  · intro turns enough
    exact planSizes_exact enough (planGeometryFor_fits target queue endpoint)
  · intro valid
    exact Sound.of_rolls (rolls valid) (transferBytes_packets valid)

/-- The defaults with a packet of 1 KB. -/
theorem default_sound : ∃ l, planSizes 2048 (planGeometry (256 * 1048576) 1024).slotSizeBytes
    (planGeometry (256 * 1048576) 1024).slotCount 1024 ⟨true, 12 * 1048576, 4⟩ = some l ∧
      Sound l 2097152 128 1024 := by
  obtain ⟨l, made, same, sound⟩ := geometry_sound kTargetSlotSizeBytes (256 * 1048576) 1024
    ⟨true, 12 * 1048576, 4⟩
  exact ⟨l, made 2048 (by decide), sound (by rw [same]; decide +kernel)⟩

end GeometryPlan
