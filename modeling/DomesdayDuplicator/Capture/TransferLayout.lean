import Mathlib.Data.Nat.Basic
import Mathlib.Algebra.Ring.Nat

/-!
# The transfer layout of a capture

`PlanTransferLayout`: how the slots of the ring are cut into USB transfers, how
many of these are in flight at once, and where the first one is aimed. Sizes are
those of memory the ring has allocated, so `size_t` does not wrap.
-/

namespace TransferLayout

structure UsbSourceOptions where
  smallTransfers : Bool := true
  transferQueueBytes : Nat := 12 * 2 ^ 20
  discardSlots : Nat := 4

structure Layout where
  transferBytes : Nat := 0
  transfersPerSlot : Nat := 0
  slotSpan : Nat := 0
  transferCount : Nat := 0
  firstSlotIndex : Nat := 0
  discardTransfers : Nat := 0
  discardSlots : Nat := 0
  valid : Bool := false
  problem : String := ""

def kTargetSmallTransferBytes : Nat := 128 * 2 ^ 10

/-- The loop that nudges the transfers in a slot upwards until they divide it. -/
def nudge (packetsPerSlot : Nat) : Nat → Nat → Nat
  | 0, transfersPerSlot => transfersPerSlot
  | fuel + 1, transfersPerSlot =>
    if packetsPerSlot % transfersPerSlot = 0 then transfersPerSlot
    else nudge packetsPerSlot fuel (transfersPerSlot + 1)

def smallTransfersPerSlot (packetsPerSlot endpointMaxPacketBytes : Nat) : Nat :=
  let targetPackets := max 1 (kTargetSmallTransferBytes / endpointMaxPacketBytes)
  nudge packetsPerSlot packetsPerSlot
    (max 1 ((packetsPerSlot + targetPackets - 1) / targetPackets))

def planTransferLayout (slotBytes slotCount endpointMaxPacketBytes : Nat)
    (options : UsbSourceOptions) : Layout :=
  if endpointMaxPacketBytes = 0 then
    { problem := "the device reported no endpoint packet size" }
  else if slotBytes = 0 ∨ slotBytes % endpointMaxPacketBytes ≠ 0 then
    { problem := "the buffer size is not a whole number of endpoint packets" }
  else if slotCount < 4 then
    { problem := "the buffer queue is too small to stream from" }
  else
    let packetsPerSlot := slotBytes / endpointMaxPacketBytes
    let transfersPerSlot :=
      if options.smallTransfers then smallTransfersPerSlot packetsPerSlot endpointMaxPacketBytes
      else 1
    let slotSpan :=
      if options.smallTransfers then
        min (max 1 (options.transferQueueBytes / slotBytes)) (slotCount - 2)
      else slotCount - 1
    let discardSlots := min options.discardSlots slotCount
    { transferBytes :=
        if options.smallTransfers then
          packetsPerSlot / transfersPerSlot * endpointMaxPacketBytes
        else slotBytes
      transfersPerSlot
      slotSpan
      transferCount := transfersPerSlot * slotSpan
      firstSlotIndex := (slotCount - discardSlots) % slotCount
      discardTransfers := discardSlots * transfersPerSlot
      discardSlots
      valid := true }

/-- What a source relies on: the transfers of a slot cover it, those in flight
span at least one slot and never the whole ring, and the first slot worth having
is slot zero. -/
structure Rolls (l : Layout) (slotBytes slotCount : Nat) : Prop where
  covers : l.transfersPerSlot * l.transferBytes = slotBytes
  bytes : 0 < l.transferBytes
  perSlot : 0 < l.transfersPerSlot
  span : 0 < l.slotSpan
  spare : l.slotSpan < slotCount
  count : l.transferCount = l.transfersPerSlot * l.slotSpan
  discard : l.discardSlots ≤ slotCount
  discarded : l.discardTransfers = l.discardSlots * l.transfersPerSlot
  first : l.firstSlotIndex = (slotCount - l.discardSlots) % slotCount

/-- The loop ends on a divisor: at worst on one packet a transfer. -/
theorem nudge_spec {packets : Nat} (fuel : Nat) {transfers : Nat} (positive : 0 < transfers)
    (below : transfers ≤ packets) (enough : packets ≤ transfers + fuel) :
    nudge packets fuel transfers ∣ packets ∧ 0 < nudge packets fuel transfers := by
  induction fuel generalizing transfers with
  | zero =>
    obtain rfl : transfers = packets := by omega
    exact ⟨Nat.dvd_refl _, positive⟩
  | succ fuel ih =>
    simp only [nudge]
    split
    next divides => exact ⟨Nat.dvd_of_mod_eq_zero divides, positive⟩
    next remains =>
      have short : transfers ≠ packets := by
        rintro rfl
        exact remains (Nat.mod_self _)
      exact ih (by omega) (by omega) (by omega)

theorem smallTransfersPerSlot_spec {packets : Nat} (filled : 0 < packets) (endpoint : Nat) :
    smallTransfersPerSlot packets endpoint ∣ packets ∧
      0 < smallTransfersPerSlot packets endpoint := by
  simp only [smallTransfersPerSlot]
  generalize h : max 1 (kTargetSmallTransferBytes / endpoint) = target
  have one : 1 ≤ target := h ▸ le_max_left _ _
  obtain ⟨k, rfl⟩ := Nat.exists_eq_add_of_le' one
  have ceiling : (packets + (k + 1) - 1) / (k + 1) ≤ packets := by
    refine Nat.div_le_of_le_mul ?_
    have := Nat.le_mul_of_pos_right k filled
    rw [Nat.succ_mul]
    omega
  exact nudge_spec _ (by omega) (by omega) (by omega)

theorem rolls {slotBytes slotCount endpoint : Nat} {options : UsbSourceOptions}
    (valid : (planTransferLayout slotBytes slotCount endpoint options).valid = true) :
    Rolls (planTransferLayout slotBytes slotCount endpoint options) slotBytes slotCount := by
  unfold planTransferLayout at valid ⊢
  split at valid
  · cases valid
  split at valid
  · cases valid
  split at valid
  · cases valid
  next hasPackets whole room =>
    obtain ⟨packets, rfl⟩ : endpoint ∣ slotBytes := by
      refine Nat.dvd_of_mod_eq_zero ?_
      by_contra h
      exact whole (Or.inr h)
    have positive : 0 < packets := by
      rcases Nat.eq_zero_or_pos packets with rfl | h
      · exact absurd (Or.inl rfl) whole
      · exact h
    have cut : endpoint * packets / endpoint = packets :=
      Nat.mul_div_cancel_left _ (Nat.pos_of_ne_zero hasPackets)
    obtain ⟨divides, cuts⟩ := smallTransfersPerSlot_spec positive endpoint
    rw [if_neg hasPackets, if_neg whole, if_neg room]
    dsimp only
    rw [cut]
    cases options.smallTransfers with
    | false =>
      simp only [Bool.false_eq_true, if_false]
      exact
        { covers := by simp
          bytes := Nat.mul_pos (Nat.pos_of_ne_zero hasPackets) positive
          perSlot := Nat.one_pos
          span := by dsimp only; omega
          spare := by dsimp only; omega
          count := rfl
          discard := min_le_right _ _
          discarded := rfl
          first := rfl }
    | true =>
      simp only [if_true]
      exact
        { covers := by
            dsimp only
            rw [← Nat.mul_assoc, Nat.mul_div_cancel' divides, Nat.mul_comm]
          bytes := Nat.mul_pos (Nat.div_pos (Nat.le_of_dvd positive divides) cuts)
            (Nat.pos_of_ne_zero hasPackets)
          perSlot := cuts
          span := by dsimp only; omega
          spare := by dsimp only; omega
          count := rfl
          discard := min_le_right _ _
          discarded := rfl
          first := rfl }

end TransferLayout
