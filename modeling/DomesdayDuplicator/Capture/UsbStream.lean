import DomesdayDuplicator.Capture.RollingTransfers

/-!
# What the USB sources hand over

The stream of the device, cut into slots after the discarded transfers, is what
either source hands over: slot by slot around the ring, every byte from where the
stream put it. Libusb reaps on after a failure, so there this holds only while no
slot is handed over behind a completion that was dropped.
-/

namespace UsbStream

open Execution TransferLayout UsbSource RollingTransfers Laps
open DiskBufferRing (RingState SlotState)

def handedOver (es : List Event) : List (Nat × List UInt8) :=
  es.filterMap fun
    | .handedOver index bytes => some (index, bytes)
    | _ => none

/-- `length` bytes of the device's stream. -/
def stream (device : Nat → UInt8) (offset length : Nat) : List UInt8 :=
  (List.range' 0 length).map fun i => device (offset + i)

/-- The k-th slot the consumer is to get. -/
def slotOf (l : Layout) (slotBytes slotCount : Nat) (device : Nat → UInt8) (k : Nat) :
    Nat × List UInt8 :=
  (k % slotCount, stream device (l.discardTransfers * l.transferBytes + k * slotBytes) slotBytes)

/-- Completions waiting to be reaped up to the first that is not whole. -/
def wholes (l : Layout) : List (Nat × Completion) → Nat
  | [] => 0
  | (_, c) :: rest => if c = whole l then wholes l rest + 1 else 0

/-- While nothing has been dropped: the counts agree, and the slots still being
completed hold the stream as far as it has arrived whole. -/
structure Stored (l : Layout) (slotCount : Nat) (device : Nat → UInt8) (handed : Nat)
    (s : Source) : Prop where
  discarded : s.discardedTransfers = min s.reaped l.discardTransfers
  handed : handed = (s.reaped - l.discardTransfers) / l.transfersPerSlot
  moved : wholes l s.finished = s.finished.length →
    s.streamed = (s.reaped + s.finished.length) * l.transferBytes
  stored : ∀ j, s.reaped / l.transfersPerSlot ≤ j / l.transfersPerSlot →
    j < s.reaped + wholes l s.finished → ∀ i, i < l.transferBytes →
    (s.ring.slots (place l slotCount j)).data (j % l.transfersPerSlot * l.transferBytes + i) =
      device (j * l.transferBytes + i)

structure Delivered (l : Layout) (slotBytes slotCount : Nat) (device : Nat → UInt8)
    (es : List Event) (s : Source) : Prop where
  inOrder : ∀ (k : Nat) slot, (handedOver es)[k]? = some slot →
    slot = slotOf l slotBytes slotCount device k
  stored : s.dropped = false → Stored l slotCount device (handedOver es).length s
  calm : ∀ index, Event.overflow index ∉ es

theorem handedOver_quiet (es : List Event) : handedOver (es ++ [.quiet]) = handedOver es := by
  simp [handedOver]

theorem wholes_le (l : Layout) (finished : List (Nat × Completion)) :
    wholes l finished ≤ finished.length := by
  induction finished with
  | nil => exact le_rfl
  | cons entry rest ih =>
    simp only [wholes, List.length_cons]
    split <;> omega

theorem wholes_append (l : Layout) (finished : List (Nat × Completion)) (t : Nat)
    (c : Completion) :
    wholes l (finished ++ [(t, c)]) =
      if wholes l finished = finished.length ∧ c = whole l then wholes l finished + 1
      else wholes l finished := by
  induction finished with
  | nil => simp [wholes]
  | cons entry rest ih =>
    simp only [List.cons_append, wholes, List.length_cons, ih]
    by_cases h : entry.2 = whole l
    · simp only [h, if_true, Nat.add_right_cancel_iff]
      split <;> rfl
    · simp [h]

section Steps

variable {l : Layout} {slotBytes slotCount : Nat} {device : Nat → UInt8} {s : Source}
  {es : List Event}

/-- Only the contents of the slots, not their states, and the counts matter. -/
theorem Stored.same {handed : Nat} {s' : Source} (h : Stored l slotCount device handed s)
    (discarded : s'.discardedTransfers = s.discardedTransfers) (reaped : s'.reaped = s.reaped)
    (finished : s'.finished = s.finished) (streamed : s'.streamed = s.streamed)
    (data : ∀ i, (s'.ring.slots i).data = (s.ring.slots i).data) :
    Stored l slotCount device handed s' where
  discarded := by rw [discarded, reaped, h.discarded]
  handed := by rw [reaped, h.handed]
  moved := by rw [finished, streamed, reaped]; exact h.moved
  stored := by simpa only [reaped, finished, data] using h.stored

theorem Delivered.quiet {s' : Source} (h : Delivered l slotBytes slotCount device es s)
    (stored : s'.dropped = false → s.dropped = false ∧
      (Stored l slotCount device (handedOver es).length s →
        Stored l slotCount device (handedOver es).length s')) :
    Delivered l slotBytes slotCount device (es ++ [.quiet]) s' where
  inOrder := by simpa only [handedOver_quiet] using h.inOrder
  stored kept := by
    obtain ⟨before, step⟩ := stored kept
    rw [handedOver_quiet]
    exact step (h.stored before)
  calm index := by simpa using h.calm index

theorem Delivered.moved {s' : Source} (h : Delivered l slotBytes slotCount device es s)
    (frame : Frame s s') : Delivered l slotBytes slotCount device es s' where
  inOrder := h.inOrder
  stored kept := (h.stored (frame.dropped ▸ kept)).same frame.discarded frame.reaped
    frame.finished frame.streamed fun i => by rw [frame.ring]
  calm := h.calm

theorem Delivered.frame {s' : Source} (h : Delivered l slotBytes slotCount device es s)
    (frame : Frame s s') : Delivered l slotBytes slotCount device (es ++ [.quiet]) s' :=
  Delivered.moved (h.quiet fun kept => ⟨kept, id⟩) frame

/-! ### The bytes -/

theorem land_other {offset length streamed i : Nat} {data : Nat → UInt8}
    (h : i < offset ∨ offset + length ≤ i) : land device offset length streamed data i = data i := by
  rw [land, if_neg (by omega)]

/-- The slot of the j-th submission, its last one, holds the stream from end to end. -/
theorem slot_stored (rolls : Rolls l slotBytes slotCount) {handed j : Nat}
    (h : Stored l slotCount device handed s) (here : s.reaped = j)
    (first : 0 < wholes l s.finished) (last : l.transfersPerSlot ≤ j % l.transfersPerSlot + 1) :
    bytes slotBytes (s.ring.slots (place l slotCount j)).data =
      stream device (j / l.transfersPerSlot * slotBytes) slotBytes := by
  unfold bytes stream
  refine List.map_congr_left fun x member => ?_
  rw [List.mem_range'_1, ← rolls.covers, Nat.zero_add] at member
  have member := member.2
  have perSlot := rolls.perSlot
  have within : x / l.transferBytes < l.transfersPerSlot :=
    Nat.div_lt_of_lt_mul (by rwa [Nat.mul_comm])
  have turns := Nat.div_add_mod j l.transfersPerSlot
  have below := Nat.mod_lt j perSlot
  generalize lapOf : j / l.transfersPerSlot = q at *
  have index : (q * l.transfersPerSlot + x / l.transferBytes) % l.transfersPerSlot =
      x / l.transferBytes := by
    rw [Nat.add_comm, Nat.add_mul_mod_self_right, Nat.mod_eq_of_lt within]
  have lap : (q * l.transfersPerSlot + x / l.transferBytes) / l.transfersPerSlot = q := by
    rw [Nat.add_comm, Nat.add_mul_div_right _ _ perSlot, Nat.div_eq_of_lt within, Nat.zero_add]
  have stored := h.stored (q * l.transfersPerSlot + x / l.transferBytes)
    (by rw [here, lapOf, lap]) (by rw [here]; rw [Nat.mul_comm] at turns; omega)
    (x % l.transferBytes) (Nat.mod_lt _ rolls.bytes)
  have split := Nat.div_add_mod x l.transferBytes
  have start : place l slotCount (q * l.transfersPerSlot + x / l.transferBytes) =
      place l slotCount j := by
    rw [place, place, lap, lapOf]
  rw [index, start, Nat.mul_comm (x / l.transferBytes), split] at stored
  rw [stored, Nat.add_mul, Nat.add_assoc, Nat.mul_comm (x / l.transferBytes), split,
    Nat.mul_assoc, rolls.covers]

/-- A submission that goes to the slot of an earlier one lands behind it. -/
theorem lands_behind (rolls : Rolls l slotBytes slotCount) {first j k i : Nat}
    (lo : first / l.transfersPerSlot ≤ j / l.transfersPerSlot) (order : j < k)
    (near : k ≤ first + l.transferCount) (same : place l slotCount j = place l slotCount k)
    (small : i < l.transferBytes) :
    j % l.transfersPerSlot * l.transferBytes + i <
      k % l.transfersPerSlot * l.transferBytes := by
  have lap : j / l.transfersPerSlot = k / l.transfersPerSlot := by
    by_contra apart
    have grows := Nat.div_le_div_right (c := l.transfersPerSlot) order.le
    have within := div_lt_of_near rolls near
    exact place_ne_of_div (by omega) (by omega) same.symm
  have before : j % l.transfersPerSlot < k % l.transfersPerSlot := by
    have low := Nat.div_add_mod j l.transfersPerSlot
    have high := Nat.div_add_mod k l.transfersPerSlot
    rw [← lap] at high
    omega
  have room := Nat.mul_le_mul_right l.transferBytes before
  rw [Nat.succ_mul] at room
  omega

/-! ### Steps of the others -/

theorem complete_delivered (rolls : Rolls l slotBytes slotCount) (sound : Sound l slotCount s)
    (h : Delivered l slotBytes slotCount device es s) (c : Completion) :
    Delivered l slotBytes slotCount device (es ++ [.quiet]) (complete l device c s) := by
  unfold complete
  split
  · exact h.quiet fun kept => ⟨kept, id⟩
  next t rest waiting =>
    split
    next fits =>
      refine h.quiet fun kept => ⟨kept, fun stored => ?_⟩
      -- the submission that completes is the first one still on the pipe
      have rolling := sound.rolling
      have flight : (inFlight s).length = s.finished.length + (rest.length + 1) := by
        simp [inFlight, waiting]
      have which : t = (s.reaped + s.finished.length) % l.transferCount := by
        have order := congrArg (·[s.finished.length]?) rolling.order
        simpa [inFlight, waiting, flight] using order
      have width := rolling.width
      have below := Nat.mod_lt (s.reaped + s.finished.length) (transferCount_pos rolls)
      have aim := (rolling.aimed (s.reaped + s.finished.length) (by omega) (by omega)).1
      have offset := (rolling.shape _ below).2.1
      rw [mod_count_mod rolls, ← which] at offset
      rw [← which] at aim
      have counted := wholes_append l s.finished t c
      have most := wholes_le l s.finished
      constructor
      · exact stored.discarded
      · exact stored.handed
      · intro all
        rw [counted, List.length_append, List.length_singleton] at all
        split at all
        next both =>
          rw [stored.moved both.1, both.2, List.length_append, List.length_singleton, whole,
            ← Nat.add_assoc, Nat.succ_mul]
        · omega
      · intro j lo hi i small
        dsimp only at lo hi
        rw [counted] at hi
        rw [RingState.write_data, aim, offset]
        rcases Nat.lt_or_ge j (s.reaped + s.finished.length) with old | new
        · have held := stored.stored j lo (by split at hi <;> omega) i small
          split
          next same =>
            have behind := lands_behind rolls lo old (by omega) same small
            rw [land_other (Or.inl behind)]
            rw [same] at held
            exact held
          next => exact held
        · split at hi
          next both =>
            obtain rfl : j = s.reaped + s.finished.length := by omega
            have size : c.actualLength = l.transferBytes := by rw [both.2, whole]
            rw [if_pos rfl, land, if_pos ⟨Nat.le_add_right _ _, by omega⟩, stored.moved both.1,
              Nat.add_sub_cancel_left]
          next => omega
    · exact h.quiet fun kept => ⟨kept, id⟩

theorem around_delivered (rolls : Rolls l slotBytes slotCount) (sound : Sound l slotCount s)
    (h : Delivered l slotBytes slotCount device es s) (a : Action) :
    Delivered l slotBytes slotCount device (es ++ [.quiet])
      (around l slotCount device s a) := by
  have data {s' : Source} (dropped : s'.dropped = s.dropped)
      (discarded : s'.discardedTransfers = s.discardedTransfers) (reaped : s'.reaped = s.reaped)
      (finished : s'.finished = s.finished) (streamed : s'.streamed = s.streamed)
      (data : ∀ i, (s'.ring.slots i).data = (s.ring.slots i).data) :
      Delivered l slotBytes slotCount device (es ++ [.quiet]) s' :=
    h.quiet fun kept => ⟨dropped ▸ kept, fun stored =>
      stored.same discarded reaped finished streamed data⟩
  cases a with
  | complete c => exact complete_delivered rolls sound h c
  | release =>
    simp only [around]
    split
    · exact data rfl rfl rfl rfl rfl (by simp)
    · exact data rfl rfl rfl rfl rfl fun _ => rfl
  | process contents =>
    simp only [around]
    split
    next full =>
      refine h.quiet fun kept => ⟨kept, fun stored => ?_⟩
      refine ⟨stored.discarded, stored.handed, stored.moved, fun j lo hi i small => ?_⟩
      dsimp only at lo hi
      have most := wholes_le l s.finished
      have clear := sound.rolling.clear j lo (by simp [inFlight]; omega)
      -- the consumer's slot is full, so no part of it is still being filled
      have other : place l slotCount j ≠ s.released % slotCount := by
        intro same
        exact clear.not_full (same ▸ full)
      rw [RingState.write_data, if_neg other]
      exact stored.stored j lo hi i small
    · exact data rfl rfl rfl rfl rfl fun _ => rfl
  | abortSlot index =>
    simp only [around]
    split
    · exact data rfl rfl rfl rfl rfl (by simp)
    · exact data rfl rfl rfl rfl rfl fun _ => rfl
  | _ => exact data rfl rfl rfl rfl rfl fun _ => rfl

/-! ### Reaping -/

theorem drop_delivered {s' : Source} (h : Delivered l slotBytes slotCount device es s)
    (lost : s'.dropped = true) : Delivered l slotBytes slotCount device (es ++ [.quiet]) s' :=
  h.quiet fun kept => by
    rw [lost] at kept
    cases kept

/-- After the discard phase submissions are counted from zero again. -/
theorem kept_position (rolls : Rolls l slotBytes slotCount) {j : Nat}
    (late : l.discardTransfers ≤ j) :
    (j - l.discardTransfers) % l.transfersPerSlot = j % l.transfersPerSlot ∧
      (j - l.discardTransfers) / l.transfersPerSlot + l.discardSlots =
        j / l.transfersPerSlot := by
  obtain ⟨k, rfl⟩ := Nat.exists_eq_add_of_le late
  rw [Nat.add_sub_cancel_left, rolls.discarded, Nat.add_comm (l.discardSlots * _),
    Nat.add_mul_mod_self_right, Nat.add_mul_div_right _ _ rolls.perSlot]
  exact ⟨rfl, rfl⟩

/-- One more submission completes a slot when it is the last of one. -/
theorem count_next (rolls : Rolls l slotBytes slotCount) {j : Nat}
    (late : l.discardTransfers ≤ j) :
    (j + 1 - l.discardTransfers) / l.transfersPerSlot =
      (j - l.discardTransfers) / l.transfersPerSlot +
        if l.transfersPerSlot ≤ j % l.transfersPerSlot + 1 then 1 else 0 := by
  have position := (kept_position rolls late).1
  rw [Nat.sub_add_comm late, ← position]
  rcases succ_div_mod rolls.perSlot (j - l.discardTransfers) with
    ⟨inside, same⟩ | ⟨last, _, next⟩
  · have below := Nat.mod_lt (j - l.discardTransfers + 1) rolls.perSlot
    rw [if_neg (by omega), same, Nat.add_zero]
  · rw [if_pos last.ge, next]

theorem handedOver_append (index : Nat) (data : List UInt8) :
    handedOver (es ++ [.handedOver index data]) = handedOver es ++ [(index, data)] := by
  simp [handedOver]

/-- The slot that the last of its submissions hands over is the next one due. -/
theorem slotOf_next (rolls : Rolls l slotBytes slotCount) {handed j : Nat}
    (h : Stored l slotCount device handed s) (here : s.reaped = j)
    (late : l.discardTransfers ≤ j) (first : 0 < wholes l s.finished)
    (last : l.transfersPerSlot ≤ j % l.transfersPerSlot + 1) :
    slotOf l slotBytes slotCount device handed =
      (place l slotCount j, bytes (l.transfersPerSlot * l.transferBytes)
        (s.ring.slots (place l slotCount j)).data) := by
  have position := (kept_position rolls late).2
  have count := h.handed
  rw [here] at count
  have offset : l.discardTransfers * l.transferBytes + handed * slotBytes =
      j / l.transfersPerSlot * slotBytes := by
    rw [← position, count, rolls.discarded, Nat.mul_assoc, rolls.covers, ← Nat.add_mul,
      Nat.add_comm]
  rw [slotOf, offset, rolls.covers, slot_stored rolls h here first last, place_of_kept rolls late,
    count, ← position, Nat.add_sub_cancel]

/-- A whole completion is reaped and counted. -/
theorem Stored.pop {handed handed' : Nat} {s' : Source} {t : Nat} {rest : List (Nat × Completion)}
    (h : Stored l slotCount device handed s) (head : s.finished = (t, whole l) :: rest)
    (reaped : s'.reaped = s.reaped + 1) (finished : s'.finished = rest)
    (streamed : s'.streamed = s.streamed)
    (data : ∀ i, (s'.ring.slots i).data = (s.ring.slots i).data)
    (discarded : s'.discardedTransfers = min (s.reaped + 1) l.discardTransfers)
    (counted : handed' = (s.reaped + 1 - l.discardTransfers) / l.transfersPerSlot) :
    Stored l slotCount device handed' s' := by
  have more : wholes l s.finished = wholes l rest + 1 := by simp [head, wholes]
  have length : s.finished.length = rest.length + 1 := by simp [head]
  constructor
  · rw [discarded, reaped]
  · rw [counted, reaped]
  · intro all
    rw [finished] at all ⊢
    rw [streamed, h.moved (by omega), length, reaped]
    congr 1
    omega
  · intro j lo hi i small
    rw [reaped] at lo hi
    rw [finished] at hi
    rw [data]
    exact h.stored j ((Nat.div_le_div_right (Nat.le_succ _)).trans lo) (by omega) i small

theorem keep_delivered (rolls : Rolls l slotBytes slotCount) (sound : Sound l slotCount s)
    (h : Delivered l slotBytes slotCount device es s) (here : s.phase = .reaping) {t : Nat}
    {rest : List (Nat × Completion)} (head : s.finished = (t, whole l) :: rest)
    (unbroken : l.discardTransfers ≤ s.discardedTransfers → (s.transfers t).lastInSlot = true →
      (s.ring.slots (s.transfers t).slotIndex).state = .empty → s.dropped = false)
    {out : Source × Event}
    (keeping : Keeping l t
      (unsubmit t { s with finished := rest, reaped := s.reaped + 1 }) out) :
    Delivered l slotBytes slotCount device (es ++ [out.2]) out.1 := by
  obtain ⟨taken, _⟩ := sound.take here head
  have below := Nat.mod_lt s.reaped (transferCount_pos rolls)
  have shape := (taken.rolling.shape _ below).2.2
  rw [mod_count_mod rolls, ← taken.transfer] at shape
  cases keeping with
  | discarded early complete later =>
    have early : s.discardedTransfers < l.discardTransfers := early
    refine h.quiet fun kept => ⟨kept, fun stored => ?_⟩
    have counted := stored.discarded
    refine stored.pop head rfl rfl rfl (fun _ => rfl) ?_ ?_
    · show s.discardedTransfers + 1 = _
      omega
    · rw [stored.handed, Nat.sub_eq_zero_of_le (by omega), Nat.sub_eq_zero_of_le (by omega)]
  | inside late more =>
    have late : l.discardTransfers ≤ s.discardedTransfers := late
    refine h.quiet fun kept => ⟨kept, fun stored => ?_⟩
    have counted := stored.discarded
    refine stored.pop head rfl rfl rfl (fun _ => rfl) ?_ ?_
    · show s.discardedTransfers = _
      omega
    · rw [more] at shape
      rw [stored.handed, count_next rolls (by omega), if_neg (of_decide_eq_false shape.symm),
        Nat.add_zero]
  | handedOver late last empty complete later =>
    rw [last] at shape
    rw [taken.aim] at empty ⊢
    have late : l.discardTransfers ≤ s.discardedTransfers := late
    have same : (s.transfers t).slotIndex = place l slotCount s.reaped := by
      simpa [unsubmit, Source.alter] using taken.aim
    have intact := unbroken late (by simpa [unsubmit, Source.alter] using last) (by
      rw [same]
      exact empty)
    have stored := h.stored intact
    have counted := stored.discarded
    have ends := of_decide_eq_true shape.symm
    have next := slotOf_next rolls stored rfl (by omega) (by simp [head, wholes]) ends
    refine ⟨fun k slot here => ?_, fun _ => ?_, by simpa using h.calm⟩
    · rw [handedOver_append] at here
      rcases Nat.lt_or_ge k (handedOver es).length with old | new
      · rw [List.getElem?_append_left old] at here
        exact h.inOrder k slot here
      · rw [List.getElem?_append_right new] at here
        obtain ⟨rfl, rfl⟩ : k = (handedOver es).length ∧ _ = slot := by
          have within := (List.getElem?_eq_some_iff.mp here).1
          rw [List.length_singleton] at within
          have : k = (handedOver es).length := by omega
          subst this
          simpa using here
        exact next.symm
    · rw [handedOver_append, List.length_append, List.length_singleton]
      refine stored.pop head rfl rfl rfl (by simp [unsubmit, Source.alter]) ?_ ?_
      · show s.discardedTransfers = _
        omega
      · rw [stored.handed, count_next rolls (by omega), if_pos ends]
  | refused gone => exact drop_delivered h rfl

theorem start_delivered (contents : Nat → Nat → UInt8) :
    Delivered l slotBytes slotCount device [] (start l slotCount contents) where
  inOrder k slot here := by simp [handedOver] at here
  stored _ := by
    refine ⟨by simp [start], by simp [start, handedOver], fun _ => by simp [start], ?_⟩
    intro j lo hi
    simp [start, wholes] at hi
  calm := by simp

/-! ## The two sources -/

/-- The completion about to be reaped is whole, ends a slot and hands it over. -/
def HandsOver (l : Layout) (s : Source) : Prop :=
  ∃ t rest, s.finished = (t, whole l) :: rest ∧ s.abortRequested = false ∧
    l.discardTransfers ≤ s.discardedTransfers ∧ (s.transfers t).lastInSlot = true ∧
    (s.ring.slots (s.transfers t).slotIndex).state = .empty

/-- No slot is handed over behind a completion that was dropped. -/
def Unbroken (l : Layout) (s : Source) (a : Action) : Prop :=
  a = .reap → HandsOver l s → s.dropped = false

theorem frame_advance (t : Nat) : Frame s (advance l slotCount t s) :=
  ⟨rfl, rfl, rfl, rfl, rfl, rfl⟩

theorem libUsb_delivered (rolls : Rolls l slotBytes slotCount) (sound : Sound l slotCount s)
    (h : Delivered l slotBytes slotCount device es s) {a : Action} (unbroken : Unbroken l s a) :
    Delivered l slotBytes slotCount device (es ++ [(libUsbStep l slotCount device s a).2])
      (libUsbStep l slotCount device s a).1 := by
  have still : Frame s s := ⟨rfl, rfl, rfl, rfl, rfl, rfl⟩
  have outside (a : Action) := around_delivered rolls sound h a
  cases a with
  | submit outcome =>
    simp only [libUsbStep]
    split
    · exact h.frame (frame_submitFirst _ _ _)
    · exact h.frame (frame_resubmit _ _ _)
    · exact h.frame still
  | reap =>
    simp only [libUsbStep]
    split
    next t c rest here head =>
      obtain ⟨taken, clear⟩ := sound.take here head
      rcases @onCompletion_spec l slotCount
        { s with finished := rest, reaped := s.reaped + 1 } t c (sound.cancelled t) with
        ⟨result, dropped⟩ | ⟨rfl, running, kept⟩
      · rw [dropped]
        exact drop_delivered h rfl
      · have keeping := @keep_keeping l _ _ (taken.clear_slot clear)
        have after := keep_delivered rolls sound h here head
          (fun late last empty => unbroken rfl ⟨t, rest, head, running, late, last, empty⟩) keeping
        rw [kept]
        split
        · exact after
        · exact after.moved (frame_advance t)
    · exact h.frame still
  | poll =>
    simp only [libUsbStep]
    split
    · exact h.frame (frame_fail _ s)
    · exact h.frame still
  | cancel =>
    simp only [libUsbStep]
    split
    · exact h.frame ⟨rfl, rfl, rfl, rfl, rfl, rfl⟩
    · exact h.frame still
  | waitFailed => exact h.frame still
  | complete c => exact outside (.complete c)
  | release => exact outside .release
  | process data => exact outside (.process data)
  | requestStop => exact outside .requestStop
  | requestAbort => exact outside .requestAbort
  | abortRing => exact outside .abortRing
  | abortSlot index => exact outside (.abortSlot index)

theorem walk_delivered (rolls : Rolls l slotBytes slotCount) {w : WinUsb}
    (walking : Walking l slotCount w) (here : w.source.phase = .reaping)
    (running : w.source.failed = false)
    (h : Delivered l slotBytes slotCount device es w.source) :
    Delivered l slotBytes slotCount device (es ++ [(walk l slotCount w).2])
      (walk l slotCount w).1.source := by
  have still : Frame w.source w.source := ⟨rfl, rfl, rfl, rfl, rfl, rfl⟩
  unfold walk
  dsimp only
  split
  · cases head : w.source.finished with
    | nil => exact h.frame still
    | cons entry rest =>
      obtain ⟨t, c⟩ := entry
      obtain rfl := walking.head here running head
      obtain ⟨taken, clear⟩ := walking.sound.take here head
      simp only [List.lookup_cons, beq_self_eq_true, List.eraseP_cons_of_pos]
      rcases @examine_spec l { w.source with finished := rest, reaped := w.source.reaped + 1 }
        w.current c with ⟨result, dropped⟩ | ⟨rfl, kept⟩
      · rw [dropped]
        have failed : ((unsubmit w.current { w.source with
            finished := rest, reaped := w.source.reaped + 1 }).drop result).failed = true := by
          simp [Source.drop]
        simp only [failed, if_true]
        exact drop_delivered h rfl
      · have keeping := @keep_keeping l _ _ (taken.clear_slot clear)
        -- a walk goes on only while nothing has failed, so nothing has been dropped
        have intact : w.source.dropped = false := by
          by_contra lost
          have failed := walking.dropped (by simpa using lost)
          rw [running] at failed
          cases failed
        have after := keep_delivered rolls walking.sound h here head
          (fun _ _ _ => intact) keeping
        rw [kept]
        generalize keep l w.current _ = out at after ⊢
        repeat' split
        · exact after
        · exact after
        · exact after.moved (frame_advance _)
  · split
    · exact h.frame still
    · exact h.frame (frame_advance _)

theorem winUsb_delivered (rolls : Rolls l slotBytes slotCount) {w : WinUsb}
    (walking : Walking l slotCount w) (h : Delivered l slotBytes slotCount device es w.source)
    (a : Action) :
    Delivered l slotBytes slotCount device (es ++ [(winUsbStep l slotCount device w a).2])
      (winUsbStep l slotCount device w a).1.source := by
  have still : Frame w.source w.source := ⟨rfl, rfl, rfl, rfl, rfl, rfl⟩
  have outside (a : Action) := around_delivered rolls walking.sound h a
  cases a with
  | submit outcome =>
    simp only [winUsbStep]
    split
    · exact h.frame (frame_submitFirst _ _ _)
    · have submitted := h.frame (@frame_resubmit w.source winUsbRefusal outcome w.current)
      simp only [resubmitCurrent]
      split
      · exact submitted
      · rcases @probe_cases l (resubmit winUsbRefusal outcome w.current w.source) w.current with
          clean | ⟨r, found⟩
        · rw [clean]
          split <;> exact submitted
        · rw [found]
          split <;> exact submitted.moved (frame_fail r _)
    · exact h.frame still
  | reap =>
    simp only [winUsbStep]
    split
    · exact h.frame still
    next here =>
      rw [not_or, not_not] at here
      split
      next failed =>
        simp only [recover]
        split
        · exact h.frame still
        · exact drop_delivered h rfl
      next running => exact walk_delivered rolls walking here.1 (by simpa using running) h
  | poll =>
    simp only [winUsbStep]
    split
    · exact h.frame (frame_fail _ _)
    · exact h.frame still
  | waitFailed =>
    simp only [winUsbStep]
    split
    · exact h.frame (frame_fail _ _)
    · exact h.frame still
  | cancel => exact h.frame still
  | complete c => exact outside (.complete c)
  | release => exact outside .release
  | process data => exact outside (.process data)
  | requestStop => exact outside .requestStop
  | requestAbort => exact outside .requestAbort
  | abortRing => exact outside .abortRing
  | abortSlot index => exact outside (.abortSlot index)

end Steps

/-! ## Every run -/

/-- What is promised of a run that has reported `es` and reached `s`: the slots
handed over are the first ones of the stream after the discarded transfers, as many
as the completions kept make up, no transfer in flight is aimed at a full slot, and
no slot overflows. -/
structure Streams (l : Layout) (slotBytes slotCount : Nat) (device : Nat → UInt8)
    (es : List Event) (s : Source) : Prop where
  slots : handedOver es =
    (List.range (handedOver es).length).map (slotOf l slotBytes slotCount device)
  whole : s.dropped = false →
    (handedOver es).length = (s.reaped - l.discardTransfers) / l.transfersPerSlot
  aimed : ∀ t ∈ inFlight s, (s.ring.slots (s.transfers t).slotIndex).state ≠ .full
  calm : ∀ index, Event.overflow index ∉ es

section Runs

variable {l : Layout} {slotBytes slotCount : Nat} {device : Nat → UInt8} {s : Source}
  {es : List Event}

theorem slots_of_inOrder (h : Delivered l slotBytes slotCount device es s) :
    handedOver es =
      (List.range (handedOver es).length).map (slotOf l slotBytes slotCount device) := by
  refine List.ext_getElem? fun k => ?_
  cases here : (handedOver es)[k]? with
  | none => simpa using here
  | some slot =>
    have within := (List.getElem?_eq_some_iff.mp here).1
    simp [List.getElem?_map, List.getElem?_range within, h.inOrder k slot here]

theorem not_aimed_at_full (sound : Sound l slotCount s) {t : Nat} (flying : t ∈ inFlight s) :
    (s.ring.slots (s.transfers t).slotIndex).state ≠ .full := by
  rw [sound.rolling.order, List.mem_map] at flying
  obtain ⟨j, member, rfl⟩ := flying
  rw [List.mem_range'_1] at member
  rw [(sound.rolling.aimed j member.1 member.2).1]
  exact (sound.rolling.clear j (Nat.div_le_div_right member.1) member.2).not_full

theorem streams (sound : Sound l slotCount s)
    (h : Delivered l slotBytes slotCount device es s) :
    Streams l slotBytes slotCount device es s where
  slots := slots_of_inOrder h
  whole kept := (h.stored kept).handed
  aimed _ := not_aimed_at_full sound
  calm := h.calm

theorem libUsb_run (rolls : Rolls l slotBytes slotCount) {contents : Nat → Nat → UInt8}
    (run : Run (libUsb l slotCount device) (Unbroken l) (start l slotCount contents) es s) :
    Streams l slotBytes slotCount device es s := by
  obtain ⟨sound, delivered⟩ := run.invariant_events
    (fun es s => Sound l slotCount s ∧ Delivered l slotBytes slotCount device es s)
    ⟨start_sound rolls contents, start_delivered contents⟩
    fun _ _ a inv ok =>
      ⟨libUsb_sound rolls inv.1 a, libUsb_delivered rolls inv.1 inv.2 ok⟩
  exact streams sound delivered

theorem winUsb_run (rolls : Rolls l slotBytes slotCount) {contents : Nat → Nat → UInt8}
    {w : WinUsb}
    (run : Run (winUsb l slotCount device) Any (winUsbStart l slotCount contents) es w) :
    Streams l slotBytes slotCount device es w.source := by
  obtain ⟨walking, delivered⟩ := run.invariant_events
    (fun es w => Walking l slotCount w ∧ Delivered l slotBytes slotCount device es w.source)
    ⟨start_walking rolls contents, start_delivered contents⟩
    fun _ _ a inv _ =>
      ⟨winUsb_walking rolls inv.1 a, winUsb_delivered rolls inv.1 inv.2 a⟩
  exact streams walking.sound delivered

/-- Two runs over one stream hand over the same slots, one perhaps fewer. -/
theorem Streams.prefix_or {es' : List Event} {s' : Source}
    (h : Streams l slotBytes slotCount device es s)
    (h' : Streams l slotBytes slotCount device es' s') :
    handedOver es <+: handedOver es' ∨ handedOver es' <+: handedOver es := by
  have shorter {m n : Nat} (le : m ≤ n) :
      (List.range m).map (slotOf l slotBytes slotCount device) <+:
        (List.range n).map (slotOf l slotBytes slotCount device) := by
    obtain ⟨k, rfl⟩ := Nat.exists_eq_add_of_le le
    rw [List.range_add, List.map_append]
    exact List.prefix_append _ _
  rw [h.slots, h'.slots]
  rcases Nat.le_total (handedOver es).length (handedOver es').length with le | le
  · exact Or.inl (shorter le)
  · exact Or.inr (shorter le)

end Runs

/-- Over a layout that was planned, whatever the device completes with and however
the threads interleave: WinUSB in every run, and libusb in every run that hands no
slot over behind a dropped completion, give the consumer the stream slot by slot;
and the two give it the same slots, equally many after equally many completions. -/
theorem stream_delivered (slotBytes slotCount endpointMaxPacketBytes : Nat)
    (options : UsbSourceOptions) (device : Nat → UInt8) (contents : Nat → Nat → UInt8)
    (valid : (planTransferLayout slotBytes slotCount endpointMaxPacketBytes options).valid
      = true) :
    let l := planTransferLayout slotBytes slotCount endpointMaxPacketBytes options
    (∀ es s, Run (libUsb l slotCount device) (Unbroken l) (start l slotCount contents) es s →
      Streams l slotBytes slotCount device es s) ∧
    (∀ es w, Run (winUsb l slotCount device) Any (winUsbStart l slotCount contents) es w →
      Streams l slotBytes slotCount device es w.source) ∧
    ∀ es s es' w,
      Run (libUsb l slotCount device) (Unbroken l) (start l slotCount contents) es s →
      Run (winUsb l slotCount device) Any (winUsbStart l slotCount contents) es' w →
      (handedOver es <+: handedOver es' ∨ handedOver es' <+: handedOver es) ∧
        (s.dropped = false → w.source.dropped = false → s.reaped = w.source.reaped →
          handedOver es = handedOver es') := by
  have rolls := rolls valid
  refine ⟨fun es s run => libUsb_run rolls run, fun es w run => winUsb_run rolls run, ?_⟩
  intro es s es' w run run'
  have first := libUsb_run rolls run
  have second := winUsb_run rolls run'
  refine ⟨first.prefix_or second, fun kept kept' same => ?_⟩
  rw [first.slots, second.slots, first.whole kept, second.whole kept', same]

/-- The default layout of a 64 MiB ring, with 2 MiB of transfers in flight. -/
def smallQueue : Layout := planTransferLayout (2 * 2 ^ 20) 32 1024 { transferQueueBytes := 2 ^ 21 }

/-- The discarded transfers, then the completions given, all of them on the pipe
before the first is reaped. -/
def burst (completions : List Completion) : List Action :=
  List.replicate 16 (.submit .queued) ++
    (List.replicate 64 [.complete (whole smallQueue), .reap, .submit .queued]).flatten ++
    completions.map .complete ++
    (List.replicate completions.length [.reap, .submit .queued]).flatten

theorem stream_delivered_whole :
    let out := (libUsb smallQueue 32 fun _ => 1).trace
      (start smallQueue 32 fun _ _ => 0) (burst (List.replicate 16 (whole smallQueue)))
    handedOver out.1 = [slotOf smallQueue (2 * 2 ^ 20) 32 (fun _ => 1) 0] := by
  have run := Run.of_trace (libUsb smallQueue 32 fun _ => 1) (fun s _ => !s.dropped)
    (start smallQueue 32 fun _ _ => 0) (burst (List.replicate 16 (whole smallQueue)))
    (by decide +kernel)
    (fun s a intact => ((fun _ _ => by simpa using intact) : Unbroken smallQueue s a))
  have streams := (stream_delivered (2 * 2 ^ 20) 32 1024 { transferQueueBytes := 2 ^ 21 }
    (fun _ => 1) (fun _ _ => 0) (by decide +kernel)).1 _ _ run
  have one : (handedOver ((libUsb smallQueue 32 fun _ => 1).trace
      (start smallQueue 32 fun _ _ => 0)
      (burst (List.replicate 16 (whole smallQueue)))).1).length = 1 := by decide +kernel
  have slots := streams.slots
  rw [one] at slots
  exact slots

/-- A transfer that comes back empty fails the capture, but those behind it in the
same batch are reaped all the same, and the last of them hands the slot over. -/
theorem slot_with_a_hole : ¬ ∀ (slotBytes slotCount endpointMaxPacketBytes : Nat)
    (options : UsbSourceOptions) (device : Nat → UInt8) (contents : Nat → Nat → UInt8)
    (es : List Event) (s : Source),
    let l := planTransferLayout slotBytes slotCount endpointMaxPacketBytes options
    l.valid = true → Run (libUsb l slotCount device) Any (start l slotCount contents) es s →
    handedOver es =
      (List.range (handedOver es).length).map (slotOf l slotBytes slotCount device) := by
  intro claim
  have run := Run.of_trace (libUsb smallQueue 32 fun _ => 1) (fun _ _ => true)
    (start smallQueue 32 fun _ _ => 0)
    (burst (⟨.completed, 0⟩ :: List.replicate 15 (whole smallQueue))) (by decide +kernel)
    (fun s a _ => (trivial : Any s a))
  have slots := claim _ _ _ { transferQueueBytes := 2 ^ 21 } _ _ _ _ (by decide +kernel) run
  have first := congrArg (fun slots => slots.head?.map fun slot => slot.2.head?) slots
  revert first
  decide +kernel

end UsbStream
