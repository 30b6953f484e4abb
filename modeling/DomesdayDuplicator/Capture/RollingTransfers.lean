import DomesdayDuplicator.Capture.UsbSource
import DomesdayDuplicator.Foundations.Laps

/-!
# The transfers roll through the ring

Submissions are numbered from zero, the j-th being of transfer
`j % transferCount` and aimed at the slot `place j`. The ones in flight are
consecutive, at most `transferCount` of them, and no slot they or the slot being
completed are aimed at is full.
-/

namespace RollingTransfers

open DiskBufferRing (RingState SlotState)
open TransferLayout UsbSource Laps

/-- The slot of the j-th submission. -/
def place (l : Layout) (slotCount j : Nat) : Nat :=
  (l.firstSlotIndex + j / l.transfersPerSlot) % slotCount

/-- A slot that a transfer may be aimed at. -/
def Clear (state : SlotState) : Prop := state = .empty ∨ state = .aborted

theorem Clear.not_full {state : SlotState} (h : Clear state) : state ≠ .full := by
  rcases h with rfl | rfl <;> simp

/-- The submissions in flight, oldest first: those completed but not yet reaped,
then those on the pipe. -/
def inFlight (s : Source) : List Nat := s.finished.map Prod.fst ++ s.pending

structure Rolling (l : Layout) (slotCount : Nat) (flight : List Nat) (reaped : Nat)
    (transfers : Nat → Transfer) (ring : RingState (Nat → UInt8)) : Prop where
  order : flight = (List.range' reaped flight.length).map (· % l.transferCount)
  width : flight.length ≤ l.transferCount
  shape : ∀ t, t < l.transferCount → (transfers t).indexInSlot = t % l.transfersPerSlot ∧
    (transfers t).byteOffset = t % l.transfersPerSlot * l.transferBytes ∧
    (transfers t).lastInSlot = decide (l.transfersPerSlot ≤ t % l.transfersPerSlot + 1)
  aimed : ∀ j, reaped ≤ j → j < reaped + flight.length →
    (transfers (j % l.transferCount)).slotIndex = place l slotCount j ∧
      (transfers (j % l.transferCount)).submitted = true
  clear : ∀ j, reaped / l.transfersPerSlot ≤ j / l.transfersPerSlot →
    j < reaped + flight.length → Clear (ring.slots (place l slotCount j)).state

section Places

variable {l : Layout} {slotBytes slotCount : Nat} (rolls : Rolls l slotBytes slotCount)
include rolls

theorem transferCount_pos : 0 < l.transferCount := by
  rw [rolls.count]
  exact Nat.mul_pos rolls.perSlot rolls.span

theorem slotCount_pos : 0 < slotCount := by
  have := rolls.spare
  omega

theorem mod_count_mod (j : Nat) :
    j % l.transferCount % l.transfersPerSlot = j % l.transfersPerSlot := by
  rw [rolls.count, Nat.mod_mul_right_mod]

theorem add_count_div (j : Nat) :
    (j + l.transferCount) / l.transfersPerSlot = j / l.transfersPerSlot + l.slotSpan := by
  rw [rolls.count, Nat.add_mul_div_left _ _ rolls.perSlot]

/-- Submissions in flight at once span fewer slots than the ring has. -/
theorem div_lt_of_near {j k : Nat} (near : k ≤ j + l.transferCount) :
    k / l.transfersPerSlot < j / l.transfersPerSlot + slotCount := by
  have within := Nat.div_le_div_right (c := l.transfersPerSlot) near
  have spare := rolls.spare
  rw [add_count_div rolls] at within
  omega

omit rolls in
theorem place_ne_of_div {j k : Nat} (order : j / l.transfersPerSlot < k / l.transfersPerSlot)
    (near : k / l.transfersPerSlot < j / l.transfersPerSlot + slotCount) :
    place l slotCount k ≠ place l slotCount j := by
  intro same
  have := same_visit (l.firstSlotIndex + j / l.transfersPerSlot)
    (by omega) (by omega) le_rfl (by omega) same
  omega

theorem place_ne {j k : Nat} (order : j / l.transfersPerSlot < k / l.transfersPerSlot)
    (near : k ≤ j + l.transferCount) : place l slotCount k ≠ place l slotCount j :=
  place_ne_of_div order (div_lt_of_near rolls near)

theorem place_add_count (j : Nat) :
    place l slotCount (j + l.transferCount) = (place l slotCount j + l.slotSpan) % slotCount := by
  rw [place, place, add_count_div rolls, Nat.mod_add_mod, Nat.add_assoc]

/-- After the discarded slots the ring is used from slot zero on. -/
theorem place_of_kept {j : Nat} (kept : l.discardTransfers ≤ j) :
    place l slotCount j = (j / l.transfersPerSlot - l.discardSlots) % slotCount := by
  have whole : l.discardSlots ≤ j / l.transfersPerSlot := by
    rw [Nat.le_div_iff_mul_le rolls.perSlot, ← rolls.discarded]
    exact kept
  have discard := rolls.discard
  rw [place, rolls.first, Nat.mod_add_mod,
    show slotCount - l.discardSlots + j / l.transfersPerSlot =
      j / l.transfersPerSlot - l.discardSlots + slotCount by omega, Nat.add_mod_right]

/-- The loop of `Prepare` aims the transfers as consecutive submissions. -/
theorem prepareNext_iterate (t : Nat) :
    (prepareNext l slotCount)^[t] (l.firstSlotIndex, 0) =
      (place l slotCount t, t % l.transfersPerSlot) := by
  have perSlot := rolls.perSlot
  induction t with
  | zero =>
    have below : l.firstSlotIndex < slotCount := by
      rw [rolls.first]
      exact Nat.mod_lt _ (slotCount_pos rolls)
    simp [place, Nat.mod_eq_of_lt below]
  | succ t ih =>
    rw [Function.iterate_succ_apply', ih, prepareNext]
    rcases succ_div_mod perSlot t with ⟨inside, same⟩ | ⟨last, first, next⟩
    · have below := Nat.mod_lt (t + 1) perSlot
      rw [if_neg (by omega), inside, place, place, same]
    · rw [if_pos (by omega), first, place, place, next, Nat.mod_add_mod, Nat.add_assoc]

end Places

namespace Rolling

variable {l : Layout} {slotBytes slotCount : Nat} {flight rest : List Nat} {reaped t : Nat}
  {transfers : Nat → Transfer} {ring : RingState (Nat → UInt8)}

theorem fresh (rolls : Rolls l slotBytes slotCount)
    (clear : ∀ i, Clear (ring.slots i).state) :
    Rolling l slotCount [] 0 (prepared l slotCount) ring where
  order := rfl
  width := Nat.zero_le _
  shape t ht := by simp [prepared, prepareNext_iterate rolls]
  aimed j _ hj := by simp at hj
  clear j _ _ := clear _

theorem ring_changed {ring' : RingState (Nat → UInt8)}
    (h : Rolling l slotCount flight reaped transfers ring)
    (keeps : ∀ i, Clear (ring.slots i).state → Clear (ring'.slots i).state) :
    Rolling l slotCount flight reaped transfers ring' :=
  { h with clear := fun j lo hi => keeps _ (h.clear j lo hi) }

/-- Submissions in flight at once are of different transfers. -/
theorem mod_ne {j k : Nat} (hj : reaped ≤ j) (order : j < k) (hk : k < reaped + l.transferCount) :
    j % l.transferCount ≠ k % l.transferCount := by
  intro same
  have := same_visit reaped hj (by omega) (by omega) hk same
  omega

/-- A transfer that is not in flight is changed. -/
theorem altered (h : Rolling l slotCount flight reaped transfers ring) (entry : Transfer)
    (index : entry.indexInSlot = (transfers t).indexInSlot)
    (offset : entry.byteOffset = (transfers t).byteOffset)
    (last : entry.lastInSlot = (transfers t).lastInSlot)
    (free : ∀ j, reaped ≤ j → j < reaped + flight.length → j % l.transferCount ≠ t) :
    Rolling l slotCount flight reaped (Function.update transfers t entry) ring where
  order := h.order
  width := h.width
  shape u hu := by
    by_cases same : u = t
    · subst same
      simpa [index, offset, last] using h.shape u hu
    · simpa [same] using h.shape u hu
  aimed j lo hi := by simpa [free j lo hi] using h.aimed j lo hi
  clear := h.clear

/-- The oldest submission leaves. -/
theorem tail (h : Rolling l slotCount (t :: rest) reaped transfers ring) :
    t = reaped % l.transferCount ∧ Rolling l slotCount rest (reaped + 1) transfers ring := by
  have order := h.order
  simp only [List.length_cons, List.range'_succ, List.map_cons, List.cons.injEq] at order
  have width := h.width
  simp only [List.length_cons] at width
  exact ⟨order.1,
    { order := order.2
      width := by omega
      shape := h.shape
      aimed := fun j lo hi => h.aimed j (by omega) (by simp only [List.length_cons]; omega)
      clear := fun j lo hi =>
        h.clear j ((Nat.div_le_div_right (Nat.le_succ _)).trans lo)
          (by simp only [List.length_cons]; omega) }⟩

/-- The slot of the submission just reaped is handed over. -/
theorem handOver (rolls : Rolls l slotBytes slotCount)
    (h : Rolling l slotCount flight (reaped + 1) transfers ring)
    (short : flight.length < l.transferCount)
    (last : l.transfersPerSlot ≤ reaped % l.transfersPerSlot + 1) :
    Rolling l slotCount flight (reaped + 1) transfers
      (ring.store (place l slotCount reaped) .full) :=
  { h with
    clear := fun j lo hi => by
      have turn : (reaped + 1) / l.transfersPerSlot = reaped / l.transfersPerSlot + 1 := by
        rcases succ_div_mod rolls.perSlot reaped with ⟨inside, _⟩ | ⟨_, _, next⟩
        · have := Nat.mod_lt (reaped + 1) rolls.perSlot
          omega
        · exact next
      have other := place_ne rolls (j := reaped) (k := j) (by omega) (by omega)
      rw [RingState.store_state, if_neg other]
      exact h.clear j lo hi }

/-- The next submission joins: of the first transfer of a slot once the slot is
clear, of another one into the slot its predecessor went to. -/
theorem submit (rolls : Rolls l slotBytes slotCount)
    (h : Rolling l slotCount flight reaped transfers ring) {n : Nat}
    (short : flight.length < l.transferCount) (here : n = reaped + flight.length)
    (which : t = n % l.transferCount)
    (aim : (transfers t).slotIndex = place l slotCount n)
    (free : (transfers t).indexInSlot = 0 → Clear (ring.slots (place l slotCount n)).state) :
    Rolling l slotCount (flight ++ [t]) reaped
      (Function.update transfers t { transfers t with submitted := true }) ring := by
  subst which here
  have below := Nat.mod_lt (reaped + flight.length) (transferCount_pos rolls)
  constructor
  · rw [List.length_append, List.length_singleton, List.range'_1_concat, List.map_append,
      ← h.order, List.map_singleton]
  · simp only [List.length_append, List.length_singleton]
    omega
  · intro u hu
    by_cases same : u = (reaped + flight.length) % l.transferCount
    · subst same
      simpa using h.shape _ hu
    · simpa [same] using h.shape u hu
  · intro j lo hi
    simp only [List.length_append, List.length_singleton] at hi
    rcases Nat.lt_or_ge j (reaped + flight.length) with old | new
    · have other := @mod_ne l _ _ _ lo old (by omega)
      simpa [other] using h.aimed j lo old
    · obtain rfl : j = reaped + flight.length := by omega
      simpa using aim
  · intro j lo hi
    simp only [List.length_append, List.length_singleton] at hi
    rcases Nat.lt_or_ge j (reaped + flight.length) with old | new
    · exact h.clear j lo old
    · obtain rfl : j = reaped + flight.length := by omega
      by_cases first : (transfers ((reaped + flight.length) % l.transferCount)).indexInSlot = 0
      · exact free first
      · rw [(h.shape _ below).1, mod_count_mod rolls] at first
        obtain ⟨before, eq⟩ : ∃ before, reaped + flight.length = before + 1 := by
          refine Nat.exists_eq_succ_of_ne_zero fun zero => first ?_
          rw [zero, Nat.zero_mod]
        rw [eq] at first lo ⊢
        rcases succ_div_mod rolls.perSlot before with ⟨_, same⟩ | ⟨_, turned, _⟩
        · rw [same] at lo
          rw [place, same]
          exact h.clear before lo (by omega)
        · exact absurd turned first

end Rolling

/-! ## Where the transfer thread is -/

/-- What the transfer thread's place adds: the transfers not yet submitted for the
first time, or the one that is about to be submitted again. -/
def Phased (l : Layout) (slotCount : Nat) (s : Source) : Prop :=
  match s.phase with
  | .starting next =>
    s.failed = false ∧ s.captureComplete = false ∧ s.reaped = 0 ∧
      (inFlight s).length = next ∧ next < l.transferCount ∧
      (∀ t, next ≤ t → t < l.transferCount → (s.transfers t).slotIndex = place l slotCount t) ∧
      ∀ i, Clear (s.ring.slots i).state
  | .resubmitting t =>
    s.failed = false ∧ s.captureComplete = false ∧
      ∃ j, s.reaped = j + 1 ∧ t = j % l.transferCount ∧
        (inFlight s).length + 1 = l.transferCount ∧
        (s.transfers t).slotIndex = place l slotCount (j + l.transferCount)
  | .reaping =>
    s.failed = false → s.captureComplete = false → (inFlight s).length = l.transferCount

structure Sound (l : Layout) (slotCount : Nat) (s : Source) : Prop where
  rolling : Rolling l slotCount (inFlight s) s.reaped s.transfers s.ring
  phased : Phased l slotCount s
  cancelled : ∀ t, (s.transfers t).cancelled = true → s.failed = true

/-- Just after the j-th submission, of transfer `t`, has been reaped. -/
structure Taken (l : Layout) (slotCount j t : Nat) (s : Source) : Prop where
  reaped : s.reaped = j + 1
  transfer : t = j % l.transferCount
  rolling : Rolling l slotCount (inFlight s) (j + 1) s.transfers s.ring
  short : (inFlight s).length < l.transferCount
  full : s.failed = false → s.captureComplete = false →
    (inFlight s).length + 1 = l.transferCount
  aim : (s.transfers t).slotIndex = place l slotCount j
  phase : s.phase = .reaping
  cancelled : ∀ t, (s.transfers t).cancelled = true → s.failed = true

section Steps

variable {l : Layout} {slotBytes slotCount : Nat} {device : Nat → UInt8} {s : Source}

theorem start_sound (rolls : Rolls l slotBytes slotCount) (contents : Nat → Nat → UInt8) :
    Sound l slotCount (start l slotCount contents) where
  rolling := Rolling.fresh rolls fun _ => Or.inl rfl
  phased := by
    refine ⟨rfl, rfl, rfl, rfl, transferCount_pos rolls, fun t _ _ => ?_, fun _ => Or.inl rfl⟩
    simp [start, prepared, prepareNext_iterate rolls]
  cancelled t swept := by simp [start, prepared] at swept

/-- Someone else's step: the submissions in flight are as they were, and no clear
slot has become full. -/
theorem Sound.outside {s' : Source} (h : Sound l slotCount s)
    (flight : inFlight s' = inFlight s) (reaped : s'.reaped = s.reaped)
    (transfers : s'.transfers = s.transfers) (phase : s'.phase = s.phase)
    (failed : s'.failed = s.failed) (complete : s'.captureComplete = s.captureComplete)
    (keeps : ∀ i, Clear (s.ring.slots i).state → Clear (s'.ring.slots i).state) :
    Sound l slotCount s' where
  rolling := by
    rw [flight, reaped, transfers]
    exact h.rolling.ring_changed keeps
  phased := by
    have phased := h.phased
    simp only [Phased, flight, reaped, transfers, phase, failed, complete] at phased ⊢
    split
    · next here =>
      simp only [here] at phased
      obtain ⟨f, c, r, n, below, aims, clear⟩ := phased
      exact ⟨f, c, r, n, below, aims, fun i => keeps i (clear i)⟩
    · next here => simpa only [here] using phased
    · next here => simpa only [here] using phased
  cancelled t swept := by
    rw [failed]
    rw [transfers] at swept
    exact h.cancelled t swept

theorem inFlight_complete (c : Completion) : inFlight (complete l device c s) = inFlight s := by
  simp only [complete]
  split
  · rfl
  next waiting =>
    split
    · simp [inFlight, waiting]
    · rfl

theorem Sound.around (h : Sound l slotCount s) (a : Action) :
    Sound l slotCount (around l slotCount device s a) := by
  cases a with
  | complete c =>
    simp only [UsbSource.around]
    refine h.outside (inFlight_complete c) ?_ ?_ ?_ ?_ ?_ ?_
    all_goals
      simp only [complete]
      repeat' split
      all_goals simp
  | release =>
    simp only [UsbSource.around]
    split
    · refine h.outside rfl rfl rfl rfl rfl rfl fun i clear => ?_
      rw [RingState.compareExchange_state]
      split
      · exact Or.inl rfl
      · exact clear
    · exact h
  | process data =>
    simp only [UsbSource.around]
    split
    · exact h.outside rfl rfl rfl rfl rfl rfl fun i clear => by simpa using clear
    · exact h
  | abortSlot index =>
    simp only [UsbSource.around]
    split
    · refine h.outside rfl rfl rfl rfl rfl rfl fun i clear => ?_
      rw [RingState.store_state]
      split
      · exact Or.inr rfl
      · exact clear
    · exact h
  | _ => exact h.outside rfl rfl rfl rfl rfl rfl fun i clear => clear

/-! ### Failing -/

section Failing

variable (result : TransferResult) (s : Source)

@[simp] theorem fail_failed : (s.fail result).failed = true := by
  unfold Source.fail; split <;> simp [*]

@[simp] theorem fail_transfers : (s.fail result).transfers = s.transfers := by
  unfold Source.fail; split <;> rfl

@[simp] theorem fail_ring : (s.fail result).ring = s.ring := by
  unfold Source.fail; split <;> rfl

@[simp] theorem fail_reaped : (s.fail result).reaped = s.reaped := by
  unfold Source.fail; split <;> rfl

@[simp] theorem fail_phase : (s.fail result).phase = s.phase := by
  unfold Source.fail; split <;> rfl

@[simp] theorem fail_finished : (s.fail result).finished = s.finished := by
  unfold Source.fail; split <;> rfl

@[simp] theorem fail_pending : (s.fail result).pending = s.pending := by
  unfold Source.fail; split <;> rfl

end Failing

/-- A run that has failed owes its transfer thread nothing but the order of what
is still in flight. -/
theorem Sound.failing (rolling : Rolling l slotCount (inFlight s) s.reaped s.transfers s.ring)
    (phase : s.phase = .reaping) (failed : s.failed = true) : Sound l slotCount s where
  rolling := rolling
  phased := by simp [Phased, phase, failed]
  cancelled _ _ := failed

theorem Sound.fail (h : Sound l slotCount s) (phase : s.phase = .reaping)
    (result : TransferResult) : Sound l slotCount (s.fail result) :=
  .failing (by simpa [inFlight] using h.rolling) (by simpa using phase) (by simp)

/-! ### Submitting -/

section Submitting

variable {refusal : Submission → TransferResult}

theorem inFlight_queued (t : Nat) :
    inFlight (submitTransfer refusal .queued t s) = inFlight s ++ [t] := by
  simp [inFlight, submitTransfer, Source.alter]

theorem cancelled_queued {t : Nat}
    (swept : ∀ t, (s.transfers t).cancelled = true → s.failed = true) :
    ∀ u, ((submitTransfer refusal .queued t s).transfers u).cancelled = true →
      s.failed = true := by
  intro u here
  refine swept u ?_
  by_cases same : u = t
  · subst same
    simpa [submitTransfer, Source.alter] using here
  · simpa [submitTransfer, Source.alter, same] using here

/-- The fields the first loop of `Run` resets are already as it sets them. -/
theorem Sound.cleared {next : Nat} (h : Sound l slotCount s) (here : s.phase = .starting next) :
    Sound l slotCount
      (s.alter next fun entry => { entry with submitted := false, cancelled := false }) := by
  have phased := h.phased
  simp only [Phased, here] at phased
  obtain ⟨failed, complete, none, length, below, aims, clear⟩ := phased
  constructor
  · refine h.rolling.altered _ rfl rfl rfl fun j _ hj => ?_
    rw [none, length] at hj
    rw [Nat.mod_eq_of_lt (by omega)]
    omega
  · simp only [Phased, Source.alter, here]
    refine ⟨failed, complete, none, length, below, fun t lo hi => ?_, clear⟩
    by_cases same : t = next
    · subst same
      simpa using aims t lo hi
    · simpa [same] using aims t lo hi
  · intro t swept
    by_cases same : t = next
    · simp [Source.alter, same] at swept
    · exact h.cancelled t (by simpa [Source.alter, same] using swept)

theorem submitFirst_sound (rolls : Rolls l slotBytes slotCount) {next : Nat}
    (h : Sound l slotCount s) (here : s.phase = .starting next) (outcome : Submission) :
    Sound l slotCount (submitFirst l refusal outcome next s) := by
  have ready := h.cleared here
  unfold submitFirst
  generalize cleared : s.alter next _ = s₀ at ready ⊢
  have here₀ : s₀.phase = .starting next := by
    subst cleared
    exact here
  have phased := ready.phased
  simp only [Phased, here₀] at phased
  obtain ⟨failed, complete, none, length, below, aims, clear⟩ := phased
  cases outcome with
  | queued =>
    have joined := ready.rolling.submit rolls (t := next) (n := next) (by omega) (by omega)
      (Nat.mod_eq_of_lt below).symm (aims next le_rfl below) fun _ => clear _
    rw [← @inFlight_queued _ refusal] at joined
    have longer : (inFlight (submitTransfer refusal .queued next s₀)).length = next + 1 := by
      rw [inFlight_queued, List.length_append, length, List.length_singleton]
    have running : (submitTransfer refusal .queued next s₀).failed = false := failed
    have cancelled := @cancelled_queued _ refusal next ready.cancelled
    dsimp only
    split
    next last =>
      have full := last.resolve_left (by simp [running])
      refine ⟨joined, fun _ _ => ?_, cancelled⟩
      have := longer
      simp only [inFlight] at this ⊢
      omega
    next more =>
      rw [not_or, Nat.not_le] at more
      refine ⟨joined, ⟨failed, complete, none, longer, by omega, fun t lo hi => ?_, clear⟩,
        cancelled⟩
      simpa [submitTransfer, Source.alter, show t ≠ next by omega] using aims t (by omega) hi
  | noMemory | refused =>
    simp only [submitTransfer, fail_failed, true_or, if_true]
    exact .failing (by simpa [inFlight] using ready.rolling) rfl (by simp)

theorem resubmit_sound (rolls : Rolls l slotBytes slotCount) {t : Nat}
    (h : Sound l slotCount s) (here : s.phase = .resubmitting t) (outcome : Submission) :
    Sound l slotCount (resubmit refusal outcome t s) := by
  have phased := h.phased
  simp only [Phased, here] at phased
  obtain ⟨failed, complete, j, reaped, which, length, aim⟩ := phased
  have submitted (free : (s.transfers t).indexInSlot = 0 →
      (s.ring.slots (s.transfers t).slotIndex).state = .empty) :
      Sound l slotCount { submitTransfer refusal outcome t s with phase := .reaping } := by
    cases outcome with
    | queued =>
      have joined := h.rolling.submit rolls (t := t) (n := j + l.transferCount) (by omega)
        (by omega) (by rw [which, Nat.add_mod_right]) aim fun first => Or.inl (aim ▸ free first)
      rw [← @inFlight_queued _ refusal] at joined
      refine ⟨joined, fun _ _ => ?_, @cancelled_queued _ refusal t h.cancelled⟩
      have longer := congrArg List.length (@inFlight_queued s refusal t)
      rw [List.length_append, List.length_singleton, length] at longer
      exact longer
    | noMemory | refused =>
      exact .failing (by simpa [inFlight, submitTransfer] using h.rolling) rfl
        (by simp [submitTransfer])
  simp only [resubmit]
  split
  · split
    next empty => exact submitted fun _ => empty
    · exact .failing (by simpa [inFlight] using h.rolling) rfl (by simp)
    · exact h
    · exact h
  next later => exact submitted fun first => absurd first later

end Submitting

/-! ### Reaping -/

theorem Sound.take (h : Sound l slotCount s) (here : s.phase = .reaping) {t : Nat}
    {c : Completion} {rest : List (Nat × Completion)} (head : s.finished = (t, c) :: rest) :
    Taken l slotCount s.reaped t
        (unsubmit t { s with finished := rest, reaped := s.reaped + 1 }) ∧
      Clear (s.ring.slots (place l slotCount s.reaped)).state := by
  have flight : inFlight s = t :: (rest.map Prod.fst ++ s.pending) := by simp [inFlight, head]
  have rolling := h.rolling
  rw [flight] at rolling
  obtain ⟨which, tail⟩ := rolling.tail
  have width := rolling.width
  rw [List.length_cons] at width
  have aim := (rolling.aimed s.reaped le_rfl (by simp)).1
  rw [← which] at aim
  refine ⟨?_, rolling.clear s.reaped le_rfl (by simp)⟩
  constructor
  · rfl
  · exact which
  · refine tail.altered _ rfl rfl rfl fun j lo hi same => ?_
    rw [which] at same
    exact @Rolling.mod_ne l s.reaped s.reaped j le_rfl lo (by omega) same.symm
  · exact width
  · intro failed complete
    have phased := h.phased
    simp only [Phased, here] at phased
    have whole := phased failed complete
    rw [flight, List.length_cons] at whole
    exact whole
  · simpa [unsubmit, Source.alter] using aim
  · exact here
  · intro u swept
    refine h.cancelled u ?_
    by_cases same : u = t
    · subst same
      simpa [unsubmit, Source.alter] using swept
    · simpa [unsubmit, Source.alter, same] using swept

/-- The outcomes of `keep`. -/
inductive Keeping (l : Layout) (t : Nat) (s : Source) : Source × Event → Prop
  | discarded (early : s.discardedTransfers < l.discardTransfers) (complete : Bool)
      (later : complete = false → s.captureComplete = false) :
      Keeping l t s ({ s with
        completedTransfers := s.completedTransfers + 1
        discardedTransfers := s.discardedTransfers + 1
        captureComplete := complete }, .quiet)
  | inside (late : l.discardTransfers ≤ s.discardedTransfers)
      (more : (s.transfers t).lastInSlot = false) :
      Keeping l t s ({ s with completedTransfers := s.completedTransfers + 1 }, .quiet)
  | handedOver (late : l.discardTransfers ≤ s.discardedTransfers)
      (last : (s.transfers t).lastInSlot = true)
      (empty : (s.ring.slots (s.transfers t).slotIndex).state = .empty) (complete : Bool)
      (later : complete = false → s.captureComplete = false) :
      Keeping l t s ({ s with
        completedTransfers := s.completedTransfers + 1
        ring := s.ring.store (s.transfers t).slotIndex .full
        captureComplete := complete },
        .handedOver (s.transfers t).slotIndex (bytes (l.transfersPerSlot * l.transferBytes)
          (s.ring.slots (s.transfers t).slotIndex).data))
  | refused (gone : (s.ring.slots (s.transfers t).slotIndex).state = .aborted) :
      Keeping l t s
        ({ s with completedTransfers := s.completedTransfers + 1 }.drop .forcedAbort, .quiet)

theorem keep_keeping {t : Nat} (clear : Clear (s.ring.slots (s.transfers t).slotIndex).state) :
    Keeping l t s (keep l t s) := by
  simp only [keep]
  split
  next early => exact .discarded early _ fun no => (Bool.or_eq_false_iff.mp no).1
  next late =>
    rw [Nat.not_lt] at late
    split
    next last =>
      rcases clear with empty | gone
      · simp only [markSlotFull, RingState.compareExchange, empty, if_true]
        exact .handedOver late last empty _ fun no => (Bool.or_eq_false_iff.mp no).1
      · simp only [markSlotFull, RingState.compareExchange, gone, reduceCtorEq, if_false, if_true]
        exact .refused gone
    next more => exact .inside late (by simpa using more)

theorem Taken.drop {j t : Nat} (h : Taken l slotCount j t s) (result : TransferResult) :
    Taken l slotCount j t (s.drop result) where
  reaped := by simpa [Source.drop] using h.reaped
  transfer := h.transfer
  rolling := by simpa [Source.drop, inFlight] using h.rolling
  short := by simpa [Source.drop, inFlight] using h.short
  full no := by simp [Source.drop] at no
  aim := by simpa [Source.drop] using h.aim
  phase := by simpa [Source.drop] using h.phase
  cancelled _ _ := by simp [Source.drop]

theorem Taken.keep (rolls : Rolls l slotBytes slotCount) {j t : Nat}
    (h : Taken l slotCount j t s) {out : Source × Event} (keeping : Keeping l t s out) :
    Taken l slotCount j t out.1 := by
  cases keeping with
  | discarded _ complete later =>
    exact { h with full := fun failed no => h.full failed (later no) }
  | inside => exact { h with }
  | handedOver _ last _ complete later =>
    have below := Nat.mod_lt j (transferCount_pos rolls)
    have ends : l.transfersPerSlot ≤ j % l.transfersPerSlot + 1 := by
      have shape := (h.rolling.shape _ below).2.2
      rw [← h.transfer, last, h.transfer, mod_count_mod rolls] at shape
      exact of_decide_eq_true shape.symm
    exact
      { h with
        rolling := by
          rw [h.aim]
          exact h.rolling.handOver rolls h.short ends
        full := fun failed no => h.full failed (later no) }
  | refused =>
    have counted : Taken l slotCount j t
        { s with completedTransfers := s.completedTransfers + 1 } := { h with }
    exact counted.drop _

theorem Taken.stay {j t : Nat} (h : Taken l slotCount j t s)
    (ended : s.captureComplete = true ∨ s.failed = true) : Sound l slotCount s where
  rolling := by
    rw [h.reaped]
    exact h.rolling
  phased := by
    rcases ended with complete | failed
    · simp [Phased, h.phase, complete]
    · simp [Phased, h.phase, failed]
  cancelled := h.cancelled

theorem Taken.advance (rolls : Rolls l slotBytes slotCount) {j t : Nat}
    (h : Taken l slotCount j t s) (failed : s.failed = false)
    (complete : s.captureComplete = false) : Sound l slotCount (advance l slotCount t s) := by
  have full := h.full failed complete
  constructor
  · have rolling := h.rolling.altered (t := t)
      { s.transfers t with
        slotIndex := ((s.transfers t).slotIndex + l.slotSpan) % slotCount } rfl rfl rfl
      fun k lo hi same => by
        rw [h.transfer] at same
        exact @Rolling.mod_ne l j j k le_rfl lo (by omega) same.symm
    rw [← h.reaped] at rolling
    exact rolling
  · refine ⟨failed, complete, j, h.reaped, h.transfer, full, ?_⟩
    simp [UsbSource.advance, Source.alter, h.aim, place_add_count rolls]
  · intro u swept
    refine h.cancelled u ?_
    by_cases same : u = t
    · subst same
      simpa [UsbSource.advance, Source.alter] using swept
    · simpa [UsbSource.advance, Source.alter, same] using swept

/-! ### The two sources -/

def whole (l : Layout) : Completion := ⟨.completed, l.transferBytes⟩

/-- A completion is dropped, with the run failed, or it is whole and its data kept. -/
theorem onCompletion_spec {t : Nat} (c : Completion)
    (swept : (s.transfers t).cancelled = true → s.failed = true) :
    (∃ result, onCompletion l slotCount t c s = ((unsubmit t s).drop result, .quiet)) ∨
      (c = whole l ∧ s.abortRequested = false ∧ onCompletion l slotCount t c s =
        if (keep l t (unsubmit t s)).1.captureComplete ∨ (keep l t (unsubmit t s)).1.failed then
          keep l t (unsubmit t s)
        else (advance l slotCount t (keep l t (unsubmit t s)).1, (keep l t (unsubmit t s)).2)) := by
  simp only [onCompletion]
  split
  · left
    split
    next silent =>
      have failed : (unsubmit t s).failed = true := swept silent.1
      exact ⟨.success, by simp [Source.drop, Source.fail, failed]⟩
    · split
      · exact ⟨_, rfl⟩
      · exact ⟨_, rfl⟩
  next completed =>
    rw [not_not] at completed
    split
    · exact Or.inl ⟨_, rfl⟩
    next full =>
      rw [not_not] at full
      split
      · exact Or.inl ⟨_, rfl⟩
      next running =>
        refine Or.inr ⟨?_, ?_, ?_⟩
        · rw [whole, ← completed, ← full]
        · exact Bool.eq_false_iff.mpr running
        · split <;> rfl

theorem examine_spec (t : Nat) (c : Completion) :
    (∃ result, examine l t c s = ((unsubmit t s).drop result, .quiet)) ∨
      (c = whole l ∧ examine l t c s = keep l t (unsubmit t s)) := by
  simp only [examine]
  split
  · left
    split
    · exact ⟨_, rfl⟩
    · split
      · exact ⟨_, rfl⟩
      · exact ⟨_, rfl⟩
  next completed =>
    rw [not_not] at completed
    split
    · exact Or.inl ⟨_, rfl⟩
    next full =>
      rw [not_not] at full
      split
      · exact Or.inl ⟨_, rfl⟩
      · exact Or.inr ⟨by rw [whole, ← completed, ← full], rfl⟩

theorem Taken.clear_slot {j t : Nat} (h : Taken l slotCount j t s)
    (clear : Clear (s.ring.slots (place l slotCount j)).state) :
    Clear (s.ring.slots (s.transfers t).slotIndex).state := by
  rw [h.aim]
  exact clear

theorem onCompletion_sound (rolls : Rolls l slotBytes slotCount) (h : Sound l slotCount s)
    (here : s.phase = .reaping) {t : Nat} {c : Completion} {rest : List (Nat × Completion)}
    (head : s.finished = (t, c) :: rest) :
    Sound l slotCount (onCompletion l slotCount t c
      { s with finished := rest, reaped := s.reaped + 1 }).1 := by
  obtain ⟨taken, clear⟩ := h.take here head
  rcases @onCompletion_spec l slotCount { s with finished := rest, reaped := s.reaped + 1 } t c
    (h.cancelled t) with ⟨result, dropped⟩ | ⟨_, _, kept⟩
  · rw [dropped]
    exact (taken.drop result).stay (Or.inr (by simp [Source.drop]))
  · have after := taken.keep rolls (keep_keeping (taken.clear_slot clear))
    rw [kept]
    split
    next ended => exact after.stay ended
    next running =>
      rw [not_or, Bool.not_eq_true, Bool.not_eq_true] at running
      exact after.advance rolls running.2 running.1

theorem libUsb_sound (rolls : Rolls l slotBytes slotCount) (h : Sound l slotCount s)
    (a : Action) : Sound l slotCount (libUsbStep l slotCount device s a).1 := by
  have outside : ∀ a, Sound l slotCount (around l slotCount device s a) := h.around
  cases a with
  | submit outcome =>
    simp only [libUsbStep]
    split
    next here => exact submitFirst_sound rolls h here outcome
    next here => exact resubmit_sound rolls h here outcome
    · exact h
  | reap =>
    simp only [libUsbStep]
    split
    next here head => exact onCompletion_sound rolls h here head
    · exact h
  | poll =>
    simp only [libUsbStep]
    split
    next here => exact h.fail here.1 _
    · exact h
  | cancel =>
    simp only [libUsbStep]
    split
    next here =>
      refine .failing ?_ here.1 here.2
      exact
        { order := h.rolling.order
          width := h.rolling.width
          shape := h.rolling.shape
          aimed := h.rolling.aimed
          clear := h.rolling.clear }
    · exact h
  | waitFailed => exact h
  | complete c => exact outside (.complete c)
  | release => exact outside .release
  | process data => exact outside (.process data)
  | requestStop => exact outside .requestStop
  | requestAbort => exact outside .requestAbort
  | abortRing => exact outside .abortRing
  | abortSlot index => exact outside (.abortSlot index)

/-- The walk is at the oldest submission in flight, or at the transfer it is about
to submit again. -/
structure Walking (l : Layout) (slotCount : Nat) (w : WinUsb) : Prop where
  sound : Sound l slotCount w.source
  current : w.source.phase = .reaping → w.source.failed = false →
    w.current = w.source.reaped % l.transferCount
  starting : ∀ next, w.source.phase = .starting next → w.current = 0
  again : ∀ t, w.source.phase = .resubmitting t → t = w.current
  dropped : w.source.dropped = true → w.source.failed = true

theorem start_walking (rolls : Rolls l slotBytes slotCount) (contents : Nat → Nat → UInt8) :
    Walking l slotCount (winUsbStart l slotCount contents) where
  sound := start_sound rolls contents
  current here := by simp [winUsbStart, start] at here
  starting _ _ := rfl
  again _ here := by simp [winUsbStart, start] at here
  dropped no := by simp [winUsbStart, start] at no

/-- The walk has come to an end with a failure. -/
theorem Walking.failing {w : WinUsb} {s' : Source} (sound : Sound l slotCount s')
    (phase : s'.phase = .reaping) (failed : s'.failed = true) :
    Walking l slotCount { w with source := s' } where
  sound := sound
  current _ running := by
    rw [failed] at running
    cases running
  starting _ here := by
    rw [phase] at here
    cases here
  again _ here := by
    rw [phase] at here
    cases here
  dropped _ := failed

theorem Keeping.dropped {t : Nat} {out : Source × Event} (keeping : Keeping l t s out)
    (h : s.dropped = true → s.failed = true) : out.1.dropped = true → out.1.failed = true := by
  cases keeping with
  | discarded => exact h
  | inside => exact h
  | handedOver => exact h
  | refused => simp [Source.drop]

/-- The entry the walk is at is the oldest in flight and the first to complete. -/
theorem Walking.head {w : WinUsb} (h : Walking l slotCount w) (here : w.source.phase = .reaping)
    (running : w.source.failed = false) {t : Nat} {c : Completion}
    {rest : List (Nat × Completion)} (head : w.source.finished = (t, c) :: rest) :
    t = w.current := by
  have rolling := h.sound.rolling
  rw [show inFlight w.source = t :: (rest.map Prod.fst ++ w.source.pending) by
    simp [inFlight, head]] at rolling
  exact rolling.tail.1.trans (h.current here running).symm

/-- A transfer that was not submitted again ends the walk; while the capture goes on
there is none. -/
theorem Walking.submitted (rolls : Rolls l slotBytes slotCount) {w : WinUsb}
    (h : Walking l slotCount w) (here : w.source.phase = .reaping)
    (running : w.source.failed = false) (more : w.source.captureComplete = false) :
    (w.source.transfers w.current).submitted = true := by
  have phased := h.sound.phased
  simp only [Phased, here] at phased
  have full := phased running more
  have positive := transferCount_pos rolls
  rw [h.current here running]
  exact (h.sound.rolling.aimed _ le_rfl (by omega)).2

theorem walk_walking (rolls : Rolls l slotBytes slotCount) {w : WinUsb}
    (h : Walking l slotCount w) (here : w.source.phase = .reaping)
    (running : w.source.failed = false) : Walking l slotCount (walk l slotCount w).1 := by
  unfold walk
  dsimp only
  split
  · cases head : w.source.finished with
    | nil => exact h
    | cons entry rest =>
      obtain ⟨t, c⟩ := entry
      obtain rfl := h.head here running head
      obtain ⟨taken, clear⟩ := h.sound.take here head
      have current := h.current here running
      have next : nextCurrent l w.current = (w.source.reaped + 1) % l.transferCount := by
        rw [nextCurrent, current, Nat.mod_add_mod]
      simp only [List.lookup_cons, beq_self_eq_true, List.eraseP_cons_of_pos]
      rcases @examine_spec l { w.source with finished := rest, reaped := w.source.reaped + 1 }
        w.current c with ⟨result, dropped⟩ | ⟨_, kept⟩
      · have gone := taken.drop result
        have failed : ((unsubmit w.current { w.source with
            finished := rest, reaped := w.source.reaped + 1 }).drop result).failed = true := by
          simp [Source.drop]
        rw [dropped]
        simp only [failed, if_true]
        exact .failing (gone.stay (Or.inr failed)) gone.phase failed
      · have keeping := @keep_keeping l _ _ (taken.clear_slot clear)
        have after := taken.keep rolls keeping
        have lost := keeping.dropped h.dropped
        rw [kept]
        generalize keep l w.current _ = out at after lost ⊢
        split
        next failed => exact .failing (after.stay (Or.inr failed)) after.phase failed
        next whole =>
          split
          next complete =>
            exact
              { sound := after.stay (Or.inl complete)
                current := fun _ _ => by rw [next, after.reaped]
                starting := fun _ at_start => by simp [after.phase] at at_start
                again := fun _ waiting => by simp [after.phase] at waiting
                dropped := lost }
          next more =>
            exact
              { sound := after.advance rolls (by simpa using whole) (by simpa using more)
                current := fun no => by simp [advance] at no
                starting := fun _ no => by simp [advance] at no
                again := fun _ waiting => by simpa [advance] using waiting.symm
                dropped := lost }
  next idle =>
    split
    · exact { h with }
    next more => exact absurd (h.submitted rolls here running (by simpa using more)) idle

/-! ### What submitting and failing leave alone -/

structure Frame (s s' : Source) : Prop where
  ring : s'.ring = s.ring
  discarded : s'.discardedTransfers = s.discardedTransfers
  finished : s'.finished = s.finished
  streamed : s'.streamed = s.streamed
  reaped : s'.reaped = s.reaped
  dropped : s'.dropped = s.dropped

theorem frame_fail (result : TransferResult) (s : Source) : Frame s (s.fail result) := by
  unfold Source.fail
  split <;> exact ⟨rfl, rfl, rfl, rfl, rfl, rfl⟩

theorem frame_submitTransfer (refusal : Submission → TransferResult) (outcome : Submission)
    (t : Nat) (s : Source) : Frame s (submitTransfer refusal outcome t s) := by
  cases outcome with
  | queued => exact ⟨rfl, rfl, rfl, rfl, rfl, rfl⟩
  | noMemory | refused => exact frame_fail _ s

theorem frame_submitFirst (refusal : Submission → TransferResult) (outcome : Submission)
    (next : Nat) : Frame s (submitFirst l refusal outcome next s) := by
  have submitted := frame_submitTransfer refusal outcome next
    (s.alter next fun entry => { entry with submitted := false, cancelled := false })
  unfold submitFirst
  dsimp only
  split <;> exact { submitted with }

theorem frame_resubmit (refusal : Submission → TransferResult) (outcome : Submission) (t : Nat) :
    Frame s (resubmit refusal outcome t s) := by
  have submitted := frame_submitTransfer refusal outcome t s
  have failed := frame_fail .forcedAbort s
  simp only [resubmit]
  repeat' split
  all_goals first
    | exact { submitted with }
    | exact { failed with }
    | exact ⟨rfl, rfl, rfl, rfl, rfl, rfl⟩

theorem resubmit_waits (refusal : Submission → TransferResult) (outcome : Submission) (t : Nat) :
    (resubmit refusal outcome t s).phase = .reaping ∨ resubmit refusal outcome t s = s := by
  simp only [resubmit]
  repeat' split
  all_goals simp

theorem submitFirst_phase (refusal : Submission → TransferResult) (outcome : Submission)
    (next t : Nat) : (submitFirst l refusal outcome next s).phase ≠ .resubmitting t := by
  unfold submitFirst
  dsimp only
  split <;> simp

theorem probe_cases (current : Nat) : probe l current s = s ∨ ∃ r, probe l current s = s.fail r := by
  simp only [probe]
  repeat' split
  all_goals first
    | exact Or.inl rfl
    | exact Or.inr ⟨_, rfl⟩

theorem resubmitCurrent_walking (rolls : Rolls l slotBytes slotCount) {w : WinUsb}
    (h : Walking l slotCount w) {t : Nat} (here : w.source.phase = .resubmitting t)
    (outcome : Submission) : Walking l slotCount (resubmitCurrent l outcome w) := by
  obtain rfl := h.again t here
  have sound := @resubmit_sound l slotBytes slotCount _ winUsbRefusal rolls _ h.sound here outcome
  have frame := @frame_resubmit w.source winUsbRefusal outcome w.current
  have waits := @resubmit_waits w.source winUsbRefusal outcome w.current
  have phased := h.sound.phased
  simp only [Phased, here] at phased
  obtain ⟨calm, _, j, count, which, _⟩ := phased
  have next : nextCurrent l w.current = w.source.reaped % l.transferCount := by
    rw [nextCurrent, which, Nat.mod_add_mod, count]
  unfold resubmitCurrent
  generalize resubmit winUsbRefusal outcome w.current w.source = s' at sound frame waits ⊢
  dsimp only
  split
  next stays =>
    rcases waits with phase | rfl
    · exact .failing sound phase (stays.resolve_right fun no => no phase)
    · exact h
  next queued =>
    rw [not_or, not_not] at queued
    obtain ⟨running, phase⟩ := queued
    rcases @probe_cases l s' w.current with clean | ⟨r, found⟩
    · rw [clean, if_neg running]
      exact
        { sound := sound
          current := fun _ _ => by rw [next, frame.reaped]
          starting := fun _ at_start => by simp [phase] at at_start
          again := fun _ waiting => by simp [phase] at waiting
          dropped := by
            intro lost
            rw [frame.dropped] at lost
            have clash := h.dropped lost
            rw [calm] at clash
            cases clash }
    · rw [found, if_pos (fail_failed r s')]
      exact .failing (sound.fail phase r) (by simpa using phase) (fail_failed r s')

/-- After a failure the rest is waited for and dropped. -/
theorem recover_walking {w : WinUsb} (h : Walking l slotCount w)
    (here : w.source.phase = .reaping) (failed : w.source.failed = true) :
    Walking l slotCount { w with source := recover w.source } := by
  unfold recover
  split
  · exact h
  next t c rest head =>
    obtain ⟨taken, _⟩ := h.sound.take here head
    have gone : Taken l slotCount w.source.reaped t
        { unsubmit t w.source with
          finished := rest, reaped := w.source.reaped + 1, dropped := true } := { taken with }
    exact .failing (gone.stay (Or.inr failed)) here failed

theorem around_frame (a : Action) :
    (around l slotCount device s a).reaped = s.reaped ∧
      (around l slotCount device s a).phase = s.phase ∧
      (around l slotCount device s a).failed = s.failed ∧
      (around l slotCount device s a).dropped = s.dropped := by
  cases a with
  | complete c =>
    simp only [around, complete]
    repeat' split
    all_goals simp
  | release | process _ | abortSlot _ =>
    simp only [around]
    split <;> simp
  | _ => exact ⟨rfl, rfl, rfl, rfl⟩

theorem winUsb_walking (rolls : Rolls l slotBytes slotCount) {w : WinUsb}
    (h : Walking l slotCount w) (a : Action) :
    Walking l slotCount (winUsbStep l slotCount device w a).1 := by
  have outside (a : Action) :
      Walking l slotCount { w with source := around l slotCount device w.source a } := by
    obtain ⟨reaped, phase, failed, dropped⟩ := @around_frame l slotCount device w.source a
    exact
      { sound := h.sound.around a
        current := by simpa only [reaped, phase, failed] using h.current
        starting := by simpa only [phase] using h.starting
        again := by simpa only [phase] using h.again
        dropped := by simpa only [failed, dropped] using h.dropped }
  cases a with
  | submit outcome =>
    simp only [winUsbStep]
    split
    next next here =>
      have sound := @submitFirst_sound l slotBytes slotCount _ winUsbRefusal rolls _ h.sound here
        outcome
      have frame := @frame_submitFirst l w.source winUsbRefusal outcome next
      have phased := h.sound.phased
      simp only [Phased, here] at phased
      have start := h.starting next here
      exact
        { sound := sound
          current := fun _ _ => by rw [frame.reaped, phased.2.2.1, start, Nat.zero_mod]
          starting := fun _ _ => start
          again := fun t waiting => absurd waiting (submitFirst_phase _ _ _ t)
          dropped := fun lost => by
            rw [frame.dropped] at lost
            have clash := h.dropped lost
            rw [phased.1] at clash
            cases clash }
    next here => exact resubmitCurrent_walking rolls h here outcome
    · exact h
  | reap =>
    simp only [winUsbStep]
    split
    · exact h
    next here =>
      rw [not_or, not_not] at here
      split
      next failed => exact recover_walking h here.1 failed
      next running => exact walk_walking rolls h here.1 (by simpa using running)
  | poll =>
    simp only [winUsbStep]
    split
    next here => exact .failing (h.sound.fail here.1 _) (by simpa using here.1) (by simp)
    · exact h
  | waitFailed =>
    simp only [winUsbStep]
    split
    next here => exact .failing (h.sound.fail here.1 _) (by simpa using here.1) (by simp)
    · exact h
  | cancel => exact h
  | complete c => exact outside (.complete c)
  | release => exact outside .release
  | process data => exact outside (.process data)
  | requestStop => exact outside .requestStop
  | requestAbort => exact outside .requestAbort
  | abortRing => exact outside .abortRing
  | abortSlot index => exact outside (.abortSlot index)

end Steps

end RollingTransfers
