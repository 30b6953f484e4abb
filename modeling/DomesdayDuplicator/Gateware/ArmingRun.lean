import DomesdayDuplicator.Gateware.RemoteArming

/-!
# From the arming request to the armed state

Over every stream of inputs and every timing of the block. Asked while the block has been
free for two clocks, the machine has its five writes taken once each and in their order, is
armed after them and not before, and comes to be armed if the block answers. Asked earlier
it loses the first of them, the watchdog timeout.
-/

namespace ArmingRun

open ClockedCircuit RemoteUpdate RemoteArming

variable (delay : Nat) {w : World} {i : Pins × Timing}

/-! ## The writes that have been taken -/

/-- What has been taken once the second write is issued. -/
def first (lost : Bool) : List Write := if lost then [] else [timeoutWrite]

/-- The states behind the five writes. -/
def past : State → Bool
  | .idle | .writeTimeout | .writeEnable | .writeOscInt | .writeCdEarly | .writeAddress => false
  | _ => true

inductive Kept (lost : Bool) (address : BitVec 24) (w : World) : Prop
  | idle (state : w.fabric.state = .idle) (h : Idle w)
  | early (state : w.fabric.state = .writeTimeout) (loses : lost = true) (h : Doomed w ∨ Dropped w)
  | timeout (state : w.fabric.state = .writeTimeout) (keeps : lost = false)
      (h : Waiting [] timeoutWrite w)
  | enable (state : w.fabric.state = .writeEnable) (h : Waiting (first lost) enableWrite w)
  | oscInt (state : w.fabric.state = .writeOscInt)
      (h : Waiting (first lost ++ [enableWrite]) oscIntWrite w)
  | cdEarly (state : w.fabric.state = .writeCdEarly)
      (h : Waiting (first lost ++ [enableWrite] ++ [oscIntWrite]) cdEarlyWrite w)
  | address (state : w.fabric.state = .writeAddress)
      (h : Waiting (first lost ++ [enableWrite] ++ [oscIntWrite] ++ [cdEarlyWrite])
        (addressWrite address) w)
  | past (state : past w.fabric.state = true)
      (accepted : w.block.accepted = first lost ++ [enableWrite] ++ [oscIntWrite] ++
        [cdEarlyWrite] ++ [addressWrite address])
      (pending : w.fabric.writePending = false)

/-- The five states in which a write is pending or has ended. -/
def writing : State → Bool
  | .writeTimeout | .writeEnable | .writeOscInt | .writeCdEarly | .writeAddress => true
  | _ => false

theorem past_of_writing {s : State} (inside : writing s = true) : past s = false := by
  cases s <;> first
    | rfl
    | exact absurd inside (by decide)

theorem clock_waits (inside : writing w.fabric.state = true) (going : w.fabric.blockIdle = false) :
    w.clock delay i = wait i w := by
  cases state : w.fabric.state <;> rw [state] at inside <;> first
    | exact absurd inside (by decide)
    | simp [World.clock, wait, Registers.clock, state, going]

theorem past_clock (pins : Pins) (busy : Bool) (out : BitVec 29) {r : Registers}
    (state : past r.state = true) (pending : r.writePending = false) :
    past (r.clock delay pins busy out).state = true ∧
      (r.clock delay pins busy out).writePending = false := by
  cases here : r.state <;> rw [here] at state <;> first
    | exact absurd state (by decide)
    | simp only [Registers.clock, here]
      split <;> simp [Registers.advance, Registers.issueRead, Registers.note, pending, here, past]
    | simp [Registers.clock, Registers.advance, pending, here, past]

/-- A write that has ended makes room for the next one. -/
theorem issues {param : Param} {data : BitVec 24} {next : State} (free : Free w)
    (fabric : w.fabric.clock delay i.1 w.block.busy i.2.dataOut =
      (w.fabric.advance i.1 w.block.busy).issueWrite param data next) :
    (w.clock delay i).fabric.state = next ∧
      Waiting w.block.accepted (param, data) (w.clock delay i) := by
  have whole : w.clock delay i =
      ⟨(w.fabric.advance i.1 w.block.busy).issueWrite param data next, w.block⟩ := by
    rw [World.clock, fabric]
    simp [free.still]
  rw [whole]
  exact ⟨rfl, free.issue param data next⟩

theorem Kept.clock {lost : Bool} {address : BitVec 24} (h : Kept lost address w)
    (arms : w.fabric.state = .idle → i.1.armRequest = true → lost = !decide (Ready w))
    (addresses : w.fabric.state = .writeCdEarly → w.fabric.blockIdle = true →
      i.1.bootAddress = address) : Kept lost address (w.clock delay i) := by
  have stays : writing w.fabric.state = true → w.fabric.blockIdle = false →
      w.clock delay i = wait i w := clock_waits delay
  cases h with
  | idle state h =>
    by_cases asked : i.1.armRequest = true
    · have armed : w.clock delay i = RemoteArming.arm i w := by
        simp [World.clock, RemoteArming.arm, Registers.clock, state, asked]
      rw [armed]
      by_cases ready : Ready w
      · exact .timeout rfl (by simp [arms state asked, ready]) (h.arm ready)
      · exact .early rfl (by simp [arms state asked, ready]) (Or.inl (h.unready ready))
    · have waits : w.clock delay i = wait i w := by
        simp [World.clock, wait, Registers.clock, state, asked]
      rw [waits]
      exact .idle state h.wait
  | early state loses h =>
    cases idle : w.fabric.blockIdle with
    | false =>
      rw [stays (by rw [state]; rfl) idle]
      rcases h with doomed | dropped
      · exact .early state loses doomed.wait
      · exact .early state loses (Or.inr (dropped.wait idle))
    | true =>
      rcases h with doomed | dropped
      · simp [Registers.blockIdle, doomed.pending] at idle
      · have next := issues delay (i := i)
          (dropped.free idle) (by simp [Registers.clock, state, idle]; rfl)
        rw [dropped.accepted] at next
        exact .enable next.1 (by rw [loses]; exact next.2)
  | timeout state keeps h =>
    cases idle : w.fabric.blockIdle with
    | false => exact stays (by rw [state]; rfl) idle ▸ .timeout state keeps (h.wait idle)
    | true =>
      have next := issues delay (i := i)
        (h.free idle).1 (by simp [Registers.clock, state, idle]; rfl)
      rw [(h.free idle).2] at next
      exact .enable next.1 (by rw [keeps]; exact next.2)
  | enable state h =>
    cases idle : w.fabric.blockIdle with
    | false => exact stays (by rw [state]; rfl) idle ▸ .enable state (h.wait idle)
    | true =>
      have next := issues delay (i := i)
        (h.free idle).1 (by simp [Registers.clock, state, idle]; rfl)
      rw [(h.free idle).2] at next
      exact .oscInt next.1 next.2
  | oscInt state h =>
    cases idle : w.fabric.blockIdle with
    | false => exact stays (by rw [state]; rfl) idle ▸ .oscInt state (h.wait idle)
    | true =>
      have next := issues delay (i := i)
        (h.free idle).1 (by simp [Registers.clock, state, idle]; rfl)
      rw [(h.free idle).2] at next
      exact .cdEarly next.1 next.2
  | cdEarly state h =>
    cases idle : w.fabric.blockIdle with
    | false => exact stays (by rw [state]; rfl) idle ▸ .cdEarly state (h.wait idle)
    | true =>
      have next := issues delay (i := i)
        (h.free idle).1 (by simp [Registers.clock, state, idle]; rfl)
      rw [(h.free idle).2, addresses state idle] at next
      exact .address next.1 next.2
  | address state h =>
    cases idle : w.fabric.blockIdle with
    | false => exact stays (by rw [state]; rfl) idle ▸ .address state (h.wait idle)
    | true =>
      have read : w.fabric.clock delay i.1 w.block.busy i.2.dataOut =
          (w.fabric.advance i.1 w.block.busy).issueRead paramMsmMode sourceCurrent .readMode := by
        simp [Registers.clock, state, idle]
      have ended : w.fabric.writePending = false := by
        simp [Registers.blockIdle] at idle
        exact idle.2
      have whole : w.clock delay i =
          ⟨(w.fabric.advance i.1 w.block.busy).issueRead paramMsmMode sourceCurrent .readMode,
            w.block⟩ := by
        rw [World.clock, read]
        simp [(h.free idle).1.still]
      rw [whole]
      refine .past rfl (h.free idle).2 ?_
      simp [Registers.issueRead, Registers.advance, ended]
  | past state accepted pending =>
    have next := past_clock delay i.1 w.block.busy i.2.dataOut state pending
    refine .past next.1 ?_ next.2
    rw [World.clock]
    simp only
    split
    · have quiet : (if i.2.early then
          w.fabric.clock delay i.1 w.block.busy i.2.dataOut
          else w.fabric).writePending = false := by
        split
        · exact next.2
        · exact pending
      rw [edge_quiet _ quiet, accepted]
    · exact accepted

/-! ## The order of the states -/

def rank : State → Nat
  | .idle => 0
  | .writeTimeout => 1
  | .writeEnable => 2
  | .writeOscInt => 3
  | .writeCdEarly => 4
  | .writeAddress => 5
  | .readMode => 6
  | .readTrigger => 7
  | .readBoot => 8
  | .readTimer => 9
  | .readWdEn => 10
  | .readOscInt => 11
  | .readCdEarly => 12
  | .holdOff => 13
  | .armed => 14

theorem rank_inj {s t : State} (same : rank s = rank t) : s = t := by
  cases s <;> cases t <;> first
    | rfl
    | exact absurd same (by decide)

theorem rank_clock (pins : Pins) (busy : Bool) (out : BitVec 29) (r : Registers) :
    rank r.state ≤ rank (r.clock delay pins busy out).state := by
  cases here : r.state <;> simp only [Registers.clock, here] <;> (try split) <;>
    simp [Registers.issueWrite, Registers.issueRead, Registers.note, Registers.advance, here, rank]

theorem armed_clock (pins : Pins) (busy : Bool) (out : BitVec 29) {r : Registers}
    (h : r.armed = true ↔ r.state = .armed) :
    (r.clock delay pins busy out).armed = true ↔
      (r.clock delay pins busy out).state = .armed := by
  cases here : r.state <;> rw [here] at h <;> simp only [Registers.clock, here] <;> (try split) <;>
    simpa [Registers.issueWrite, Registers.issueRead, Registers.note, Registers.advance, here]
      using h

theorem quarter_clock (pins : Pins) (busy : Bool) (out : BitVec 29) (r : Registers) :
    quarter (r.clock delay pins busy out) = quarter (r.advance pins busy) := by
  cases here : r.state <;> simp only [Registers.clock, here] <;> (try split) <;> rfl

section Run

variable (inputs : Nat → Pins × Timing) (busy : Bool)

/-- The fabric and the block before the `n`-th clock. -/
def world (n : Nat) : World := run (World.clock delay) (launch busy) inputs n

theorem world_succ (n : Nat) : world delay inputs busy (n + 1) =
    (world delay inputs busy n).clock delay (inputs n) := rfl

/-- The clock takes the arming request. -/
def Asked (n : Nat) : Prop :=
  (world delay inputs busy n).fabric.state = .idle ∧ (inputs n).1.armRequest = true

/-- The clock issues the write of the boot address. -/
def Addresses (n : Nat) : Prop :=
  (world delay inputs busy n).fabric.state = .writeCdEarly ∧
    (world delay inputs busy n).fabric.blockIdle = true

theorem rank_mono {m n : Nat} (le : m ≤ n) :
    rank (world delay inputs busy m).fabric.state ≤ rank (world delay inputs busy n).fabric.state := by
  induction n, le using Nat.le_induction with
  | base => exact Nat.le_refl _
  | succ n _ ih => exact Nat.le_trans ih (rank_clock delay _ _ _ _)

/-- A state is left once. -/
theorem last_of_leaves {m n : Nat} {s : State}
    (leaves : (world delay inputs busy (m + 1)).fabric.state ≠ s)
    (here : (world delay inputs busy m).fabric.state = s)
    (there : (world delay inputs busy n).fabric.state = s) : n ≤ m := by
  by_contra later
  have first := rank_mono delay inputs busy (Nat.le_succ m)
  have second := rank_mono delay inputs busy (m := m + 1) (n := n) (by omega)
  rw [there] at second
  rw [here] at first
  exact leaves (rank_inj (Nat.le_antisymm second first))

theorem Asked.leaves {n : Nat} (h : Asked delay inputs busy n) :
    (world delay inputs busy (n + 1)).fabric.state = .writeTimeout := by
  simp [world_succ, World.clock, Registers.clock, h.1, h.2, Registers.issueWrite]

theorem Addresses.leaves {n : Nat} (h : Addresses delay inputs busy n) :
    (world delay inputs busy (n + 1)).fabric.state = .writeAddress := by
  simp [world_succ, World.clock, Registers.clock, h.1, h.2, Registers.issueWrite]

theorem asked_once {m n : Nat} (hm : Asked delay inputs busy m) (hn : Asked delay inputs busy n) :
    m = n := by
  apply Nat.le_antisymm
  · exact last_of_leaves delay inputs busy (by rw [hn.leaves]; decide) hn.1 hm.1
  · exact last_of_leaves delay inputs busy (by rw [hm.leaves]; decide) hm.1 hn.1

theorem addresses_once {m n : Nat} (hm : Addresses delay inputs busy m)
    (hn : Addresses delay inputs busy n) : m = n := by
  apply Nat.le_antisymm
  · exact last_of_leaves delay inputs busy (by rw [hn.leaves]; decide) hn.1 hm.1
  · exact last_of_leaves delay inputs busy (by rw [hm.leaves]; decide) hm.1 hn.1

theorem address_exists : ∃ address, ∀ n, Addresses delay inputs busy n →
    (inputs n).1.bootAddress = address := by
  by_cases some' : ∃ n, Addresses delay inputs busy n
  · obtain ⟨m, hm⟩ := some'
    exact ⟨(inputs m).1.bootAddress, fun n hn => by rw [addresses_once delay inputs busy hn hm]⟩
  · exact ⟨0, fun n hn => absurd ⟨n, hn⟩ some'⟩

theorem kept {lost : Bool} {address : BitVec 24}
    (asks : ∀ n, Asked delay inputs busy n → lost = !decide (Ready (world delay inputs busy n)))
    (addresses : ∀ n, Addresses delay inputs busy n → (inputs n).1.bootAddress = address)
    (n : Nat) : Kept lost address (world delay inputs busy n) := by
  induction n with
  | zero => exact .idle rfl (idle_launch busy)
  | succ n ih =>
    exact ih.clock delay (fun state request => asks n ⟨state, request⟩)
      fun state idle => addresses n ⟨state, idle⟩

theorem armed_iff (n : Nat) : (world delay inputs busy n).fabric.armed = true ↔
    (world delay inputs busy n).fabric.state = .armed := by
  induction n with
  | zero => simp [world, run, launch, reset]
  | succ n ih => exact armed_clock delay _ _ _ ih

end Run

/-! ## What has been accepted -/

theorem Kept.order {address : BitVec 24} (h : Kept false address w) :
    w.block.accepted <+: writes address := by
  cases h with
  | idle state h => exact ⟨writes address, by rw [h.accepted]; rfl⟩
  | early state loses h => cases loses
  | timeout state keeps h => exact h.accepted_so_far _
  | enable state h => exact h.accepted_so_far _
  | oscInt state h => exact h.accepted_so_far _
  | cdEarly state h => exact h.accepted_so_far _
  | address state h => exact h.accepted_so_far []
  | past state accepted pending => exact ⟨[], by rw [accepted]; rfl⟩

theorem Kept.complete {address : BitVec 24} (h : Kept false address w)
    (armed : w.fabric.state = .armed) : w.block.accepted = writes address := by
  cases h with
  | past state accepted pending => exact accepted
  | early state loses h => cases loses
  | _ => simp_all

/-- A write that went unheard is not heard of again. -/
theorem Kept.missing {address : BitVec 24} (h : Kept true address w) :
    timeoutWrite ∉ w.block.accepted := by
  have others : ∀ {before : List Write} {now : Write}, Waiting before now w →
      timeoutWrite ∉ before ++ [now] → timeoutWrite ∉ w.block.accepted := by
    intro before now waiting absent among
    have whole := waiting.accepted_so_far []
    rw [List.append_nil] at whole
    exact absent (whole.subset among)
  have second : timeoutWrite ≠ enableWrite := by decide
  have third : timeoutWrite ≠ oscIntWrite := by decide
  have fourth : timeoutWrite ≠ cdEarlyWrite := by decide
  have last : timeoutWrite ≠ addressWrite address :=
    fun same => absurd (congrArg Prod.fst same)
      (show paramWatchdogValue ≠ paramBootAddress by decide)
  cases h with
  | idle state h => simp [h.accepted]
  | early state loses h => rcases h with h | h <;> simp [h.accepted]
  | timeout state keeps h => cases keeps
  | enable state h => exact others h (by simp [first, second])
  | oscInt state h => exact others h (by simp [first, second, third])
  | cdEarly state h => exact others h (by simp [first, second, third, fourth])
  | address state h => exact others h (by simp [first, second, third, fourth, last])
  | past state accepted pending => simp [accepted, first, second, third, fourth, last]

theorem Kept.standing {address : BitVec 24} (h : Kept false address w)
    (inside : writing w.fabric.state = true) : ∃ stage, Standing stage w := by
  cases h with
  | idle state h => simp [state, writing] at inside
  | early state loses h => cases loses
  | timeout state keeps h => exact h.stage.imp fun _ h => h.1
  | enable state h => exact h.stage.imp fun _ h => h.1
  | oscInt state h => exact h.stage.imp fun _ h => h.1
  | cdEarly state h => exact h.stage.imp fun _ h => h.1
  | address state h => exact h.stage.imp fun _ h => h.1
  | past state accepted pending =>
    rw [past_of_writing inside] at state
    cases state

/-- What is pending at two clocks in a row is the same write. -/
theorem Kept.stable {lost : Bool} {address : BitVec 24} (h : Kept lost address w)
    (pending : w.fabric.writePending = true) :
    (w.clock delay i).fabric.paramSelect = w.fabric.paramSelect ∧
      (w.clock delay i).fabric.paramData = w.fabric.paramData := by
  have going : w.fabric.blockIdle = false := by simp [Registers.blockIdle, pending]
  have inside : writing w.fabric.state = true := by
    cases h with
    | idle state h => rw [h.pending] at pending; cases pending
    | past state accepted ended => rw [ended] at pending; cases pending
    | early state _ _ => rw [state]; rfl
    | timeout state _ _ => rw [state]; rfl
    | enable state _ => rw [state]; rfl
    | oscInt state _ => rw [state]; rfl
    | cdEarly state _ => rw [state]; rfl
    | address state _ => rw [state]; rfl
  rw [clock_waits delay inside going]
  exact ⟨rfl, rfl⟩

/-! ## No state lasts for ever -/

section Progress

variable (inputs : Nat → Pins × Timing) (busy : Bool)

/-- The block answers: what it handles makes it busy, and it does not stay so. -/
structure Answers : Prop where
  raises : ∀ n, (world delay inputs busy n).block.handling = true →
    ∃ m, n ≤ m ∧ (world delay inputs busy m).block.busy = true
  falls : ∀ n, (world delay inputs busy n).block.busy = true →
    ∃ m, n ≤ m ∧ (world delay inputs busy m).block.busy = false

theorem quarter_succ (n : Nat) : quarter (world delay inputs busy (n + 1)).fabric =
    (quarter (world delay inputs busy n).fabric).next := by
  rw [world_succ, World.clock, quarter_clock, quarter_advance]

/-- The divided clock rises again and again. -/
theorem rises_again (n : Nat) : ∃ m, n ≤ m ∧ (world delay inputs busy m).rises = true := by
  have one := quarter_succ delay inputs busy n
  have two := quarter_succ delay inputs busy (n + 1)
  have three := quarter_succ delay inputs busy (n + 2)
  simp only [rises_iff]
  cases here : quarter (world delay inputs busy n).fabric with
  | rising =>
    rw [here] at one
    rw [one] at two
    rw [two] at three
    exact ⟨n + 3, by omega, three⟩
  | high =>
    rw [here] at one
    rw [one] at two
    exact ⟨n + 2, by omega, two⟩
  | falling =>
    rw [here] at one
    exact ⟨n + 1, by omega, one⟩
  | low => exact ⟨n, Nat.le_refl n, here⟩

def Stands (stage : WriteStage) (n : Nat) : Prop :=
  Standing stage (world delay inputs busy n)

variable {inputs} {busy}

/-- No write is pending for ever. -/
theorem write_ends (answers : Answers delay inputs busy) {n : Nat}
    (waits : ∀ m, n ≤ m → (world delay inputs busy (m + 1)) =
      wait (inputs m) (world delay inputs busy m))
    (going : ∀ m, n ≤ m → (world delay inputs busy m).fabric.blockIdle = false)
    {stage : WriteStage} (standing : Stands delay inputs busy stage n) : False := by
  have not_fallen : ∀ m, n ≤ m → ¬ Stands delay inputs busy .fallen m := by
    intro m le h
    have next : ∃ k, m < k ∧ (fun _ => False) k := by
      refine eventually_leaves h (fun k later here => ?_) fun always => ?_
      · simp only [Stands, waits k (by omega : n ≤ k)]
        exact Or.inl (fallen_wait here (going k (by omega))).2
      · obtain ⟨k, later, rises⟩ := rises_again delay inputs busy m
        rw [fallen_still (always k later)] at rises
        cases rises
    exact next.choose_spec.2
  have not_held : ∀ m, n ≤ m → ¬ Stands delay inputs busy .held m := by
    intro m le h
    have next : ∃ k, m < k ∧ Stands delay inputs busy .fallen k := by
      refine eventually_leaves h (fun k later here => ?_) fun always => ?_
      · simp only [Stands, waits k (by omega : n ≤ k)]
        exact (held_wait here).2
      · obtain ⟨k, later, free⟩ := answers.falls m h.2.1
        rw [(always k later).2.1] at free
        cases free
    obtain ⟨k, later, fallen⟩ := next
    exact not_fallen k (by omega) fallen
  have not_raised : ∀ m, n ≤ m → ¬ Stands delay inputs busy .raised m := by
    intro m le h
    have next : ∃ k, m < k ∧ Stands delay inputs busy .held k := by
      refine eventually_leaves h (fun k later here => ?_) fun always => ?_
      · simp only [Stands, waits k (by omega : n ≤ k)]
        exact (raised_wait here).2.2
      · obtain ⟨k, later, rises⟩ := rises_again delay inputs busy m
        rw [(raised_wait (i := inputs k) (always k later)).1] at rises
        cases rises
    obtain ⟨k, later, held⟩ := next
    exact not_held k (by omega) held
  have not_taken : ∀ m, n ≤ m → ¬ Stands delay inputs busy .taken m := by
    intro m le h
    have next : ∃ k, m < k ∧ Stands delay inputs busy .raised k := by
      refine eventually_leaves h (fun k later here => ?_) fun always => ?_
      · simp only [Stands, waits k (by omega : n ≤ k)]
        exact (taken_wait here).2
      · obtain ⟨k, later, raised⟩ := answers.raises m h.2.2.1
        rw [(always k later).2.1] at raised
        cases raised
    obtain ⟨k, later, raised⟩ := next
    exact not_raised k (by omega) raised
  have not_offered : ∀ m, n ≤ m → ¬ Stands delay inputs busy .offered m := by
    intro m le h
    have next : ∃ k, m < k ∧ (Stands delay inputs busy .taken k ∨
        Stands delay inputs busy .raised k) := by
      refine eventually_leaves h (fun k later here => ?_) fun always => ?_
      · simp only [Stands, waits k (by omega : n ≤ k)]
        exact (offered_wait here).imp (fun stays => stays.2.2) fun goes => goes.2.2
      · obtain ⟨k, later, rises⟩ := rises_again delay inputs busy m
        have after : Stands delay inputs busy .offered (k + 1) :=
          always (k + 1) (by omega)
        have idle : (world delay inputs busy (k + 1)).block.handling = false := after.2.2.1
        rw [waits k (by omega)] at idle
        rcases offered_wait (i := inputs k) (always k later) with ⟨still, _⟩ | ⟨_, _, taken | raised⟩
        · rw [still] at rises
          cases rises
        · rw [taken.2.2.1] at idle
          cases idle
        · rw [raised.2.2.1] at idle
          cases idle
    obtain ⟨k, later, taken | raised⟩ := next
    · exact not_taken k (by omega) taken
    · exact not_raised k (by omega) raised
  cases stage with
  | offered => exact not_offered n (Nat.le_refl n) standing
  | taken => exact not_taken n (Nat.le_refl n) standing
  | raised => exact not_raised n (Nat.le_refl n) standing
  | held => exact not_held n (Nat.le_refl n) standing
  | fallen => exact not_fallen n (Nat.le_refl n) standing

/-- A reading takes its time, whatever the block does. -/
theorem reading_clock (pins : Pins) (flag : Bool) (out : BitVec 29) {r : Registers}
    (within : 6 ≤ rank r.state ∧ rank r.state ≤ 12)
    (stays : (r.clock delay pins flag out).state = r.state) :
    r.readTimer ≠ 0 ∧ (r.clock delay pins flag out).readTimer = r.readTimer - 1 := by
  by_cases ended : r.readTimer = 0
  · exfalso
    cases here : r.state <;> rw [here] at within stays <;>
      simp [Registers.clock, here, ended, Registers.issueRead, rank] at stays within
  · refine ⟨ended, ?_⟩
    cases here : r.state <;> rw [here] at within <;>
      simp [Registers.clock, here, ended, rank] at within ⊢ <;> rfl

theorem holdOff_clock (pins : Pins) (flag : Bool) (out : BitVec 29) {r : Registers}
    (here : r.state = .holdOff) (stays : (r.clock delay pins flag out).state = r.state) :
    r.holdOff ≠ 0 ∧ (r.clock delay pins flag out).holdOff = r.holdOff - 1 := by
  by_cases ended : r.holdOff = 0
  · simp [Registers.clock, here, ended] at stays
  · exact ⟨ended, by simp [Registers.clock, here, ended]⟩

theorem idle_leaves (inside : writing w.fabric.state = true) (idle : w.fabric.blockIdle = true) :
    (w.clock delay i).fabric.state ≠ w.fabric.state := by
  cases here : w.fabric.state <;> rw [here] at inside <;> first
    | exact absurd inside (by decide)
    | simp [World.clock, Registers.clock, here, idle, Registers.issueWrite, Registers.issueRead]

theorem leaves (answers : Answers delay inputs busy) {address : BitVec 24}
    (kept : ∀ n, Kept false address (world delay inputs busy n)) {n : Nat}
    (begun : (world delay inputs busy n).fabric.state ≠ .idle)
    (going : (world delay inputs busy n).fabric.state ≠ .armed) :
    ∃ m, n < m ∧ rank (world delay inputs busy n).fabric.state <
      rank (world delay inputs busy m).fabric.state := by
  by_contra none
  have same : ∀ m, n ≤ m → (world delay inputs busy m).fabric.state =
      (world delay inputs busy n).fabric.state := by
    intro m le
    have mono := rank_mono delay inputs busy le
    rcases Nat.lt_or_ge n m with later | earlier
    · exact rank_inj (Nat.le_antisymm (Nat.not_lt.mp fun more => none ⟨m, later, more⟩) mono)
    · rw [Nat.le_antisymm earlier le]
  have still : ∀ m, n ≤ m → (world delay inputs busy (m + 1)).fabric.state =
      (world delay inputs busy m).fabric.state :=
    fun m le => (same (m + 1) (by omega)).trans (same m le).symm
  by_cases inside : writing (world delay inputs busy n).fabric.state = true
  · have within : ∀ m, n ≤ m → writing (world delay inputs busy m).fabric.state = true :=
      fun m le => same m le ▸ inside
    have busy' : ∀ m, n ≤ m → (world delay inputs busy m).fabric.blockIdle = false := by
      intro m le
      by_contra idle
      exact idle_leaves delay (within m le) (by simpa using idle) (still m le)
    obtain ⟨stage, standing⟩ := (kept n).standing inside
    exact write_ends delay answers (fun m le => clock_waits delay (within m le) (busy' m le)) busy'
      standing
  · by_cases held : (world delay inputs busy n).fabric.state = .holdOff
    · have counts : ∀ k, n ≤ k → (world delay inputs busy k).fabric.holdOff ≠ 0 ∧
          (world delay inputs busy (k + 1)).fabric.holdOff =
            (world delay inputs busy k).fabric.holdOff - 1 :=
        fun k le => holdOff_clock delay _ _ _ ((same k le).trans held) (still k le)
      have runs_out : ∃ k, n ≤ k ∧ (world delay inputs busy k).fabric.holdOff = 0 :=
        eventually_zero fun k le _ => by have := counts k le; omega
      obtain ⟨k, le, zero⟩ := runs_out
      exact (counts k le).1 zero
    · have within : 6 ≤ rank (world delay inputs busy n).fabric.state ∧
          rank (world delay inputs busy n).fabric.state ≤ 12 := by
        cases here : (world delay inputs busy n).fabric.state <;>
          simp [here, writing, rank] at begun going inside held ⊢
      have counts : ∀ k, n ≤ k → (world delay inputs busy k).fabric.readTimer ≠ 0 ∧
          (world delay inputs busy (k + 1)).fabric.readTimer =
            (world delay inputs busy k).fabric.readTimer - 1 :=
        fun k le => reading_clock delay _ _ _ (by rw [same k le]; exact within) (still k le)
      have runs_out : ∃ k, n ≤ k ∧ (world delay inputs busy k).fabric.readTimer = 0 :=
        eventually_zero fun k le _ => by have := counts k le; omega
      obtain ⟨k, le, zero⟩ := runs_out
      exact (counts k le).1 zero

theorem comes_to_arm (answers : Answers delay inputs busy) {address : BitVec 24}
    (kept : ∀ n, Kept false address (world delay inputs busy n)) {n : Nat}
    (begun : (world delay inputs busy n).fabric.state ≠ .idle) :
    ∃ m, (world delay inputs busy m).fabric.state = .armed := by
  induction left : 14 - rank (world delay inputs busy n).fabric.state using Nat.strong_induction_on
    generalizing n with
  | _ left' ih =>
    by_cases armed : (world delay inputs busy n).fabric.state = .armed
    · exact ⟨n, armed⟩
    · obtain ⟨m, later, more⟩ := leaves delay answers kept begun armed
      have bound : ∀ s, rank s ≤ 14 := by
        intro s
        cases s <;> decide
      have here := bound (world delay inputs busy m).fabric.state
      refine ih (14 - rank (world delay inputs busy m).fabric.state) (by omega) (n := m) ?_ rfl
      intro idle
      rw [idle] at more
      cases more

end Progress

/-! ## The whole run -/

section Whole

variable (inputs : Nat → Pins × Timing) (busy : Bool)

/-- What arming is to do with one boot address: five writes, each once and in this order. -/
structure Arms (address : BitVec 24) : Prop where
  asked_for : ∀ n, Addresses delay inputs busy n → (inputs n).1.bootAddress = address
  in_order : ∀ n, (world delay inputs busy n).block.accepted <+: writes address
  stable : ∀ n, (world delay inputs busy n).fabric.writePending = true →
    (world delay inputs busy (n + 1)).fabric.paramSelect =
        (world delay inputs busy n).fabric.paramSelect ∧
      (world delay inputs busy (n + 1)).fabric.paramData =
        (world delay inputs busy n).fabric.paramData
  armed_after : ∀ n, (world delay inputs busy n).fabric.armed = true →
    (world delay inputs busy n).block.accepted = writes address
  comes_armed : Answers delay inputs busy → (∃ n, (inputs n).1.armRequest = true) →
    ∃ n, (world delay inputs busy n).fabric.armed = true

theorem begun_of_request {n : Nat} (request : (inputs n).1.armRequest = true) :
    (world delay inputs busy (n + 1)).fabric.state ≠ .idle := by
  intro still
  have first := rank_mono delay inputs busy (Nat.le_succ n)
  have idle : (world delay inputs busy n).fabric.state = .idle :=
    rank_inj (Nat.le_zero.mp (by rw [still] at first; exact first))
  have left := Asked.leaves delay inputs busy ⟨idle, request⟩
  rw [still] at left
  cases left

/-- Armed as intended if the request finds the block free and seen to be free; if not, the
watchdog timeout is never written. -/
theorem arms_when_ready :
    ((∀ n, Asked delay inputs busy n → Ready (world delay inputs busy n)) →
      ∃ address, Arms delay inputs busy address) ∧
    ∀ n, Asked delay inputs busy n → ¬ Ready (world delay inputs busy n) →
      ∀ m, timeoutWrite ∉ (world delay inputs busy m).block.accepted := by
  obtain ⟨address, addresses⟩ := address_exists delay inputs busy
  constructor
  · intro ready
    have whole : ∀ n, Kept false address (world delay inputs busy n) :=
      kept delay inputs busy (fun n asked => by simp [ready n asked]) addresses
    refine ⟨address, addresses, fun n => (whole n).order, ?_, ?_, ?_⟩
    · intro n pending
      exact (whole n).stable delay pending
    · intro n armed
      exact (whole n).complete ((armed_iff delay inputs busy n).mp armed)
    · rintro answers ⟨n, request⟩
      obtain ⟨m, armed⟩ :=
        comes_to_arm delay answers whole (begun_of_request delay inputs busy request)
      exact ⟨m, (armed_iff delay inputs busy m).mpr armed⟩
  · intro n asked unready m
    have lost : ∀ k, Asked delay inputs busy k →
        true = !decide (Ready (world delay inputs busy k)) := by
      intro k other
      rw [asked_once delay inputs busy other asked]
      simp [unready]
    exact (kept delay inputs busy lost addresses m).missing

end Whole

def pinsAt (armRequest : Bool) : Pins where
  windowWrite := false
  windowWriteData := 0
  transactionDecoded := false
  armRequest
  bootAddress := 0x400000#24
  reconfigureRequest := false

/-- A block that is busy for one period of the divided clock each time. -/
def brisk : Timing where
  early := false
  busyRises := true
  busyFalls := true
  dataOut := 0

def asking (n : Nat) : Pins × Timing := (pinsAt (n == 0), brisk)

theorem brisk_handling (n : Nat) : (world 0 asking false n).block.handling =
    (world 0 asking false n).block.busy := by
  induction n with
  | zero => rfl
  | succ n ih =>
    simp only [world_succ, World.clock]
    split
    · have raises : (asking n).2.busyRises = true := rfl
      have falls : (asking n).2.busyFalls = true := rfl
      simp only [Block.edge, ih, raises, falls]
      split
      · rfl
      · split
        · contradiction
        · split
          · rfl
          · split <;> simp_all
    · exact ih

theorem brisk_answers : Answers 0 asking false where
  raises n handling := ⟨n, Nat.le_refl n, by rw [← brisk_handling]; exact handling⟩
  falls n busy := by
    obtain ⟨m, le, rises⟩ := rises_again 0 asking false n
    cases still : (world 0 asking false m).block.busy with
    | false => exact ⟨m, le, still⟩
    | true =>
      have falls : (asking m).2.busyFalls = true := rfl
      exact ⟨m + 1, by omega, by simp [world_succ, World.clock, rises, Block.edge, still, falls]⟩

/-- One request to a block free from the start. -/
theorem asked_at_the_start : ∃ n, (world 0 asking false n).fabric.armed = true ∧
    (world 0 asking false n).block.accepted = writes 0x400000#24 := by
  have ready : ∀ n, Asked 0 asking false n → Ready (world 0 asking false n) := by
    intro n asked
    rw [asked_once 0 asking false (n := 0) asked ⟨rfl, rfl⟩]
    decide
  obtain ⟨address, arms⟩ := (arms_when_ready 0 asking false).1 ready
  obtain ⟨n, armed⟩ := arms.comes_armed brisk_answers ⟨0, rfl⟩
  have same : address = 0x400000#24 := (arms.asked_for 32 (by unfold Addresses; decide)).symm
  exact ⟨n, armed, same ▸ arms.armed_after n armed⟩

/-- Asked while busy is still high from before: the second write is the first to be taken. -/
theorem stale_busy_drops_the_timeout :
    ¬ ∀ delay inputs busy n, ∃ address,
      (world delay inputs busy n).block.accepted <+: writes address := by
  intro holds
  obtain ⟨address, rest, whole⟩ := holds 0 asking true 8
  have taken : (world 0 asking true 8).block.accepted = [enableWrite] := by decide
  rw [taken] at whole
  exact absurd (List.cons.inj whole).1 (by decide)

end ArmingRun
