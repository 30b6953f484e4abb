import DomesdayDuplicator.Gateware.RemoteUpdate

/-!
# Five parameter writes, each taken once

A write goes through five stages: it is offered, the block takes it, raises busy, the
synchroniser brings busy back and the offer ends, and busy falls. `WriteStage` says where the
divided clock and the synchroniser stand in each of them. What a block still busy from
before would do to the first write is kept out by `Ready`.
-/

namespace RemoteArming

open ClockedCircuit RemoteUpdate

/-- The clocks since the divided clock rose: `rising` just has, `low` is about to. -/
inductive Quarter where
  | rising
  | high
  | falling
  | low
  deriving DecidableEq

def Quarter.next : Quarter → Quarter
  | .rising => .high
  | .high => .falling
  | .falling => .low
  | .low => .rising

def quarter (r : Registers) : Quarter :=
  match r.updateClockPhase, r.updateClock with
  | false, true => .rising
  | true, true => .high
  | false, false => .falling
  | true, false => .low

inductive WriteStage where
  | offered
  | taken
  | raised
  | held
  | fallen
  deriving DecidableEq

/-- What the synchroniser holds, its first flop first. -/
def sync (r : Registers) : Bool × Bool := (r.blockBusySync0, r.blockBusySync1)

def Standing (stage : WriteStage) (w : World) : Prop :=
  match stage with
  | .offered => w.fabric.writePending = true ∧ w.block.busy = false ∧ w.block.handling = false ∧
      sync w.fabric = (false, false)
  | .taken => w.fabric.writePending = true ∧ w.block.busy = false ∧ w.block.handling = true ∧
      sync w.fabric = (false, false)
  | .raised => w.fabric.writePending = true ∧ w.block.busy = true ∧ w.block.handling = true ∧
      (quarter w.fabric = .rising ∧ sync w.fabric = (false, false) ∨
        quarter w.fabric = .high ∧ sync w.fabric = (true, false) ∨
        quarter w.fabric = .falling ∧ sync w.fabric = (true, true))
  | .held => w.fabric.writePending = false ∧ w.block.busy = true ∧ w.block.handling = true ∧
      sync w.fabric = (true, true)
  | .fallen => w.fabric.writePending = false ∧ w.block.busy = false ∧ w.block.handling = false ∧
      (quarter w.fabric = .rising ∧ sync w.fabric = (true, true) ∨
        quarter w.fabric = .high ∧ sync w.fabric = (false, true) ∨
        quarter w.fabric = .falling ∧ sync w.fabric = (false, false))

/-! ## One clock -/

/-- A clock on which the state machine stays where it is. -/
def wait (i : Pins × Timing) (w : World) : World :=
  let fabric := w.fabric.advance i.1 w.block.busy
  { fabric
    block := if w.rises then w.block.edge i.2 (if i.2.early then fabric else w.fabric) else w.block }

variable {w : World} {i : Pins × Timing}

theorem rises_iff (w : World) : w.rises = true ↔ quarter w.fabric = .low := by
  rw [World.rises, quarter]
  cases w.fabric.updateClockPhase <;> cases w.fabric.updateClock <;> decide

theorem quarter_advance (r : Registers) (pins : Pins) (busy : Bool) :
    quarter (r.advance pins busy) = (quarter r).next := by
  simp only [quarter, Registers.advance]
  cases r.updateClockPhase <;> cases r.updateClock <;> rfl

theorem sync_advance (r : Registers) (pins : Pins) (busy : Bool) :
    sync (r.advance pins busy) = (busy, r.blockBusySync0) := rfl

theorem wait_still (still : w.rises = false) : (wait i w).block = w.block := by
  rw [wait, if_neg (by simp [still])]

theorem wait_edge (edge : w.rises = true) : (wait i w).block =
    w.block.edge i.2 (if i.2.early then w.fabric.advance i.1 w.block.busy else w.fabric) := by
  rw [wait, if_pos edge]

theorem offered_wait (h : Standing .offered w) :
    (w.rises = false ∧ (wait i w).block = w.block ∧ Standing .offered (wait i w)) ∨
      (w.rises = true ∧
        (wait i w).block.accepted =
          w.block.accepted ++ [(w.fabric.paramSelect, w.fabric.paramData)] ∧
        (Standing .taken (wait i w) ∨ Standing .raised (wait i w))) := by
  obtain ⟨pending, free, idle, flops⟩ := h
  obtain ⟨first, second⟩ := Prod.mk.inj flops
  have still : (wait i w).fabric.writePending = true := by
    simp [wait, Registers.advance, pending, Registers.blockBusy, second]
  have after : sync (wait i w).fabric = (false, false) := by
    simp [wait, sync_advance, free, first]
  by_cases edge : w.rises = true
  · right
    have met : (wait i w).block =
        { busy := i.2.busyRises
          handling := true
          accepted := w.block.accepted ++ [(w.fabric.paramSelect, w.fabric.paramData)] } := by
      rw [wait_edge edge, Block.edge, if_neg (by simp [free]), if_neg (by simp [idle])]
      cases i.2.early with
      | false => simp [pending]
      | true => simp [Registers.advance, pending, Registers.blockBusy, second]
    have place : quarter (wait i w).fabric = .rising := by
      rw [wait, quarter_advance, (rises_iff w).mp edge, Quarter.next]
    refine ⟨edge, by rw [met], ?_⟩
    cases raised : i.2.busyRises with
    | false => exact Or.inl ⟨still, by rw [met, raised], by rw [met], after⟩
    | true => exact Or.inr ⟨still, by rw [met, raised], by rw [met], Or.inl ⟨place, after⟩⟩
  · left
    have edge : w.rises = false := Bool.eq_false_iff.mpr edge
    exact ⟨edge, wait_still edge, still, by rw [wait_still edge, free],
      by rw [wait_still edge, idle], after⟩

theorem taken_wait (h : Standing .taken w) :
    (wait i w).block.accepted = w.block.accepted ∧
      (Standing .taken (wait i w) ∨ Standing .raised (wait i w)) := by
  obtain ⟨pending, free, handling, flops⟩ := h
  obtain ⟨first, second⟩ := Prod.mk.inj flops
  have still : (wait i w).fabric.writePending = true := by
    simp [wait, Registers.advance, pending, Registers.blockBusy, second]
  have after : sync (wait i w).fabric = (false, false) := by
    simp [wait, sync_advance, free, first]
  by_cases edge : w.rises = true
  · have met : (wait i w).block = { w.block with busy := i.2.busyRises } := by
      rw [wait_edge edge, Block.edge, if_neg (by simp [free]), if_pos handling]
    have place : quarter (wait i w).fabric = .rising := by
      rw [wait, quarter_advance, (rises_iff w).mp edge, Quarter.next]
    refine ⟨by rw [met], ?_⟩
    cases raised : i.2.busyRises with
    | false => exact Or.inl ⟨still, by rw [met, raised], by rw [met, handling], after⟩
    | true => exact Or.inr ⟨still, by rw [met, raised], by rw [met, handling],
        Or.inl ⟨place, after⟩⟩
  · have edge : w.rises = false := Bool.eq_false_iff.mpr edge
    refine ⟨by rw [wait_still edge], Or.inl ⟨still, by rw [wait_still edge, free],
      by rw [wait_still edge, handling], after⟩⟩

/-- Busy comes through the synchroniser before the divided clock rises again. -/
theorem raised_wait (h : Standing .raised w) :
    w.rises = false ∧ (wait i w).block = w.block ∧
      (Standing .raised (wait i w) ∨ Standing .held (wait i w)) := by
  obtain ⟨pending, busy, handling, place⟩ := h
  have edge : w.rises = false := by
    rw [Bool.eq_false_iff, Ne, rises_iff]
    rcases place with ⟨at', _⟩ | ⟨at', _⟩ | ⟨at', _⟩ <;> simp [at']
  refine ⟨edge, wait_still edge, ?_⟩
  have busy' : (wait i w).block.busy = true := by rw [wait_still edge, busy]
  have handling' : (wait i w).block.handling = true := by rw [wait_still edge, handling]
  rcases place with ⟨at', flops⟩ | ⟨at', flops⟩ | ⟨at', flops⟩
  · obtain ⟨first, second⟩ := Prod.mk.inj flops
    refine Or.inl ⟨?_, busy', handling', Or.inr (Or.inl ⟨?_, ?_⟩)⟩
    · simp [wait, Registers.advance, pending, Registers.blockBusy, second]
    · rw [wait, quarter_advance, at', Quarter.next]
    · simp [wait, sync_advance, busy, first]
  · obtain ⟨first, second⟩ := Prod.mk.inj flops
    refine Or.inl ⟨?_, busy', handling', Or.inr (Or.inr ⟨?_, ?_⟩)⟩
    · simp [wait, Registers.advance, pending, Registers.blockBusy, second]
    · rw [wait, quarter_advance, at', Quarter.next]
    · simp [wait, sync_advance, busy, first]
  · obtain ⟨first, second⟩ := Prod.mk.inj flops
    refine Or.inr ⟨?_, busy', handling', ?_⟩
    · simp [wait, Registers.advance, Registers.blockBusy, second]
    · simp [wait, sync_advance, busy, first]

theorem held_wait (h : Standing .held w) :
    (wait i w).block.accepted = w.block.accepted ∧
      (Standing .held (wait i w) ∨ Standing .fallen (wait i w)) := by
  obtain ⟨pending, busy, handling, flops⟩ := h
  obtain ⟨first, second⟩ := Prod.mk.inj flops
  have done : (wait i w).fabric.writePending = false := by
    simp [wait, Registers.advance, pending]
  have after : sync (wait i w).fabric = (true, true) := by
    simp [wait, sync_advance, busy, first]
  by_cases edge : w.rises = true
  · have place : quarter (wait i w).fabric = .rising := by
      rw [wait, quarter_advance, (rises_iff w).mp edge, Quarter.next]
    cases falls : i.2.busyFalls with
    | false =>
      have met : (wait i w).block = w.block := by
        rw [wait_edge edge, Block.edge, if_pos busy, if_neg (by simp [falls])]
      exact ⟨by rw [met], Or.inl ⟨done, by rw [met, busy], by rw [met, handling], after⟩⟩
    | true =>
      have met : (wait i w).block = { w.block with busy := false, handling := false } := by
        rw [wait_edge edge, Block.edge, if_pos busy, if_pos falls]
      exact ⟨by rw [met], Or.inr ⟨done, by rw [met], by rw [met], Or.inl ⟨place, after⟩⟩⟩
  · have edge : w.rises = false := Bool.eq_false_iff.mpr edge
    exact ⟨by rw [wait_still edge], Or.inl ⟨done, by rw [wait_still edge, busy],
      by rw [wait_still edge, handling], after⟩⟩

theorem fallen_still (h : Standing .fallen w) : w.rises = false := by
  obtain ⟨_, _, _, place⟩ := h
  rw [Bool.eq_false_iff, Ne, rises_iff]
  rcases place with ⟨at', _⟩ | ⟨at', _⟩ | ⟨at', _⟩ <;> simp [at']

theorem fallen_wait (h : Standing .fallen w) (going : w.fabric.blockIdle = false) :
    (wait i w).block = w.block ∧ Standing .fallen (wait i w) := by
  have edge := fallen_still h
  obtain ⟨pending, busy, handling, place⟩ := h
  have done : (wait i w).fabric.writePending = false := by
    simp [wait, Registers.advance, pending]
  refine ⟨wait_still edge, done, by rw [wait_still edge, busy],
    by rw [wait_still edge, handling], ?_⟩
  rcases place with ⟨at', flops⟩ | ⟨at', flops⟩ | ⟨at', flops⟩
  · obtain ⟨first, second⟩ := Prod.mk.inj flops
    refine Or.inr (Or.inl ⟨?_, ?_⟩)
    · rw [wait, quarter_advance, at', Quarter.next]
    · simp [wait, sync_advance, busy, first]
  · obtain ⟨first, second⟩ := Prod.mk.inj flops
    refine Or.inr (Or.inr ⟨?_, ?_⟩)
    · rw [wait, quarter_advance, at', Quarter.next]
    · simp [wait, sync_advance, busy, first]
  · obtain ⟨first, second⟩ := Prod.mk.inj flops
    simp [Registers.blockIdle, Registers.blockBusy, pending, second] at going

/-- The machine goes on when a write has gone through all its stages, and only then. -/
theorem idle_fallen {stage : WriteStage} (h : Standing stage w)
    (idle : w.fabric.blockIdle = true) : stage = .fallen ∧ w.rises = false ∧
      w.block.busy = false ∧ w.block.handling = false ∧ sync w.fabric = (false, false) := by
  simp only [Registers.blockIdle, Bool.and_eq_true, Bool.not_eq_true', Registers.blockBusy] at idle
  obtain ⟨quiet, done⟩ := idle
  cases stage with
  | offered => simp [Standing, done] at h
  | taken => simp [Standing, done] at h
  | raised => simp [Standing, done] at h
  | held => simp [Standing, sync, quiet] at h
  | fallen =>
    obtain ⟨_, busy, handling, place⟩ := h
    rcases place with ⟨_, flops⟩ | ⟨_, flops⟩ | ⟨at', flops⟩
    · simp [sync, quiet] at flops
    · simp [sync, quiet] at flops
    · refine ⟨rfl, ?_, busy, handling, flops⟩
      rw [Bool.eq_false_iff, Ne, rises_iff, at']
      decide

/-! ## A write and those before it -/

def timeoutWrite : Write := (paramWatchdogValue, watchdogTimeout.setWidth 24)
def enableWrite : Write := (paramWatchdogEnable, watchdogEnable.setWidth 24)
def oscIntWrite : Write := (paramOscInt, 1)
def cdEarlyWrite : Write := (paramCdEarly, 1)
def addressWrite (address : BitVec 24) : Write := (paramBootAddress, address)

def writes (address : BitVec 24) : List Write :=
  [timeoutWrite, enableWrite, oscIntWrite, cdEarlyWrite, addressWrite address]

structure Waiting (before : List Write) (now : Write) (w : World) : Prop where
  offers : (w.fabric.paramSelect, w.fabric.paramData) = now
  stage : ∃ stage, Standing stage w ∧
    w.block.accepted = before ++ if stage = .offered then [] else [now]

variable {before : List Write} {now : Write}

theorem Waiting.wait (h : Waiting before now w) (going : w.fabric.blockIdle = false) :
    Waiting before now (wait i w) := by
  obtain ⟨offers, stage, standing, accepted⟩ := h
  refine ⟨offers, ?_⟩
  cases stage with
  | offered =>
    rcases offered_wait standing with ⟨_, same, still⟩ | ⟨_, more, next | next⟩
    · exact ⟨_, still, by rw [same, accepted]⟩
    · exact ⟨_, next, by rw [more, accepted, offers]; simp⟩
    · exact ⟨_, next, by rw [more, accepted, offers]; simp⟩
  | taken =>
    obtain ⟨same, next | next⟩ := taken_wait (i := i) standing
    · exact ⟨_, next, by rw [same, accepted]⟩
    · exact ⟨_, next, by rw [same, accepted]; simp⟩
  | raised =>
    obtain ⟨_, same, next | next⟩ := raised_wait (i := i) standing
    · exact ⟨_, next, by rw [same, accepted]⟩
    · exact ⟨_, next, by rw [same, accepted]; simp⟩
  | held =>
    obtain ⟨same, next | next⟩ := held_wait (i := i) standing
    · exact ⟨_, next, by rw [same, accepted]⟩
    · exact ⟨_, next, by rw [same, accepted]; simp⟩
  | fallen =>
    obtain ⟨same, next⟩ := fallen_wait (i := i) standing going
    exact ⟨_, next, by rw [same, accepted]⟩

theorem Waiting.accepted_so_far (h : Waiting before now w) (rest : List Write) :
    w.block.accepted <+: before ++ [now] ++ rest := by
  obtain ⟨_, stage, _, accepted⟩ := h
  rw [accepted]
  split
  · exact ⟨[now] ++ rest, by simp⟩
  · exact ⟨rest, by simp⟩

/-- What the next write finds when the machine goes on. -/
structure Free (w : World) : Prop where
  still : w.rises = false
  busy : w.block.busy = false
  handling : w.block.handling = false
  flops : sync w.fabric = (false, false)

theorem Waiting.free (h : Waiting before now w) (idle : w.fabric.blockIdle = true) :
    Free w ∧ w.block.accepted = before ++ [now] := by
  obtain ⟨_, stage, standing, accepted⟩ := h
  obtain ⟨rfl, still, busy, handling, flops⟩ := idle_fallen standing idle
  exact ⟨⟨still, busy, handling, flops⟩, accepted⟩

/-- The fabric issues a write while the divided clock is still. -/
theorem Free.issue (h : Free w) {pins : Pins} (param : Param) (data : BitVec 24) (state : State) :
    Waiting w.block.accepted (param, data)
      ⟨(w.fabric.advance pins w.block.busy).issueWrite param data state, w.block⟩ := by
  obtain ⟨first, second⟩ := Prod.mk.inj h.flops
  refine ⟨rfl, .offered, ⟨rfl, h.busy, h.handling, ?_⟩, by simp⟩
  simp [sync, Registers.issueWrite, Registers.advance, h.busy, first]

/-! ## Before the first write -/

structure Idle (w : World) : Prop where
  pending : w.fabric.writePending = false
  reading : w.fabric.readAssert = 0
  accepted : w.block.accepted = []
  handling : w.block.handling = w.block.busy
  fell : w.block.busy = false → w.fabric.blockBusySync0 = true → quarter w.fabric = .rising

theorem idle_launch (busy : Bool) : Idle (launch busy) :=
  ⟨rfl, rfl, rfl, rfl, fun _ flop => by cases flop⟩

theorem edge_quiet {timing : Timing} {r : Registers} (b : Block) (quiet : r.writePending = false) :
    (b.edge timing r).accepted = b.accepted := by
  rw [Block.edge]
  split
  · split <;> rfl
  · split
    · rfl
    · rw [if_neg (by simp [quiet])]
      split <;> rfl

theorem edge_idle {timing : Timing} {r : Registers} {b : Block} (quiet : r.writePending = false)
    (reading : r.readAssert = 0) (handling : b.handling = b.busy) :
    b.edge timing r = b ∨ b.busy = true ∧
      b.edge timing r = { b with busy := false, handling := false } := by
  rw [Block.edge]
  split
  · rename_i busy
    split
    · exact Or.inr ⟨busy, rfl⟩
    · exact Or.inl rfl
  · rename_i free
    rw [if_neg (by simpa [handling] using free), if_neg (by simp [quiet]),
      if_neg (by simp [reading])]
    exact Or.inl rfl

theorem Idle.wait (h : Idle w) : Idle (wait i w) := by
  have quiet : (w.fabric.advance i.1 w.block.busy).writePending = false := by
    simp [Registers.advance, h.pending]
  have reading : (w.fabric.advance i.1 w.block.busy).readAssert = 0 := by
    simp [Registers.advance, h.reading]
  have blocks : (RemoteArming.wait i w).block = w.block ∨ w.rises = true ∧ w.block.busy = true ∧
      (RemoteArming.wait i w).block = { w.block with busy := false, handling := false } := by
    by_cases edge : w.rises = true
    · rw [wait_edge edge]
      have quietly : ∀ r : Registers, r.writePending = false → r.readAssert = 0 →
          w.block.edge i.2 r = w.block ∨ w.rises = true ∧ w.block.busy = true ∧
            w.block.edge i.2 r = { w.block with busy := false, handling := false } :=
        fun r pending assert => (edge_idle pending assert h.handling).imp_right
          fun falls => ⟨edge, falls⟩
      cases i.2.early with
      | false => exact quietly _ h.pending h.reading
      | true => exact quietly _ quiet reading
    · exact Or.inl (wait_still (Bool.eq_false_iff.mpr edge))
  rcases blocks with same | ⟨edge, busy, falls⟩
  · refine ⟨quiet, reading, by rw [same, h.accepted], by rw [same, h.handling], ?_⟩
    intro free flop
    rw [same] at free
    have was : w.block.busy = true := flop
    rw [free] at was
    cases was
  · refine ⟨quiet, reading, by rw [falls, h.accepted], by rw [falls], ?_⟩
    intro _ _
    rw [RemoteArming.wait, quarter_advance, (rises_iff w).mp edge, Quarter.next]

/-- The block has been free for two clocks when the arming request is taken. -/
def Ready (w : World) : Prop := w.block.busy = false ∧ w.fabric.blockBusySync0 = false

instance (w : World) : Decidable (Ready w) := inferInstanceAs (Decidable (_ ∧ _))

/-- The clock that takes the arming request. -/
def arm (i : Pins × Timing) (w : World) : World :=
  let fabric := (w.fabric.advance i.1 w.block.busy).issueWrite paramWatchdogValue
    (watchdogTimeout.setWidth 24) .writeTimeout
  { fabric
    block := if w.rises then w.block.edge i.2 (if i.2.early then fabric else w.fabric) else w.block }

theorem Idle.arm (h : Idle w) (ready : Ready w) : Waiting [] timeoutWrite (arm i w) := by
  obtain ⟨busy, first⟩ := ready
  have handling : w.block.handling = false := h.handling.trans busy
  have flops : sync (RemoteArming.arm i w).fabric = (false, false) := by
    simp [RemoteArming.arm, sync, Registers.issueWrite, Registers.advance, busy, first]
  have offered : (RemoteArming.arm i w).block = w.block →
      Waiting [] timeoutWrite (RemoteArming.arm i w) := by
    intro same
    exact ⟨rfl, .offered, ⟨rfl, by rw [same, busy], by rw [same, handling], flops⟩,
      by rw [same, h.accepted]; rfl⟩
  by_cases edge : w.rises = true
  · by_cases early : i.2.early = true
    · have met : (RemoteArming.arm i w).block = ⟨i.2.busyRises, true, [timeoutWrite]⟩ := by
        simp [RemoteArming.arm, edge, early, Block.edge, busy, handling, Registers.issueWrite,
          h.accepted, timeoutWrite]
      have place : quarter (RemoteArming.arm i w).fabric = .rising := by
        have turned := quarter_advance w.fabric i.1 w.block.busy
        rw [(rises_iff w).mp edge] at turned
        exact turned
      cases raised : i.2.busyRises with
      | false =>
        exact ⟨rfl, .taken, ⟨rfl, by rw [met, raised], by rw [met], flops⟩, by rw [met]; rfl⟩
      | true =>
        exact ⟨rfl, .raised, ⟨rfl, by rw [met, raised], by rw [met], Or.inl ⟨place, flops⟩⟩,
          by rw [met]; rfl⟩
    · apply offered
      simp [RemoteArming.arm, edge, early, Block.edge, busy, handling, h.pending, h.reading]
  · exact offered (by simp [RemoteArming.arm, edge])

/-! ## A request that comes too early -/

/-- The first write is pending, and what is left of the old busy will end it before an edge
that could take it. -/
structure Doomed (w : World) : Prop where
  pending : w.fabric.writePending = true
  accepted : w.block.accepted = []
  handling : w.block.handling = w.block.busy
  soon : w.fabric.blockBusySync1 = true ∧
      (w.block.busy = true ∧ w.fabric.blockBusySync0 = true ∨
        w.block.busy = false ∧ quarter w.fabric = .rising ∧ w.fabric.blockBusySync0 = true ∨
        w.block.busy = false ∧ quarter w.fabric = .high ∧ w.fabric.blockBusySync0 = false) ∨
    w.fabric.blockBusySync1 = false ∧ w.fabric.blockBusySync0 = true ∧
      (w.block.busy = true ∨ w.block.busy = false ∧ quarter w.fabric = .rising)

/-- The first write has ended without having been taken. -/
structure Dropped (w : World) : Prop where
  accepted : w.block.accepted = []
  standing : Standing .held w ∨ Standing .fallen w

theorem edge_busy {timing : Timing} {r : Registers} {b : Block} (busy : b.busy = true) :
    b.edge timing r = b ∨ b.edge timing r = { b with busy := false, handling := false } := by
  rw [Block.edge, if_pos busy]
  split
  · exact Or.inr rfl
  · exact Or.inl rfl

theorem still_of_quarter {q : Quarter} (place : quarter w.fabric = q) (low : q ≠ .low) :
    w.rises = false := by
  rw [Bool.eq_false_iff, Ne, rises_iff, place]
  exact low

/-- A clock that finds the block busy leaves it so, or has it free on a rising edge. -/
theorem busy_clock (fabric : Registers) {seen : Registers} (busy : w.block.busy = true)
    (turn : quarter fabric = quarter (w.fabric.advance i.1 w.block.busy)) :
    (if w.rises then w.block.edge i.2 seen else w.block) = w.block ∨
      quarter fabric = .rising ∧ (if w.rises then w.block.edge i.2 seen else w.block) =
        { w.block with busy := false, handling := false } := by
  by_cases edge : w.rises = true
  · rw [if_pos edge]
    refine (edge_busy busy).imp_right fun falls => ⟨?_, falls⟩
    rw [turn, quarter_advance, (rises_iff w).mp edge, Quarter.next]
  · rw [if_neg edge]
    exact Or.inl rfl

theorem Doomed.wait (h : Doomed w) : Doomed (wait i w) ∨ Dropped (wait i w) := by
  have flops : sync (RemoteArming.wait i w).fabric =
      (w.block.busy, w.fabric.blockBusySync0) := rfl
  have first : (RemoteArming.wait i w).fabric.blockBusySync0 = w.block.busy := rfl
  have second : (RemoteArming.wait i w).fabric.blockBusySync1 = w.fabric.blockBusySync0 := rfl
  have turned : quarter (RemoteArming.wait i w).fabric = _ :=
    quarter_advance w.fabric i.1 w.block.busy
  rcases h.soon with ⟨ends, rest⟩ | ⟨lasts, flop, rest⟩
  · right
    have done : (RemoteArming.wait i w).fabric.writePending = false := by
      simp [RemoteArming.wait, Registers.advance, Registers.blockBusy, ends]
    rcases rest with ⟨busy, flop⟩ | ⟨free, place, flop⟩ | ⟨free, place, flop⟩
    · rw [busy, flop] at flops
      have handling : w.block.handling = true := h.handling.trans busy
      rcases busy_clock (i := i) (RemoteArming.wait i w).fabric busy rfl with
        same | ⟨rising, falls⟩
      · have same : (RemoteArming.wait i w).block = w.block := same
        exact ⟨by rw [same, h.accepted], Or.inl ⟨done, by rw [same, busy],
          by rw [same, handling], flops⟩⟩
      · have falls : (RemoteArming.wait i w).block =
            { w.block with busy := false, handling := false } := falls
        exact ⟨by rw [falls, h.accepted], Or.inr ⟨done, by rw [falls], by rw [falls],
          Or.inl ⟨rising, flops⟩⟩⟩
    · have same := wait_still (i := i) (still_of_quarter place (by decide))
      rw [place] at turned
      rw [free, flop] at flops
      exact ⟨by rw [same, h.accepted], Or.inr ⟨done, by rw [same, free],
        by rw [same, h.handling, free], Or.inr (Or.inl ⟨turned, flops⟩)⟩⟩
    · have same := wait_still (i := i) (still_of_quarter place (by decide))
      rw [place] at turned
      rw [free, flop] at flops
      exact ⟨by rw [same, h.accepted], Or.inr ⟨done, by rw [same, free],
        by rw [same, h.handling, free], Or.inr (Or.inr ⟨turned, flops⟩)⟩⟩
  · left
    have still : (RemoteArming.wait i w).fabric.writePending = true := by
      simp [RemoteArming.wait, Registers.advance, Registers.blockBusy, lasts, h.pending]
    rw [flop] at second
    rcases rest with busy | ⟨free, place⟩
    · rw [busy] at first
      rcases busy_clock (i := i) (RemoteArming.wait i w).fabric busy rfl with
        same | ⟨rising, falls⟩
      · have same : (RemoteArming.wait i w).block = w.block := same
        exact ⟨still, by rw [same, h.accepted], by rw [same, h.handling],
          Or.inl ⟨second, Or.inl ⟨by rw [same, busy], first⟩⟩⟩
      · have falls : (RemoteArming.wait i w).block =
            { w.block with busy := false, handling := false } := falls
        exact ⟨still, by rw [falls, h.accepted], by rw [falls],
          Or.inl ⟨second, Or.inr (Or.inl ⟨by rw [falls], rising, first⟩)⟩⟩
    · have same := wait_still (i := i) (still_of_quarter place (by decide))
      rw [place] at turned
      rw [free] at first
      exact ⟨still, by rw [same, h.accepted], by rw [same, h.handling],
        Or.inl ⟨second, Or.inr (Or.inr ⟨by rw [same, free], turned, first⟩)⟩⟩

theorem Idle.unready (h : Idle w) (unready : ¬ Ready w) : Doomed (RemoteArming.arm i w) := by
  have first : (RemoteArming.arm i w).fabric.blockBusySync0 = w.block.busy := rfl
  have second : (RemoteArming.arm i w).fabric.blockBusySync1 = w.fabric.blockBusySync0 := rfl
  have turned : quarter (RemoteArming.arm i w).fabric = _ :=
    quarter_advance w.fabric i.1 w.block.busy
  cases busy : w.block.busy with
  | true =>
    rw [busy] at first
    rcases busy_clock (i := i) (RemoteArming.arm i w).fabric busy rfl with
      same | ⟨rising, falls⟩
    · have same : (RemoteArming.arm i w).block = w.block := same
      refine ⟨rfl, by rw [same, h.accepted], by rw [same, h.handling], ?_⟩
      cases flop : w.fabric.blockBusySync0 with
      | true => exact Or.inl ⟨second.trans flop, Or.inl ⟨by rw [same, busy], first⟩⟩
      | false => exact Or.inr ⟨second.trans flop, first, Or.inl (by rw [same, busy])⟩
    · have falls : (RemoteArming.arm i w).block =
          { w.block with busy := false, handling := false } := falls
      refine ⟨rfl, by rw [falls, h.accepted], by rw [falls], ?_⟩
      cases flop : w.fabric.blockBusySync0 with
      | true =>
        exact Or.inl ⟨second.trans flop, Or.inr (Or.inl ⟨by rw [falls], rising, first⟩)⟩
      | false => exact Or.inr ⟨second.trans flop, first, Or.inr ⟨by rw [falls], rising⟩⟩
  | false =>
    have flop : w.fabric.blockBusySync0 = true := by
      by_contra clear
      exact unready ⟨busy, by simpa using clear⟩
    have place := h.fell busy flop
    have same : (RemoteArming.arm i w).block = w.block := by
      rw [RemoteArming.arm, if_neg (by simp [still_of_quarter place])]
    rw [place] at turned
    exact ⟨rfl, by rw [same, h.accepted], by rw [same, h.handling],
      Or.inl ⟨second.trans flop, Or.inr (Or.inr ⟨by rw [same, busy], turned,
        first.trans busy⟩)⟩⟩

theorem Dropped.wait (h : Dropped w) (going : w.fabric.blockIdle = false) :
    Dropped (wait i w) := by
  rcases h.standing with held | fallen
  · obtain ⟨same, next⟩ := held_wait (i := i) held
    exact ⟨by rw [same, h.accepted], next⟩
  · obtain ⟨same, next⟩ := fallen_wait (i := i) fallen going
    exact ⟨by rw [same, h.accepted], Or.inr next⟩

theorem Dropped.free (h : Dropped w) (idle : w.fabric.blockIdle = true) : Free w := by
  rcases h.standing with standing | standing
  · obtain ⟨_, still, busy, handling, flops⟩ := idle_fallen standing idle
    exact ⟨still, busy, handling, flops⟩
  · obtain ⟨_, still, busy, handling, flops⟩ := idle_fallen standing idle
    exact ⟨still, busy, handling, flops⟩

end RemoteArming
