import DomesdayDuplicator.Firmware.VerifyGuard
import Mathlib.Logic.Function.Iterate

/-!
# After an update session that was cut short

A host that goes away sends nothing more, and only the application thread still
moves the device. It brings every verification to an end; what it cannot end is a
transfer that was being received. So the next BEGIN is let in unless the session
was cut in the phase RECEIVING, which nothing but a request of the host leaves.
-/

namespace SessionRecovery

open Execution UpdateProtocol Medium UpdateAgent UpdateSteps VerifyGuard

variable (sha256 : List Byte → Digest) (faults : Faults)

/-- A host sends no chunk and no FINISH after the FINISH that was accepted. -/
def Session (d : Device) : Action → Prop
  | .request r => Probes r → ¬ UnderVerification d
  | _ => True

/-- The application thread has nothing left to do. -/
def Quiet (d : Device) : Prop := d.thread = .idle ∧ d.verifyPending = false

def afterThread (d : Device) : Device := (threadStep sha256 faults d).1

/-- A BEGIN that the device would admit were no update under way. -/
def Admissible (d : Device) (probe : FlashProbe) (target : Byte) (begin : UpdateBegin) : Prop :=
  updateAgentBeginRefusal { d with update := updateStateReset } probe target begin = .none

/-! ## The thread comes to rest -/

/-- Accesses left to the thread in the verification it is in, at most. -/
def left (length : Nat) : Thread → Nat
  | .idle => 0
  | .called => length + 12
  | .cleared => length + 11
  | .epcsReading offset _ _ => length - offset + 10
  | .eepromReading address _ => length - address + 10
  | .epcsProved _ => 9
  | .epcsErasing _ => 8
  | .epcsProgramming _ | .eepromCommitting => 7
  | .epcsWritten _ | .eepromWritten => 6
  | .epcsRereading _ | .eepromRereading => 5
  | .epcsComparing _ _ | .eepromComparing _ => 4
  | .failing _ => 3
  | .failed _ => 2
  | .returning => 1

/-- A verification that is pending comes on top, until its mark is cleared. -/
def rank (d : Device) : Nat :=
  left d.update.length d.thread +
    if d.verifyPending = true ∧ d.thread ≠ .called then d.update.length + 14 else 0

theorem quiet_of_rank {d : Device} (h : rank d = 0) : Quiet d := by
  simp only [rank, Nat.add_eq_zero_iff] at h
  obtain ⟨none, notPending⟩ := h
  cases place : d.thread <;> simp [left, place] at none
  simpa [Quiet, place] using notPending

theorem updateEepromReadSpan_pos {address remaining : Nat} (h : 0 < remaining) :
    0 < updateEepromReadSpan address remaining updateReadbackSize := by
  have some : ¬ (remaining = 0 ∨ updateReadbackSize = 0) := by
    simp only [updateReadbackSize]
    omega
  rw [updateEepromReadSpan, if_neg some]
  simp only [updateReadbackSize, updateEepromSlaveSize]
  omega

/-- Inside a verification every access leaves one less. -/
theorem left_threadStep {d : Device} (busy : d.thread ≠ .idle) (notCalled : d.thread ≠ .called) :
    left d.update.length (threadStep sha256 faults d).1.thread < left d.update.length d.thread ∧
      (threadStep sha256 faults d).1.thread ≠ .called ∧
      (threadStep sha256 faults d).1.verifyPending = d.verifyPending := by
  unfold threadStep
  cases place : d.thread with
  | idle => exact absurd place busy
  | called => exact absurd place notCalled
  | epcsReading offset hashed imageCrc =>
    simp only
    split
    · have span : 0 < min (d.update.length - offset) updateReadbackSize := by
        simp only [updateReadbackSize]
        omega
      split
      · simp [left, Device.goto]
      · simp only [left, ne_eq, reduceCtorEq, not_false_eq_true, and_self, and_true]
        omega
    · repeat' split
      all_goals simp [left, Device.goto, Device.phase, Device.complete]
  | eepromReading address hashed =>
    simp only
    split
    · have span := @updateEepromReadSpan_pos address (d.update.length - address) (by omega)
      repeat' split
      · simp [left, Device.goto]
      · simp [left, Device.goto]
      · simp only [left, ne_eq, reduceCtorEq, not_false_eq_true, and_self, and_true]
        omega
    · repeat' split
      all_goals simp [left, Device.goto, Device.phase]
  | cleared =>
    simp only
    repeat' split
    · simp [left, Device.goto]
    · simp [left, Device.goto]
    · simp only [left, ne_eq, reduceCtorEq, not_false_eq_true, and_self, and_true]
      omega
  | _ =>
    simp only
    repeat' split
    all_goals simp [left, Device.goto, Device.phase, Device.complete]

theorem rank_afterThread {d : Device} (h : rank d ≠ 0) :
    rank (afterThread sha256 faults d) < rank d := by
  have length : (afterThread sha256 faults d).update.length = d.update.length :=
    (threadStep_frame sha256 faults d).length
  by_cases idle : d.thread = .idle
  · have pending : d.verifyPending = true := by
      by_contra free
      simp [rank, idle, left, free] at h
    simp [rank, afterThread, threadStep, idle, pending, left, Device.goto]
  · by_cases called : d.thread = .called
    · simp [rank, afterThread, threadStep, called, left]
    · obtain ⟨less, notCalled, pending⟩ := left_threadStep sha256 faults idle called
      rw [rank, rank, length, afterThread, pending]
      simp only [called, notCalled, ne_eq, not_false_eq_true, and_true]
      omega

/-- From every state the thread comes to rest. -/
theorem comes_to_rest (d : Device) : ∃ n, Quiet ((afterThread sha256 faults)^[n] d) := by
  generalize steps : rank d = k
  induction k using Nat.strongRecOn generalizing d with
  | ind k ih =>
    by_cases rest : rank d = 0
    · exact ⟨0, quiet_of_rank rest⟩
    · obtain ⟨n, quiet⟩ := ih _ (steps ▸ rank_afterThread sha256 faults rest) _ rfl
      exact ⟨n + 1, by rwa [Function.iterate_succ_apply]⟩

/-! ## The phase and the thread -/

/-- Outside a verification, or past its last store of the phase. -/
def atRest : Thread → Bool
  | .idle | .failed _ | .returning => true
  | _ => false

structure Paced (d : Device) : Prop where
  resting : atRest d.thread = true → (UnderVerification d ↔ d.verifyPending = true)
  working : atRest d.thread = false → UnderVerification d
  alone : atRest d.thread = false → d.thread ≠ .called → d.verifyPending = false
  early : d.verifyPending = true ∨ d.thread = .called ∨ d.thread = .cleared →
    d.update.phase = .verifying

variable {sha256} {faults}

theorem paced_powerOn (i2cComesUp : Bool) (media : Media) : Paced (powerOn i2cComesUp media) := by
  constructor <;> simp [powerOn, UnderVerification, updateStateReset, atRest]

theorem Paced.free {d : Device} (h : Paced d) (free : ¬ UnderVerification d) :
    atRest d.thread = true ∧ d.verifyPending = false := by
  have rest : atRest d.thread = true := by
    by_contra working
    exact free (h.working (by simpa using working))
  refine ⟨rest, ?_⟩
  by_contra pending
  exact free ((h.resting rest).mpr (by simpa using pending))

/-- A store of the phase by the setup callback, with no verification under way. -/
theorem Paced.store {d d' : Device} (h : Paced d) (free : ¬ UnderVerification d)
    (thread : d'.thread = d.thread) (pending : d'.verifyPending = d.verifyPending)
    (free' : ¬ UnderVerification d') : Paced d' := by
  obtain ⟨rest, quiet⟩ := h.free free
  constructor
  · simp [free', pending, quiet]
  · simp [thread, rest]
  · simp [thread, rest]
  · rw [thread, pending]
    rintro (p | t | t)
    · simp [quiet] at p
    · simp [t, atRest] at rest
    · simp [t, atRest] at rest

theorem not_under_failed {d : Device} (h : d.update.phase = .failed) : ¬ UnderVerification d := by
  simp [UnderVerification, h]

theorem Paced.serve {d d' : Device} {r : Request} {e : Event} (h : Paced d)
    (session : Session d (.request r)) (served : Served sha256 faults d r d' e) : Paced d' := by
  cases served with
  | unchanged => exact h
  | beginRefused r error _ free =>
    exact h.store (not_inProgress free) rfl rfl (not_under_failed (updateStateFail_phase _ _))
  | beginAdmitted r target begin probe carried admitted =>
    have free := (updateBeginIsAllowed_none (updateAgentBeginRefusal_none admitted).1).2.1
    exact h.store (not_inProgress free) rfl rfl (by simp [UnderVerification, Device.open])
  | failed r error e probes _ _ =>
    exact h.store (session probes) rfl rfl (not_under_failed (updateStateFail_phase _ _))
  | chunk r target index data e probes short allowed image =>
    have free := session probes
    have taken := updateAgentData_taken faults allowed image
    refine h.store free taken.thread taken.pending ?_
    cases accepted : (updateAgentData faults d target index data).2 with
    | true =>
      obtain ⟨w, hw⟩ := taken.counted accepted
      simpa [UnderVerification, hw] using free
    | false =>
      obtain ⟨w, hw⟩ := taken.failed accepted
      exact not_under_failed (by rw [hw]; exact updateStateFail_phase _ _)
  | finishAccepted r target probes allowed digest =>
    obtain ⟨rest, quiet⟩ := h.free (session probes)
    constructor
    · simp [Device.handOver, UnderVerification]
    · simp [Device.handOver, rest]
    · simp [Device.handOver, rest]
    · simp [Device.handOver]
  | reset r up => exact paced_powerOn up d.media
  | captureStarted => exact ⟨h.resting, h.working, h.alone, h.early⟩
  | captureStopped => exact ⟨h.resting, h.working, h.alone, h.early⟩

theorem paced_inside {d : Device} (working : atRest d.thread = false)
    (past : d.thread ≠ .called ∧ d.thread ≠ .cleared) (under : UnderVerification d)
    (pending : d.verifyPending = false) : Paced d := by
  constructor
  · simp [working]
  · exact fun _ => under
  · exact fun _ _ => pending
  · simp [pending, past]

theorem paced_ended {d : Device} (rest : atRest d.thread = true) (free : ¬ UnderVerification d)
    (pending : d.verifyPending = false) : Paced d := by
  constructor
  · simp [free, pending]
  · simp [rest]
  · simp [rest]
  · rintro (p | t | t)
    · simp [pending] at p
    · simp [t, atRest] at rest
    · simp [t, atRest] at rest

theorem Paced.thread {d : Device} (h : Paced d) : Paced (afterThread sha256 faults d) := by
  unfold afterThread threadStep
  cases place : d.thread with
  | idle =>
    cases pending : d.verifyPending with
    | false => simpa [pending] using h
    | true =>
      have verifying := h.early (Or.inl pending)
      constructor <;> simp [Device.goto, atRest, UnderVerification, verifying]
  | called =>
    have verifying := h.early (Or.inr (Or.inl place))
    constructor <;> simp [atRest, UnderVerification, verifying]
  | cleared =>
    have verifying := h.early (Or.inr (Or.inr place))
    have pending := h.alone (by simp [place, atRest]) (by simp [place])
    simp only [verifying, ne_eq, not_true, if_false]
    split
    all_goals
      refine paced_inside rfl ?_ ?_ pending
      · simp [Device.goto]
      · simp [Device.goto, UnderVerification, verifying]
  | failed error =>
    have resting := h.resting (by simp [place, atRest])
    refine ⟨fun _ => resting, by simp [atRest], by simp [atRest], ?_⟩
    rintro (p | t | t)
    · exact h.early (Or.inl p)
    · cases t
    · cases t
  | returning =>
    have resting := h.resting (by simp [place, atRest])
    refine ⟨fun _ => resting, by simp [Device.goto, atRest], by simp [Device.goto, atRest], ?_⟩
    rintro (p | t | t)
    · exact h.early (Or.inl p)
    · cases t
    · cases t
  | _ =>
    have under := h.working (by simp [place, atRest])
    have pending := h.alone (by simp [place, atRest]) (by simp [place])
    simp only
    repeat' split
    all_goals
      first
      | exact paced_inside rfl (by simp [Device.goto, Device.phase])
          (by first | exact under | simp [Device.phase, UnderVerification]) pending
      | exact paced_ended rfl
          (by simp_all [Device.phase, Device.complete, UnderVerification]) pending

theorem paced_run {i2cComesUp : Bool} {media : Media} {es : List Event} {d : Device}
    (run : Run (machine sha256 faults) Session (powerOn i2cComesUp media) es d) : Paced d := by
  apply run.invariant (paced_powerOn i2cComesUp media)
  rintro d action paced session
  cases action with
  | request r => exact paced.serve session (served d r)
  | thread => exact paced.thread
  | startApplication => exact ⟨paced.resting, paced.working, paced.alone, paced.early⟩
  | stopApplication => exact ⟨paced.resting, paced.working, paced.alone, paced.early⟩

/-! ## The next BEGIN -/

/-- Past a verification the thread does not touch a transfer that has begun since. -/
theorem receiving_thread {d : Device} (h : Paced d) (receiving : d.update.phase = .receiving) :
    (afterThread sha256 faults d).update.phase = .receiving := by
  obtain ⟨rest, quiet⟩ := h.free (by simp [UnderVerification, receiving])
  unfold afterThread threadStep
  cases place : d.thread with
  | idle => simpa [quiet] using receiving
  | failed error => exact receiving
  | returning => exact receiving
  | _ => simp [place, atRest] at rest

theorem receiving_iff_thread {d : Device} (h : Paced d) :
    (afterThread sha256 faults d).update.phase = .receiving ↔ d.update.phase = .receiving :=
  ⟨threadStep_receiving, receiving_thread h⟩

theorem updateBeginIsAllowed_iff (u : UpdateState) (target : Byte) (length flags : Nat)
    (captureRunning : Bool) :
    updateBeginIsAllowed u target length flags captureRunning = .none ↔
      updateIsInProgress u = false ∧
        updateBeginIsAllowed updateStateReset target length flags captureRunning = .none := by
  have fresh : updateIsInProgress updateStateReset = false := rfl
  cases busy : updateIsInProgress u with
  | false => simp [updateBeginIsAllowed, busy, fresh]
  | true =>
    simp only [reduceCtorEq, false_and, iff_false]
    intro allowed
    rw [(updateBeginIsAllowed_none allowed).2.1] at busy
    cases busy

theorem refusal_iff (d : Device) (probe : FlashProbe) (target : Byte) (begin : UpdateBegin) :
    updateAgentBeginRefusal d probe target begin = .none ↔
      updateIsInProgress d.update = false ∧ Admissible d probe target begin := by
  have split : ∀ d : Device, updateAgentBeginRefusal d probe target begin = .none ↔
      updateBeginIsAllowed d.update target begin.length begin.flags d.dataCollection = .none ∧
        updateAgentMediumIsReady d probe target begin.length = .none := by
    intro d
    constructor
    · exact updateAgentBeginRefusal_none
    · rintro ⟨allowed, ready⟩
      simp [updateAgentBeginRefusal, allowed, ready]
  rw [Admissible, split, split, updateBeginIsAllowed_iff d.update]
  constructor
  · rintro ⟨⟨free, allowed⟩, ready⟩
    exact ⟨free, allowed, ready⟩
  · rintro ⟨free, allowed, ready⟩
    exact ⟨⟨free, allowed⟩, ready⟩

/-- However a session ends, the thread comes to rest, and from then on a BEGIN for an
admissible update is let in if and only if the session was not cut while the device
was receiving. -/
theorem begin_after_cut {i2cComesUp : Bool} {media : Media} {es : List Event} {d : Device}
    (run : Run (machine sha256 faults) Session (powerOn i2cComesUp media) es d) :
    (∃ n, Quiet ((afterThread sha256 faults)^[n] d)) ∧
    ∀ n, Quiet ((afterThread sha256 faults)^[n] d) →
      ∀ target begin probe wIndex data, BitVec.ofNat 8 wIndex = target →
        updateBeginDecode data = some begin →
        Admissible ((afterThread sha256 faults)^[n] d) probe target begin →
        ((serve sha256 faults ((afterThread sha256 faults)^[n] d)
            (.begin wIndex updateBeginLength (some data) probe)).2 = .beginAdmitted ↔
          d.update.phase ≠ .receiving) := by
  refine ⟨comes_to_rest sha256 faults d, ?_⟩
  intro n quiet target begin probe wIndex data hindex decoded admissible
  have kept : Paced ((afterThread sha256 faults)^[n] d) ∧
      (((afterThread sha256 faults)^[n] d).update.phase = .receiving ↔
        d.update.phase = .receiving) := by
    clear quiet admissible
    induction n with
    | zero => exact ⟨paced_run run, Iff.rfl⟩
    | succ n ih =>
      obtain ⟨paced, same⟩ := ih
      rw [Function.iterate_succ_apply']
      exact ⟨paced.thread, (receiving_iff_thread paced).trans same⟩
  obtain ⟨paced, same⟩ := kept
  rw [Ne, ← same]
  generalize (afterThread sha256 faults)^[n] d = rested at *
  have still : ¬ UnderVerification rested := by
    rw [paced.resting (by simp [quiet.1, atRest]), quiet.2]
    simp
  have progress : updateIsInProgress rested.update = false ↔
      rested.update.phase ≠ .receiving := by
    rw [← Bool.not_eq_true, not_iff_not, updateIsInProgress_iff]
    simp only [UnderVerification] at still
    tauto
  have refusal := refusal_iff rested probe target begin
  rw [← Ne, ← progress]
  cases busy : updateIsInProgress rested.update with
  | false =>
    have none := refusal.mpr ⟨busy, admissible⟩
    simp [serve, updateAgentBegin, decoded, hindex, none]
  | true =>
    have some : updateAgentBeginRefusal rested probe target begin ≠ .none := by
      intro none
      rw [(refusal.mp none).1] at busy
      cases busy
    simp [serve, updateAgentBegin, decoded, hindex, some, busy]

/-! ### Two sessions -/

def image : UpdateBegin := ⟨4096, Vector.replicate 32 0, updateFlagsNone⟩

def opening : Request :=
  .begin 0 updateBeginLength (some (beginPacket image)) ⟨false, none⟩

theorem decode_image : updateBeginDecode (beginPacket image) = some image :=
  updateBeginDecode_beginPacket (by decide) (Or.inl rfl)

variable (sha256) (faults)

theorem serve_opening (media : Media) : serve sha256 faults (powerOn true media) opening =
    ((powerOn true media).open updateTargetEeprom image, .beginAdmitted) := by
  have target : BitVec.ofNat 8 0 = updateTargetEeprom := rfl
  have admitted : updateAgentBeginRefusal (powerOn true media) ⟨false, none⟩
      updateTargetEeprom image = .none := rfl
  simp [serve, opening, updateAgentBegin, decode_image, target, admitted]

theorem run_opening (media : Media) : Run (machine sha256 faults) Session (powerOn true media)
    [.beginAdmitted] ((powerOn true media).open updateTargetEeprom image) :=
  Run.refl.next (.request opening) (fun probes => probes.elim)
    (serve_opening sha256 faults media)

/-- The first session ends with a FINISH that comes too early and is refused. -/
theorem begin_after_refusal : (serve (fun _ => Vector.replicate 32 0) ReliableTransfer.reliable
    (((powerOn true ⟨fun _ => 0, fun _ => 0, 0, [], []⟩).open updateTargetEeprom image).fail
      .short) opening).2 = .beginAdmitted := by
  have run : Run (machine (fun _ => Vector.replicate 32 0) ReliableTransfer.reliable) Session
      (powerOn true ⟨fun _ => 0, fun _ => 0, 0, [], []⟩) _ (((powerOn true
        ⟨fun _ => 0, fun _ => 0, 0, [], []⟩).open updateTargetEeprom image).fail .short) :=
    (run_opening _ _ _).next (.request (.finish 0))
      (fun _ => by simp [UnderVerification, Device.open]) rfl
  have next := (begin_after_cut run).2 0 ⟨rfl, rfl⟩ updateTargetEeprom image ⟨false, none⟩ 0
    (beginPacket image) rfl decode_image rfl
  exact next.mpr (by intro receiving; cases receiving)

theorem opening_refused (media : Media) : (serve sha256 faults
    ((powerOn true media).open updateTargetEeprom image) opening).2 = .beginRefused := by
  have target : BitVec.ofNat 8 0 = updateTargetEeprom := rfl
  have refused : updateAgentBeginRefusal ((powerOn true media).open updateTargetEeprom image)
      ⟨false, none⟩ updateTargetEeprom image = .sequence := rfl
  have busy : updateIsInProgress ((powerOn true media).open updateTargetEeprom image).update =
      true := rfl
  simp only [serve, opening, updateAgentBegin, decode_image, target, refused, busy]
  rfl

/-- A session cut after its BEGIN keeps every later one out. -/
theorem begin_locked_out : ¬ ∀ (media : Media) (es : List Event) (d : Device),
    Run (machine (fun _ => Vector.replicate 32 0) ReliableTransfer.reliable) Session
        (powerOn true media) es d →
      ∀ target begin probe wIndex data, BitVec.ofNat 8 wIndex = target →
        updateBeginDecode data = some begin → Quiet d → Admissible d probe target begin →
        (serve (fun _ => Vector.replicate 32 0) ReliableTransfer.reliable d
          (.begin wIndex updateBeginLength (some data) probe)).2 = .beginAdmitted := by
  intro claim
  have admitted := claim ⟨fun _ => 0, fun _ => 0, 0, [], []⟩ _ _ (run_opening _ _ _)
    updateTargetEeprom image ⟨false, none⟩ 0 (beginPacket image) rfl decode_image ⟨rfl, rfl⟩ rfl
  have refused := opening_refused (fun _ => Vector.replicate 32 0) ReliableTransfer.reliable
    ⟨fun _ => 0, fun _ => 0, 0, [], []⟩
  rw [opening, admitted] at refused
  cases refused

end SessionRecovery
