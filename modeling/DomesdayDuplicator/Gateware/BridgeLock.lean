import DomesdayDuplicator.Foundations.Execution
import DomesdayDuplicator.Gateware.FlashBridge

/-!
# The lock of the flash bridge

The unlock register sees attempts at its four-byte sequence. An attempt is over when the
sequence is complete or at its first wrong byte, which begins no new one; the bridge is
unlocked just after a complete one. Four bytes written while an attempt is under way go
into that attempt.
-/

namespace BridgeLock

open Execution FlashBridge

/-! ## Attempts -/

def unlockSequence : List Byte := [unlockByte0, unlockByte1, unlockByte2, unlockByte3]

/-- Bytes that make up whole attempts. -/
inductive Attempts : List Byte → Prop
  | none : Attempts []
  | completed {earlier} : Attempts earlier → Attempts (earlier ++ unlockSequence)
  | givenUp {earlier} (taken : Fin 4) (wrong : Byte) : Attempts earlier →
      wrong ≠ unlockSequence.get taken →
      Attempts (earlier ++ unlockSequence.take taken ++ [wrong])

/-- The last attempt has been completed, and nothing has been written since. -/
def Completed (history : List Byte) : Prop :=
  ∃ earlier, Attempts earlier ∧ history = earlier ++ unlockSequence

def progress (history : List Byte) : BitVec 2 := history.foldl matched 0

theorem progress_append (history more : List Byte) :
    progress (history ++ more) = more.foldl matched (progress history) := List.foldl_append

theorem matched_take (n : Fin 4) : (unlockSequence.take n).foldl matched 0 = BitVec.ofFin n := by
  revert n
  decide

theorem matched_wrong {n : Fin 4} {wrong : Byte} (h : wrong ≠ unlockSequence.get n) :
    matched (BitVec.ofFin n) wrong = 0 := by
  have cases : n = 0 ∨ n = 1 ∨ n = 2 ∨ n = 3 := by omega
  rcases cases with rfl | rfl | rfl | rfl
  · exact if_neg h
  · exact if_neg h
  · exact if_neg h
  · rfl

theorem Attempts.progress {history : List Byte} (h : Attempts history) :
    progress history = 0 := by
  induction h with
  | none => rfl
  | completed _ ih =>
    rw [progress_append, ih]
    rfl
  | givenUp n wrong _ other ih =>
    rw [progress_append, progress_append, ih, matched_take]
    exact matched_wrong other

/-- What has been written is whole attempts, and the beginning of one more. -/
theorem attempts_underWay (history : List Byte) : ∃ earlier, Attempts earlier ∧
    history = earlier ++ unlockSequence.take (progress history).toNat := by
  induction history using List.reverseRecOn with
  | nil => exact ⟨[], .none, rfl⟩
  | append_singleton history byte ih =>
    obtain ⟨earlier, whole, split⟩ := ih
    have step : progress (history ++ [byte]) = matched (progress history) byte :=
      progress_append history [byte]
    rw [step]
    generalize progress history = n at split
    have cases : n = 0 ∨ n = 1 ∨ n = 2 ∨ n = 3 := by
      have := n.isLt
      bv_omega
    by_cases right : byte = unlockSequence.get n.toFin
    · rcases cases with rfl | rfl | rfl | rfl
      · exact ⟨earlier, whole, by subst split right; simp [unlockSequence, matched]⟩
      · exact ⟨earlier, whole, by subst split right; simp [unlockSequence, matched]⟩
      · exact ⟨earlier, whole, by subst split right; simp [unlockSequence, matched]⟩
      · exact ⟨_, .completed whole, by subst split right; simp [unlockSequence, matched]⟩
    · have none : matched n byte = 0 := matched_wrong right
      refine ⟨_, .givenUp n.toFin byte whole right, ?_⟩
      rw [none, split]
      simp

theorem attempts_iff (history : List Byte) : Attempts history ↔ progress history = 0 := by
  constructor
  · exact Attempts.progress
  · intro none
    obtain ⟨earlier, whole, split⟩ := attempts_underWay history
    rw [none] at split
    rw [split]
    simpa using whole

/-- The sequence is completed by its last byte after its first three. -/
theorem completed_iff (history : List Byte) (byte : Byte) :
    Completed (history ++ [byte]) ↔ progress history = 3 ∧ byte = unlockByte3 := by
  constructor
  · rintro ⟨earlier, whole, split⟩
    have split : history ++ [byte] =
        (earlier ++ [unlockByte0, unlockByte1, unlockByte2]) ++ [unlockByte3] := by
      rw [split, List.append_assoc]
      rfl
    obtain ⟨rfl, last⟩ := List.append_inj' split rfl
    refine ⟨?_, List.singleton_inj.mp last⟩
    rw [progress_append, whole.progress]
    rfl
  · rintro ⟨three, rfl⟩
    obtain ⟨earlier, whole, split⟩ := attempts_underWay history
    refine ⟨earlier, whole, ?_⟩
    rw [split, three, List.append_assoc]
    rfl

theorem not_completed_nil : ¬ Completed [] := by
  rintro ⟨earlier, -, split⟩
  exact absurd split.symm (List.append_ne_nil_of_right_ne_nil _ (by decide))

/-! ## Runs of the bridge -/

/-- What comes in at a clock. -/
structure Incoming where
  window : Window
  flashDataIn : Bool
  deriving DecidableEq

def unlockWritten (w : Window) : Option Byte := if w.writeUnlock then some w.writeData else none

/-- The bridge, with what is written to its unlock register. -/
def machine : Machine Registers Incoming (Option Byte) :=
  ⟨fun r i => (clock i.window i.flashDataIn r, unlockWritten i.window)⟩

def history (events : List (Option Byte)) : List Byte := events.filterMap id

/-- Whether the block drives the pins. -/
def flashDrive (r : Registers) : Bool := r.unlocked

/-- What the lock lets through. -/
structure Guarded (written : List Byte) (r : Registers) : Prop where
  unlocked : r.unlocked = true ↔ Completed written
  deselected : ¬ Completed written → r.chipSelectAsserted = false
  released : ¬ Completed written → flashDrive r = false ∧ pins r = ⟨false, true, false⟩
  still : ¬ Completed written → ∀ w, startShift w r = false

structure Kept (written : List Byte) (r : Registers) : Prop where
  progress : r.unlockProgress = progress written
  unlocked : r.unlocked = true ↔ Completed written
  deselected : r.unlocked = false → r.chipSelectAsserted = false

theorem kept_reset : Kept [] reset where
  progress := rfl
  unlocked := iff_of_false (by decide) not_completed_nil
  deselected := fun _ => rfl

theorem Kept.clock {written : List Byte} {r : Registers} (h : Kept written r) (i : Incoming) :
    Kept (written ++ (unlockWritten i.window).toList) (clock i.window i.flashDataIn r) := by
  obtain ⟨matching, open', closed⟩ := h
  cases write : i.window.writeUnlock with
  | true =>
    have byte : (unlockWritten i.window).toList = [i.window.writeData] := by
      rw [unlockWritten, if_pos write]
      rfl
    have control : i.window.writeControl = false := by
      rw [Window.writeUnlock, Bool.and_eq_true, beq_iff_eq] at write
      rw [Window.writeControl, write.right]
      simp [addressUnlock, addressControl]
    rw [byte]
    refine ⟨?_, ?_, fun _ => ?_⟩
    · simp only [FlashBridge.clock, write, if_true]
      rw [matching]
      exact (progress_append written [i.window.writeData]).symm
    · simp only [FlashBridge.clock, write, if_true]
      rw [completed_iff, ← matching, Bool.and_eq_true, beq_iff_eq, beq_iff_eq]
    · simp [FlashBridge.clock, write, control]
  | false =>
    have nothing : (unlockWritten i.window).toList = [] := by
      rw [unlockWritten, write]
      rfl
    rw [nothing, List.append_nil]
    refine ⟨?_, ?_, ?_⟩
    · simpa only [FlashBridge.clock, write, Bool.false_eq_true, if_false] using matching
    · simpa only [FlashBridge.clock, write, Bool.false_eq_true, if_false] using open'
    · intro locked
      simp only [FlashBridge.clock, write, Bool.false_eq_true, if_false] at locked ⊢
      rw [locked, Bool.and_false, if_neg (by decide)]
      exact closed locked

theorem Kept.guarded {written : List Byte} {r : Registers} (h : Kept written r) :
    Guarded written r := by
  have locked : ¬ Completed written → r.unlocked = false := fun none =>
    Bool.eq_false_iff.mpr (mt h.unlocked.mp none)
  refine ⟨h.unlocked, fun none => h.deselected (locked none), fun none => ⟨locked none, ?_⟩, ?_⟩
  · rw [pins, locked none]
    rfl
  · intro none w
    rw [startShift, locked none, Bool.and_false, Bool.false_and, Bool.false_and]

theorem history_snoc (events : List (Option Byte)) (e : Option Byte) :
    history (events ++ [e]) = history events ++ e.toList := by
  rw [history, List.filterMap_append]
  cases e <;> rfl

theorem history_append (events more : List (Option Byte)) :
    history (events ++ more) = history events ++ history more := List.filterMap_append

theorem kept {events : List (Option Byte)} {r : Registers}
    (run : Run machine Any reset events r) : Kept (history events) r := by
  refine run.invariant_events (fun es r => Kept (history es) r) kept_reset ?_
  intro es r i h _
  rw [history_snoc]
  exact h.clock i

/-! ## Unlocking -/

/-- A clock at which a byte is written to the unlock register. -/
def writes (byte : Byte) : Incoming := ⟨⟨true, addressUnlock, byte⟩, false⟩

theorem writes_run (r : Registers) : ∃ events t, Run machine Any r events t ∧
    history events = unlockSequence :=
  ⟨_, _, Run.of_trace machine (fun _ _ => true) r (unlockSequence.map writes) rfl
    (fun _ _ _ => trivial), rfl⟩

/-- Whether the whole sequence unlocks depends on what was written before. -/
theorem completed_after (written : List Byte) :
    Completed (written ++ unlockSequence) ↔ Attempts written := by
  constructor
  · rintro ⟨earlier, whole, same⟩
    rwa [List.append_cancel_right same]
  · exact fun whole => ⟨written, whole, rfl⟩

/-- The lock is as it should be in every run; the sequence unlocks from a state exactly when
no attempt is under way there. -/
theorem bridge_unlocks {events : List (Option Byte)} {r : Registers}
    (run : Run machine Any reset events r) : Guarded (history events) r ∧
      ((∀ more t, Run machine Any r more t → history more = unlockSequence →
        t.unlocked = true) ↔ Attempts (history events)) := by
  refine ⟨(kept run).guarded, ?_⟩
  have after : ∀ more t, Run machine Any r more t → history more = unlockSequence →
      (t.unlocked = true ↔ Attempts (history events)) := by
    intro more t next sequence
    rw [(kept (run.append next)).unlocked, history_append, sequence, completed_after]
  constructor
  · intro always
    obtain ⟨more, t, next, sequence⟩ := writes_run r
    exact (after more t next sequence).mp (always more t next sequence)
  · exact fun whole more t next sequence => (after more t next sequence).mpr whole

/-- A run that begins an attempt, gives it up, and has completed another. -/
def secondAttempt : List Incoming := ([0x44, 0x00] ++ unlockSequence).map writes

theorem secondAttempt_unlocks :
    Guarded (history (machine.trace reset secondAttempt).1) (machine.trace reset secondAttempt).2 ∧
      ((∀ more t, Run machine Any (machine.trace reset secondAttempt).2 more t →
        history more = unlockSequence → t.unlocked = true) ↔
          Attempts (history (machine.trace reset secondAttempt).1)) :=
  bridge_unlocks (Run.of_trace machine (fun _ _ => true) reset secondAttempt rfl
    (fun _ _ _ => trivial))

/-- One byte of the sequence, then nothing: the next host's four bytes leave it locked. -/
theorem interrupted_stays_locked : ¬ ∀ (events : List (Option Byte)) (r : Registers),
    Run machine Any reset events r → ∀ more t, Run machine Any r more t →
      history more = unlockSequence → t.unlocked = true := by
  intro claim
  have begun := Run.of_trace machine (fun _ _ => true) reset [writes unlockByte0] rfl
    (fun _ _ _ => trivial)
  have next := Run.of_trace machine (fun _ _ => true) (machine.trace reset [writes unlockByte0]).2
    (unlockSequence.map writes) rfl (fun _ _ _ => trivial)
  exact absurd (claim _ _ begun _ _ next rfl) (by decide)

end BridgeLock
