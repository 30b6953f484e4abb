import DomesdayDuplicator.Firmware.Sha256Stream
import DomesdayDuplicator.Firmware.VerifyGuard

/-!
# The context of a transfer

The agent is given a context at a BEGIN and writes each chunk to it that it takes, until a
FINISH closes it. In every run, what closing gives decides the FINISH as the hash of the bytes
since that BEGIN does.
-/

namespace StreamedTransfer

open Execution UpdateProtocol Medium UpdateAgent UpdateSteps ReliableTransfer VerifyGuard

theorem length_bytes (r : SecureHash.Registers) : r.bytes.length = 32 := rfl

/-- The hash the agent's contexts take. -/
def sha256 (message : List Byte) : Digest :=
  ⟨(SecureHash.digest (Sha256.k.getD · 0) Sha256.initial message).toArray, length_bytes _⟩

variable (unset : Vector Sha256.Word 16) (memory : Vector Byte 64)

/-- What an event does to the context of the stream. -/
def follow (c : Sha256.Context) : Event → Sha256.Context
  | .beginAdmitted => Sha256.init memory
  | .chunkAccepted data => Sha256.write unset c data
  | _ => c

variable {faults : Faults} {d d' : Device} {r : Request} {e : Event} {c : Sha256.Context}

/-- While a transfer is received, the context has been given what its hash is taken of. -/
def Streams (c : Sha256.Context) (d : Device) : Prop :=
  d.update.phase = .receiving → Sha256.Gathers c d.streamHash

theorem failed_phase (u : UpdateState) (error : UpdateError) :
    (updateStateFail u error).phase ≠ .receiving := by
  rw [updateStateFail_phase]
  decide

theorem follow_inert (inert : Inert e) : follow unset memory c e = c := by
  cases e with
  | beginAdmitted => exact absurd rfl inert.2.1
  | chunkAccepted data => exact absurd rfl (inert.2.2.2.2.2.2 data)
  | _ => rfl

variable {unset memory}

theorem Streams.served (h : Streams c d) (served : Served sha256 faults d r d' e) :
    Streams (follow unset memory c e) d' := by
  intro receiving
  cases served with
  | unchanged _ _ inert =>
    rw [follow_inert unset memory inert]
    exact h receiving
  | beginRefused _ error => exact absurd receiving (failed_phase _ _)
  | beginAdmitted => exact ⟨Sha256.init_holds memory, rfl⟩
  | failed _ error => exact absurd receiving (failed_phase _ _)
  | chunk _ target index data _ probes short allowed image event =>
    have taken := updateAgentData_taken faults allowed image
    rw [event]
    split
    · rw [taken.hash]
      exact (h (updateChunkIsAllowed_none allowed).2.1).write data
    · rename_i refused
      obtain ⟨w, failed⟩ := taken.failed (by simpa using refused)
      rw [failed] at receiving
      exact absurd receiving (failed_phase _ _)
  | finishAccepted => cases receiving
  | reset => cases receiving
  | captureStarted => exact h receiving
  | captureStopped => exact h receiving

theorem Streams.step (h : Streams c d) (a : Action) :
    Streams (follow unset memory c (step sha256 faults d a).2) (step sha256 faults d a).1 := by
  cases a with
  | request r => exact h.served (UpdateSteps.served d r)
  | thread =>
    intro receiving
    have same : follow unset memory c (threadStep sha256 faults d).2 = c := by
      rw [threadStep_event]
      split <;> rfl
    change Sha256.Gathers (follow unset memory c (threadStep sha256 faults d).2) _
    rw [same]
    exact (threadStep_frame sha256 faults d).streamHash ▸ h (threadStep_receiving receiving)
  | startApplication => exact h
  | stopApplication => exact h

theorem streams_run {i2cComesUp : Bool} {media : Media} {es : List Event}
    (run : Trace sha256 faults Any (powerOn i2cComesUp media) es d) :
    Streams (es.foldl (follow unset memory) c) d := by
  refine run.invariant_events (fun es d => Streams (es.foldl (follow unset memory) c) d)
    (fun receiving => by cases receiving) fun es d a streams _ => ?_
  rw [List.foldl_append]
  exact streams.step a

/-- In every run from power-on, whatever the contexts' memory held before, a FINISH is accepted
where it is allowed and closing the context gives the digest that was announced. -/
theorem finish_iff_closes {i2cComesUp : Bool} {media : Media} {es : List Event}
    (run : Trace sha256 faults Any (powerOn i2cComesUp media) es d) (target : Byte) :
    (updateAgentFinish sha256 d target).2 = true ↔ updateFinishIsAllowed d.update target = .none ∧
      Sha256.close unset (es.foldl (follow unset memory) (Sha256.init memory)) =
        d.update.digest.toList := by
  rw [updateAgentFinish]
  by_cases allowed : updateFinishIsAllowed d.update target = .none
  · have receiving := (updateFinishIsAllowed_none allowed).2.1
    have gathered := @streams_run unset memory faults d (Sha256.init memory) _ _ _ run receiving
    have closed : Sha256.close unset (es.foldl (follow unset memory) (Sha256.init memory)) =
        (sha256 d.streamHash).toList := gathered.close
    rw [closed, Vector.toList_inj]
    by_cases agrees : sha256 d.streamHash = d.update.digest
    · rw [if_neg (not_not.mpr allowed), if_neg (not_not.mpr agrees)]
      exact iff_of_true rfl ⟨allowed, agrees⟩
    · rw [if_neg (not_not.mpr allowed), if_pos agrees]
      exact iff_of_false Bool.false_ne_true fun both => agrees both.2
  · rw [if_pos allowed]
    exact iff_of_false Bool.false_ne_true fun both => allowed both.1

theorem finish_iff_closes_page : ∃ d : Device,
    updateFinishIsAllowed d.update updateTargetEpcs = .none ∧
      Sha256.close (Vector.replicate 16 0)
        ([Event.beginAdmitted, .chunkAccepted samplePage].foldl
          (follow (Vector.replicate 16 0) (Vector.replicate 64 0xA5))
          (Sha256.init (Vector.replicate 64 0xA5))) = d.update.digest.toList := by
  obtain ⟨d, feeding, standing⟩ := received sha256 (onePage_admitted sha256) onePage_splits
    (fun eeprom => by cases eeprom)
  have allowed : updateFinishIsAllowed d.update updateTargetEpcs = .none := by
    simp [updateFinishIsAllowed, standing.target, standing.receiving, standing.received,
      standing.length, onePage, length_samplePage]
  have accepted : (updateAgentFinish sha256 d updateTargetEpcs).2 = true := by
    simp [updateAgentFinish, allowed, standing.hash, standing.digest, onePage]
  exact ⟨d, (finish_iff_closes (feeding.mono Any fun _ _ _ => trivial) updateTargetEpcs).mp
    accepted⟩

end StreamedTransfer
