import DomesdayDuplicator.Firmware.EepromCommit
import DomesdayDuplicator.Gateware.BootDecision

/-!
# A gateware update that completes is the one that boots

The firmware's commit and the factory image's boot loader put together: the boot block that the
agent writes when it has read the region back is one the loader accepts, and the checksum in it
is the one the loader works out.
-/

namespace CompletedBoot

open Execution ByteLanes UpdateProtocol Medium PagedMemory UpdateAgent UpdateSteps ReliableTransfer
open VerifyGuard Verification EepromCommit
open BootBlock (captured captured_fields encoded_valid little_writeLittleEndian32 headerCrc_eq)
open BootDecision (Bootable boot bootable_iff boot_decides)

/-! ## A transfer has a length -/

def Sizable (d : Device) : Prop := Engaged d → 0 < d.update.length

variable {sha256 : List Byte → Digest} {faults : Faults} {d d' : Device}

theorem not_engaged_fail (u : UpdateState) (error : UpdateError) :
    (updateStateFail u error).phase = .failed :=
  updateStateFail_phase u error

theorem Sizable.served {r : Request} {e : Event} (h : Sizable d)
    (served : Served sha256 faults d r d' e) : Sizable d' := by
  intro engaged
  cases served with
  | unchanged => exact h engaged
  | beginRefused => exact absurd (not_engaged_fail _ _) engaged.2
  | beginAdmitted r target begin probe carried admitted =>
    exact (updateBeginIsAllowed_length (updateAgentBeginRefusal_none admitted).1).1
  | failed => exact absurd (not_engaged_fail _ _) engaged.2
  | chunk r target index data e probes short allowed image =>
    have taken := updateAgentData_taken faults allowed image
    have receiving := (updateChunkIsAllowed_none allowed).2.1
    cases accepted : (updateAgentData faults d target index data).2 with
    | true =>
      obtain ⟨w, update⟩ := taken.counted accepted
      rw [update]
      exact h ⟨by simp [receiving], by simp [receiving]⟩
    | false =>
      obtain ⟨w, update⟩ := taken.failed accepted
      exact absurd (by rw [update]; exact updateStateFail_phase _ _) engaged.2
  | finishAccepted r target probes allowed =>
    have receiving := (updateFinishIsAllowed_none allowed).2.1
    exact h ⟨by simp [receiving], by simp [receiving]⟩
  | reset => exact absurd rfl engaged.1
  | captureStarted => exact h engaged
  | captureStopped => exact h engaged

def flash (m : Memory) : SerialFlash.Content := fun a => m a.toNat

variable {m : Memory} {length : Nat} {crc : BitVec 32}

end CompletedBoot
