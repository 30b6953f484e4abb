import DomesdayDuplicator.Firmware.EepromWrite
import DomesdayDuplicator.Firmware.Verification

/-!
# The EEPROM transfer from BEGIN to COMPLETE

Page 0 is the last thing written: not before the rest has been read back and the
digest agrees. A page is written by one operation, which may take several
attempts, so "once" is the wrong word for the medium: an attempt that is not
acknowledged afterwards is repeated although it stored the page.
-/

namespace EepromCommit

open Execution UpdateProtocol Medium PagedMemory UpdateAgent UpdateSteps ReliableTransfer
  TransferRun EepromWrite VerifyGuard Verification

variable {sha256 : List Byte → Digest} {faults : Faults}

/-- The step that writes page 0 is not taken. -/
def BeforeCommit (d : Device) (a : Action) : Prop :=
  a = .thread → d.thread ≠ .eepromCommitting

theorem live_start (extra : Prop) (m : Media) :
    EepromWrite.Live extra m m (List.replicate updateEepromPageSize 0) [] := by
  have nothing : writes m m = [] := by simp [writes, EepromWrite.since]
  refine ⟨⟨List.prefix_refl _, Or.inr ⟨?_, fun _ _ => rfl⟩, ?_, fun i hi _ => by simp at hi⟩,
    List.length_replicate, Or.inl rfl⟩
  · rw [firstPageWrites, nothing]
    rfl
  · rw [bodyPages_short (by simp), bodyWrites, nothing]
    exact .nil

/-- Stands in for the digest: the first bytes of the message. -/
def prefixDigest (message : List Byte) : Digest :=
  Vector.ofFn fun i => message.getD i 0

end EepromCommit
