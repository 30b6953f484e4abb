import DomesdayDuplicator.Update.UpdateOrchestrator
import Mathlib.Tactic.SplitIfs

/-!
# The orchestrator's conversations

What each part of `UpdateOrchestrator` can ask, what its success has heard and how long a
device can keep it waiting: one lemma for each function, none of which is unfolded after
them.
-/

namespace OrchestratorCalls

open CallingProgram HostTransfer Manifest UpdateOrchestrator

/-- The exchanges that send these chunks. -/
def sending (target : UpdateTarget) (chunks : List Chunk) : Log :=
  chunks.flatMap fun chunk => [⟨.cancelled, false⟩, ⟨.sendChunk target chunk, true⟩]

theorem sendAll_none {target : UpdateTarget} {total : Nat} {chunks : List Chunk} {log : Log} :
    Returns (sendAll target total chunks) log none ↔ log = sending target chunks := by
  induction chunks generalizing log with
  | nil => simp [sendAll, sending]
  | cons chunk rest ih =>
    rw [sendAll, returns_ask_bind]
    constructor
    · rintro ⟨stop, tail, rfl, h⟩
      cases stop with
      | true => simp at h
      | false =>
        rw [if_neg Bool.false_ne_true, returns_ask_bind] at h
        obtain ⟨taken, tail, rfl, h⟩ := h
        cases taken with
        | false => simp [returns_bind] at h
        | true =>
          obtain rfl := ih.mp h
          rfl
    · rintro rfl
      refine ⟨false, _, rfl, ?_⟩
      rw [if_neg Bool.false_ne_true, returns_ask_bind]
      exact ⟨true, _, rfl, ih.mpr rfl⟩

/-- The questions `AwaitCompletion` asks. -/
def Asking : Call → Prop
  | .readStatus | .cancelled | .stallElapsed => True
  | _ => False

theorem awaitCompletion_only {total polls written verified : Nat} :
    Only Asking (awaitCompletion total polls written verified) := by
  induction polls generalizing written verified with
  | zero => trivial
  | succ polls ih =>
    refine ⟨trivial, fun stop => ?_⟩
    cases stop with
    | true => trivial
    | false =>
      refine ⟨trivial, fun status => ?_⟩
      cases status with
      | none => trivial
      | some status =>
        simp only [Bind.bind, Program.bind, ask]
        split_ifs
        · trivial
        · trivial
        · exact ih
        · refine ⟨trivial, fun stalled => ?_⟩
          cases stalled with
          | true => trivial
          | false => exact ih

/-- What the awaiting ends with when it is content. -/
theorem awaitCompletion_none {total polls written verified : Nat} {log : Log}
    (h : Returns (awaitCompletion total polls written verified) log none) :
    ∃ waiting status, log = waiting ++ [⟨.readStatus, some status⟩] ∧
      status.phase = .complete := by
  induction polls generalizing written verified log with
  | zero => simp [awaitCompletion] at h
  | succ polls ih =>
    rw [awaitCompletion, returns_ask_bind] at h
    obtain ⟨stop, tail, rfl, h⟩ := h
    cases stop with
    | true => simp at h
    | false =>
      rw [if_neg Bool.false_ne_true, returns_ask_bind] at h
      obtain ⟨answer, tail, rfl, h⟩ := h
      cases answer with
      | none => simp at h
      | some status =>
        simp only at h
        split_ifs at h with failed complete moved
        · simp at h
        · obtain ⟨rfl, -⟩ := returns_pure.mp h
          exact ⟨[⟨.cancelled, false⟩], status, rfl, complete⟩
        · obtain ⟨waiting, last, rfl, ends⟩ := ih h
          exact ⟨⟨.cancelled, false⟩ :: ⟨.readStatus, some status⟩ :: waiting, last, rfl, ends⟩
        · rw [returns_ask_bind] at h
          obtain ⟨stalled, tail, rfl, h⟩ := h
          cases stalled with
          | true => simp at h
          | false =>
            obtain ⟨waiting, last, rfl, ends⟩ := ih h
            exact ⟨⟨.cancelled, false⟩ :: ⟨.readStatus, some status⟩ ::
              ⟨.stallElapsed, false⟩ :: waiting, last, rfl, ends⟩

/-- The device at work: neither of the two phases a transfer ends in. -/
def working : Exchange Answer → Bool
  | ⟨.readStatus, some status⟩ => status.phase != .failed && status.phase != .complete
  | _ => false

section Waiting

variable {settings : Settings} {target : UpdateTarget} {component : UpdateComponent}
  {payload : List Byte} {total polls turns : Nat}

/-- Only a device that is always at work keeps the host waiting. -/
theorem awaitCompletion_lasts (written verified : Nat) :
    Lasts working polls (awaitCompletion total polls written verified) := by
  induction polls generalizing written verified with
  | zero => exact fun _ _ => Nat.zero_le _
  | succ polls ih =>
    refine lasts_ask fun stop => ?_
    cases stop with
    | true => simp
    | false =>
      refine lasts_turn fun answer => ?_
      cases answer with
      | none => simp
      | some status =>
        simp only
        split_ifs with atWork failed complete moved failed complete
        · simp
        · simp
        · exact ih _ _
        · refine lasts_ask fun stalled => ?_
          cases stalled with
          | true => simp
          | false => exact ih _ _
        · simp
        · simp
        · simp [working, failed, complete] at atWork
        · simp [working, failed, complete] at atWork

theorem deviceRefusal_lasts (fallback : Problem) :
    Lasts working turns (deviceRefusal total fallback) := by
  refine lasts_ask fun status => ?_
  cases status with
  | none => simp
  | some status =>
    simp only
    split_ifs <;> simp

theorem sendAll_lasts (chunks : List Chunk) :
    Lasts working turns (sendAll target total chunks) := by
  induction chunks with
  | nil => exact lasts_pure _
  | cons chunk rest ih =>
    refine lasts_ask fun stop => ?_
    cases stop with
    | true => simp
    | false =>
      refine lasts_ask fun taken => ?_
      cases taken with
      | true => exact ih
      | false => exact lasts_bind (deviceRefusal_lasts _) fun _ => lasts_pure _

theorem transfer_lasts (chunks : List Chunk) :
    Lasts working polls (transfer target total chunks polls) := by
  refine lasts_bind (sendAll_lasts chunks) fun problem => ?_
  cases problem with
  | some problem => simp
  | none =>
    refine lasts_ask fun taken => ?_
    cases taken with
    | true => exact awaitCompletion_lasts 0 0
    | false => exact lasts_bind (deviceRefusal_lasts _) fun _ => lasts_pure _

theorem writeComponent_lasts :
    Lasts working polls (UpdateOrchestrator.writeComponent target component payload polls) := by
  refine lasts_ask fun initial => ?_
  cases initial with
  | none => simp
  | some initial =>
    simp only
    cases HostTransfer.writeComponent initial payload with
    | none => simp
    | some chunks =>
      refine lasts_ask fun begun => ?_
      cases begun with
      | true => exact transfer_lasts chunks
      | false => exact lasts_bind (deviceRefusal_lasts _) fun _ => lasts_pure _

theorem installComponent_lasts :
    Lasts working polls (installComponent settings target component payload polls) := by
  refine lasts_bind writeComponent_lasts fun problem => ?_
  cases problem with
  | none => simp
  | some problem =>
    simp only
    split_ifs
    · exact lasts_ask fun _ => lasts_pure _
    · simp

theorem installGateware_lasts :
    Lasts working polls (installGateware settings payload polls component) := by
  refine lasts_bind installComponent_lasts fun problem => ?_
  cases problem with
  | some problem => simp
  | none =>
    simp only
    split_ifs
    · simp
    · refine lasts_ask fun loaded => ?_
      cases loaded <;> simp

theorem installPresent_lasts {component : Option UpdateComponent}
    {install : UpdateComponent → Session (Option Problem)}
    (each : ∀ c, Lasts working polls (install c)) :
    Lasts working polls (installPresent component install) := by
  cases component with
  | none => exact lasts_pure _
  | some component => exact each component

theorem restart_lasts (firmware gateware : Option UpdateComponent) :
    Lasts working turns (restart settings firmware gateware) := by
  rw [restart]
  split_ifs
  · simp
  · refine lasts_ask fun _ => lasts_ask fun returned => ?_
    cases returned <;> simp

theorem runUpdate_lasts (archive : List Byte) (bundle : Bundle.UpdateBundle) :
    Lasts working polls (runUpdate settings polls archive bundle) := by
  simp only [runUpdate]
  split_ifs
  · simp
  refine lasts_bind (installPresent_lasts fun _ => installComponent_lasts) fun problem => ?_
  cases problem with
  | some problem => simp
  | none =>
    refine lasts_bind (installPresent_lasts fun _ => installGateware_lasts) fun problem => ?_
    cases problem with
    | some problem => simp
    | none => exact restart_lasts _ _

end Waiting

/-! ## The calls of one component -/

section Calls

variable {allowed : Call → Prop} {settings : Settings} {target : UpdateTarget}
  {component : UpdateComponent} {payload : List Byte} {total polls : Nat}

theorem deviceRefusal_only (asks : ∀ c, Asking c → allowed c) (fallback : Problem) :
    Only allowed (deviceRefusal total fallback) := by
  refine only_ask (asks _ trivial) fun status => ?_
  cases status with
  | none => trivial
  | some status =>
    simp only
    split_ifs <;> trivial

theorem sendAll_only (asks : ∀ c, Asking c → allowed c)
    (sends : ∀ chunk, allowed (.sendChunk target chunk)) (chunks : List Chunk) :
    Only allowed (sendAll target total chunks) := by
  induction chunks with
  | nil => trivial
  | cons chunk rest ih =>
    refine only_ask (asks _ trivial) fun stop => ?_
    cases stop with
    | true => trivial
    | false =>
      refine only_ask (sends chunk) fun taken => ?_
      cases taken with
      | true => exact ih
      | false => exact only_bind (deviceRefusal_only asks _) fun _ => trivial

theorem transfer_only (asks : ∀ c, Asking c → allowed c)
    (sends : ∀ chunk, allowed (.sendChunk target chunk)) (finishes : allowed (.finish target))
    (chunks : List Chunk) : Only allowed (transfer target total chunks polls) := by
  refine only_bind (sendAll_only asks sends chunks) fun problem => ?_
  cases problem with
  | some problem => trivial
  | none =>
    refine only_ask finishes fun taken => ?_
    cases taken with
    | true => exact awaitCompletion_only.mono asks
    | false => exact only_bind (deviceRefusal_only asks _) fun _ => trivial

/-- The calls one component is written with. -/
theorem installComponent_only (asks : ∀ c, Asking c → allowed c)
    (begins : allowed (.begin target payload.length component.sha256))
    (sends : ∀ chunk, allowed (.sendChunk target chunk)) (finishes : allowed (.finish target)) :
    Only allowed (installComponent settings target component payload polls) := by
  refine only_bind (only_ask (asks _ trivial) fun initial => ?_) fun problem => ?_
  · cases initial with
    | none => trivial
    | some initial =>
      simp only
      cases HostTransfer.writeComponent initial payload with
      | none => trivial
      | some chunks =>
        refine only_ask begins fun begun => ?_
        cases begun with
        | true => exact transfer_only asks sends finishes chunks
        | false => exact only_bind (deviceRefusal_only asks _) fun _ => trivial
  · cases problem with
    | none => trivial
    | some problem =>
      simp only
      split_ifs
      · exact only_ask (asks _ trivial) fun _ => trivial
      · trivial

end Calls

/-! ## What a success went through -/

/-- A transfer of its own: begun, the payload sent whole and taken, finished, and complete
at the last. -/
def Transferred (target : UpdateTarget) (component : UpdateComponent) (payload : List Byte)
    (log : Log) : Prop :=
  ∃ before chunks waiting status after,
    log = before ++ ⟨.begin target payload.length component.sha256, true⟩ ::
      (sending target chunks ++ ⟨.finish target, true⟩ ::
        (waiting ++ ⟨.readStatus, some status⟩ :: after)) ∧
    (chunks.map Chunk.data).flatten = payload ∧ (∀ e ∈ waiting, Asking e.1) ∧
    status.phase = .complete

section Success

variable {settings : Settings} {target : UpdateTarget} {component : UpdateComponent}
  {payload : List Byte} {total polls : Nat} {log : Log}

theorem Transferred.within (h : Transferred target component payload log) (front back : Log) :
    Transferred target component payload (front ++ log ++ back) := by
  obtain ⟨before, chunks, waiting, status, after, rfl, whole, asking, complete⟩ := h
  exact ⟨front ++ before, chunks, waiting, status, after ++ back, by simp, whole, asking, complete⟩

theorem alignedChunk_pos (maximum : Nat) : 0 < alignedChunk maximum := by
  by_cases none : maximum - maximum % kUpdateChunkAlignment = 0
  · simp only [alignedChunk, if_pos none]
    decide
  · simp only [alignedChunk, if_neg none]
    omega

theorem chunks_whole {initial : DeviceUpdateStatus} {chunks : List Chunk}
    (cut : HostTransfer.writeComponent initial payload = some chunks) :
    (chunks.map Chunk.data).flatten = payload := by
  rw [HostTransfer.writeComponent] at cut
  split at cut
  · cases cut
  · obtain rfl := Option.some.inj cut
    exact sendChunks_flatten (alignedChunk_pos _) 0 (Nat.le_refl _)

theorem transfer_none {chunks : List Chunk}
    (h : Returns (transfer target total chunks polls) log none) :
    ∃ waiting status, log = sending target chunks ++ ⟨.finish target, true⟩ ::
      (waiting ++ [⟨.readStatus, some status⟩]) ∧
      (∀ e ∈ waiting, Asking e.1) ∧ status.phase = .complete := by
  rw [transfer, returns_bind] at h
  obtain ⟨problem, one, two, rfl, sent, h⟩ := h
  cases problem with
  | some problem => simp at h
  | none =>
    obtain rfl := sendAll_none.mp sent
    simp only [returns_ask_bind] at h
    obtain ⟨taken, tail, rfl, h⟩ := h
    cases taken with
    | false => simp [returns_bind] at h
    | true =>
      obtain ⟨waiting, status, rfl, complete⟩ := awaitCompletion_none h
      refine ⟨waiting, status, rfl, fun e member => ?_, complete⟩
      exact awaitCompletion_only.calls h e (by simp [member])

theorem writeComponent_none
    (h : Returns (UpdateOrchestrator.writeComponent target component payload polls) log none) :
    Transferred target component payload log := by
  rw [UpdateOrchestrator.writeComponent, returns_ask_bind] at h
  obtain ⟨initial, tail, rfl, h⟩ := h
  cases initial with
  | none => simp at h
  | some initial =>
    cases cut : HostTransfer.writeComponent initial payload with
    | none => simp [cut] at h
    | some chunks =>
      simp only [cut, returns_ask_bind] at h
      obtain ⟨begun, tail, rfl, h⟩ := h
      cases begun with
      | false => simp [returns_bind] at h
      | true =>
        obtain ⟨waiting, status, rfl, asking, complete⟩ := transfer_none h
        exact ⟨[⟨.readStatus, some initial⟩], chunks, waiting, status, [], rfl, chunks_whole cut,
          asking, complete⟩

theorem installComponent_none
    (h : Returns (installComponent settings target component payload polls) log none) :
    Transferred target component payload log := by
  rw [installComponent, returns_bind] at h
  obtain ⟨problem, one, two, rfl, wrote, h⟩ := h
  cases problem with
  | none =>
    obtain ⟨rfl, -⟩ := returns_pure.mp h
    simpa using writeComponent_none wrote
  | some problem =>
    simp only at h
    split_ifs at h
    · simp [returns_bind] at h
    · simp at h

theorem installGateware_none
    (h : Returns (installGateware settings payload polls component) log none) :
    Transferred .gateware component payload log := by
  rw [installGateware, returns_bind] at h
  obtain ⟨problem, one, two, rfl, installed, h⟩ := h
  cases problem with
  | some problem => simp at h
  | none => exact (installComponent_none installed).within [] two

theorem installPresent_none {component : Option UpdateComponent}
    {install : UpdateComponent → Session (Option Problem)}
    (h : Returns (installPresent component install) log none) :
    ∀ c ∈ component, Returns (install c) log none := by
  rintro c rfl
  exact h

end Success

end OrchestratorCalls
