import DomesdayDuplicator.Firmware.ReliableTransfer

/-!
# Runs of one transfer

From an admitted BEGIN to the next, every interleaving of requests with the
application thread is the same story for both media: accepted chunks extend the
payload, everything else leaves it. A `Discipline` says what a medium keeps of
the payload; the run lemma carries it along.
-/

namespace TransferRun

open Execution UpdateProtocol Medium UpdateAgent UpdateSteps

variable {sha256 : List Byte → Digest} {faults : Faults}

/-- The update state of a transfer that has taken `payload` and takes more. -/
structure Receiving (target : Byte) (begin : UpdateBegin) (payload : List Byte) (d : Device) :
    Prop where
  page : payload.length < begin.length → payload.length % updateTargetPageSize target = 0
  target : d.update.target = target
  length : d.update.length = begin.length
  digest : d.update.digest = begin.digest
  received : d.update.received = payload.length

/-- What an allowed chunk is on top of the payload. -/
structure Feeds (target : Byte) (begin : UpdateBegin) (payload data : List Byte) : Prop where
  started : payload.length % updateTargetPageSize target = 0
  pos : 0 < data.length
  room : payload.length + data.length ≤ begin.length
  page : payload.length + data.length < begin.length →
    data.length % updateTargetPageSize target = 0

/-- A medium's account of a transfer: `Kept` at any time, `Live` (with the page
held in RAM) as long as chunks are taken. -/
structure Discipline (sha256 : List Byte → Digest) (faults : Faults)
    (allowed : Device → Action → Prop) (target : Byte) (begin : UpdateBegin)
    (Kept : Media → List Byte → Prop) (Live : Media → List Byte → List Byte → Prop) :
    Prop where
  weaken : ∀ {m page payload}, Live m page payload → Kept m payload
  chunk : ∀ {d : Device} {asked : Byte} {index : Nat} {payload data : List Byte},
    Receiving target begin payload d → Feeds target begin payload data →
    updateChunkIsAllowed d.update asked index data.length = .none →
    (d.update.target = updateTargetEeprom → d.update.received = 0 →
      updateImageIsPlausible data d.update.length = true) →
    Live d.media d.firstPage payload →
    ((updateAgentData faults d asked index data).2 = true →
      Live (updateAgentData faults d asked index data).1.media
        (updateAgentData faults d asked index data).1.firstPage (payload ++ data)) ∧
    ((updateAgentData faults d asked index data).2 = false →
      Kept (updateAgentData faults d asked index data).1.media payload)
  thread : ∀ {d : Device} {payload : List Byte}, payload.length ≤ begin.length →
    allowed d .thread →
    (Kept d.media payload → Kept (threadStep sha256 faults d).1.media payload) ∧
    ∀ page, Live d.media page payload → Live (threadStep sha256 faults d).1.media page payload

/-- What a run from BEGIN keeps. -/
structure Transfer (target : Byte) (begin : UpdateBegin) (Kept : Media → List Byte → Prop)
    (Live : Media → List Byte → List Byte → Prop) (payload : List Byte) (d : Device) :
    Prop where
  kept : Kept d.media payload
  within : payload.length ≤ begin.length
  live : d.update.phase = .receiving →
    Receiving target begin payload d ∧ Live d.media d.firstPage payload

section Steps

variable {allowed : Device → Action → Prop} {target : Byte} {begin : UpdateBegin}
  {Kept : Media → List Byte → Prop} {Live : Media → List Byte → List Byte → Prop}
  {payload : List Byte} {d : Device}

theorem feeds {asked : Byte} {index : Nat} {data : List Byte}
    (fits : begin.length < 2 ^ 32) (within : payload.length ≤ begin.length)
    (h : Receiving target begin payload d)
    (ok : updateChunkIsAllowed d.update asked index data.length = .none) :
    Feeds target begin payload data := by
  obtain ⟨same, _, _, pos, _, within', aligned⟩ := updateChunkIsAllowed_none ok
  have remaining : remainingLength d.update = begin.length - payload.length := by
    have length := h.length
    have received := h.received
    rw [remainingLength_eq (by omega) (by omega), length, received]
  rw [remaining] at within' aligned
  rw [same, h.target] at aligned
  exact ⟨h.page (by omega), pos, by omega, fun less => aligned (by omega)⟩

/-- A request that takes no chunk and does not reopen the transfer. -/
theorem Transfer.still {d' : Device} (h : Transfer target begin Kept Live payload d)
    (media : d'.media = d.media)
    (closed : d'.update.phase = .receiving → d'.update = d.update ∧
      d'.firstPage = d.firstPage) :
    Transfer target begin Kept Live payload d' where
  kept := media ▸ h.kept
  within := h.within
  live := by
    intro receiving
    obtain ⟨update, page⟩ := closed receiving
    obtain ⟨facts, live⟩ := h.live (update ▸ receiving)
    refine ⟨⟨facts.page, ?_, ?_, ?_, ?_⟩, by rw [media, page]; exact live⟩
    · rw [update]; exact facts.target
    · rw [update]; exact facts.length
    · rw [update]; exact facts.digest
    · rw [update]; exact facts.received

theorem Transfer.chunk {asked : Byte} {index : Nat} {data : List Byte}
    (h : Transfer target begin Kept Live payload d)
    (discipline : Discipline sha256 faults allowed target begin Kept Live)
    (fits : begin.length < 2 ^ 32)
    (ok : updateChunkIsAllowed d.update asked index data.length = .none)
    (image : d.update.target = updateTargetEeprom → d.update.received = 0 →
      updateImageIsPlausible data d.update.length = true) :
    Transfer target begin Kept Live
      (if (updateAgentData faults d asked index data).2 then payload ++ data else payload)
      (updateAgentData faults d asked index data).1 := by
  obtain ⟨facts, live⟩ := h.live (updateChunkIsAllowed_none ok).2.1
  have fed := feeds fits h.within facts ok
  have taken := updateAgentData_taken faults ok image
  obtain ⟨went, kept⟩ := discipline.chunk facts fed ok image live
  cases accepted : (updateAgentData faults d asked index data).2 with
  | false =>
    obtain ⟨w, update⟩ := taken.failed accepted
    refine ⟨kept accepted, h.within, ?_⟩
    intro receiving
    rw [update, updateStateFail_phase] at receiving
    cases receiving
  | true =>
    obtain ⟨w, update⟩ := taken.counted accepted
    have live' := went accepted
    refine ⟨discipline.weaken live', ?_, fun _ => ⟨⟨?_, ?_, ?_, ?_, ?_⟩, live'⟩⟩
    · rw [if_pos rfl, List.length_append]
      exact fed.room
    · rw [if_pos rfl, List.length_append]
      intro less
      rw [Nat.add_mod, fed.started, fed.page less, Nat.zero_mod]
    · rw [update]; exact facts.target
    · rw [update]; exact facts.length
    · rw [update]; exact facts.digest
    · rw [update, if_pos rfl, List.length_append, ← facts.received]

theorem Transfer.serve {d' : Device} {r : Request} {e : Event}
    (h : Transfer target begin Kept Live payload d)
    (discipline : Discipline sha256 faults allowed target begin Kept Live)
    (fits : begin.length < 2 ^ 32)
    (served : Served sha256 faults d r d' e) (notBegun : e ≠ .beginAdmitted) :
    Transfer target begin Kept Live (payload ++ e.payload) d' := by
  cases served with
  | unchanged _ _ inert => simpa [inert.1] using h
  | beginRefused _ error =>
    simp only [Event.payload, List.append_nil]
    exact h.still rfl fun receiving => by simp [Device.refuse, updateStateFail_phase] at receiving
  | beginAdmitted => exact absurd rfl notBegun
  | failed _ error _ _ _ inert =>
    rw [inert.1, List.append_nil]
    exact h.still rfl fun receiving => by simp [Device.fail, updateStateFail_phase] at receiving
  | chunk _ asked index data _ _ _ ok image event =>
    have chunk := h.chunk discipline fits ok image
    rw [event]
    split
    · rename_i accepted
      simpa [accepted, Event.payload] using chunk
    · rename_i refused
      simpa [refused, Event.payload] using chunk
  | finishAccepted =>
    simp only [Event.payload, List.append_nil]
    exact h.still rfl fun receiving => by cases receiving
  | reset _ up =>
    simp only [Event.payload, List.append_nil]
    exact h.still rfl fun receiving => by cases receiving
  | captureStarted | captureStopped =>
    simp only [Event.payload, List.append_nil]
    exact h.still rfl fun _ => ⟨rfl, rfl⟩

theorem Transfer.thread (h : Transfer target begin Kept Live payload d)
    (discipline : Discipline sha256 faults allowed target begin Kept Live)
    (ok : allowed d .thread) :
    Transfer target begin Kept Live payload (threadStep sha256 faults d).1 := by
  have frame := threadStep_frame sha256 faults d
  obtain ⟨kept, live⟩ := discipline.thread h.within ok
  refine ⟨kept h.kept, h.within, ?_⟩
  intro receiving
  obtain ⟨facts, was⟩ := h.live (threadStep_receiving receiving)
  refine ⟨⟨facts.page, ?_, ?_, ?_, ?_⟩, by rw [frame.firstPage]; exact live _ was⟩
  · rw [frame.target]; exact facts.target
  · rw [frame.length]; exact facts.length
  · rw [frame.digest]; exact facts.digest
  · rw [frame.received]; exact facts.received

theorem Transfer.step {a : Action} (h : Transfer target begin Kept Live payload d)
    (discipline : Discipline sha256 faults allowed target begin Kept Live)
    (fits : begin.length < 2 ^ 32) (ok : allowed d a)
    (notBegun : (UpdateAgent.step sha256 faults d a).2 ≠ .beginAdmitted) :
    Transfer target begin Kept Live
      (payload ++ (UpdateAgent.step sha256 faults d a).2.payload)
      (UpdateAgent.step sha256 faults d a).1 := by
  cases a with
  | request r => exact h.serve discipline fits (served d r) notBegun
  | thread =>
    have silent : (UpdateAgent.step sha256 faults d .thread).2.payload = [] := by
      simp only [UpdateAgent.step, threadStep_event]
      split <;> rfl
    rw [silent, List.append_nil]
    exact h.thread discipline ok
  | startApplication | stopApplication =>
    simp only [UpdateAgent.step, Event.payload, List.append_nil]
    exact h.still rfl fun _ => ⟨rfl, rfl⟩

theorem transfer_open (start : Live d.media (d.open target begin).firstPage [])
    (weaken : ∀ {m page payload}, Live m page payload → Kept m payload) :
    Transfer target begin Kept Live [] (d.open target begin) :=
  ⟨weaken start, Nat.zero_le _, fun _ => ⟨⟨fun _ => Nat.zero_mod _, rfl, rfl, rfl, rfl⟩, start⟩⟩

/-- Along a run without another BEGIN. -/
theorem transfer_run {es : List Event} {d' : Device}
    (run : Run (machine sha256 faults) allowed (d.open target begin) es d')
    (discipline : Discipline sha256 faults allowed target begin Kept Live)
    (fits : begin.length < 2 ^ 32)
    (start : Live d.media (d.open target begin).firstPage [])
    (notBegun : .beginAdmitted ∉ es) :
    Transfer target begin Kept Live (es.flatMap Event.payload) d' := by
  refine run.invariant_events (fun es d' => .beginAdmitted ∉ es →
    Transfer target begin Kept Live (es.flatMap Event.payload) d')
    (fun _ => transfer_open start discipline.weaken) ?_ notBegun
  intro es s a ih ok notBegun
  rw [List.mem_append, not_or] at notBegun
  rw [List.flatMap_append, List.flatMap_singleton]
  exact (ih notBegun.1).step discipline fits ok
    (fun begun => notBegun.2 (by simp [machine, begun]))

end Steps

/-! ## The application thread between BEGIN and FINISH -/

/-- The application thread has nothing to do. -/
def Quiet (d : Device) : Prop :=
  d.verifyPending = false ∧ d.thread = .idle

theorem Quiet.step {d : Device} {a : Action} (h : Quiet d)
    (notFinished : (UpdateAgent.step sha256 faults d a).2 ≠ .finishAccepted) :
    Quiet (UpdateAgent.step sha256 faults d a).1 := by
  cases a with
  | request r =>
    have answer : Served sha256 faults d r (serve sha256 faults d r).1
      (serve sha256 faults d r).2 := served d r
    simp only [UpdateAgent.step] at notFinished ⊢
    generalize serve sha256 faults d r = pair at *
    obtain ⟨d', e⟩ := pair
    cases answer with
    | chunk _ target index data _ _ _ allowed image =>
      have taken := updateAgentData_taken faults allowed image
      exact ⟨taken.pending.trans h.1, taken.thread.trans h.2⟩
    | finishAccepted => exact absurd rfl notFinished
    | reset => exact ⟨rfl, rfl⟩
    | _ => exact h
  | thread => simpa [UpdateAgent.step, threadStep, h.1, h.2] using h
  | startApplication | stopApplication => exact h

/-- Without an accepted FINISH an idle application thread stays idle. -/
theorem quiet_run {s d : Device} {es : List Event}
    (run : Run (machine sha256 faults) Any s es d) (quiet : Quiet s)
    (notFinished : .finishAccepted ∉ es) :
    Run (machine sha256 faults) (fun d _ => Quiet d) s es d ∧ Quiet d := by
  induction run with
  | refl => exact ⟨.refl, quiet⟩
  | snoc a _ _ ih =>
    rw [List.mem_append, not_or] at notFinished
    obtain ⟨run, quiet⟩ := ih notFinished.1
    exact ⟨run.snoc a quiet,
      quiet.step fun finished => notFinished.2 (by simp [machine, finished])⟩

theorem receiving_of_chunkAccepted {d : Device} {a : Action} {data : List Byte}
    (accepted : (UpdateAgent.step sha256 faults d a).2 = .chunkAccepted data) :
    (UpdateAgent.step sha256 faults d a).1.update.phase = .receiving := by
  cases a with
  | request r =>
    have answer : Served sha256 faults d r (serve sha256 faults d r).1
      (serve sha256 faults d r).2 := served d r
    simp only [UpdateAgent.step] at accepted ⊢
    generalize serve sha256 faults d r = pair at *
    obtain ⟨d', e⟩ := pair
    cases answer with
    | unchanged _ _ inert | failed _ _ _ _ _ inert =>
      exact absurd accepted (inert.2.2.2.2.2.2 data)
    | chunk _ target index data _ _ _ allowed image event =>
      have taken := updateAgentData_taken faults allowed image
      rw [event] at accepted
      split at accepted
      · rename_i ok
        obtain ⟨w, update⟩ := taken.counted ok
        rw [update]
        exact (updateChunkIsAllowed_none allowed).2.1
      · cases accepted
    | _ => simp at accepted
  | thread =>
    simp only [UpdateAgent.step, threadStep_event] at accepted
    split at accepted <;> simp at accepted
  | startApplication | stopApplication => simp [UpdateAgent.step] at accepted

end TransferRun
