import DomesdayDuplicator.Foundations.EventLog
import DomesdayDuplicator.Jtag.SvfRun
import DomesdayDuplicator.Update.BringUpOrchestrator
import DomesdayDuplicator.Update.OrchestratorCalls

/-!
# The order of a bring-up

Nothing reaches the board's firmware before the vectors have been played whole, and nothing
is written before what has to be there first is complete.
-/

namespace BringUp

open CallingProgram EventLog Manifest OrchestratorCalls
open UpdateOrchestrator (UpdateTarget)

/-! ## The vectors -/

section Configure

variable {D : Type} {d : Svf.Doubles D} {access : Access} {contents : Text} {log : Log}

/-- The attempt that a success ends on. -/
theorem playAttempts_succeeded {left attempt : Nat} {outcome : ConfigureOutcome D}
    (h : Returns (playAttempts d contents left attempt) log outcome) (won : outcome.succeeded) :
    ∃ before port, log = before ++ [⟨.openCable, Except.ok port⟩] ∧
      (Svf.play d port.cable true port.stop contents).ending = .succeeded := by
  induction left generalizing attempt log with
  | zero =>
    obtain ⟨-, rfl⟩ := returns_pure.mp h
    cases won
  | succ left ih =>
    rw [playAttempts, returns_bind] at h
    obtain ⟨⟨first, opened⟩, one, two, rfl, played, h⟩ := h
    rw [playVectors, returns_ask_bind] at played
    obtain ⟨answer, tail, rfl, played⟩ := played
    cases answer with
    | error problem =>
      obtain ⟨rfl, same⟩ := returns_pure.mp played
      obtain ⟨rfl, rfl⟩ := Prod.mk.inj same
      simp only [Bool.false_eq_true, not_false_eq_true, true_or, or_true, if_true] at h
      obtain ⟨-, rfl⟩ := returns_pure.mp h
      cases won
    | ok port =>
      obtain ⟨rfl, same⟩ := returns_pure.mp played
      obtain ⟨rfl, rfl⟩ := Prod.mk.inj same
      dsimp only at h
      split at h
      · obtain ⟨rfl, rfl⟩ := returns_pure.mp h
        exact ⟨[], port, rfl, of_decide_eq_true won⟩
      · obtain ⟨before, port', rfl, ends⟩ := ih h
        exact ⟨⟨.openCable, Except.ok port⟩ :: before, port', rfl, ends⟩

theorem configureFpga_succeeded {s : Source} {outcome : ConfigureOutcome D}
    (h : Returns (configureFpga d access s) log outcome) (won : outcome.succeeded) :
    ∃ before port, log = before ++ [⟨.openCable, Except.ok port⟩] ∧
      (Svf.play d port.cable true port.stop (s.payload (·.provisioning))).ending =
        .succeeded := by
  rw [configureFpga] at h
  split at h
  · obtain ⟨-, rfl⟩ := returns_pure.mp h
    cases won
  · split at h
    · obtain ⟨-, rfl⟩ := returns_pure.mp h
      cases won
    · exact playAttempts_succeeded h won

theorem playAttempts_only (left attempt : Nat) :
    Only (· = Call.openCable) (playAttempts d contents left attempt) := by
  induction left generalizing attempt with
  | zero => trivial
  | succ left ih =>
    rw [playAttempts]
    refine only_bind (only_ask rfl fun answer => ?_) fun played => ?_
    · cases answer <;> trivial
    · dsimp only
      split
      · trivial
      · exact ih (attempt + 1)

theorem configureFpga_only (s : Source) :
    Only (· = Call.openCable) (configureFpga d access s) := by
  rw [configureFpga]
  split
  · trivial
  · split
    · trivial
    · exact playAttempts_only _ _

theorem configureFpga_silent {s : Source} (lacks : s.provisioning = none)
    {q : Session (ConfigureOutcome D)} (h : After (configureFpga d access s) log q) :
    log = [] := by
  rw [configureFpga, lacks] at h
  cases h
  rfl

end Configure

/-! ## Waking the device -/

/-- A call that is not one of the update orchestrator's. -/
def Outer : Call → Prop
  | .update _ | .openCable => False
  | _ => True

section Wake

variable {access : Access} {s : Source}

theorem sendSections_only (firmware : List Byte) (sections : List BootFormat.BootImageSection) :
    Only Outer (sendSections firmware sections) := by
  induction sections with
  | nil => trivial
  | cons first rest ih =>
    refine only_ask trivial fun stop => ?_
    cases stop with
    | true => trivial
    | false =>
      refine only_ask trivial fun taken => ?_
      cases taken with
      | true => exact ih
      | false => trivial

theorem awaitApplication_only : Only Outer awaitApplication := by
  refine only_ask trivial fun path => ?_
  cases path with
  | some path => trivial
  | none =>
    refine only_ask trivial fun there => ?_
    cases there <;> trivial

theorem wakeAndOpen_only (access : Access) (s : Source) : Only Outer (wakeAndOpen access s) := by
  refine only_bind ?_ fun woken => ?_
  · dsimp only [wake]
    split
    · trivial
    · split
      · trivial
      · split
        · trivial
        · refine only_ask trivial fun opened => ?_
          cases opened with
          | false => trivial
          | true =>
            refine only_bind (sendSections_only _ _) fun outcome => ?_
            cases outcome with
            | some outcome => trivial
            | none =>
              refine only_ask trivial fun started => ?_
              cases started with
              | false => trivial
              | true => exact awaitApplication_only
  · cases woken with
    | error outcome => trivial
    | ok path =>
      dsimp only
      split
      · trivial
      · refine only_ask trivial fun opened => ?_
        cases opened <;> trivial

/-- A wake that comes to nothing is no success. -/
def Unwoken (result : Option UpdateOutcome) : Prop := ∀ o, result = some o → o.succeeded = false

theorem unwoken_failure (problem : Text) : Unwoken (some (failure problem)) := by
  rintro o ⟨⟩
  rfl

theorem sendSections_unwoken (firmware : List Byte)
    (sections : List BootFormat.BootImageSection) :
    Yields Unwoken (sendSections firmware sections) := by
  induction sections with
  | nil => exact nofun
  | cons first rest ih =>
    refine yields_ask fun stop => ?_
    cases stop with
    | true => exact unwoken_failure _
    | false =>
      refine yields_ask fun taken => ?_
      cases taken with
      | true => exact ih
      | false => exact unwoken_failure _

theorem wakeAndOpen_unwoken (access : Access) (s : Source) :
    Yields Unwoken (wakeAndOpen access s) := by
  have awaits : Yields (fun result => ∀ o, result = .error o → o.succeeded = false)
      (wake access s) := by
    dsimp only [wake]
    split
    · rintro o ⟨⟩
      rfl
    · split
      · rintro o ⟨⟩
        rfl
      · split
        · rintro o ⟨⟩
          rfl
        · refine yields_ask fun opened => ?_
          cases opened with
          | false =>
            rintro o ⟨⟩
            rfl
          | true =>
            refine yields_bind (sendSections_unwoken _ _) fun outcome unwoken => ?_
            cases outcome with
            | some outcome =>
              rintro o ⟨⟩
              exact unwoken _ rfl
            | none =>
              refine yields_ask fun started => ?_
              cases started with
              | false =>
                rintro o ⟨⟩
                rfl
              | true =>
                refine yields_ask fun path => ?_
                cases path with
                | some path => exact nofun
                | none =>
                  refine yields_ask fun there => ?_
                  cases there <;> (rintro o ⟨⟩; rfl)
  refine yields_bind awaits fun woken failed => ?_
  cases woken with
  | error outcome =>
    rintro o ⟨⟩
    exact failed _ rfl
  | ok path =>
    dsimp only
    split
    · exact unwoken_failure _
    · refine yields_ask fun opened => ?_
      cases opened with
      | true => exact nofun
      | false => exact unwoken_failure _

end Wake

/-! ## The writes -/

section Writes

variable {settings : UpdateOrchestrator.Settings} {polls : Nat} {log : UpdateOrchestrator.Log}

/-- The calls of one component's transfer. -/
def Part (target : UpdateTarget) (component : UpdateComponent) (payload : List Byte) :
    UpdateOrchestrator.Call → Prop
  | .begin target' length digest =>
    target' = target ∧ length = payload.length ∧ digest = component.sha256
  | .reset | .reconfigureFpga | .waitForReturn => False
  | _ => True

theorem installComponent_part (target : UpdateTarget) (component : UpdateComponent)
    (payload : List Byte) : Only (Part target component payload)
      (UpdateOrchestrator.installComponent settings target component payload polls) := by
  refine installComponent_only (fun c asks => ?_) ⟨rfl, rfl, rfl⟩ (fun _ => trivial) trivial
  cases c <;> trivial

abbrev Parts := List (UpdateTarget × UpdateComponent × List Byte)

/-- A transfer is begun when those before it on the list are complete. -/
theorem installAll_begins {parts : Parts}
    {q : UpdateOrchestrator.Session (Option UpdateOrchestrator.Problem)}
    (h : After (installAll settings polls parts) log q)
    {before after : UpdateOrchestrator.Log} {target : UpdateTarget} {length : Nat}
    {digest : UpdateProtocol.Digest} {x : Bool}
    (here : log = before ++ ⟨.begin target length digest, x⟩ :: after) :
    ∃ earlier component payload later, parts = earlier ++ (target, component, payload) :: later ∧
      ∀ part ∈ earlier, Transferred part.1 part.2.1 part.2.2 before := by
  induction parts generalizing log before with
  | nil =>
    cases h
    exact absurd here.symm (List.append_ne_nil_of_right_ne_nil _ (List.cons_ne_nil _ _))
  | cons first rest ih =>
    obtain ⟨target', component, payload⟩ := first
    -- A transfer begun during the first install is that install's own.
    have own : ∀ {one : UpdateOrchestrator.Log} {r}, After
        (UpdateOrchestrator.installComponent settings target' component payload polls) one r →
        (⟨.begin target length digest, x⟩ : Exchange UpdateOrchestrator.Answer) ∈ one →
        target = target' := by
      intro one r inside member
      have part := (installComponent_part target' component payload).calls inside _ member
      exact part.1
    rcases after_bind h with ⟨r, inside, -⟩ | ⟨result, one, two, rfl, installed, later⟩
    · obtain rfl := own inside (here ▸ by simp)
      exact ⟨[], component, payload, rest, rfl, nofun⟩
    · rcases List.append_eq_append_iff.mp here with ⟨between, rfl, rest'⟩ | ⟨between, rfl, rest'⟩
      · cases result with
        | some problem =>
          cases later
          exact absurd rest'.symm (List.append_ne_nil_of_right_ne_nil _ (List.cons_ne_nil _ _))
        | none =>
          obtain ⟨earlier, component', payload', later', rfl, complete⟩ := ih later rest'
          refine ⟨(target', component, payload) :: earlier, component', payload', later', rfl, ?_⟩
          rintro part (_ | ⟨_, member⟩)
          · simpa using (installComponent_none installed).within [] between
          · simpa using (complete part member).within one []
      · cases between with
        | nil =>
          rw [List.nil_append] at rest'
          cases result with
          | some problem =>
            cases later
            cases rest'
          | none =>
            obtain ⟨earlier, component', payload', later', rfl, complete⟩ :=
              ih later (show two = [] ++ _ from rest'.symm)
            refine ⟨(target', component, payload) :: earlier, component', payload', later', rfl, ?_⟩
            rintro part (_ | ⟨_, member⟩)
            · simpa using (installComponent_none installed).within [] []
            · simpa using (complete part member).within before []
        | cons e between =>
          obtain ⟨rfl, rfl⟩ := List.cons.inj rest'
          obtain rfl := own installed (by simp)
          exact ⟨[], component, payload, rest, rfl, nofun⟩

theorem installAll_complete {parts : Parts}
    (h : Returns (installAll settings polls parts) log none) :
    ∀ part ∈ parts, Transferred part.1 part.2.1 part.2.2 log := by
  induction parts generalizing log with
  | nil => exact fun _ member => absurd member List.not_mem_nil
  | cons first rest ih =>
    obtain ⟨target, component, payload⟩ := first
    rw [installAll, returns_bind] at h
    obtain ⟨result, one, two, rfl, installed, later⟩ := h
    cases result with
    | some problem => simp at later
    | none =>
      rintro part (_ | ⟨_, member⟩)
      · exact (installComponent_none installed).within [] two
      · simpa using (ih later part member).within one []

/-- No call that restarts anything. -/
def Calm : UpdateOrchestrator.Call → Prop
  | .reset | .reconfigureFpga => False
  | _ => True

theorem installAll_calm (parts : Parts) : Only Calm (installAll settings polls parts) := by
  induction parts with
  | nil => trivial
  | cons first rest ih =>
    obtain ⟨target, component, payload⟩ := first
    refine only_bind ((installComponent_part target component payload).mono ?_) fun result => ?_
    · intro c part
      cases c <;> trivial
    · cases result with
      | some problem => trivial
      | none => exact ih

end Writes

/-! ## The device's part of a conversation -/

/-- What was said to the updater. -/
def deviceLog (log : Log) : UpdateOrchestrator.Log :=
  log.filterMap fun
    | ⟨.update c, x⟩ => some ⟨c, x⟩
    | _ => none

theorem deviceLog_append (first second : Log) :
    deviceLog (first ++ second) = deviceLog first ++ deviceLog second := List.filterMap_append

theorem deviceLog_wide (inner : UpdateOrchestrator.Log) :
    deviceLog (inner.map (wide Call.update)) = inner := by
  induction inner with
  | nil => rfl
  | cons e rest ih => exact congrArg (e :: ·) ih

theorem deviceLog_outer {log : Log} (outer : ∀ e ∈ log, Outer e.1) : deviceLog log = [] := by
  rw [deviceLog, List.filterMap_eq_nil_iff]
  rintro ⟨c, x⟩ member
  have := outer _ member
  cases c <;> first | rfl | exact this.elim

/-- What a bundle has for a target. -/
def Source.component (s : Source) : UpdateTarget → Option UpdateComponent × List Byte
  | .firmware => (s.firmware, s.payload (·.firmware))
  | .epcsFactory => (s.factoryGateware, s.payload (·.factoryGateware))
  | .gateware => (s.gateware, s.payload (·.gateware))

/-- The target's transfer has been through, up to the device's report that it is complete. -/
def Completed (s : Source) (target : UpdateTarget) (log : Log) : Prop :=
  ∃ component, (s.component target).1 = some component ∧
    Transferred target component (s.component target).2 (deviceLog log)

/-! ## One call of the object -/

section Program

variable {settings : UpdateOrchestrator.Settings} {polls : Nat} {access : Access} {s : Source}
  {configured : Bool} {log : Log} {q : Session UpdateOutcome}

/-- The writes of a bundle that has all three. -/
def Source.parts (firmware factory gateware : UpdateComponent) (s : Source) : Parts :=
  [(.firmware, firmware, s.payload (·.firmware)),
    (.epcsFactory, factory, s.payload (·.factoryGateware)),
    (.gateware, gateware, s.payload (·.gateware))]

/-- Unlocked, with all three payloads in the bundle. -/
structure Ready (configured : Bool) (s : Source) (firmware factory gateware : UpdateComponent) :
    Prop where
  unlocked : configured = true
  firmware : s.firmware = some firmware
  factory : s.factoryGateware = some factory
  gateware : s.gateware = some gateware

theorem programDevice_cases (settings : UpdateOrchestrator.Settings) (polls : Nat)
    (access : Access) (configured : Bool) (s : Source) :
    (∃ problem, programDevice settings polls access configured s = .done (failed problem)) ∨
    ∃ firmware factory gateware, Ready configured s firmware factory gateware ∧
      programDevice settings polls access configured s = runBringUp settings polls access s := by
  rw [programDevice]
  split
  · exact Or.inl ⟨_, rfl⟩
  split
  · exact Or.inl ⟨_, rfl⟩
  split
  · exact Or.inl ⟨_, rfl⟩
  split
  · exact Or.inl ⟨_, rfl⟩
  rename_i unlocked noFirmware noFactory noGateware
  have some {component : Option UpdateComponent} (h : ¬ component.isNone = true) :
      ∃ c, component = some c := Option.ne_none_iff_exists'.mp (mt Option.isNone_iff_eq_none.mpr h)
  obtain ⟨firmware, has⟩ := some noFirmware
  obtain ⟨factory, has'⟩ := some noFactory
  obtain ⟨gateware, has''⟩ := some noGateware
  exact Or.inr ⟨firmware, factory, gateware, ⟨by simpa using unlocked, has, has', has''⟩, rfl⟩

variable {firmware factory gateware : UpdateComponent}

theorem runBringUpWrites_eq (ready : Ready configured s firmware factory gateware) :
    runBringUpWrites settings polls s =
      installAll settings polls (s.parts firmware factory gateware) >>= fun problem =>
        match problem with
        | some problem => pure (failed problem.text)
        | none => pure ⟨true, .complete, []⟩ := by
  simp only [runBringUpWrites, ready.firmware, ready.factory, ready.gateware]
  rfl

/-- The installs come after the wake, and nothing else is said to the updater. -/
theorem runBringUp_after (ready : Ready configured s firmware factory gateware)
    (h : After (runBringUp settings polls access s) log q) :
    ∃ awake inner, log = awake ++ inner.map (wide Call.update) ∧ (∀ e ∈ awake, Outer e.1) ∧
      ∃ r, After (installAll settings polls (s.parts firmware factory gateware)) inner r := by
  rw [runBringUp] at h
  rcases after_bind h with ⟨r, inside, -⟩ | ⟨result, one, two, rfl, woken, later⟩
  · exact ⟨log, [], (List.append_nil _).symm, (wakeAndOpen_only access s).calls inside, _,
      .refl _⟩
  · have outer := (wakeAndOpen_only access s).calls woken
    cases result with
    | some outcome =>
      cases later
      exact ⟨one, [], rfl, outer, _, .refl _⟩
    | none =>
      obtain ⟨inner, p', rfl, -, inside⟩ := after_lift later
      refine ⟨one, inner, rfl, outer, ?_⟩
      rw [runBringUpWrites_eq ready] at inside
      rcases after_bind inside with ⟨r, within, -⟩ | ⟨result, one', two', rfl, installed, rest⟩
      · exact ⟨r, within⟩
      · refine ⟨.done result, ?_⟩
        cases result with
        | some problem =>
          cases rest
          rw [List.append_nil]
          exact installed
        | none =>
          cases rest
          rw [List.append_nil]
          exact installed

theorem runBringUp_succeeded (ready : Ready configured s firmware factory gateware)
    {o : UpdateOutcome} (h : Returns (runBringUp settings polls access s) log o)
    (won : o.succeeded) : ∃ awake inner, log = awake ++ inner.map (wide Call.update) ∧
      (∀ e ∈ awake, Outer e.1) ∧
      Returns (installAll settings polls (s.parts firmware factory gateware)) inner none := by
  rw [runBringUp, returns_bind] at h
  obtain ⟨result, one, two, rfl, woken, later⟩ := h
  cases result with
  | some outcome =>
    obtain ⟨-, rfl⟩ := returns_pure.mp later
    rw [(wakeAndOpen_unwoken access s).returns woken _ rfl] at won
    cases won
  | none =>
    obtain ⟨inner, rfl, inside⟩ := returns_lift later
    refine ⟨one, inner, rfl, (wakeAndOpen_only access s).calls woken, ?_⟩
    rw [runBringUpWrites_eq ready, returns_bind] at inside
    obtain ⟨result, one', two', rfl, installed, rest⟩ := inside
    cases result with
    | some problem =>
      obtain ⟨-, rfl⟩ := returns_pure.mp rest
      cases won
    | none =>
      obtain ⟨rfl, -⟩ := returns_pure.mp rest
      rw [List.append_nil]
      exact installed

theorem deviceLog_split {awake : Log} {inner : UpdateOrchestrator.Log}
    (outer : ∀ e ∈ awake, Outer e.1) :
    deviceLog (awake ++ inner.map (wide Call.update)) = inner := by
  rw [deviceLog_append, deviceLog_outer outer, deviceLog_wide, List.nil_append]

theorem completed_part (ready : Ready configured s firmware factory gateware)
    {part : UpdateTarget × UpdateComponent × List Byte}
    (member : part ∈ s.parts firmware factory gateware)
    (done : Transferred part.1 part.2.1 part.2.2 (deviceLog log)) : Completed s part.1 log := by
  simp only [Source.parts, List.mem_cons, List.not_mem_nil, or_false] at member
  rcases member with rfl | rfl | rfl
  · exact ⟨firmware, ready.firmware, done⟩
  · exact ⟨factory, ready.factory, done⟩
  · exact ⟨gateware, ready.gateware, done⟩

/-- The targets that have to be complete before one is begun. -/
def prerequisites : UpdateTarget → List UpdateTarget
  | .firmware => []
  | .epcsFactory => [.firmware]
  | .gateware => [.firmware, .epcsFactory]

theorem earlier_parts {earlier later : Parts} {target : UpdateTarget}
    {component : UpdateComponent} {payload : List Byte}
    (split : s.parts firmware factory gateware = earlier ++ (target, component, payload) :: later) :
    prerequisites target = earlier.map Prod.fst := by
  have fold : (s.parts firmware factory gateware).map Prod.fst =
      [.firmware, .epcsFactory, .gateware] := rfl
  rw [split, List.map_append, List.map_cons] at fold
  match earlier, fold with
  | [], fold =>
    obtain ⟨rfl, -⟩ := List.cons.inj fold
    rfl
  | [_], fold =>
    obtain ⟨first, fold⟩ := List.cons.inj fold
    obtain ⟨rfl, -⟩ := List.cons.inj fold
    exact congrArg (fun t => [t]) first.symm
  | [_, _], fold =>
    obtain ⟨first, fold⟩ := List.cons.inj fold
    obtain ⟨second, fold⟩ := List.cons.inj fold
    obtain ⟨rfl, -⟩ := List.cons.inj fold
    exact congr (congrArg _ first.symm) (congrArg (fun t => [t]) second.symm)
  | _ :: _ :: _ :: rest, fold => simp at fold

/-- A transfer is begun when all it needs is complete. -/
theorem programDevice_begins
    (h : After (programDevice settings polls access configured s) log q) {before after : Log}
    {target : UpdateTarget} {length : Nat} {digest : UpdateProtocol.Digest} {x : Bool}
    (here : log = before ++ ⟨.update (.begin target length digest), x⟩ :: after) :
    ∀ needed ∈ prerequisites target, Completed s needed before := by
  rcases programDevice_cases settings polls access configured s with
    ⟨problem, refused⟩ | ⟨firmware, factory, gateware, ready, runs⟩
  · rw [refused] at h
    cases h
    exact absurd here.symm (List.append_ne_nil_of_right_ne_nil _ (List.cons_ne_nil _ _))
  · rw [runs] at h
    obtain ⟨awake, inner, rfl, outer, r, installing⟩ := runBringUp_after ready h
    have place := congrArg deviceLog here
    rw [deviceLog_split outer, deviceLog_append] at place
    obtain ⟨earlier, component, payload, later, split, complete⟩ :=
      installAll_begins installing place
    intro needed member
    rw [earlier_parts split] at member
    obtain ⟨part, among, rfl⟩ := List.mem_map.mp member
    exact completed_part ready (split ▸ List.mem_append_left _ among) (complete part among)

theorem programDevice_completes {o : UpdateOutcome}
    (h : Returns (programDevice settings polls access configured s) log o) (won : o.succeeded)
    (target : UpdateTarget) : Completed s target log := by
  rcases programDevice_cases settings polls access configured s with
    ⟨problem, refused⟩ | ⟨firmware, factory, gateware, ready, runs⟩
  · rw [refused] at h
    cases h
    cases won
  · rw [runs] at h
    obtain ⟨awake, inner, rfl, outer, installed⟩ := runBringUp_succeeded ready h won
    have all : ∀ part ∈ s.parts firmware factory gateware,
        Completed s part.1 (awake ++ inner.map (wide Call.update)) := fun part member => by
      refine completed_part ready member ?_
      rw [deviceLog_split outer]
      exact installAll_complete installed part member
    have listed : ∃ part ∈ s.parts firmware factory gateware, part.1 = target := by
      cases target <;> simp [Source.parts]
    obtain ⟨part, member, rfl⟩ := listed
    exact all part member

/-- Nothing that restarts the board, and no cable. -/
def Restful : Call → Prop
  | .update .reset | .update .reconfigureFpga | .openCable => False
  | _ => True

theorem programDevice_restful
    (h : After (programDevice settings polls access configured s) log q) :
    ∀ e ∈ log, Restful e.1 := by
  rcases programDevice_cases settings polls access configured s with
    ⟨problem, refused⟩ | ⟨firmware, factory, gateware, ready, runs⟩
  · rw [refused] at h
    cases h
    exact fun _ member => absurd member List.not_mem_nil
  · rw [runs] at h
    obtain ⟨awake, inner, rfl, outer, r, installing⟩ := runBringUp_after ready h
    intro e member
    rcases List.mem_append.mp member with early | late
    · have := outer e early
      obtain ⟨c, x⟩ := e
      cases c <;> trivial
    · obtain ⟨e, inside, rfl⟩ := List.mem_map.mp late
      have calm := (installAll_calm _).calls installing e inside
      obtain ⟨c, x⟩ := e
      cases c <;> trivial

theorem programDevice_silent (lacks : configured = false ∨ s.firmware = none ∨
    s.factoryGateware = none ∨ s.gateware = none)
    (h : After (programDevice settings polls access configured s) log q) : log = [] := by
  rcases programDevice_cases settings polls access configured s with
    ⟨problem, refused⟩ | ⟨firmware, factory, gateware, ready, -⟩
  · rw [refused] at h
    cases h
    rfl
  · rw [ready.unlocked, ready.firmware, ready.factory, ready.gateware] at lacks
    rcases lacks with no | no | no | no <;> cases no

end Program

/-! ## The object over its life -/

section Object

variable {D : Type}

/-- A call on the object that has returned. -/
structure Visit (D : Type) where
  method : Method
  log : Log
  outcome : Outcome D

variable (d : Svf.Doubles D) (access : Access) (settings : UpdateOrchestrator.Settings)
  (polls : Nat)

/-- The calls so far, and `fpga_configured_`. -/
inductive Life : List (Visit D) → Bool → Prop
  | built : Life [] false
  | visit {visits configured m log outcome configured'} : Life visits configured →
      Returns (Method.body d access settings polls configured m) log (outcome, configured') →
      Life (visits ++ [⟨m, log, outcome⟩]) configured'

def Visit.configures (v : Visit D) : Prop := ∃ s, v.method = .configureFpga s

/-- The last attempt of the visit played every vector of its bundle. -/
def Visit.PlayedWhole (v : Visit D) : Prop :=
  ∃ s before port, v.method = .configureFpga s ∧
    v.log = before ++ [⟨.openCable, Except.ok port⟩] ∧
    let file := Svf.readText (s.payload (·.provisioning))
    let played := Svf.play d port.cable true port.stop (s.payload (·.provisioning))
    played.ending = .succeeded ∧ file.problem = none ∧
      played.turns.map Svf.Turn.statement = file.statements ∧
      ∀ t ∈ played.turns, t.failure = none

/-- What a call cannot do without. -/
def Method.lacking : Method → Prop
  | .configureFpga s => s.provisioning = none
  | .programDevice s => s.firmware = none ∨ s.factoryGateware = none ∨ s.gateware = none

def Method.source : Method → Source
  | .configureFpga s | .programDevice s => s

variable {d access settings polls} {visits : List (Visit D)} {configured : Bool}

/-- `fpga_configured_` is set only by the most recent configuration, played whole. -/
theorem Life.played (life : Life d access settings polls visits configured)
    (set : configured = true) : ∃ v, Latest Visit.configures visits v ∧ v.PlayedWhole d := by
  induction life with
  | built => cases set
  | visit life returned ih =>
    rename_i earlier flag m log outcome flag'
    cases m with
    | configureFpga s =>
      rw [Method.body, returns_bind] at returned
      obtain ⟨result, one, two, rfl, played, done⟩ := returned
      obtain ⟨rfl, same⟩ := returns_pure.mp done
      obtain ⟨rfl, rfl⟩ := Prod.mk.inj same
      obtain ⟨before, port, rfl, won⟩ := configureFpga_succeeded played set
      refine ⟨_, latest_snoc.mpr (Or.inl ⟨⟨s, rfl⟩, rfl⟩), s, before, port, rfl,
        List.append_nil _, won, ?_⟩
      exact Svf.play_succeeded d port.cable true won
    | programDevice s =>
      rw [Method.body, returns_bind] at returned
      obtain ⟨result, one, two, rfl, -, done⟩ := returned
      obtain ⟨rfl, same⟩ := returns_pure.mp done
      obtain ⟨rfl, rfl⟩ := Prod.mk.inj same
      obtain ⟨v, latest, whole⟩ := ih set
      refine ⟨v, latest_snoc.mpr (Or.inr ⟨?_, latest⟩), whole⟩
      rintro ⟨s, no⟩
      cases no

/-- What holds of one more call, however far it has got. -/
structure InOrder (d : Svf.Doubles D) (visits : List (Visit D)) (m : Method) (log : Log) :
    Prop where
  unlocked : ∀ e ∈ log, e.1 ≠ .openCable →
    ∃ v, Latest Visit.configures visits v ∧ v.PlayedWhole d
  ordered : ∀ before target length digest x after,
    log = before ++ ⟨.update (.begin target length digest), x⟩ :: after →
    ∀ needed ∈ prerequisites target, Completed m.source needed before
  restful : ∀ e ∈ log, e.1 ≠ .update .reset ∧ e.1 ≠ .update .reconfigureFpga
  silent : m.lacking → log = []

/-- Whatever the cable, the programmer, the device and the user do, and whatever calls came
before. -/
theorem bring_up_in_order (life : Life d access settings polls visits configured) (m : Method)
    {log : Log} {q : Session (Outcome D × Bool)}
    (h : After (m.body d access settings polls configured) log q) :
    InOrder d visits m log ∧
      ∀ o configured', q = .done (.programmed o, configured') → o.succeeded →
        ∀ target, Completed m.source target log := by
  cases m with
  | configureFpga s =>
    have inside : ∃ r, After (configureFpga d access s) log r := by
      rcases after_bind h with ⟨r, inside, -⟩ | ⟨result, one, two, rfl, played, done⟩
      · exact ⟨r, inside⟩
      · cases done
        rw [List.append_nil]
        exact ⟨_, played⟩
    obtain ⟨r, inside⟩ := inside
    have only := (configureFpga_only s).calls inside
    refine ⟨⟨fun e member other => absurd (only e member) other, ?_, ?_, fun lacks =>
      configureFpga_silent lacks inside⟩, ?_⟩
    · rintro before target length digest x after rfl
      exact absurd (only ⟨.update (.begin target length digest), x⟩ (by simp)) nofun
    · intro e member
      rw [only e member]
      exact ⟨nofun, nofun⟩
    · rintro o configured' rfl
      rw [Method.body] at h
      obtain ⟨result, one, two, rfl, played, done⟩ := returns_bind.mp h
      obtain ⟨-, same⟩ := returns_pure.mp done
      cases same
  | programDevice s =>
    have inside : ∃ r, After (programDevice settings polls access configured s) log r := by
      rcases after_bind h with ⟨r, inside, -⟩ | ⟨result, one, two, rfl, played, done⟩
      · exact ⟨r, inside⟩
      · cases done
        rw [List.append_nil]
        exact ⟨_, played⟩
    obtain ⟨r, inside⟩ := inside
    have restful := programDevice_restful inside
    refine ⟨⟨fun e member _ => ?_, fun before target length digest x after here =>
      programDevice_begins inside here, fun e member => ?_, fun lacks =>
        programDevice_silent (Or.inr lacks) inside⟩, ?_⟩
    · cases set : configured with
      | true => exact life.played set
      | false =>
        rw [programDevice_silent (Or.inl set) inside] at member
        exact absurd member List.not_mem_nil
    · have calm := restful e member
      constructor
      · intro reset
        rw [reset] at calm
        exact calm
      · intro reload
        rw [reload] at calm
        exact calm
    · rintro o configured' rfl won
      rw [Method.body] at h
      obtain ⟨result, one, two, rfl, programmed, done⟩ := returns_bind.mp h
      obtain ⟨rfl, same⟩ := returns_pure.mp done
      obtain ⟨⟨⟩, -⟩ := Prod.mk.inj same
      rw [List.append_nil]
      exact programDevice_completes programmed won

end Object

/-! ## A board brought up -/

/-- An image of one word. -/
def sampleImage : List Byte :=
  [0x43, 0x59, 0x1C, 0xB0, 1, 0, 0, 0, 0, 0, 0, 0x40, 1, 2, 3, 4, 0, 0, 0, 0, 0, 1, 0, 0x40,
    1, 2, 3, 4]

def sampleVectors : Text := text "STATE IDLE;"

def sampleComponent (length : Nat) : UpdateComponent := ⟨[], length, Vector.replicate 32 0, [], 1⟩

def sample : Source where
  archive := sampleImage ++ sampleVectors
  bundle :=
    { manifest :=
        { manifestVersion := 1, channel := .release, version := [], commit := [], created := []
          releaseNotes := []
          firmware := some (sampleComponent 28)
          gateware := some (sampleComponent 4)
          provisioning := some (sampleComponent 11)
          factoryGateware := some (sampleComponent 4)
          compatibility := ⟨[], 0, 0⟩ }
      trustedComment := []
      firmware := some ⟨0, 28⟩
      gateware := some ⟨0, 4⟩
      provisioning := some ⟨28, 11⟩
      factoryGateware := some ⟨4, 4⟩ }

/-- Everyone does what is asked. -/
def obligingParty : (c : Call) → Answer c
  | .openCable => .ok ⟨Svf.willing, fun _ => false⟩
  | .waitForApplication => some (text "path")
  | .openProgrammer | .writeRam _ _ | .start _ | .applicationPresent | .openUpdater _ => true
  | .cancelled => false
  | .update .readStatus => some ⟨.complete, .none, 4096, 0, 0, 0⟩
  | .update .waitForReturn => none
  | .update (.begin _ _ _) | .update (.sendChunk _ _) | .update (.finish _) | .update .reset
  | .update .reconfigureFpga => true
  | .update .cancelled | .update .stallElapsed => false

abbrev sampleBody (configured : Bool) (m : Method) : Session (Outcome Nat × Bool) :=
  m.body Svf.decimals ⟨true, true, true⟩ ⟨false, false⟩ 1 configured

/-- The sample is configured, then programmed, and all three images are in. -/
theorem sample_in_order : ∃ visits log, InOrder Svf.decimals visits (.programDevice sample) log ∧
    ∀ target, Completed sample target log := by
  have plays : (play obligingParty (sampleBody false (.configureFpga sample))).2.any
      fun result => result.2 := by decide +kernel
  obtain ⟨⟨outcome, flag⟩, configures, set⟩ := (Option.any_eq_true _ _).mp plays
  obtain rfl : flag = true := set
  have life := Life.visit (.built) (returns_play configures)
  have writes : (play obligingParty (sampleBody true (.programDevice sample))).2.any
      fun result => match result.1 with
        | .programmed o => o.succeeded
        | .configured _ => false := by decide +kernel
  obtain ⟨⟨outcome', flag'⟩, programs, won⟩ := (Option.any_eq_true _ _).mp writes
  cases outcome' with
  | configured _ => cases won
  | programmed o =>
    obtain ⟨ordered, completes⟩ :=
      bring_up_in_order life (.programDevice sample) (returns_play programs)
    exact ⟨_, _, ordered, completes o flag' rfl won⟩

end BringUp
