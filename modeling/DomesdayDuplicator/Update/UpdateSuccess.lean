import DomesdayDuplicator.Update.OrchestratorCalls

/-!
# What a successful update stands for

Whatever a device answers, an update that reports success has installed what its bundle
declares, unless a declared component is empty: that one is passed over.
-/

namespace UpdateSuccess

open CallingProgram HostTransfer Manifest Bundle FirmwareVersion UpdateOrchestrator
  OrchestratorCalls
open UpdateProtocol (Digest)

/-! ## The confirmation -/

/-- The device's word on a component is the one the manifest expects. -/
def Recognised (component : Option UpdateComponent) (running : Text) : Prop :=
  ∀ c ∈ component, c.identity ≠ [] → commitsMatch running c.identity = true

theorem checkIdentity_cases (component : Option UpdateComponent) (running : Text)
    (differs : Text → Problem) (outcome : UpdateOutcome) :
    (Recognised component running ∧ checkIdentity component running differs outcome = outcome) ∨
      ¬ Recognised component running ∧ ∃ problem,
        checkIdentity component running differs outcome =
          { outcome with identityConfirmed := false, problem := some problem } := by
  cases component with
  | none => exact Or.inl ⟨nofun, rfl⟩
  | some component =>
    by_cases differ : component.identity ≠ [] ∧ commitsMatch running component.identity = false
    · refine Or.inr ⟨fun same => ?_, differs component.identity, ?_⟩
      swap
      · simp only [checkIdentity, if_pos differ]
      have agree := same component rfl differ.left
      rw [differ.right] at agree
      cases agree
    · refine Or.inl ⟨?_, by simp only [checkIdentity, if_neg differ]⟩
      rintro c ⟨⟩ named
      by_contra other
      exact differ ⟨named, by simpa using other⟩

/-- The texts the two identities are compared with. -/
def reported (returned : DeviceIdentity) : UpdateTarget → Text
  | .firmware => (parseFirmwareCommit returned.productString).getD []
  | .gateware | .epcsFactory => returned.gatewareCommit

structure Confirmed (firmware gateware : Option UpdateComponent) (returned : DeviceIdentity) :
    Prop where
  firmware : Recognised firmware (reported returned .firmware)
  gateware : Recognised gateware (reported returned .gateware)

theorem confirm_cases (firmware gateware : Option UpdateComponent) (returned : DeviceIdentity) :
    (confirm firmware gateware returned).identity = returned ∧
      ((confirm firmware gateware returned).succeeded = true ∧
          Confirmed firmware gateware returned ∨
        (confirm firmware gateware returned).succeeded = false ∧
          ¬ Confirmed firmware gateware returned ∧
          (confirm firmware gateware returned).stage = .failed ∧
          (confirm firmware gateware returned).problem.isSome) := by
  simp only [confirm]
  rcases checkIdentity_cases firmware (reported returned .firmware)
      (.firmwareDiffers (parseFirmwareCommit returned.productString))
      { UpdateOutcome.start with identity := returned, identityConfirmed := true }
    with ⟨same, one⟩ | ⟨differs, problem, one⟩ <;>
  simp only [reported] at one <;> rw [one] <;>
  rcases checkIdentity_cases gateware (reported returned .gateware)
      (.gatewareDiffers returned.gatewareCommit) _ with ⟨same', two⟩ | ⟨differs', problem', two⟩ <;>
  simp only [reported] at two <;> rw [two]
  · exact ⟨rfl, Or.inl ⟨rfl, same, same'⟩⟩
  · exact ⟨rfl, Or.inr ⟨rfl, fun both => differs' both.gateware, rfl, rfl⟩⟩
  · exact ⟨rfl, Or.inr ⟨rfl, fun both => differs both.firmware, rfl, rfl⟩⟩
  · exact ⟨rfl, Or.inr ⟨rfl, fun both => differs both.firmware, rfl, rfl⟩⟩

/-! ## The whole update -/

/-- What `Run` is to install. -/
def declared (bundle : UpdateBundle) : UpdateTarget → Option UpdateComponent
  | .firmware => bundle.manifest.firmware
  | .gateware => bundle.manifest.gateware
  | .epcsFactory => none

def payloadOf (archive : List Byte) (bundle : UpdateBundle) : UpdateTarget → List Byte
  | .firmware => spanBytes archive bundle.firmware
  | .gateware => spanBytes archive bundle.gateware
  | .epcsFactory => []

/-- What is there of a declared component. -/
def carried (archive : List Byte) (bundle : UpdateBundle) (target : UpdateTarget) :
    Option UpdateComponent :=
  present (declared bundle target) (payloadOf archive bundle target)

/-- A success stands for every declared component, what does not succeed fails, and only a
device at work keeps the report away. -/
structure Sound (archive : List Byte) (bundle : UpdateBundle) : Prop where
  installed : ∀ settings polls log outcome, settings.deferRestart = false →
    Returns (runUpdate settings polls archive bundle) log outcome → outcome.succeeded = true →
    (∀ target, ∀ component ∈ declared bundle target,
      Transferred target component (payloadOf archive bundle target) log ∧
      commitsMatch (reported outcome.identity target) component.identity = true) ∧
    ∃ before answered, log =
      before ++ [⟨.reset, answered⟩, ⟨.waitForReturn, some outcome.identity⟩]
  failed : ∀ settings polls log outcome,
    Returns (runUpdate settings polls archive bundle) log outcome → outcome.succeeded = false →
    outcome.stage = .failed ∧ outcome.problem.isSome
  reported : ∀ settings polls, Lasts working polls (runUpdate settings polls archive bundle)

/-- A declared component is empty, and the other is there and names a commit. -/
def Overlooked (bundle : UpdateBundle) : Prop :=
  ∃ skipped other, (∃ c ∈ declared bundle skipped, c.length = 0) ∧
    ∃ c ∈ declared bundle other, 0 < c.length ∧ (normaliseCommit c.identity).isSome

/-- What opening a bundle has made sure of. -/
structure Consistent (archive : List Byte) (bundle : UpdateBundle) : Prop where
  sized : ∀ target, ∀ c ∈ declared bundle target,
    (payloadOf archive bundle target).length = c.length
  named : ∀ target, ∀ c ∈ declared bundle target, c.identity ≠ []

theorem present_eq_some {component : Option UpdateComponent} {payload : List Byte}
    {c : UpdateComponent} : c ∈ present component payload ↔ c ∈ component ∧ payload ≠ [] := by
  by_cases empty : payload = []
  · simp [present, empty]
  · simp [present, empty]

/-- The manifest of a bundle is the archive's first file. -/
theorem manifest_of_head {env : Environment} {key : Minisign.MinisignPublicKey}
    {archive head : List Byte} {bundle : UpdateBundle} {files : List UstarArchive.File}
    {manifest : UpdateManifest} (passed : openUpdateBundle env key archive = .ok bundle)
    (same : archiveFiles archive = files)
    (first : files.head?.map UstarArchive.File.data = some head)
    (parsed : parseUpdateManifest env head = .ok manifest) : bundle.manifest = manifest := by
  obtain ⟨entries, opened⟩ := Bundle.opened passed
  obtain ⟨written, bytes, -, reads⟩ := opened.manifestBytes
  rw [manifestBytes, same, first] at bytes
  obtain rfl := Option.some.inj bytes
  exact Except.ok.inj (reads.symm.trans parsed)

section Update

variable {settings : Settings} {polls : Nat} {archive : List Byte} {bundle : UpdateBundle}
  {log : Log} {outcome : UpdateOutcome}

theorem opened_consistent {env : Environment} {key : Minisign.MinisignPublicKey}
    (fits : UstarArchive.Addressable archive)
    (passed : openUpdateBundle env key archive = .ok bundle) : Consistent archive bundle := by
  obtain ⟨entries, opened⟩ := Bundle.opened passed
  have firmware : Option.Rel (Taken env archive entries) bundle.manifest.firmware
      bundle.firmware :=
    opened.payloads (bundle.manifest.firmware, bundle.firmware) (by simp [UpdateBundle.parts])
  have gateware : Option.Rel (Taken env archive entries) bundle.manifest.gateware
      bundle.gateware :=
    opened.payloads (bundle.manifest.gateware, bundle.gateware) (by simp [UpdateBundle.parts])
  have sized : ∀ {component : Option UpdateComponent} {span : Option UstarArchive.Span},
      Option.Rel (Taken env archive entries) component span →
      ∀ c ∈ component, (spanBytes archive span).length = c.length := by
    rintro _ _ (⟨taken⟩ | _) c ⟨⟩
    exact (taken.matches fits opened.read).length
  obtain ⟨head, -, -, parsed⟩ := opened.first
  have named : (∀ c ∈ bundle.manifest.firmware, c.identity ≠ []) ∧
      ∀ c ∈ bundle.manifest.gateware, c.identity ≠ [] := by
    rw [parseUpdateManifest] at parsed
    split at parsed
    · cases parsed
    · exact ManifestReader.readManifest_identity parsed
  constructor
  · rintro (_ | _ | _) c member
    · exact sized firmware c member
    · exact sized gateware c member
    · cases member
  · rintro (_ | _ | _) c member
    · exact named.left c member
    · exact named.right c member
    · cases member

theorem restart_returned {firmware gateware : Option UpdateComponent}
    (now : settings.deferRestart = false)
    (h : Returns (restart settings firmware gateware) log outcome) :
    ∃ answered returned, log = [⟨.reset, answered⟩, ⟨.waitForReturn, returned⟩] ∧
      (returned = none ∧ outcome = UpdateOutcome.start.fail .didNotReappear ∨
        ∃ identity, returned = some identity ∧ outcome = confirm firmware gateware identity) := by
  simp only [restart, now, Bool.false_eq_true, if_false, returns_ask_bind] at h
  obtain ⟨answered, tail, rfl, returned, tail, rfl, h⟩ := h
  cases returned with
  | none =>
    obtain ⟨rfl, rfl⟩ := returns_pure.mp h
    exact ⟨answered, none, rfl, Or.inl ⟨rfl, rfl⟩⟩
  | some identity =>
    obtain ⟨rfl, rfl⟩ := returns_pure.mp h
    exact ⟨answered, some identity, rfl, Or.inr ⟨identity, rfl, rfl⟩⟩

/-- An update stops with a problem or goes all the way to the restart. -/
theorem runUpdate_returned (h : Returns (runUpdate settings polls archive bundle) log outcome) :
    (∃ problem, outcome = UpdateOutcome.start.fail problem) ∨
      ∃ one two three, log = one ++ (two ++ three) ∧
        ((carried archive bundle .firmware).isSome ∨ (carried archive bundle .gateware).isSome) ∧
        (∀ c ∈ carried archive bundle .firmware,
          Transferred .firmware c (payloadOf archive bundle .firmware) one) ∧
        (∀ c ∈ carried archive bundle .gateware,
          Transferred .gateware c (payloadOf archive bundle .gateware) two) ∧
        Returns (restart settings (carried archive bundle .firmware)
          (carried archive bundle .gateware)) three outcome := by
  simp only [runUpdate] at h
  split_ifs at h with nothing
  · exact Or.inl ⟨_, (returns_pure.mp h).right⟩
  have something : (carried archive bundle .firmware).isSome ∨
      (carried archive bundle .gateware).isSome := by
    rw [not_and_or] at nothing
    simpa [carried, declared, payloadOf, Option.isSome_iff_ne_none] using nothing
  rw [returns_bind] at h
  obtain ⟨problem, one, rest, rfl, first, h⟩ := h
  cases problem with
  | some problem => exact Or.inl ⟨problem, (returns_pure.mp h).right⟩
  | none =>
    simp only [returns_bind] at h
    obtain ⟨problem, two, three, rfl, second, h⟩ := h
    cases problem with
    | some problem => exact Or.inl ⟨problem, (returns_pure.mp h).right⟩
    | none =>
      refine Or.inr ⟨one, two, three, rfl, something, ?_, ?_, h⟩
      · intro c there
        exact installComponent_none (installPresent_none first c there)
      · intro c there
        exact installGateware_none (installPresent_none second c there)

theorem restart_reports {firmware gateware : Option UpdateComponent}
    (h : Returns (restart settings firmware gateware) log outcome)
    (failed : outcome.succeeded = false) : outcome.stage = .failed ∧ outcome.problem.isSome := by
  cases deferred : settings.deferRestart with
  | true =>
    simp only [restart, deferred, if_true] at h
    obtain ⟨-, rfl⟩ := returns_pure.mp h
    cases failed
  | false =>
    obtain ⟨answered, returned, -, ⟨-, rfl⟩ | ⟨identity, -, rfl⟩⟩ := restart_returned deferred h
    · exact ⟨rfl, rfl⟩
    · rcases (confirm_cases firmware gateware identity).right with
        ⟨succeeded, -⟩ | ⟨-, -, stage, problem⟩
      · rw [succeeded] at failed
        cases failed
      · exact ⟨stage, problem⟩

/-- Where one component is carried and recognised, the other was not overlooked. -/
theorem declared_carried (consistent : Consistent archive bundle) (seen : ¬ Overlooked bundle)
    {target other : UpdateTarget} {returned : DeviceIdentity} {c : UpdateComponent}
    (there : c ∈ carried archive bundle other)
    (recognised : Recognised (carried archive bundle other) (reported returned other)) :
    ∀ d ∈ declared bundle target, d ∈ carried archive bundle target := by
  intro d member
  obtain ⟨declares, filled⟩ := present_eq_some.mp there
  refine present_eq_some.mpr ⟨member, fun empty => seen ?_⟩
  refine ⟨target, other, ⟨d, member, ?_⟩, c, declares, ?_, ?_⟩
  · rw [← consistent.sized target d member, empty, List.length_nil]
  · rw [← consistent.sized other c declares]
    exact List.length_pos_iff.mpr filled
  · exact commitsMatch_names (recognised c there (consistent.named other c declares))

theorem sound_of_seen (consistent : Consistent archive bundle) (seen : ¬ Overlooked bundle) :
    Sound archive bundle := by
  refine ⟨?_, ?_, fun settings polls => runUpdate_lasts archive bundle⟩
  · intro settings polls log outcome now h success
    rcases runUpdate_returned h with ⟨problem, rfl⟩ |
        ⟨one, two, three, rfl, something, firmware, gateware, ends⟩
    · cases success
    obtain ⟨answered, returned, rfl, ⟨-, rfl⟩ | ⟨identity, rfl, rfl⟩⟩ := restart_returned now ends
    · cases success
    obtain ⟨same, ⟨-, confirmed⟩ | ⟨failed, -⟩⟩ := confirm_cases (carried archive bundle .firmware)
      (carried archive bundle .gateware) identity
    swap
    · rw [failed] at success
      cases success
    refine ⟨?_, one ++ two, answered, by rw [same, List.append_assoc]⟩
    have all : ∀ target, ∀ d ∈ declared bundle target, d ∈ carried archive bundle target := by
      intro target
      rcases something with there | there
      · obtain ⟨c, there⟩ := Option.isSome_iff_exists.mp there
        exact declared_carried consistent seen there confirmed.firmware
      · obtain ⟨c, there⟩ := Option.isSome_iff_exists.mp there
        exact declared_carried consistent seen there confirmed.gateware
    rw [same]
    rintro (_ | _ | _) d member
    · exact ⟨by simpa using (firmware d (all _ d member)).within [] _,
        confirmed.firmware d (all _ d member) (consistent.named _ d member)⟩
    · exact ⟨by simpa using (gateware d (all _ d member)).within one _,
        confirmed.gateware d (all _ d member) (consistent.named _ d member)⟩
    · cases member
  · intro settings polls log outcome h failed
    rcases runUpdate_returned h with ⟨problem, rfl⟩ | ⟨-, -, three, -, -, -, -, ends⟩
    · exact ⟨rfl, rfl⟩
    · exact restart_reports ends failed

end Update

/-! ## A component that is passed over -/

/-- A transfer is begun for something. -/
def Filled : Call → Prop
  | .begin _ length _ => 0 < length
  | _ => True

theorem filled_of_asking : ∀ c, Asking c → Filled c := by
  rintro (_ | _ | _ | _ | _ | _ | _ | _ | _) asking <;> trivial

theorem runUpdate_filled (settings : Settings) (polls : Nat) (archive : List Byte)
    (bundle : UpdateBundle) : Only Filled (runUpdate settings polls archive bundle) := by
  have installs : ∀ {target c component payload}, c ∈ present component payload →
      Only Filled (installComponent settings target c payload polls) := by
    intro target c component payload there
    exact installComponent_only filled_of_asking
      (List.length_pos_iff.mpr (present_eq_some.mp there).right) (fun _ => trivial) trivial
  have restarts : ∀ firmware gateware, Only Filled (restart settings firmware gateware) := by
    intro firmware gateware
    rw [restart]
    split_ifs
    · trivial
    · refine only_ask trivial fun _ => only_ask trivial fun returned => ?_
      cases returned <;> trivial
  simp only [runUpdate]
  split_ifs
  · trivial
  refine only_bind ?_ fun problem => ?_
  · cases there : present bundle.manifest.firmware (spanBytes archive bundle.firmware) with
    | none => trivial
    | some c => exact installs there
  cases problem with
  | some problem => trivial
  | none =>
    refine only_bind ?_ fun problem => ?_
    · cases there : present bundle.manifest.gateware (spanBytes archive bundle.gateware) with
      | none => trivial
      | some c =>
        refine only_bind (installs there) fun problem => ?_
        cases problem with
        | some problem => trivial
        | none =>
          simp only
          split_ifs
          · trivial
          · refine only_ask trivial fun loaded => ?_
            cases loaded <;> trivial
    cases problem with
    | some problem => trivial
    | none => exact restarts _ _

/-- A device that takes everything and comes back with this commit. -/
def obliging (commit : Text) : (c : Call) → Answer c
  | .readStatus => some ⟨.complete, .none, UpdateProtocol.updateMaxChunk, 0, 0, 0⟩
  | .begin _ _ _ | .sendChunk _ _ | .finish _ | .reset | .reconfigureFpga => true
  | .waitForReturn => some ⟨productString commit, commit⟩
  | .cancelled | .stallElapsed => false

section Obliging

variable {commit : Text} {settings : Settings} {target : UpdateTarget}

theorem sendAll_obliged (total : Nat) (chunks : List Chunk) :
    (play (obliging commit) (sendAll target total chunks)).2 = some none := by
  induction chunks with
  | nil => rfl
  | cons chunk rest ih =>
    rw [sendAll, play_ask_bind, if_neg (by simp [obliging]), play_ask_bind,
      if_pos (by simp [obliging])]
    exact ih

theorem installComponent_obliged (component : UpdateComponent) (payload : List Byte) :
    (play (obliging commit) (installComponent settings target component payload 1)).2 =
      some none := by
  have wrote : (play (obliging commit)
      (UpdateOrchestrator.writeComponent target component payload 1)).2 = some none := by
    rw [UpdateOrchestrator.writeComponent, play_ask_bind]
    change (play (obliging commit) (query (.begin target payload.length component.sha256) >>= _)).2
      = _
    rw [play_ask_bind, if_pos (by simp [obliging]), transfer, play_bind, sendAll_obliged]
    rfl
  rw [installComponent, play_bind, wrote]
  rfl

theorem installGateware_obliged (component : UpdateComponent) (payload : List Byte) :
    (play (obliging commit) (installGateware settings payload 1 component)).2 = some none := by
  rw [installGateware, play_bind, installComponent_obliged]
  simp only [Option.bind_some]
  split_ifs
  · rfl
  · rfl

theorem installPresent_obliged {component : Option UpdateComponent}
    {install : UpdateComponent → Session (Option Problem)}
    (each : ∀ c, (play (obliging commit) (install c)).2 = some none) :
    (play (obliging commit) (installPresent component install)).2 = some none := by
  cases component with
  | none => rfl
  | some component => exact each component

theorem runUpdate_obliged {archive : List Byte} {bundle : UpdateBundle}
    (now : settings.deferRestart = false)
    (something : (carried archive bundle .firmware).isSome ∨
      (carried archive bundle .gateware).isSome) :
    (play (obliging commit) (runUpdate settings 1 archive bundle)).2 =
      some (confirm (carried archive bundle .firmware) (carried archive bundle .gateware)
        ⟨productString commit, commit⟩) := by
  have there : ¬ ((present bundle.manifest.firmware (spanBytes archive bundle.firmware)).isNone ∧
      (present bundle.manifest.gateware (spanBytes archive bundle.gateware)).isNone) := by
    rw [not_and_or]
    simpa [carried, declared, payloadOf, Option.isSome_iff_ne_none] using something
  simp only [runUpdate, if_neg there]
  rw [play_bind, installPresent_obliged fun c => installComponent_obliged c _]
  simp only [Option.bind_some]
  rw [play_bind, installPresent_obliged fun c => installGateware_obliged c _]
  simp only [Option.bind_some, restart, now, Bool.false_eq_true, if_false]
  rfl

/-- A component that is overlooked is missing from a success. -/
theorem not_sound_of_overlooked {archive : List Byte} {bundle : UpdateBundle}
    (consistent : Consistent archive bundle) (overlooked : Overlooked bundle) :
    ¬ Sound archive bundle := by
  obtain ⟨skipped, other, ⟨c, member, empty⟩, d, declares, filled, names⟩ := overlooked
  obtain ⟨commit, normalised⟩ := Option.isSome_iff_exists.mp names
  have payload : payloadOf archive bundle skipped = [] :=
    List.length_eq_zero_iff.mp ((consistent.sized skipped c member).trans empty)
  have there : d ∈ carried archive bundle other := by
    refine present_eq_some.mpr ⟨declares, List.length_pos_iff.mp ?_⟩
    rw [consistent.sized other d declares]
    exact filled
  have matching : commitsMatch (reported ⟨productString commit, commit⟩ other) d.identity =
      true := by
    have firmware := parseFirmwareCommit_productString (normaliseCommit_normal normalised)
    cases other with
    | firmware =>
      simp only [reported, firmware, Option.getD_some]
      exact commitsMatch_self normalised
    | gateware => exact commitsMatch_self normalised
    | epcsFactory => cases declares
  have apart : skipped ≠ other := by
    rintro rfl
    obtain rfl : c = d := Option.some.inj (member.symm.trans declares)
    omega
  have only : ∀ target, ∀ e ∈ carried archive bundle target, target = other := by
    intro target e carries
    obtain ⟨inside, something⟩ := present_eq_some.mp carries
    by_contra differs
    have same : target = skipped := by
      cases target <;> cases skipped <;> cases other <;>
        first | rfl | exact absurd rfl differs | exact absurd rfl apart | cases inside |
          cases member | cases declares
    exact something (same ▸ payload)
  have recognised : ∀ target, Recognised (carried archive bundle target)
      (reported ⟨productString commit, commit⟩ target) := by
    intro target e carries _
    obtain rfl := only target e carries
    obtain rfl : d = e := Option.some.inj (there.symm.trans carries)
    exact matching
  have something : (carried archive bundle .firmware).isSome ∨
      (carried archive bundle .gateware).isSome := by
    cases other with
    | firmware => exact Or.inl (Option.isSome_of_mem there)
    | gateware => exact Or.inr (Option.isSome_of_mem there)
    | epcsFactory => cases declares
  intro sound
  have plays : (play (obliging commit) (runUpdate ⟨false, false⟩ 1 archive bundle)).2 = _ :=
    runUpdate_obliged rfl something
  have ends := returns_play plays
  rcases (confirm_cases (carried archive bundle .firmware) (carried archive bundle .gateware)
      ⟨productString commit, commit⟩).right with ⟨success, -⟩ | ⟨-, refuted, -⟩
  · obtain ⟨⟨before, chunks, waiting, status, after, log, -⟩, -⟩ :=
      (sound.installed _ _ _ _ rfl ends success).left skipped c member
    have begun := (runUpdate_filled ⟨false, false⟩ 1 archive bundle).calls ends
      ⟨.begin skipped (payloadOf archive bundle skipped).length c.sha256, true⟩
      (by rw [log]; simp)
    simp [Filled, payload] at begun
  · exact refuted ⟨recognised .firmware, recognised .gateware⟩

end Obliging

/-- An update that reports success has installed all that its bundle declares, exactly for
the bundles in which nothing is overlooked. -/
theorem success_installs (env : Environment) (key : Minisign.MinisignPublicKey)
    (archive : List Byte) (bundle : UpdateBundle) (fits : UstarArchive.Addressable archive)
    (opened : openUpdateBundle env key archive = .ok bundle) :
    Sound archive bundle ↔ ¬ Overlooked bundle := by
  have consistent := opened_consistent fits opened
  constructor
  · exact fun sound overlooked => not_sound_of_overlooked consistent overlooked sound
  · exact sound_of_seen consistent

/-- Opened, and all that it declares is firmware of one byte. -/
theorem sample_sound : ∃ bundle,
    openUpdateBundle sampleEnvironment sampleKey (UstarArchive.writeArchive sampleFiles) =
      .ok bundle ∧ Sound (UstarArchive.writeArchive sampleFiles) bundle := by
  obtain ⟨fits, files, bundle, opened⟩ := sampleFiles_open
  have manifest := manifest_of_head opened files (by simp [sampleFiles]) sample_parsed
  refine ⟨bundle, opened, ?_⟩
  refine (success_installs sampleEnvironment sampleKey _ bundle fits opened).mpr ?_
  rintro ⟨skipped, other, ⟨c, member, empty⟩, -⟩
  rw [declared.eq_def, manifest] at member
  cases skipped with
  | firmware =>
    obtain rfl := Option.some.inj member
    cases empty
  | gateware => cases member
  | epcsFactory => cases member

/-- A manifest for a firmware of one byte and a gateware of none. -/
def hollowManifest : Text :=
  text "\x7b\"manifest_version\": 1, " ++
  text "\"channel\": \"release\", \"version\": \"1.0\", " ++
  text "\"commit\": \"a1b2c3d4\", " ++
  text "\"created\": \"2026-01-01\", \"release_notes\": \"None\", " ++
  text "\"components\": \x7b\"firmware\": \x7b\"file\": \"firmware.img\", " ++
  text "\"length\": 1, \"sha256\": \"ca358758f6d27e6cf45272937977a748fd88391db679ceda7dc7bf1f005ee879\", " ++
  text "\"identity\": \"a1b2c3d4\", \"interface_version\": 1\x7d, " ++
  text "\"gateware\": \x7b\"file\": \"gateware-app.rpd\", \"length\": 0, " ++
  text "\"sha256\": \"e3b0c44298fc1c149afbf4c8996fb92427ae41e4649b934ca495991b7852b855\", " ++
  text "\"identity\": \"a1b2c3d4\", \"interface_version\": 2\x7d\x7d, " ++
  text "\"compatibility\": \x7b\"minimum_application_version\": \"0.0.0\", " ++
  text "\"minimum_register_map_version\": 0, \"epcs_layout_version\": 0\x7d\x7d"

def hollowDocument : ManifestReader.JsonValue := .object
  [(text "manifest_version", .number (text "1")), (text "channel", .string (text "release")),
    (text "version", .string (text "1.0")), (text "commit", .string (text "a1b2c3d4")),
    (text "created", .string (text "2026-01-01")), (text "release_notes", .string (text "None")),
    (text "components", .object
      [(text "firmware", .object
        [(text "file", .string (text "firmware.img")), (text "length", .number (text "1")),
          (text "sha256", .string (text
            "ca358758f6d27e6cf45272937977a748fd88391db679ceda7dc7bf1f005ee879")),
          (text "identity", .string (text "a1b2c3d4")),
          (text "interface_version", .number (text "1"))]),
      (text "gateware", .object
        [(text "file", .string (text "gateware-app.rpd")), (text "length", .number (text "0")),
          (text "sha256", .string (text
            "e3b0c44298fc1c149afbf4c8996fb92427ae41e4649b934ca495991b7852b855")),
          (text "identity", .string (text "a1b2c3d4")),
          (text "interface_version", .number (text "2"))])]),
    (text "compatibility", .object
      [(text "minimum_application_version", .string (text "0.0.0")),
        (text "minimum_register_map_version", .number (text "0")),
        (text "epcs_layout_version", .number (text "0"))])]

def emptyDigest : Digest := ⟨#[0xe3, 0xb0, 0xc4, 0x42, 0x98, 0xfc, 0x1c, 0x14, 0x9a, 0xfb, 0xf4, 0xc8, 0x99, 0x6f, 0xb9, 0x24, 0x27, 0xae, 0x41, 0xe4, 0x64, 0x9b, 0x93, 0x4c, 0xa4, 0x95, 0x99, 0x1b, 0x78, 0x52, 0xb8, 0x55], rfl⟩

def hollowEnvironment : Environment where
  crypto := sampleEnvironment.crypto
  sha256 data := if data = [] then emptyDigest else sampleEnvironment.sha256 data
  parseJson contents :=
    if contents = hollowManifest then .ok hollowDocument else .error (text "unexpected character", 0)

def hollowFiles : List UstarArchive.File :=
  [⟨kManifestEntryName, hollowManifest⟩, ⟨kSignatureEntryName, sampleSignature⟩,
    ⟨text "firmware.img", [7]⟩, ⟨text "gateware-app.rpd", []⟩]

/-- What the hollow manifest says. -/
def hollowRead : UpdateManifest :=
  { sampleRead with
    releaseNotes := text "None"
    gateware := some ⟨text "gateware-app.rpd", 0, emptyDigest, text "a1b2c3d4", 2⟩ }

theorem hollow_parsed : parseUpdateManifest hollowEnvironment hollowManifest = .ok hollowRead := by
  have document : hollowEnvironment.parseJson hollowManifest = .ok hollowDocument := by
    simp only [hollowEnvironment, if_true]
  simp only [parseUpdateManifest, document]
  decide +kernel

theorem hollow_storable : ∀ file ∈ hollowFiles, UstarArchive.Storable file := by
  have names : ∀ name ∈ hollowFiles.map UstarArchive.File.name, name ≠ [] ∧
      UstarArchive.slash ∉ name ∧ (0 : Byte) ∉ name ∧ name.length ≤ UstarArchive.kNameSize := by
    decide +kernel
  have sizes : ∀ file ∈ hollowFiles, file.data.length ≤ UstarArchive.kMaximumEntryBytes := by
    decide +kernel
  intro file member
  obtain ⟨named, bare, terminated, short⟩ := names file.name (List.mem_map_of_mem member)
  exact ⟨named, bare, terminated, short, sizes file member⟩

/-- The gateware is declared, and a success says nothing of it. -/
theorem hollow_gateware_passed_over : ∃ bundle,
    openUpdateBundle hollowEnvironment sampleKey (UstarArchive.writeArchive hollowFiles) =
      .ok bundle ∧ ¬ Sound (UstarArchive.writeArchive hollowFiles) bundle := by
  obtain ⟨fits, entries, read, same⟩ := written_read hollow_storable (by decide +kernel)
    (by simp [hollowFiles]) (by simp [hollowFiles])
  obtain ⟨signature, wellFormed, verified⟩ := sample_signed
  have carries : ∀ {c : UpdateComponent} (data : List Byte), ⟨c.file, data⟩ ∈ hollowFiles →
      data.length = c.length → hollowEnvironment.sha256 data = c.sha256 →
      Carried hollowEnvironment (UstarArchive.writeArchive hollowFiles) (some c) := by
    rintro c data member length digest _ ⟨⟩
    exact ⟨data, by rwa [same], length, digest⟩
  have firmware : Carried hollowEnvironment (UstarArchive.writeArchive hollowFiles)
      hollowRead.firmware :=
    carries [7] (by simp [hollowFiles]) rfl (by simp [hollowEnvironment, sampleEnvironment])
  have gateware : Carried hollowEnvironment (UstarArchive.writeArchive hollowFiles)
      hollowRead.gateware :=
    carries [] (by simp [hollowFiles]) rfl (by simp [hollowEnvironment])
  have first : (archiveFiles (UstarArchive.writeArchive hollowFiles)).head? =
      some ⟨kManifestEntryName, hollowManifest⟩ := by
    rw [same]
    simp [hollowFiles]
  have beside : ⟨kSignatureEntryName, sampleSignature⟩ ∈
      archiveFiles (UstarArchive.writeArchive hollowFiles) := by
    rw [same]
    simp [hollowFiles]
  have signed : Minisign.verifyMinisign hollowEnvironment.crypto hollowManifest signature
      sampleKey = .ok () := verified hollowManifest
  obtain ⟨bundle, opened⟩ := opens fits read first beside wellFormed signed hollow_parsed
    firmware gateware (by rintro _ ⟨⟩) (by rintro _ ⟨⟩)
  have manifest := manifest_of_head opened same (by simp [hollowFiles]) hollow_parsed
  refine ⟨bundle, opened, not_sound_of_overlooked (opened_consistent fits opened) ?_⟩
  refine ⟨.gateware, .firmware, ⟨⟨text "gateware-app.rpd", 0, emptyDigest, text "a1b2c3d4", 2⟩, ?_, rfl⟩,
    ⟨text "firmware.img", 1, sampleDigest, text "a1b2c3d4", 1⟩, ?_, by decide, by decide +kernel⟩
  · simp only [declared, manifest, hollowRead, Option.mem_def]
  · simp only [declared, manifest, hollowRead, sampleRead, Option.mem_def]

end UpdateSuccess
