import DomesdayDuplicator.Update.UpdateManifest

/-!
# The update gate

Whether a bundle may be installed on the attached device by this build. The checks
follow one another as the code has them; each one is described by what it asks, and
the verdict is what all of them say together.
-/

namespace UpdateGate

open Manifest

def protocolVersionMinimum : Int := 1
def protocolVersionMaximum : Int := 1
def registerMapVersionMinimum : Int := 2
def registerMapVersionMaximum : Int := 2
def epcsBootBlockLayoutVersion : Int := 1

inductive DevicePersonality where
  | application | recovery | flashProgrammer | legacy
  deriving DecidableEq

/-- What the gate reads of a device's identity. -/
structure DeviceIdentity where
  gatewarePresent : Bool
  registerMapVersion : Int

structure UpdateGateInput where
  device : DeviceIdentity
  deviceAttached : Bool
  devicePersonality : DevicePersonality

inductive UpdateGateVerdict where
  | allowed | applicationTooOld | incompatible
  deriving DecidableEq

structure UpdateGateResult where
  verdict : UpdateGateVerdict
  reasons : List String
  deriving DecidableEq

def UpdateGateResult.start : UpdateGateResult := ⟨.allowed, []⟩

/-- The application-too-old verdict outranks the others. -/
def UpdateGateResult.refuse (result : UpdateGateResult) (verdict : UpdateGateVerdict)
    (reason : String) : UpdateGateResult :=
  { verdict := if result.verdict = .applicationTooOld then result.verdict else verdict
    reasons := result.reasons ++ [reason] }

/-- A component's interface version against the range this build supports. -/
def checkInterface (component : Option UpdateComponent) (minimum maximum : Int)
    (newer older : String) (result : UpdateGateResult) : UpdateGateResult :=
  match component with
  | none => result
  | some component =>
    if maximum < component.interfaceVersion then result.refuse .applicationTooOld newer
    else if component.interfaceVersion < minimum then result.refuse .incompatible older
    else result

def checkFirmware (manifest : UpdateManifest) : UpdateGateResult → UpdateGateResult :=
  checkInterface manifest.firmware protocolVersionMinimum protocolVersionMaximum
    "The firmware in this update speaks a newer protocol than this application understands. Update the application first."
    "The firmware in this update is older than this application can work with."

/-- A running device whose FPGA does not answer cannot take gateware. -/
def checkFpga (manifest : UpdateManifest) (input : UpdateGateInput) (result : UpdateGateResult) :
    UpdateGateResult :=
  if manifest.gateware.isSome ∧ input.devicePersonality = .application ∧
      input.device.gatewarePresent = false then
    result.refuse .incompatible
      "This device's FPGA is not answering, so its gateware cannot be updated from here. Reconnect the device, and if it still does not answer, the bench procedure will program it."
  else result

def checkGateware (manifest : UpdateManifest) : UpdateGateResult → UpdateGateResult :=
  checkInterface manifest.gateware registerMapVersionMinimum registerMapVersionMaximum
    "The gateware in this update uses a newer register map than this application understands. Update the application first."
    "The gateware in this update is older than this application can work with."

def checkLayout (manifest : UpdateManifest) (result : UpdateGateResult) : UpdateGateResult :=
  if manifest.gateware.isSome ∧
      epcsBootBlockLayoutVersion < manifest.compatibility.epcsLayoutVersion then
    result.refuse .applicationTooOld
      "The gateware in this update uses a newer flash layout than this application understands. Update the application first."
  else result

/-- The register map the device has now against the one the firmware asks for. -/
def checkRegisterMap (manifest : UpdateManifest) (input : UpdateGateInput)
    (result : UpdateGateResult) : UpdateGateResult :=
  if 0 < manifest.compatibility.minimumRegisterMapVersion ∧ input.device.gatewarePresent = true ∧
      input.device.registerMapVersion < manifest.compatibility.minimumRegisterMapVersion then
    result.refuse .incompatible
      "The firmware in this update needs newer gateware than this device has. Install an update that carries both."
  else result

/-- The checks after the early returns, one after the other. -/
def checks (manifest : UpdateManifest) (input : UpdateGateInput) (result : UpdateGateResult) :
    UpdateGateResult :=
  checkRegisterMap manifest input (checkLayout manifest (checkGateware manifest
    (checkFpga manifest input (checkFirmware manifest result))))

def checkUpdateGate (manifest : UpdateManifest) (input : UpdateGateInput) : UpdateGateResult :=
  let result := UpdateGateResult.start
  if manifest.manifestVersion ≠ updateManifestVersion then
    result.refuse .applicationTooOld
      "This update file was made for a newer version of the application. Update the application first."
  else if manifest.firmware = none ∧ manifest.gateware = none then
    result.refuse .incompatible
      (if manifest.provisioning.isSome then
        "This file carries only the bring-up gateware, which is programmed through a JTAG cable rather than installed from here. Use Tools ▸ Firmware ▸ Bring up a new or legacy board…"
      else "This update file contains nothing to install.")
  else if input.deviceAttached = false then
    result.refuse .incompatible "No Domesday Duplicator is attached."
  else if input.devicePersonality = .legacy then
    result.refuse .incompatible
      "This device is running the original Duplicator firmware, which has no way to install an update. Its firmware and gateware have to be programmed directly before updates can be installed from here."
  else if input.devicePersonality = .recovery ∧ manifest.firmware = none then
    result.refuse .incompatible
      "This device has no working firmware, and this update file does not contain any. Choose an update that includes firmware."
  else checks manifest input result

/-! ## What the checks ask -/

def Within (component : Option UpdateComponent) (minimum maximum : Int) : Prop :=
  ∀ c ∈ component, minimum ≤ c.interfaceVersion ∧ c.interfaceVersion ≤ maximum

def Beyond (component : Option UpdateComponent) (maximum : Int) : Prop :=
  ∃ c ∈ component, maximum < c.interfaceVersion

/-- A device is attached that could take what the bundle carries. -/
structure Able (manifest : UpdateManifest) (input : UpdateGateInput) : Prop where
  attached : input.deviceAttached = true
  modern : input.devicePersonality ≠ .legacy
  repairable : input.devicePersonality = .recovery → manifest.firmware.isSome
  answering : input.devicePersonality = .application → manifest.gateware.isSome →
    input.device.gatewarePresent = true

/-- What the bundle and the device have to be, but for the register map. -/
structure Installable (manifest : UpdateManifest) (input : UpdateGateInput) : Prop where
  schema : manifest.manifestVersion = updateManifestVersion
  something : manifest.firmware.isSome ∨ manifest.gateware.isSome
  able : Able manifest input
  firmware : Within manifest.firmware protocolVersionMinimum protocolVersionMaximum
  gateware : Within manifest.gateware registerMapVersionMinimum registerMapVersionMaximum
  layout : manifest.gateware.isSome →
    manifest.compatibility.epcsLayoutVersion ≤ epcsBootBlockLayoutVersion

/-- The register map the device will have is no older than the manifest asks for: the
bundle's own where it carries gateware, else the device's where it answered. -/
def MapSuffices (manifest : UpdateManifest) (input : UpdateGateInput) : Prop :=
  match manifest.gateware with
  | some gateware =>
    manifest.compatibility.minimumRegisterMapVersion ≤ gateware.interfaceVersion
  | none => input.device.gatewarePresent = true →
    manifest.compatibility.minimumRegisterMapVersion ≤ input.device.registerMapVersion

/-- Some version in the bundle is newer than this build understands. -/
def Newer (manifest : UpdateManifest) : Prop :=
  updateManifestVersion < manifest.manifestVersion ∨
    Beyond manifest.firmware protocolVersionMaximum ∨
    Beyond manifest.gateware registerMapVersionMaximum ∨
    (manifest.gateware.isSome ∧
      epcsBootBlockLayoutVersion < manifest.compatibility.epcsLayoutVersion)

/-- Where the map the device has now says something else than the one it will have. -/
inductive MapMisjudged (manifest : UpdateManifest) (input : UpdateGateInput) : Prop where
  /-- The bundle carries the gateware that would bring the device up to date. -/
  | outdatedNow {gateware : UpdateComponent} (carried : manifest.gateware = some gateware)
      (asked : 0 < manifest.compatibility.minimumRegisterMapVersion)
      (answered : input.device.gatewarePresent = true)
      (older : input.device.registerMapVersion < manifest.compatibility.minimumRegisterMapVersion)
      (enough : manifest.compatibility.minimumRegisterMapVersion ≤ gateware.interfaceVersion)
  /-- The bundle carries gateware older than its own firmware asks for. -/
  | outdatedAfterwards {gateware : UpdateComponent} (carried : manifest.gateware = some gateware)
      (short : gateware.interfaceVersion < manifest.compatibility.minimumRegisterMapVersion)
      (overlooked : input.device.gatewarePresent = true →
        manifest.compatibility.minimumRegisterMapVersion ≤ input.device.registerMapVersion)
  /-- A minimum of zero or less is not asked for at all. -/
  | unasked (carried : manifest.gateware = none)
      (minimum : manifest.compatibility.minimumRegisterMapVersion ≤ 0)
      (answered : input.device.gatewarePresent = true)
      (older : input.device.registerMapVersion < manifest.compatibility.minimumRegisterMapVersion)

/-- The inputs the gate judges rightly. -/
structure WellJudged (manifest : UpdateManifest) (input : UpdateGateInput) : Prop where
  map : Installable manifest input → ¬MapMisjudged manifest input
  schema : Able manifest input → manifest.manifestVersion < updateManifestVersion → Newer manifest

/-! ## One check -/

/-- What a check asks for, and when it finds the application too old. -/
structure Asks (check : UpdateGateResult → UpdateGateResult) (met newer : Prop) : Prop where
  allowed : ∀ result, (check result).verdict = .allowed ↔ result.verdict = .allowed ∧ met
  tooOld : ∀ result, (check result).verdict = .applicationTooOld ↔
    result.verdict = .applicationTooOld ∨ newer

theorem refuse_allowed {result : UpdateGateResult} {verdict : UpdateGateVerdict} {reason : String}
    (refusal : verdict ≠ .allowed) : (result.refuse verdict reason).verdict ≠ .allowed := by
  by_cases old : result.verdict = .applicationTooOld
  · simp [UpdateGateResult.refuse, old]
  · simpa [UpdateGateResult.refuse, old] using refusal

theorem refuse_tooOld (result : UpdateGateResult) (verdict : UpdateGateVerdict) (reason : String) :
    (result.refuse verdict reason).verdict = .applicationTooOld ↔
      result.verdict = .applicationTooOld ∨ verdict = .applicationTooOld := by
  by_cases old : result.verdict = .applicationTooOld
  · simp [UpdateGateResult.refuse, old]
  · simp [UpdateGateResult.refuse, old]

theorem Asks.andThen {first second : UpdateGateResult → UpdateGateResult}
    {met newer met' newer' : Prop} (one : Asks first met newer) (two : Asks second met' newer') :
    Asks (fun result => second (first result)) (met ∧ met') (newer ∨ newer') := by
  constructor
  · intro result
    rw [two.allowed, one.allowed, and_assoc]
  · intro result
    rw [two.tooOld, one.tooOld, or_assoc]

/-- A check that refuses when something holds. -/
theorem asks_unless (verdict : UpdateGateVerdict) (reason : String) (found : Prop)
    [Decidable found] (refusal : verdict ≠ .allowed) :
    Asks (fun result => if found then result.refuse verdict reason else result) (¬found)
      (found ∧ verdict = .applicationTooOld) := by
  constructor
  · intro result
    by_cases h : found
    · simp [h, refuse_allowed refusal]
    · simp [h]
  · intro result
    by_cases h : found
    · simp [h, refuse_tooOld]
    · simp [h]

theorem checkInterface_asks (component : Option UpdateComponent) (minimum maximum : Int)
    (newer older : String) :
    Asks (checkInterface component minimum maximum newer older)
      (Within component minimum maximum) (Beyond component maximum) := by
  cases component with
  | none => constructor <;> intro result <;> simp [checkInterface, Within, Beyond]
  | some component =>
    constructor
    · intro result
      by_cases above : maximum < component.interfaceVersion
      · have outside : ¬component.interfaceVersion ≤ maximum := by omega
        simp [checkInterface, above, Within, outside,
          refuse_allowed (show UpdateGateVerdict.applicationTooOld ≠ .allowed by decide)]
      by_cases below : component.interfaceVersion < minimum
      · have outside : ¬minimum ≤ component.interfaceVersion := by omega
        simp [checkInterface, above, below, Within, outside,
          refuse_allowed (show UpdateGateVerdict.incompatible ≠ .allowed by decide)]
      · have inside : minimum ≤ component.interfaceVersion ∧
            component.interfaceVersion ≤ maximum := by omega
        simp [checkInterface, above, below, Within, inside]
    · intro result
      by_cases above : maximum < component.interfaceVersion
      · simp [checkInterface, above, Beyond, refuse_tooOld]
      by_cases below : component.interfaceVersion < minimum
      · simp [checkInterface, above, below, Beyond, refuse_tooOld]
      · simp [checkInterface, above, below, Beyond]

/-! ## All of them -/

/-- What the checks ask for. -/
structure Passes (manifest : UpdateManifest) (input : UpdateGateInput) : Prop where
  firmware : Within manifest.firmware protocolVersionMinimum protocolVersionMaximum
  answering : ¬(manifest.gateware.isSome ∧ input.devicePersonality = .application ∧
    input.device.gatewarePresent = false)
  gateware : Within manifest.gateware registerMapVersionMinimum registerMapVersionMaximum
  layout : ¬(manifest.gateware.isSome ∧
    epcsBootBlockLayoutVersion < manifest.compatibility.epcsLayoutVersion)
  map : ¬(0 < manifest.compatibility.minimumRegisterMapVersion ∧
    input.device.gatewarePresent = true ∧
    input.device.registerMapVersion < manifest.compatibility.minimumRegisterMapVersion)

/-- The versions they find too new. -/
def NewerPayload (manifest : UpdateManifest) : Prop :=
  Beyond manifest.firmware protocolVersionMaximum ∨
    Beyond manifest.gateware registerMapVersionMaximum ∨
    (manifest.gateware.isSome ∧
      epcsBootBlockLayoutVersion < manifest.compatibility.epcsLayoutVersion)

theorem checks_asks (manifest : UpdateManifest) (input : UpdateGateInput) :
    Asks (checks manifest input) (Passes manifest input) (NewerPayload manifest) := by
  have firmware : Asks (checkFirmware manifest) _ _ := checkInterface_asks _ _ _ _ _
  have fpga : Asks (checkFpga manifest input) _ _ := asks_unless _ _ _ (by decide)
  have gateware : Asks (checkGateware manifest) _ _ := checkInterface_asks _ _ _ _ _
  have layout : Asks (checkLayout manifest) _ _ := asks_unless _ _ _ (by decide)
  have map : Asks (checkRegisterMap manifest input) _ _ := asks_unless _ _ _ (by decide)
  have all := (((firmware.andThen fpga).andThen gateware).andThen layout).andThen map
  constructor
  · intro result
    refine (all.allowed result).trans (and_congr_right fun _ => ?_)
    constructor
    · rintro ⟨⟨⟨⟨one, two⟩, three⟩, four⟩, five⟩
      exact ⟨one, two, three, four, five⟩
    · rintro ⟨one, two, three, four, five⟩
      exact ⟨⟨⟨⟨one, two⟩, three⟩, four⟩, five⟩
  · intro result
    refine (all.tooOld result).trans (or_congr_right ?_)
    simp [NewerPayload, or_assoc]

theorem checks_allowed_iff (manifest : UpdateManifest) (input : UpdateGateInput) :
    (checks manifest input .start).verdict = .allowed ↔ Passes manifest input := by
  simpa [UpdateGateResult.start] using (checks_asks manifest input).allowed .start

theorem checks_tooOld_iff (manifest : UpdateManifest) (input : UpdateGateInput) :
    (checks manifest input .start).verdict = .applicationTooOld ↔ NewerPayload manifest := by
  simpa [UpdateGateResult.start] using (checks_asks manifest input).tooOld .start

/-- What the early returns let through. -/
structure Examined (manifest : UpdateManifest) (input : UpdateGateInput) : Prop where
  schema : manifest.manifestVersion = updateManifestVersion
  something : manifest.firmware.isSome ∨ manifest.gateware.isSome
  attached : input.deviceAttached = true
  modern : input.devicePersonality ≠ .legacy
  repairable : input.devicePersonality = .recovery → manifest.firmware.isSome

theorem checkUpdateGate_examined {manifest : UpdateManifest} {input : UpdateGateInput}
    (examined : Examined manifest input) :
    checkUpdateGate manifest input = checks manifest input .start := by
  have carried : ¬(manifest.firmware = none ∧ manifest.gateware = none) := by
    rintro ⟨firmware, gateware⟩
    simpa [firmware, gateware] using examined.something
  have repairable : ¬(input.devicePersonality = .recovery ∧ manifest.firmware = none) := by
    rintro ⟨recovery, firmware⟩
    simpa [firmware] using examined.repairable recovery
  simp [checkUpdateGate, examined.schema, carried, examined.attached, examined.modern,
    repairable]

theorem checkUpdateGate_schema {manifest : UpdateManifest} (input : UpdateGateInput)
    (other : manifest.manifestVersion ≠ updateManifestVersion) :
    (checkUpdateGate manifest input).verdict = .applicationTooOld := by
  simp [checkUpdateGate, other, refuse_tooOld]

theorem checkUpdateGate_refused {manifest : UpdateManifest} {input : UpdateGateInput}
    (schema : manifest.manifestVersion = updateManifestVersion)
    (unexamined : ¬Examined manifest input) :
    (checkUpdateGate manifest input).verdict = .incompatible := by
  have refused (reason : String) :
      (UpdateGateResult.start.refuse .incompatible reason).verdict = .incompatible := rfl
  by_cases carried : manifest.firmware = none ∧ manifest.gateware = none
  · simp [checkUpdateGate, schema, carried, refused]
  by_cases attached : input.deviceAttached = false
  · simp [checkUpdateGate, schema, carried, attached, refused]
  by_cases legacy : input.devicePersonality = .legacy
  · simp [checkUpdateGate, schema, carried, attached, legacy, refused]
  by_cases repairable : input.devicePersonality = .recovery ∧ manifest.firmware = none
  · have gateware : manifest.gateware ≠ none := fun gateware =>
      carried ⟨repairable.right, gateware⟩
    simp [checkUpdateGate, schema, gateware, attached, repairable, refused]
  refine absurd ⟨schema, ?_, by simpa using attached, legacy, ?_⟩ unexamined
  · by_cases firmware : manifest.firmware = none
    · exact .inr (Option.isSome_iff_ne_none.mpr fun gateware => carried ⟨firmware, gateware⟩)
    · exact .inl (Option.isSome_iff_ne_none.mpr firmware)
  · intro recovery
    exact Option.isSome_iff_ne_none.mpr fun firmware => repairable ⟨recovery, firmware⟩

theorem allowed_iff (manifest : UpdateManifest) (input : UpdateGateInput) :
    (checkUpdateGate manifest input).verdict = .allowed ↔
      Examined manifest input ∧ Passes manifest input := by
  by_cases schema : manifest.manifestVersion = updateManifestVersion
  · by_cases examined : Examined manifest input
    · simp [checkUpdateGate_examined examined, checks_allowed_iff, examined]
    · simp [checkUpdateGate_refused schema examined, examined]
  · have unexamined : ¬Examined manifest input := fun examined => schema examined.schema
    simp [checkUpdateGate_schema input schema, unexamined]

theorem tooOld_iff {manifest : UpdateManifest} {input : UpdateGateInput}
    (able : Able manifest input) :
    (checkUpdateGate manifest input).verdict = .applicationTooOld ↔
      manifest.manifestVersion ≠ updateManifestVersion ∨ NewerPayload manifest := by
  by_cases schema : manifest.manifestVersion = updateManifestVersion
  · by_cases something : manifest.firmware.isSome ∨ manifest.gateware.isSome
    · have examined : Examined manifest input :=
        ⟨schema, something, able.attached, able.modern, able.repairable⟩
      simp [checkUpdateGate_examined examined, checks_tooOld_iff, schema]
    · have unexamined : ¬Examined manifest input := fun examined => something examined.something
      have empty : manifest.firmware = none ∧ manifest.gateware = none := by simpa using something
      simp [checkUpdateGate_refused schema unexamined, schema, NewerPayload, Beyond, empty]
  · simp [checkUpdateGate_schema input schema, schema]

/-- Apart from the register map, the code asks for what makes a bundle installable. -/
theorem examined_iff (manifest : UpdateManifest) (input : UpdateGateInput) :
    Examined manifest input ∧ Passes manifest input ↔ Installable manifest input ∧
      ¬(0 < manifest.compatibility.minimumRegisterMapVersion ∧
        input.device.gatewarePresent = true ∧
        input.device.registerMapVersion < manifest.compatibility.minimumRegisterMapVersion) := by
  constructor
  · rintro ⟨examined, passes⟩
    refine ⟨⟨examined.schema, examined.something,
      ⟨examined.attached, examined.modern, examined.repairable, ?_⟩,
      passes.firmware, passes.gateware, ?_⟩, passes.map⟩
    · intro running gateware
      by_contra silent
      exact passes.answering ⟨gateware, running, by simpa using silent⟩
    · intro gateware
      by_contra beyond
      exact passes.layout ⟨gateware, by omega⟩
  · rintro ⟨installable, map⟩
    have able := installable.able
    refine ⟨⟨installable.schema, installable.something, able.attached, able.modern,
      able.repairable⟩, installable.firmware, ?_, installable.gateware, ?_, map⟩
    · rintro ⟨gateware, running, silent⟩
      simp [able.answering running gateware] at silent
    · rintro ⟨gateware, beyond⟩
      have := installable.layout gateware
      omega

/-- The map the code looks at and the one it should look at, where they agree. -/
theorem map_iff {manifest : UpdateManifest} {input : UpdateGateInput}
    (installable : Installable manifest input) :
    (¬(0 < manifest.compatibility.minimumRegisterMapVersion ∧
        input.device.gatewarePresent = true ∧
        input.device.registerMapVersion < manifest.compatibility.minimumRegisterMapVersion) ↔
      MapSuffices manifest input) ↔ ¬MapMisjudged manifest input := by
  cases carried : manifest.gateware with
  | none =>
    have suffices_iff : MapSuffices manifest input ↔ (input.device.gatewarePresent = true →
        manifest.compatibility.minimumRegisterMapVersion ≤ input.device.registerMapVersion) := by
      simp [MapSuffices, carried]
    have misjudged_iff : MapMisjudged manifest input ↔
        manifest.compatibility.minimumRegisterMapVersion ≤ 0 ∧
          input.device.gatewarePresent = true ∧
          input.device.registerMapVersion <
            manifest.compatibility.minimumRegisterMapVersion := by
      constructor
      · rintro (⟨other, -, -, -, -⟩ | ⟨other, -, -⟩ | ⟨-, minimum, answered, older⟩)
        · simp [carried] at other
        · simp [carried] at other
        · exact ⟨minimum, answered, older⟩
      · rintro ⟨minimum, answered, older⟩
        exact .unasked carried minimum answered older
    rw [suffices_iff, misjudged_iff]
    cases input.device.gatewarePresent <;> simp
    omega
  | some gateware =>
    have supported : registerMapVersionMinimum ≤ gateware.interfaceVersion :=
      (installable.gateware gateware (by simp [carried])).left
    have suffices_iff : MapSuffices manifest input ↔
        manifest.compatibility.minimumRegisterMapVersion ≤ gateware.interfaceVersion := by
      simp [MapSuffices, carried]
    have misjudged_iff : MapMisjudged manifest input ↔
        (0 < manifest.compatibility.minimumRegisterMapVersion ∧
          input.device.gatewarePresent = true ∧
          input.device.registerMapVersion < manifest.compatibility.minimumRegisterMapVersion ∧
          manifest.compatibility.minimumRegisterMapVersion ≤ gateware.interfaceVersion) ∨
        (gateware.interfaceVersion < manifest.compatibility.minimumRegisterMapVersion ∧
          (input.device.gatewarePresent = true →
            manifest.compatibility.minimumRegisterMapVersion ≤
              input.device.registerMapVersion)) := by
      constructor
      · rintro (⟨same, asked, answered, older, enough⟩ | ⟨same, short, overlooked⟩ | ⟨other, -, -, -⟩)
        · obtain rfl := Option.some.inj (carried.symm.trans same)
          exact .inl ⟨asked, answered, older, enough⟩
        · obtain rfl := Option.some.inj (carried.symm.trans same)
          exact .inr ⟨short, overlooked⟩
        · simp [carried] at other
      · rintro (⟨asked, answered, older, enough⟩ | ⟨short, overlooked⟩)
        · exact .outdatedNow carried asked answered older enough
        · exact .outdatedAfterwards carried short overlooked
    rw [suffices_iff, misjudged_iff]
    simp only [registerMapVersionMinimum] at supported
    cases input.device.gatewarePresent <;> simp
    omega

theorem newer_iff {manifest : UpdateManifest} (current : updateManifestVersion ≤ manifest.manifestVersion) :
    manifest.manifestVersion ≠ updateManifestVersion ∨ NewerPayload manifest ↔ Newer manifest := by
  simp only [Newer, NewerPayload]
  refine or_congr ?_ Iff.rfl
  omega

/-- What is installable is allowed, and what is too new is reported so, exactly where the
device's map of today says the same as its map of tomorrow and no schema is too old. -/
theorem gate_exact_iff (manifest : UpdateManifest) (input : UpdateGateInput) :
    (((checkUpdateGate manifest input).verdict = .allowed ↔
        Installable manifest input ∧ MapSuffices manifest input) ∧
      (Able manifest input →
        ((checkUpdateGate manifest input).verdict = .applicationTooOld ↔ Newer manifest))) ↔
      WellJudged manifest input := by
  have allowed : ((checkUpdateGate manifest input).verdict = .allowed ↔
      Installable manifest input ∧ MapSuffices manifest input) ↔
      (Installable manifest input → ¬MapMisjudged manifest input) := by
    rw [allowed_iff, examined_iff]
    by_cases installable : Installable manifest input
    · simpa only [installable, true_and, true_imp_iff] using map_iff installable
    · simp [installable]
  have tooOld : (Able manifest input →
      ((checkUpdateGate manifest input).verdict = .applicationTooOld ↔ Newer manifest)) ↔
      (Able manifest input → manifest.manifestVersion < updateManifestVersion →
        Newer manifest) := by
    refine imp_congr_right fun able => ?_
    rw [tooOld_iff able]
    by_cases current : updateManifestVersion ≤ manifest.manifestVersion
    · simp [newer_iff current, Int.not_lt.mpr current]
    · have other : manifest.manifestVersion ≠ updateManifestVersion := by omega
      simp [other, Int.not_le.mp current]
  rw [allowed, tooOld]
  constructor
  · rintro ⟨map, schema⟩
    exact ⟨map, schema⟩
  · rintro ⟨map, schema⟩
    exact ⟨map, schema⟩

/-- The bundle that would bring both halves of an old device up to date. -/
def bothHalves : UpdateManifest where
  manifestVersion := 1
  channel := .release
  version := text "1.0"
  commit := text "a1b2c3d4"
  created := text "2026-01-01T00:00:00Z"
  releaseNotes := text "Both halves"
  firmware := some ⟨text "firmware.img", 0, 0, text "a1b2c3d4", 1⟩
  gateware := some ⟨text "gateware-app.rpd", 0, 0, text "a1b2c3d4", 2⟩
  provisioning := none
  factoryGateware := none
  compatibility := ⟨text "0.0.0", 2, 1⟩

/-- A running device whose gateware is one register map behind. -/
def outdatedDevice : UpdateGateInput := ⟨⟨true, 1⟩, true, .application⟩

theorem both_halves_refused :
    (checkUpdateGate bothHalves outdatedDevice).reasons =
        ["The firmware in this update needs newer gateware than this device has. Install an update that carries both."] ∧
      ¬((checkUpdateGate bothHalves outdatedDevice).verdict = .allowed ↔
        Installable bothHalves outdatedDevice ∧ MapSuffices bothHalves outdatedDevice) := by
  constructor
  · rfl
  · have installable : Installable bothHalves outdatedDevice := by
      refine ⟨rfl, .inl rfl, ⟨rfl, by decide, nofun, fun _ _ => rfl⟩, ?_, ?_, fun _ => by decide⟩
      · rintro c ⟨⟩
        decide
      · rintro c ⟨⟩
        decide
    have refused : (checkUpdateGate bothHalves outdatedDevice).verdict = .incompatible := rfl
    have suffices_map : MapSuffices bothHalves outdatedDevice := Int.le_refl 2
    simp [refused, installable, suffices_map]

end UpdateGate
