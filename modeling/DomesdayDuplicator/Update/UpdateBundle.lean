import DomesdayDuplicator.Update.ArchiveWalk
import DomesdayDuplicator.Update.ManifestReader
import DomesdayDuplicator.Update.Minisign

/-!
# Opening a bundle

From the archive's bytes to what may be installed: the signature before the manifest is
read, every payload against what the manifest says of it. Two bundles with one manifest
are compared, whatever else their archives hold.
-/

namespace Bundle

open UstarArchive ArchiveWalk Manifest ManifestReader Minisign
open UpdateProtocol (Digest)

def kManifestEntryName : Text := text "manifest.json"
def kSignatureEntryName : Text := text "manifest.minisig"

/-- What the application is linked with: the curve, the digest and the JSON parser, which
gives a document or where and why it stopped. -/
structure Environment where
  crypto : Crypto
  sha256 : List Byte → Digest
  parseJson : Text → Except (Text × Nat) JsonValue

/-- An opened bundle; a payload the manifest does not declare is left at `none`. -/
structure UpdateBundle where
  manifest : UpdateManifest
  trustedComment : Text
  firmware : Option Span
  gateware : Option Span
  provisioning : Option Span
  factoryGateware : Option Span

variable (env : Environment)

def parseUpdateManifest (contents : Text) : Validation.Checked Text UpdateManifest :=
  match env.parseJson contents with
  | .error (message, offset) => Validation.refuse
      (text "the manifest is not valid JSON: " ++ message ++ text " at byte " ++ decimalText offset)
  | .ok document => readManifest document

def checkComponent (archive : List Byte) (entries : List BundleEntry)
    (component : UpdateComponent) (label : Text) : Except Text Span :=
  match findEntry entries component.file with
  | none => .error (text "the manifest names a " ++ label ++
      text " payload the bundle does not contain")
  | some entry =>
    if entry.data.size ≠ component.length then
      .error (text "the " ++ label ++ text " payload is not the length the manifest states")
    else if env.sha256 (entry.data.bytes archive) ≠ component.sha256 then
      .error (text "the " ++ label ++
        text " payload does not match the digest the manifest states")
    else .ok entry.data

/-- A component that is not declared needs no payload. -/
def checkDeclared (archive : List Byte) (entries : List BundleEntry)
    (component : Option UpdateComponent) (label : Text) : Except Text (Option Span) :=
  match component with
  | none => .ok none
  | some component => (checkComponent env archive entries component label).map some

def describe (what : Text) : Except Text α → Except Text α
  | .ok value => .ok value
  | .error reason => .error (what ++ reason)

/-- What follows once the manifest has been read. -/
def collect (archive : List Byte) (entries : List BundleEntry) (trustedComment : Text)
    (manifest : UpdateManifest) : Except Text UpdateBundle := do
  let firmware ← checkDeclared env archive entries manifest.firmware (text "firmware")
  let gateware ← checkDeclared env archive entries manifest.gateware (text "gateware")
  let provisioning ← checkDeclared env archive entries manifest.provisioning
    (text "provisioning gateware")
  let factoryGateware ← checkDeclared env archive entries manifest.factoryGateware
    (text "factory gateware")
  return ⟨manifest, trustedComment, firmware, gateware, provisioning, factoryGateware⟩

/-- The manifest's own message where it has one. -/
def manifestRefused : List Text → Text
  | [] => text "the bundle's manifest could not be read"
  | reason :: _ => text "the bundle's manifest could not be read: " ++ reason

def openEntries (key : MinisignPublicKey) (archive : List Byte) (entries : List BundleEntry) :
    Except Text UpdateBundle :=
  match entries with
  | [] => .error (text "the archive contains no entries")
  | manifestEntry :: _ =>
    if manifestEntry.name ≠ kManifestEntryName then
      .error (text "the first entry in the bundle is not " ++ kManifestEntryName)
    else
      match findEntry entries kSignatureEntryName with
      | none => .error (text "the bundle carries no " ++ kSignatureEntryName)
      | some signatureEntry => do
        let signature ← describe (text "the bundle's signature is malformed: ")
          (parseMinisignSignature (signatureEntry.data.bytes archive))
        describe (text "the bundle is not signed by a key this build accepts: ")
          (verifyMinisign env.crypto (manifestEntry.data.bytes archive) signature key)
        match parseUpdateManifest env (manifestEntry.data.bytes archive) with
        | .error reasons => .error (manifestRefused reasons)
        | .ok manifest => collect env archive entries signature.trustedComment manifest

/-- The archive's entries, with the turns the walk through it needs at most. -/
def archiveEntries (archive : List Byte) : Except Text (List BundleEntry) :=
  match readUstarArchive (archive.length / kBlockSize + 1) archive with
  | some (.ok entries) => .ok entries
  | some (.error reason) => .error (text reason)
  | none => .error []

def openUpdateBundle (key : MinisignPublicKey) (archive : List Byte) : Except Text UpdateBundle :=
  (archiveEntries archive).bind (openEntries env key archive)

/-! ## What an opened bundle is made of -/

variable {env}

/-- The declared components, each with its payload. -/
def UpdateBundle.parts (bundle : UpdateBundle) : List (Option UpdateComponent × Option Span) :=
  [(bundle.manifest.firmware, bundle.firmware), (bundle.manifest.gateware, bundle.gateware),
    (bundle.manifest.provisioning, bundle.provisioning),
    (bundle.manifest.factoryGateware, bundle.factoryGateware)]

def archiveFiles (archive : List Byte) : List File :=
  match archiveEntries archive with
  | .ok entries => entries.map (contents archive)
  | .error _ => []

def manifestBytes (archive : List Byte) : Option (List Byte) := (archiveFiles archive).head?.map File.data

/-- A payload is the file the component names. -/
structure Taken (env : Environment) (archive : List Byte) (entries : List BundleEntry)
    (component : UpdateComponent) (payload : Span) : Prop where
  named : ∃ entry ∈ entries, entry.name = component.file ∧ entry.data = payload
  length : payload.size = component.length
  digest : env.sha256 (payload.bytes archive) = component.sha256

theorem checkComponent_ok {archive : List Byte} {entries : List BundleEntry}
    {component : UpdateComponent} {label : Text} {payload : Span}
    (passed : checkComponent env archive entries component label = .ok payload) :
    Taken env archive entries component payload := by
  rw [checkComponent] at passed
  split at passed
  · cases passed
  rename_i entry found
  split at passed
  · cases passed
  rename_i length
  split at passed
  · cases passed
  rename_i digest
  obtain rfl := Except.ok.inj passed
  refine ⟨⟨entry, List.mem_of_find?_eq_some found, ?_, rfl⟩, not_not.mp length, not_not.mp digest⟩
  simpa using List.find?_some found

theorem checkDeclared_ok {archive : List Byte} {entries : List BundleEntry}
    {component : Option UpdateComponent} {label : Text} {payload : Option Span}
    (passed : checkDeclared env archive entries component label = .ok payload) :
    Option.Rel (Taken env archive entries) component payload := by
  cases component with
  | none =>
    obtain rfl := Except.ok.inj passed
    exact .none
  | some component =>
    simp only [checkDeclared] at passed
    cases checked : checkComponent env archive entries component label with
    | error reason =>
      rw [checked] at passed
      cases passed
    | ok span =>
      rw [checked] at passed
      obtain rfl := Except.ok.inj passed
      exact .some (checkComponent_ok checked)

theorem bind_ok {first : Except Text α} {next : α → Except Text β} {result : β}
    (passed : first.bind next = .ok result) : ∃ value, first = .ok value ∧ next value = .ok result := by
  cases first with
  | error reason => cases passed
  | ok value => exact ⟨value, rfl, passed⟩

theorem collect_ok {archive : List Byte} {entries : List BundleEntry} {trustedComment : Text}
    {manifest : UpdateManifest} {bundle : UpdateBundle}
    (passed : collect env archive entries trustedComment manifest = .ok bundle) :
    bundle.manifest = manifest ∧ ∀ part ∈ bundle.parts,
      Option.Rel (Taken env archive entries) part.1 part.2 := by
  obtain ⟨firmware, one, passed⟩ := bind_ok passed
  obtain ⟨gateware, two, passed⟩ := bind_ok passed
  obtain ⟨provisioning, three, passed⟩ := bind_ok passed
  obtain ⟨factoryGateware, four, passed⟩ := bind_ok passed
  obtain rfl := Except.ok.inj passed
  refine ⟨rfl, ?_⟩
  simp only [UpdateBundle.parts, List.forall_mem_cons, List.not_mem_nil, false_imp_iff,
    implies_true, and_true]
  exact ⟨checkDeclared_ok one, checkDeclared_ok two, checkDeclared_ok three,
    checkDeclared_ok four⟩

/-- What has been checked of a bundle that opens. -/
structure Opened (env : Environment) (key : MinisignPublicKey) (archive : List Byte)
    (bundle : UpdateBundle) (entries : List BundleEntry) : Prop where
  read : archiveEntries archive = .ok entries
  first : ∃ head, (entries.map (contents archive)).head? = some ⟨kManifestEntryName, head⟩ ∧
    (∃ signature, verifyMinisign env.crypto head signature key = .ok ()) ∧
    parseUpdateManifest env head = .ok bundle.manifest
  payloads : ∀ part ∈ bundle.parts, Option.Rel (Taken env archive entries) part.1 part.2

theorem describe_ok {what : Text} {check : Except Text α} {value : α}
    (passed : describe what check = .ok value) : check = .ok value := by
  cases check with
  | error reason => cases passed
  | ok _ => exact passed

theorem openEntries_ok {key : MinisignPublicKey} {archive : List Byte}
    {entries : List BundleEntry} {bundle : UpdateBundle}
    (passed : openEntries env key archive entries = .ok bundle) :
    (∃ head, (entries.map (contents archive)).head? = some ⟨kManifestEntryName, head⟩ ∧
      (∃ signature, verifyMinisign env.crypto head signature key = .ok ()) ∧
      parseUpdateManifest env head = .ok bundle.manifest) ∧
    ∀ part ∈ bundle.parts, Option.Rel (Taken env archive entries) part.1 part.2 := by
  cases entries with
  | nil => cases passed
  | cons manifestEntry rest =>
    rw [openEntries] at passed
    split at passed
    · cases passed
    rename_i named
    split at passed
    · cases passed
    obtain ⟨signature, -, passed⟩ := bind_ok passed
    obtain ⟨⟨⟩, verified, passed⟩ := bind_ok passed
    cases parsed : parseUpdateManifest env (manifestEntry.data.bytes archive) with
    | error reasons =>
      rw [parsed] at passed
      cases passed
    | ok manifest =>
      rw [parsed] at passed
      obtain ⟨rfl, payloads⟩ := collect_ok passed
      exact ⟨⟨manifestEntry.data.bytes archive, by simp [contents, not_not.mp named],
        ⟨signature, describe_ok verified⟩, parsed⟩, payloads⟩

theorem opened {key : MinisignPublicKey} {archive : List Byte} {bundle : UpdateBundle}
    (passed : openUpdateBundle env key archive = .ok bundle) :
    ∃ entries, Opened env key archive bundle entries := by
  obtain ⟨entries, read, passed⟩ := bind_ok passed
  obtain ⟨first, payloads⟩ := openEntries_ok passed
  exact ⟨entries, read, first, payloads⟩

/-! ## What is installed -/

/-- The manifest and the payloads' bytes. -/
def installed (archive : List Byte) (bundle : UpdateBundle) :
    UpdateManifest × List (Option (List Byte)) :=
  (bundle.manifest, bundle.parts.map fun part => part.2.map (Span.bytes archive))

/-- A declared payload has the length and the digest the manifest states. -/
structure Matches (env : Environment) (archive : List Byte) (component : UpdateComponent)
    (payload : Span) : Prop where
  length : (payload.bytes archive).length = component.length
  digest : env.sha256 (payload.bytes archive) = component.sha256

/-- No two files of these archives have one digest and different bytes. -/
def CollisionFree (env : Environment) (a b : List Byte) : Prop :=
  ∀ one ∈ archiveFiles a, ∀ other ∈ archiveFiles b,
    env.sha256 one.data = env.sha256 other.data → one.data = other.data

theorem read_wellFormed {archive : List Byte} {entries : List BundleEntry}
    (fits : Addressable archive) (read : archiveEntries archive = .ok entries) :
    WellFormed archive entries := by
  simp only [archiveEntries] at read
  split at read
  · obtain rfl := Except.ok.inj read
    exact accepted_wellFormed fits ‹_›
  · cases read
  · cases read

theorem archiveFiles_eq {archive : List Byte} {entries : List BundleEntry}
    (read : archiveEntries archive = .ok entries) :
    archiveFiles archive = entries.map (contents archive) := by
  simp only [archiveFiles, read]

theorem archiveFiles_distinct {archive : List Byte} {entries : List BundleEntry}
    (fits : Addressable archive) (read : archiveEntries archive = .ok entries) :
    ((archiveFiles archive).map File.name).Nodup := by
  rw [archiveFiles_eq read, List.map_map]
  exact (read_wellFormed fits read).distinct

theorem Taken.file {archive : List Byte} {entries : List BundleEntry}
    {component : UpdateComponent} {payload : Span} (read : archiveEntries archive = .ok entries)
    (taken : Taken env archive entries component payload) :
    ⟨component.file, payload.bytes archive⟩ ∈ archiveFiles archive := by
  obtain ⟨entry, member, named, rfl⟩ := taken.named
  rw [archiveFiles_eq read, ← named]
  exact List.mem_map_of_mem member

theorem Taken.matches {archive : List Byte} {entries : List BundleEntry}
    {component : UpdateComponent} {payload : Span} (fits : Addressable archive)
    (read : archiveEntries archive = .ok entries)
    (taken : Taken env archive entries component payload) :
    Matches env archive component payload := by
  obtain ⟨entry, member, -, rfl⟩ := taken.named
  have inside := (read_wellFormed fits read).inside entry member
  exact ⟨(ByteFields.length_field inside).trans taken.length, taken.digest⟩

theorem Opened.manifestBytes {key : MinisignPublicKey} {archive : List Byte}
    {bundle : UpdateBundle} {entries : List BundleEntry}
    (opened : Opened env key archive bundle entries) :
    ∃ head, Bundle.manifestBytes archive = some head ∧
      ⟨kManifestEntryName, head⟩ ∈ archiveFiles archive ∧
      parseUpdateManifest env head = .ok bundle.manifest := by
  obtain ⟨head, first, -, parsed⟩ := opened.first
  rw [← archiveFiles_eq opened.read] at first
  exact ⟨head, by simp [Bundle.manifestBytes, first], List.mem_of_head? first, parsed⟩

theorem payload_eq {a b : List Byte} {ours theirs : List BundleEntry}
    (agree : ∀ component one other, Taken env a ours component one →
      Taken env b theirs component other → one.bytes a = other.bytes b)
    {component : Option UpdateComponent} {one other : Option Span}
    (first : Option.Rel (Taken env a ours) component one)
    (second : Option.Rel (Taken env b theirs) component other) :
    one.map (Span.bytes a) = other.map (Span.bytes b) := by
  cases first with
  | none =>
    cases second
    rfl
  | some taken =>
    cases second with
    | some taken' => exact congrArg some (agree _ _ _ taken taken')

theorem installed_eq {key : MinisignPublicKey} {a b : List Byte} {x y : UpdateBundle}
    {ours theirs : List BundleEntry} (first : Opened env key a x ours)
    (second : Opened env key b y theirs) (same : manifestBytes a = manifestBytes b)
    (agree : ∀ component one other, Taken env a ours component one →
      Taken env b theirs component other → one.bytes a = other.bytes b) :
    installed a x = installed b y := by
  obtain ⟨head, bytes, -, parsed⟩ := first.manifestBytes
  obtain ⟨head', bytes', -, parsed'⟩ := second.manifestBytes
  obtain rfl : head = head' := Option.some.inj (bytes.symm.trans (same.trans bytes'))
  have manifest : x.manifest = y.manifest := Except.ok.inj (parsed.symm.trans parsed')
  have ours_taken := first.payloads
  have theirs_taken := second.payloads
  simp only [UpdateBundle.parts, List.forall_mem_cons, manifest] at ours_taken theirs_taken
  obtain ⟨f, g, p, q, -⟩ := ours_taken
  obtain ⟨f', g', p', q', -⟩ := theirs_taken
  simp only [installed, UpdateBundle.parts, List.map_cons, List.map_nil, manifest,
    payload_eq agree f f', payload_eq agree g g', payload_eq agree p p', payload_eq agree q q']

/-! ## What opens -/

theorem findEntry_of_file {archive : List Byte} {entries : List BundleEntry} {name : Text}
    {data : List Byte} (fits : Addressable archive) (read : archiveEntries archive = .ok entries)
    (file : ⟨name, data⟩ ∈ archiveFiles archive) :
    ∃ entry, findEntry entries name = some entry ∧ entry.data.bytes archive = data ∧
      entry.data.size = data.length := by
  rw [archiveFiles_eq read] at file
  obtain ⟨entry, member, same⟩ := List.mem_map.mp file
  obtain ⟨rfl, rfl⟩ := File.mk.inj same
  have wellFormed := read_wellFormed fits read
  have length := ByteFields.length_field (wellFormed.inside entry member)
  cases found : findEntry entries entry.name with
  | none => exact absurd (List.mem_map_of_mem member) (findEntry_eq_none.mp found)
  | some other =>
    have named : other.name = entry.name := by simpa using List.find?_some found
    have same := List.inj_on_of_nodup_map wellFormed.distinct
      (List.mem_of_find?_eq_some found) member named
    exact ⟨other, rfl, by rw [same], by rw [same]; exact length.symm⟩

/-- The archive holds what the manifest says of a component. -/
def Carried (env : Environment) (archive : List Byte) (component : Option UpdateComponent) : Prop :=
  ∀ c ∈ component, ∃ data, ⟨c.file, data⟩ ∈ archiveFiles archive ∧ data.length = c.length ∧
    env.sha256 data = c.sha256

theorem checkDeclared_carried {archive : List Byte} {entries : List BundleEntry}
    {component : Option UpdateComponent} (fits : Addressable archive)
    (read : archiveEntries archive = .ok entries) (carried : Carried env archive component)
    (label : Text) : ∃ payload, checkDeclared env archive entries component label = .ok payload := by
  cases component with
  | none => exact ⟨none, rfl⟩
  | some component =>
    obtain ⟨data, file, length, digest⟩ := carried component rfl
    obtain ⟨entry, found, rfl, size⟩ := findEntry_of_file fits read file
    refine ⟨some entry.data, ?_⟩
    simp [checkDeclared, checkComponent, found, size, length, digest, Except.map]

/-- A signed manifest with everything it declares beside it is enough. -/
theorem opens {key : MinisignPublicKey} {archive : List Byte} {entries : List BundleEntry}
    {head signed : List Byte} {signature : MinisignSignature} {manifest : UpdateManifest}
    (fits : Addressable archive) (read : archiveEntries archive = .ok entries)
    (first : (archiveFiles archive).head? = some ⟨kManifestEntryName, head⟩)
    (beside : ⟨kSignatureEntryName, signed⟩ ∈ archiveFiles archive)
    (wellFormed : parseMinisignSignature signed = .ok signature)
    (verified : verifyMinisign env.crypto head signature key = .ok ())
    (parsed : parseUpdateManifest env head = .ok manifest)
    (firmware : Carried env archive manifest.firmware)
    (gateware : Carried env archive manifest.gateware)
    (provisioning : Carried env archive manifest.provisioning)
    (factoryGateware : Carried env archive manifest.factoryGateware) :
    ∃ bundle, openUpdateBundle env key archive = .ok bundle := by
  obtain ⟨f, one⟩ := checkDeclared_carried fits read firmware (text "firmware")
  obtain ⟨g, two⟩ := checkDeclared_carried fits read gateware (text "gateware")
  obtain ⟨p, three⟩ := checkDeclared_carried fits read provisioning (text "provisioning gateware")
  obtain ⟨q, four⟩ := checkDeclared_carried fits read factoryGateware (text "factory gateware")
  obtain ⟨signatureEntry, found, bytes, -⟩ := findEntry_of_file fits read beside
  rw [archiveFiles_eq read] at first
  cases entries with
  | nil => simp at first
  | cons manifestEntry rest =>
    have head_eq : contents archive manifestEntry = ⟨kManifestEntryName, head⟩ := by
      simpa using first
    obtain ⟨named, rfl⟩ := File.mk.inj head_eq
    refine ⟨⟨manifest, signature.trustedComment, f, g, p, q⟩, ?_⟩
    simp only [openUpdateBundle, read, Except.bind, openEntries, named, not_true_eq_false,
      if_false, found, bytes, wellFormed, verified, parsed, describe, collect, one, two, three,
      four, bind, pure, Except.pure, ne_eq]

/-! ## Determination -/

/-- What a bundle installs is said by its manifest: under one manifest, or with the same
files among those of the archive, nothing else of the archive changes it. -/
theorem bundle_determined (env : Environment) (key : MinisignPublicKey) :
    (∀ a b x y, Addressable a → Addressable b →
      openUpdateBundle env key a = .ok x → openUpdateBundle env key b = .ok y →
      manifestBytes a = manifestBytes b → CollisionFree env a b →
        installed a x = installed b y) ∧
    (∀ a x, Addressable a → openUpdateBundle env key a = .ok x →
      ∀ part ∈ x.parts, Option.Rel (Matches env a) part.1 part.2) ∧
    ∀ a b x y, Addressable a → Addressable b →
      openUpdateBundle env key a = .ok x → openUpdateBundle env key b = .ok y →
      (∀ file ∈ archiveFiles a, file ∈ archiveFiles b) → installed a x = installed b y := by
  refine ⟨?_, ?_, ?_⟩
  · intro a b x y _ _ first second same free
    obtain ⟨ours, first⟩ := opened first
    obtain ⟨theirs, second⟩ := opened second
    refine installed_eq first second same fun component one other taken taken' => ?_
    exact free _ (taken.file first.read) _ (taken'.file second.read)
      (taken.digest.trans taken'.digest.symm)
  · intro a x fits first part member
    obtain ⟨entries, first⟩ := opened first
    obtain ⟨component, payload⟩ := part
    have taken : Option.Rel (Taken env a entries) component payload := first.payloads _ member
    cases taken with
    | none => exact .none
    | some taken => exact .some (taken.matches fits first.read)
  · intro a b x y _ fits first second included
    obtain ⟨ours, first⟩ := opened first
    obtain ⟨theirs, second⟩ := opened second
    have unique : ∀ name data data', File.mk name data ∈ archiveFiles b →
        File.mk name data' ∈ archiveFiles b → data = data' := by
      intro name data data' here there
      have same := List.inj_on_of_nodup_map (archiveFiles_distinct fits second.read) here there rfl
      exact congrArg File.data same
    obtain ⟨head, bytes, member, -⟩ := first.manifestBytes
    obtain ⟨head', bytes', member', -⟩ := second.manifestBytes
    have same : manifestBytes a = manifestBytes b := by
      rw [bytes, bytes', unique _ _ _ (included _ member) member']
    refine installed_eq first second same fun component one other taken taken' => ?_
    exact unique _ _ _ (included _ (taken.file first.read)) (taken'.file second.read)

/-- A manifest for a firmware of one byte. -/
def sampleManifest : Text := text
  "\x7b\"manifest_version\": 1, \"channel\": \"release\", \"version\": \"1.0\", \"commit\": \"a1b2c3d4\", \"created\": \"2026-01-01\", \"release_notes\": \"One byte\", \"components\": \x7b\"firmware\": \x7b\"file\": \"firmware.img\", \"length\": 1, \"sha256\": \"ca358758f6d27e6cf45272937977a748fd88391db679ceda7dc7bf1f005ee879\", \"identity\": \"a1b2c3d4\", \"interface_version\": 1\x7d\x7d, \"compatibility\": \x7b\"minimum_application_version\": \"0.0.0\", \"minimum_register_map_version\": 0, \"epcs_layout_version\": 0\x7d\x7d"

def sampleDocument : JsonValue := .object
  [(text "manifest_version", .number (text "1")), (text "channel", .string (text "release")),
    (text "version", .string (text "1.0")), (text "commit", .string (text "a1b2c3d4")),
    (text "created", .string (text "2026-01-01")),
    (text "release_notes", .string (text "One byte")),
    (text "components", .object [(text "firmware", .object
      [(text "file", .string (text "firmware.img")), (text "length", .number (text "1")),
        (text "sha256", .string (text
          "ca358758f6d27e6cf45272937977a748fd88391db679ceda7dc7bf1f005ee879")),
        (text "identity", .string (text "a1b2c3d4")),
        (text "interface_version", .number (text "1"))])]),
    (text "compatibility", .object
      [(text "minimum_application_version", .string (text "0.0.0")),
        (text "minimum_register_map_version", .number (text "0")),
        (text "epcs_layout_version", .number (text "0"))])]

def sampleSignature : Text := text
  "untrusted comment: signature\nRUQBAgMEBQYHCKjnYPnzYnTsDmRUduLS0FNl6AG74wa7P43OQI2QH9NdS2K13eGQVDrcQ1do4QXvqrvtVBY0m72M6w4hDImVpQs=\ntrusted comment: one byte\nr5nqv08791jxw9cFPIo7eQwlFsSdLr71Qfxv/Gut37TSFBIHRssrwBfEQxui98PDKHLIi9aMtXMOM7g4kcXhCw==\n"

def sampleDigest : Digest := ⟨#[0xca, 0x35, 0x87, 0x58, 0xf6, 0xd2, 0x7e, 0x6c, 0xf4, 0x52, 0x72, 0x93, 0x79, 0x77, 0xa7, 0x48, 0xfd, 0x88, 0x39, 0x1d, 0xb6, 0x79, 0xce, 0xda, 0x7d, 0xc7, 0xbf, 0x1f, 0x00, 0x5e, 0xe8, 0x79], rfl⟩

def sampleEnvironment : Environment where
  crypto := ⟨id, fun signature _ _ => signature.length == 64⟩
  sha256 data := if data = [7] then sampleDigest else Vector.ofFn fun i => data.getD i 0
  parseJson contents :=
    if contents = sampleManifest then .ok sampleDocument else .error (text "unexpected character", 0)

def sampleKey : MinisignPublicKey := ⟨[1, 2, 3, 4, 5, 6, 7, 8], [3, 161, 7, 191, 243, 206, 16, 190, 29, 112, 221, 24, 231, 75, 192, 153, 103, 228, 214, 48, 155, 165, 13, 95, 29, 220, 134, 100, 18, 85, 49, 184]⟩

def sampleFiles : List File :=
  [⟨kManifestEntryName, sampleManifest⟩, ⟨kSignatureEntryName, sampleSignature⟩,
    ⟨text "firmware.img", [7]⟩]

/-- The same files in another order, with one more among them. -/
def shuffledFiles : List File :=
  [⟨kManifestEntryName, sampleManifest⟩, ⟨text "firmware.img", [7]⟩, ⟨text "README", [9, 9]⟩,
    ⟨kSignatureEntryName, sampleSignature⟩]

/-- What the sample manifest says. -/
def sampleRead : UpdateManifest where
  manifestVersion := 1
  channel := .release
  version := text "1.0"
  commit := text "a1b2c3d4"
  created := text "2026-01-01"
  releaseNotes := text "One byte"
  firmware := some ⟨text "firmware.img", 1, sampleDigest, text "a1b2c3d4", 1⟩
  gateware := none
  provisioning := none
  factoryGateware := none
  compatibility := ⟨text "0.0.0", 0, 0⟩

theorem sample_parsed : parseUpdateManifest sampleEnvironment sampleManifest = .ok sampleRead := by
  have document : sampleEnvironment.parseJson sampleManifest = .ok sampleDocument := by
    simp only [sampleEnvironment, if_true]
  simp only [parseUpdateManifest, document]
  decide +kernel

theorem sample_signed : ∃ signature, parseMinisignSignature sampleSignature = .ok signature ∧
    ∀ contents, verifyMinisign sampleEnvironment.crypto contents signature sampleKey = .ok () := by
  have checked : ((parseMinisignSignature sampleSignature).bind fun signature =>
      verifyMinisign sampleEnvironment.crypto [] signature sampleKey) = .ok () := by
    rw [sampleSignature, show text _ = _ from text_ofList _]
    decide +kernel
  cases parsed : parseMinisignSignature sampleSignature with
  | error reason =>
    rw [parsed] at checked
    cases checked
  | ok signature =>
    rw [parsed] at checked
    exact ⟨signature, rfl, fun _ => checked⟩

/-- A written archive is read back. -/
theorem written_read {files : List File} (storable : ∀ file ∈ files, Storable file)
    (distinct : (files.map File.name).Nodup) (some_file : files ≠ [])
    (few : files.length < 2 ^ 32) :
    Addressable (writeArchive files) ∧ ∃ entries,
      archiveEntries (writeArchive files) = .ok entries ∧
        archiveFiles (writeArchive files) = files := by
  have fits := addressable_writeArchive storable few
  obtain ⟨entries, read, same⟩ := read_writeArchive some_file storable distinct fits
    (Nat.lt_succ_self _)
  have entries_read : archiveEntries (writeArchive files) = .ok entries := by
    simp only [archiveEntries, read]
  exact ⟨fits, entries, entries_read, (archiveFiles_eq entries_read).trans same⟩

/-- An archive of these files opens. -/
theorem sample_opens {files : List File} (storable : ∀ file ∈ files, Storable file)
    (distinct : (files.map File.name).Nodup)
    (head : files.head? = some ⟨kManifestEntryName, sampleManifest⟩)
    (beside : ⟨kSignatureEntryName, sampleSignature⟩ ∈ files)
    (firmware : ⟨text "firmware.img", [7]⟩ ∈ files) (few : files.length < 2 ^ 32) :
    Addressable (writeArchive files) ∧ archiveFiles (writeArchive files) = files ∧
      ∃ bundle, openUpdateBundle sampleEnvironment sampleKey (writeArchive files) = .ok bundle := by
  have some_file : files ≠ [] := by
    rintro rfl
    simp at head
  obtain ⟨fits, entries, entries_read, files_eq⟩ := written_read storable distinct some_file few
  obtain ⟨signature, wellFormed, verified⟩ := sample_signed
  refine ⟨fits, files_eq, opens fits entries_read (by rw [files_eq, head]) (by rwa [files_eq])
    wellFormed (verified _) sample_parsed ?_ nofun nofun nofun⟩
  rintro component ⟨⟩
  refine ⟨[7], by rwa [files_eq], rfl, ?_⟩
  simp [sampleEnvironment]

theorem sample_storable : ∀ file ∈ shuffledFiles, Storable file := by
  have names : ∀ name ∈ shuffledFiles.map File.name, name ≠ [] ∧ slash ∉ name ∧
      (0 : Byte) ∉ name ∧ name.length ≤ kNameSize := by
    decide +kernel
  have manifest : sampleManifest.length ≤ kMaximumEntryBytes := by
    rw [sampleManifest, show text _ = _ from text_ofList _]
    decide +kernel
  have signature : sampleSignature.length ≤ kMaximumEntryBytes := by
    rw [sampleSignature, show text _ = _ from text_ofList _]
    decide +kernel
  have sizes : ∀ file ∈ shuffledFiles, file.data.length ≤ kMaximumEntryBytes := by
    simp only [shuffledFiles, List.forall_mem_cons, List.not_mem_nil, false_imp_iff,
      implies_true, and_true]
    exact ⟨manifest, by decide, by decide, signature⟩
  intro file member
  obtain ⟨named, bare, terminated, short⟩ := names file.name (List.mem_map_of_mem member)
  exact ⟨named, bare, terminated, short, sizes file member⟩

theorem sample_included : ∀ file ∈ sampleFiles, file ∈ shuffledFiles := by
  intro file member
  simp only [sampleFiles, List.mem_cons, List.not_mem_nil, or_false] at member
  rcases member with rfl | rfl | rfl <;> simp [shuffledFiles]

/-- The bundle of the sample files. -/
theorem sampleFiles_open : Addressable (writeArchive sampleFiles) ∧
    archiveFiles (writeArchive sampleFiles) = sampleFiles ∧ ∃ bundle,
      openUpdateBundle sampleEnvironment sampleKey (writeArchive sampleFiles) = .ok bundle :=
  sample_opens (fun file member => sample_storable file (sample_included file member))
    (by decide +kernel) rfl (by simp [sampleFiles]) (by simp [sampleFiles]) (by decide)

/-- One order of the files and another with a file added. -/
theorem shuffled_installs_the_same : ∃ x y,
    openUpdateBundle sampleEnvironment sampleKey (writeArchive sampleFiles) = .ok x ∧
      openUpdateBundle sampleEnvironment sampleKey (writeArchive shuffledFiles) = .ok y ∧
      installed (writeArchive sampleFiles) x = installed (writeArchive shuffledFiles) y ∧
      ∀ part ∈ x.parts, Option.Rel (Matches sampleEnvironment (writeArchive sampleFiles))
        part.1 part.2 := by
  obtain ⟨fits, files, x, opened⟩ := sampleFiles_open
  obtain ⟨fits', files', y, opened'⟩ := sample_opens sample_storable (by decide +kernel) rfl
    (by simp [shuffledFiles]) (by simp [shuffledFiles]) (by decide)
  have determined := bundle_determined sampleEnvironment sampleKey
  refine ⟨x, y, opened, opened', determined.right.right _ _ x y fits fits' opened opened' ?_,
    determined.right.left _ x fits opened⟩
  rw [files, files']
  exact sample_included

end Bundle
