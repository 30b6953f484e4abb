import DomesdayDuplicator.Update.ManifestReader

/-!
# The schema of a manifest

What a document has to declare, field by field, and that the reader takes a document for a
manifest exactly when it declares that manifest. Where a field is missing, mistyped, out of its
range or of a kind this build does not know, there is no manifest at all.
-/

namespace ManifestSchema

open Manifest ManifestReader Validation
open UpdateProtocol (Digest)

/-- A string member with something in it. -/
structure StringField (parent : JsonValue) (name contents : Text) : Prop where
  found : parent.find name = some (.string contents)
  filled : contents ≠ []

/-- A member that is a whole number an `int64_t` holds, and not negative. -/
structure IntegerField (parent : JsonValue) (name : Text) (n : Int) : Prop where
  found : ∃ lexeme, parent.find name = some (.number lexeme) ∧ fromChars lexeme = some n
  least : 0 ≤ n

/-- Sixty-four hexadecimal digits. -/
structure DigestField (parent : JsonValue) (digest : Digest) : Prop where
  found : ∃ hex, StringField parent (text "sha256") hex ∧ parseHexDigest hex = some digest

structure ComponentFields (value : JsonValue) (component : UpdateComponent) : Prop where
  object : ∃ members, value = .object members
  file : StringField value (text "file") component.file
  length : IntegerField value (text "length") component.length
  sha256 : DigestField value component.sha256
  identity : StringField value (text "identity") component.identity
  interfaceVersion : IntegerField value (text "interface_version") component.interfaceVersion

/-- A component that is declared in full, or not at all. -/
inductive Declared (components : JsonValue) (name : Text) : Option UpdateComponent → Prop where
  | absent (missing : components.find name = none) : Declared components name none
  | present {value : JsonValue} {component : UpdateComponent}
      (found : components.find name = some value) (fields : ComponentFields value component) :
      Declared components name (some component)

/-- Numbers with a dot between them. -/
def Dotted (version : Text) : Prop := (splitDottedVersion version).isSome

instance (version : Text) : Decidable (Dotted version) :=
  inferInstanceAs (Decidable ((splitDottedVersion version).isSome = true))

def channelName : UpdateChannel → Text
  | .release => text "release"
  | .development => text "development"

structure DeclaredComponents (document : JsonValue) (manifest : UpdateManifest) : Prop where
  declared : ∃ members, document.find (text "components") = some (.object members) ∧
    Declared (.object members) firmwareComponentName manifest.firmware ∧
    Declared (.object members) gatewareComponentName manifest.gateware ∧
    Declared (.object members) provisioningComponentName manifest.provisioning ∧
    Declared (.object members) factoryGatewareComponentName manifest.factoryGateware ∧
    ∀ member ∈ members, member.1 ∈ componentNames
  some : manifest.firmware.isSome ∨ manifest.gateware.isSome ∨ manifest.provisioning.isSome ∨
    manifest.factoryGateware.isSome

structure DeclaredCompatibility (document : JsonValue) (compatibility : UpdateCompatibility) :
    Prop where
  declared : ∃ members, document.find (text "compatibility") = some (.object members) ∧
    StringField (.object members) (text "minimum_application_version")
      compatibility.minimumApplicationVersion ∧
    IntegerField (.object members) (text "minimum_register_map_version")
      compatibility.minimumRegisterMapVersion ∧
    IntegerField (.object members) (text "epcs_layout_version") compatibility.epcsLayoutVersion
  dotted : Dotted compatibility.minimumApplicationVersion

/-- The document declares the manifest, all of it and nothing this build does not know. -/
structure Declares (document : JsonValue) (manifest : UpdateManifest) : Prop where
  object : ∃ members, document = .object members
  schema : IntegerField document (text "manifest_version") updateManifestVersion
  manifestVersion : manifest.manifestVersion = updateManifestVersion
  channel : StringField document (text "channel") (channelName manifest.channel)
  version : StringField document (text "version") manifest.version
  dotted : Dotted manifest.version
  commit : StringField document (text "commit") manifest.commit
  created : StringField document (text "created") manifest.created
  releaseNotes : StringField document (text "release_notes") manifest.releaseNotes
  components : DeclaredComponents document manifest
  compatibility : DeclaredCompatibility document manifest.compatibility

/-! ## Fields -/

theorem readString_ok {parent : JsonValue} {name place contents : Text} :
    readString parent name place = .ok contents ↔ StringField parent name contents := by
  constructor
  · intro read
    have filled := readString_ne read
    rw [readString] at read
    split at read
    · cases read
    rename_i value found
    split at read
    · cases read
    · cases read
    rename_i inside string
    obtain rfl := Except.ok.inj read
    cases value with
    | string value =>
      obtain rfl := Option.some.inj string
      exact ⟨found, filled⟩
    | _ => cases string
  · rintro ⟨found, filled⟩
    rw [readString, found]
    cases contents with
    | nil => exact absurd rfl filled
    | cons b contents => rfl

theorem readInteger_ok {parent : JsonValue} {name place : Text} {n : Int} :
    readInteger parent name place = .ok n ↔ IntegerField parent name n := by
  constructor
  · intro read
    rw [readInteger] at read
    split at read
    · cases read
    rename_i value found
    split at read
    · cases read
    rename_i number whole
    split at read
    · cases read
    rename_i least
    obtain rfl := Except.ok.inj read
    cases value with
    | number lexeme => exact ⟨⟨lexeme, found, whole⟩, Int.not_lt.mp least⟩
    | _ => cases whole
  · rintro ⟨⟨lexeme, found, whole⟩, least⟩
    rw [readInteger, found]
    simp only [JsonValue.asInteger, whole, if_neg (Int.not_lt.mpr least)]

theorem readDigest_ok {parent : JsonValue} {place : Text} {digest : Digest} :
    readDigest parent place = .ok digest ↔ DigestField parent digest := by
  constructor
  · intro read
    rw [readDigest] at read
    split at read
    · cases read
    rename_i hex string
    split at read
    · cases read
    rename_i digest' parsed
    obtain rfl := Except.ok.inj read
    exact ⟨hex, readString_ok.mp string, parsed⟩
  · rintro ⟨hex, string, parsed⟩
    rw [readDigest, readString_ok.mpr string]
    simp only [parsed]

theorem asObject_isNone {value : JsonValue} :
    value.asObject.isNone = false ↔ ∃ members, value = .object members := by
  cases value <;> simp [JsonValue.asObject]

theorem readComponent_ok {components : JsonValue} {name : Text}
    {component : Option UpdateComponent} :
    readComponent components name = .ok component ↔ Declared components name component := by
  constructor
  · intro read
    simp only [readComponent] at read
    split at read
    · rename_i none
      obtain rfl := Except.ok.inj read
      exact .absent none
    rename_i value found
    split at read
    · cases read
    rename_i object
    obtain ⟨_, interfaceVersion, next1, fifth, rfl⟩ := also_eq_ok.mp read
    obtain ⟨_, identity, next2, fourth, rfl⟩ := also_eq_ok.mp next1
    obtain ⟨_, sha256, next3, third, rfl⟩ := also_eq_ok.mp next2
    obtain ⟨_, length, next4, second, rfl⟩ := also_eq_ok.mp next3
    obtain ⟨_, file, next5, first, rfl⟩ := also_eq_ok.mp next4
    obtain rfl := Except.ok.inj next5
    have whole := readInteger_ok.mp second
    refine .present found ⟨asObject_isNone.mp (eq_false_of_ne_true object),
      readString_ok.mp first, ?_, readDigest_ok.mp third, readString_ok.mp fourth,
      readInteger_ok.mp fifth⟩
    rwa [Int.toNat_of_nonneg whole.least]
  · intro declared
    cases declared with
    | absent none => simp only [readComponent, none]
    | @present value component found fields =>
      have object := asObject_isNone.mpr fields.object
      simp only [readComponent, found, object, Bool.false_eq_true, if_false]
      rw [readString_ok.mpr fields.file, readInteger_ok.mpr fields.length,
        readDigest_ok.mpr fields.sha256, readString_ok.mpr fields.identity,
        readInteger_ok.mpr fields.interfaceVersion]
      rfl

theorem readChannel_ok {document : JsonValue} {channel : UpdateChannel} :
    readChannel document = .ok channel ↔
      StringField document (text "channel") (channelName channel) := by
  constructor
  · intro read
    rw [readChannel] at read
    split at read
    · cases read
    rename_i name string
    have field := readString_ok.mp string
    split at read
    · rename_i release
      obtain rfl := Except.ok.inj read
      rw [release] at field
      exact field
    split at read
    · rename_i development
      obtain rfl := Except.ok.inj read
      rw [development] at field
      exact field
    · cases read
  · intro field
    rw [readChannel, readString_ok.mpr field]
    cases channel with
    | release => rfl
    | development => rfl

theorem dotted_ok {version reason : Text} : dotted version reason = .ok () ↔ Dotted version := by
  rw [dotted, Dotted]
  cases splitDottedVersion version with
  | none => exact iff_of_false (by intro read; cases read) (by simp)
  | some parts => exact iff_of_true rfl rfl

theorem orEmpty_ok (contents : Text) : orEmpty (.ok contents) = contents := rfl

theorem knownComponents_ok {members : List (Text × JsonValue)} :
    knownComponents members = .ok () ↔ ∀ member ∈ members, member.1 ∈ componentNames := by
  rw [knownComponents]
  split
  · rename_i none
    refine iff_of_true rfl fun member among => ?_
    have kept := List.filter_eq_nil_iff.mp none member among
    simpa using kept
  · rename_i unknown some
    refine iff_of_false (by intro read; cases read) fun known => some ?_
    refine List.filter_eq_nil_iff.mpr fun member among => ?_
    simpa using known member among

theorem someComponent_ok {components : JsonValue} :
    someComponent components = .ok () ↔ ∃ name ∈ componentNames, (components.find name).isSome := by
  rw [someComponent]
  split
  · rename_i none
    refine iff_of_false (by intro read; cases read) ?_
    rintro ⟨name, listed, some⟩
    have missing := List.all_eq_true.mp none name listed
    rw [Option.isNone_iff_eq_none.mp missing] at some
    exact Bool.noConfusion some
  · rename_i some
    refine iff_of_true rfl ?_
    by_contra none
    refine some (List.all_eq_true.mpr fun name listed => ?_)
    by_contra present
    exact none ⟨name, listed, Option.ne_none_iff_isSome.mp (by simpa using present)⟩

theorem Declared.isSome_iff {components : JsonValue} {name : Text}
    {component : Option UpdateComponent} (declared : Declared components name component) :
    component.isSome ↔ (components.find name).isSome := by
  cases declared with
  | absent missing => simp [missing]
  | present found => simp [found]

theorem readComponents_ok {document : JsonValue} {components : Components} :
    readComponents document = .ok components ↔
      ∃ members, document.find (text "components") = some (.object members) ∧
        Declared (.object members) firmwareComponentName components.firmware ∧
        Declared (.object members) gatewareComponentName components.gateware ∧
        Declared (.object members) provisioningComponentName components.provisioning ∧
        Declared (.object members) factoryGatewareComponentName components.factoryGateware ∧
        (∀ member ∈ members, member.1 ∈ componentNames) ∧
        ∃ name ∈ componentNames, ((JsonValue.object members).find name).isSome := by
  constructor
  · intro read
    simp only [readComponents] at read
    split at read
    · cases read
    rename_i value found
    split at read
    · cases read
    rename_i members object
    obtain ⟨members', rfl⟩ := asObject_isNone.mp (by rw [object]; rfl)
    obtain rfl := Option.some.inj object
    obtain ⟨rest, _, some⟩ := alongside_eq_ok.mp read
    obtain ⟨rest, _, known⟩ := alongside_eq_ok.mp rest
    obtain ⟨_, factoryGateware, next1, fourth, rfl⟩ := also_eq_ok.mp rest
    obtain ⟨_, provisioning, next2, third, rfl⟩ := also_eq_ok.mp next1
    obtain ⟨_, gateware, next3, second, rfl⟩ := also_eq_ok.mp next2
    obtain ⟨_, firmware, next4, first, rfl⟩ := also_eq_ok.mp next3
    obtain rfl := Except.ok.inj next4
    exact ⟨members', found, readComponent_ok.mp first, readComponent_ok.mp second,
      readComponent_ok.mp third, readComponent_ok.mp fourth, knownComponents_ok.mp known,
      someComponent_ok.mp some⟩
  · rintro ⟨members, found, first, second, third, fourth, known, some⟩
    simp only [readComponents, found, JsonValue.asObject]
    rw [readComponent_ok.mpr first, readComponent_ok.mpr second, readComponent_ok.mpr third,
      readComponent_ok.mpr fourth, knownComponents_ok.mpr known, someComponent_ok.mpr some]
    rfl

theorem readCompatibility_ok {document : JsonValue} {compatibility : UpdateCompatibility} :
    readCompatibility document = .ok compatibility ↔
      DeclaredCompatibility document compatibility := by
  constructor
  · intro read
    simp only [readCompatibility] at read
    split at read
    · cases read
    rename_i value found
    split at read
    · cases read
    rename_i object
    obtain ⟨members, rfl⟩ := asObject_isNone.mp (eq_false_of_ne_true object)
    obtain ⟨rest, _, checked⟩ := alongside_eq_ok.mp read
    obtain ⟨_, layout, next1, third, rfl⟩ := also_eq_ok.mp rest
    obtain ⟨_, registers, next2, second, rfl⟩ := also_eq_ok.mp next1
    obtain ⟨_, minimum, next3, first, rfl⟩ := also_eq_ok.mp next2
    obtain rfl := Except.ok.inj next3
    rw [first, orEmpty_ok, if_neg (readString_ne first)] at checked
    exact ⟨⟨members, found, readString_ok.mp first, readInteger_ok.mp second,
      readInteger_ok.mp third⟩, dotted_ok.mp checked⟩
  · rintro ⟨⟨members, found, first, second, third⟩, dotted⟩
    simp only [readCompatibility, found, JsonValue.asObject, Option.isNone_some,
      Bool.false_eq_true, if_false]
    rw [readString_ok.mpr first, readInteger_ok.mpr second, readInteger_ok.mpr third, orEmpty_ok,
      if_neg first.filled, dotted_ok.mpr dotted]
    rfl

/-- The reader takes a document for a manifest exactly when it declares it. -/
theorem readManifest_ok {document : JsonValue} {manifest : UpdateManifest} :
    readManifest document = .ok manifest ↔ Declares document manifest := by
  constructor
  · intro read
    simp only [readManifest] at read
    split at read
    · cases read
    rename_i object
    split at read
    · cases read
    rename_i declared schema
    split at read
    · cases read
    rename_i known
    obtain rfl := not_not.mp known
    obtain ⟨_, compatibility, next1, last, rfl⟩ := also_eq_ok.mp read
    obtain ⟨_, components, next2, components', rfl⟩ := also_eq_ok.mp next1
    obtain ⟨rest, _, dotted'⟩ := alongside_eq_ok.mp next2
    obtain ⟨_, releaseNotes, next3, fifth, rfl⟩ := also_eq_ok.mp rest
    obtain ⟨_, created, next4, fourth, rfl⟩ := also_eq_ok.mp next3
    obtain ⟨_, commit, next5, third, rfl⟩ := also_eq_ok.mp next4
    obtain ⟨_, version, next6, second, rfl⟩ := also_eq_ok.mp next5
    obtain ⟨_, channel, next7, first, rfl⟩ := also_eq_ok.mp next6
    obtain rfl := Except.ok.inj next7
    rw [second, orEmpty_ok] at dotted'
    obtain ⟨members, found, one, two, three, four, known, name, listed, some⟩ :=
      readComponents_ok.mp components'
    refine ⟨asObject_isNone.mp (eq_false_of_ne_true object), readInteger_ok.mp schema, rfl,
      readChannel_ok.mp first, readString_ok.mp second, dotted_ok.mp dotted',
      readString_ok.mp third, readString_ok.mp fourth, readString_ok.mp fifth,
      ⟨⟨members, found, one, two, three, four, known⟩, ?_⟩, readCompatibility_ok.mp last⟩
    simp only [componentNames, List.mem_cons, List.not_mem_nil, or_false] at listed
    rcases listed with rfl | rfl | rfl | rfl
    · exact Or.inl (one.isSome_iff.mpr some)
    · exact Or.inr (Or.inl (two.isSome_iff.mpr some))
    · exact Or.inr (Or.inr (Or.inl (three.isSome_iff.mpr some)))
    · exact Or.inr (Or.inr (Or.inr (four.isSome_iff.mpr some)))
  · intro h
    obtain ⟨members, found, one, two, three, four, known⟩ := h.components.declared
    have some : ∃ name ∈ componentNames, ((JsonValue.object members).find name).isSome := by
      rcases h.components.some with here | here | here | here
      · exact ⟨_, by simp [componentNames], one.isSome_iff.mp here⟩
      · exact ⟨_, by simp [componentNames], two.isSome_iff.mp here⟩
      · exact ⟨_, by simp [componentNames], three.isSome_iff.mp here⟩
      · exact ⟨_, by simp [componentNames], four.isSome_iff.mp here⟩
    have components : readComponents document = .ok ⟨manifest.firmware, manifest.gateware,
        manifest.provisioning, manifest.factoryGateware⟩ :=
      readComponents_ok.mpr ⟨members, found, one, two, three, four, known, some⟩
    have object := asObject_isNone.mpr h.object
    simp only [readManifest, object, Bool.false_eq_true, if_false, readInteger_ok.mpr h.schema,
      ne_eq, not_true_eq_false]
    rw [readChannel_ok.mpr h.channel, readString_ok.mpr h.version, readString_ok.mpr h.commit,
      readString_ok.mpr h.created, readString_ok.mpr h.releaseNotes, orEmpty_ok,
      dotted_ok.mpr h.dotted, components, readCompatibility_ok.mpr h.compatibility]
    have version := h.manifestVersion
    obtain ⟨_, _, _, _, _, _, _, _, _, _, _⟩ := manifest
    obtain rfl := version
    rfl

end ManifestSchema
