import DomesdayDuplicator.Update.DecimalText
import DomesdayDuplicator.Update.JsonRoundTrip
import DomesdayDuplicator.Update.ManifestSchema
import DomesdayDuplicator.Update.UpdateBundle

/-!
# Writing a manifest and reading it back

`ParseUpdateManifest` and `SerialiseUpdateManifest` on texts. A manifest that was read from one
text is what is read from the text it is written to; and what a text has to hold to be read as a
manifest is the schema, of a document in which no name is declared twice.
-/

namespace ManifestRoundTrip

open DecimalText Json Manifest ManifestReader ManifestSchema
open UpdateProtocol (Digest)

def parseUpdateManifest (t : Text) : Validation.Checked Text UpdateManifest :=
  match parseJson t with
  | .error failure => Validation.refuse (text "the manifest is not valid JSON: " ++
      failure.message ++ text " at byte " ++ decimalText failure.offset)
  | .ok document => readManifest document

/-! ## The serialiser -/

def toHex (digest : Digest) : Text :=
  digest.toList.flatMap fun byte =>
    [kDigits.getD (byte.toNat >>> 4) 0, kDigits.getD (byte.toNat &&& 0x0F) 0]

/-- An integer as the document holds it. -/
def numberValue (n : Int) : JsonValue := .number (decimalText n)

def componentMembers (component : UpdateComponent) : List (Text × JsonValue) :=
  [(text "file", .string component.file),
    (text "length", numberValue (BitVec.ofNat 64 component.length).toInt),
    (text "sha256", .string (toHex component.sha256)),
    (text "identity", .string component.identity),
    (text "interface_version", numberValue component.interfaceVersion)]

/-- The member of a component, where there is one. -/
def componentMember (name : Text) : Option UpdateComponent → List (Text × JsonValue)
  | none => []
  | some component => [(name, .object (componentMembers component))]

def componentsOf (manifest : UpdateManifest) : List (Text × JsonValue) :=
  componentMember (text "firmware") manifest.firmware ++
    componentMember (text "gateware") manifest.gateware ++
    componentMember provisioningComponentName manifest.provisioning ++
    componentMember factoryGatewareComponentName manifest.factoryGateware

def compatibilityOf (compatibility : UpdateCompatibility) : List (Text × JsonValue) :=
  [(text "minimum_application_version", .string compatibility.minimumApplicationVersion),
    (text "minimum_register_map_version", numberValue compatibility.minimumRegisterMapVersion),
    (text "epcs_layout_version", numberValue compatibility.epcsLayoutVersion)]

def documentOf (manifest : UpdateManifest) : JsonValue :=
  .object [(text "manifest_version", numberValue manifest.manifestVersion),
    (text "channel", .string (channelName manifest.channel)),
    (text "version", .string manifest.version),
    (text "commit", .string manifest.commit),
    (text "created", .string manifest.created),
    (text "release_notes", .string manifest.releaseNotes),
    (text "components", .object (componentsOf manifest)),
    (text "compatibility", .object (compatibilityOf manifest.compatibility))]

def serialiseUpdateManifest (manifest : UpdateManifest) : Text :=
  serialiseJson (documentOf manifest)

/-! ## Numbers -/

theorem numeral_decimalText (n : Nat) : Numeral (decimalText n) := by
  have whole : Whole (decimalText n) := by
    rw [decimalText_natCast]
    by_cases zero : n = 0
    · subst zero
      exact Whole.zero
    · obtain ⟨d, ds, split, digit, proper, rest⟩ := digitBytes_head zero
      rw [split]
      exact Whole.digits digit proper rest
  have numeral := Numeral.parts (Or.inl rfl) whole Fraction.none Exponent.none
  simpa using numeral

/-! ## Digests -/

theorem hexNibble_digit : ∀ n < 16, hexNibble (kDigits.getD n 0) = some n := by
  decide

theorem hexBytes_toHex (bytes : List Byte) :
    hexBytes (bytes.flatMap fun byte =>
      [kDigits.getD (byte.toNat >>> 4) 0, kDigits.getD (byte.toNat &&& 0x0F) 0]) = some bytes := by
  induction bytes with
  | nil => rfl
  | cons byte bytes ih =>
    obtain ⟨high, low⟩ := nibbles_less byte
    rw [List.flatMap_cons, List.cons_append, List.cons_append, List.nil_append, hexBytes,
      hexNibble_digit _ high, hexNibble_digit _ low, ih]
    simp [nibbles_whole]

theorem length_toHex (digest : Digest) : (toHex digest).length = 64 := by
  rw [toHex, List.length_flatMap]
  simp

theorem parseHexDigest_toHex (digest : Digest) : parseHexDigest (toHex digest) = some digest := by
  rw [parseHexDigest, if_neg (by simp [length_toHex]), toHex, hexBytes_toHex]
  refine congrArg some (Vector.ext fun i less => ?_)
  simp

/-! ## What is written declares the manifest -/

/-- The bounds of what a reader accepts in a component. -/
structure Bounded (component : UpdateComponent) : Prop where
  file : component.file ≠ []
  length : component.length < 2 ^ 63
  identity : component.identity ≠ []
  interfaceVersion : 0 ≤ component.interfaceVersion ∧ component.interfaceVersion < 2 ^ 63

theorem integerField_number {parent : JsonValue} {name : Text} {n : Int}
    (found : parent.find name = some (numberValue n)) (least : 0 ≤ n) (most : n < 2 ^ 63) :
    IntegerField parent name n := by
  obtain ⟨k, rfl⟩ := Int.eq_ofNat_of_zero_le least
  exact ⟨⟨decimalText k, found, fromChars_decimalText (by omega)⟩, least⟩

theorem integerField_lt {parent : JsonValue} {name : Text} {n : Int}
    (field : IntegerField parent name n) : n < 2 ^ 63 := by
  obtain ⟨lexeme, -, read⟩ := field.found
  simp only [fromChars] at read
  have held := of_decide_eq_true (Option.filter_eq_some_iff.mp read).2
  exact held.2

theorem toInt_length {n : Nat} (fits : n < 2 ^ 63) : (BitVec.ofNat 64 n).toInt = n := by
  rw [BitVec.toInt_eq_toNat_of_lt, BitVec.toNat_ofNat]
  · omega
  · rw [BitVec.toNat_ofNat]
    omega

theorem component_written {component : UpdateComponent} (bounded : Bounded component) :
    ComponentFields (.object (componentMembers component)) component where
  object := ⟨_, rfl⟩
  file := ⟨rfl, bounded.file⟩
  length := by
    refine integerField_number ?_ (Int.natCast_nonneg _) (by have := bounded.length; omega)
    rw [← toInt_length bounded.length]
    rfl
  sha256 := by
    refine ⟨toHex component.sha256, ⟨rfl, ?_⟩, parseHexDigest_toHex component.sha256⟩
    intro none
    have length := length_toHex component.sha256
    rw [none] at length
    cases length
  identity := ⟨rfl, bounded.identity⟩
  interfaceVersion :=
    integerField_number rfl bounded.interfaceVersion.1 bounded.interfaceVersion.2

theorem find_append (first second : List (Text × JsonValue)) (name : Text) :
    (JsonValue.object (first ++ second)).find name =
      ((JsonValue.object first).find name).or ((JsonValue.object second).find name) := by
  simp only [JsonValue.find, JsonValue.asObject, Option.bind_some, List.find?_append]
  cases first.find? fun member => member.1 == name with
  | none => rfl
  | some member => rfl

theorem find_member (key name : Text) (component : Option UpdateComponent) :
    (JsonValue.object (componentMember key component)).find name =
      if key = name then component.map fun c => .object (componentMembers c) else none := by
  cases component with
  | none => simp [componentMember, JsonValue.find, JsonValue.asObject]
  | some c =>
    by_cases same : key = name
    · simp [componentMember, JsonValue.find, JsonValue.asObject, same]
    · simp [componentMember, JsonValue.find, JsonValue.asObject, same]

theorem declared_found {members : List (Text × JsonValue)} {name : Text}
    {component : Option UpdateComponent}
    (found : (JsonValue.object members).find name =
      component.map fun c => .object (componentMembers c))
    (bounded : ∀ c ∈ component, Bounded c) : Declared (.object members) name component := by
  cases component with
  | none => exact .absent found
  | some c => exact .present found (component_written (bounded c rfl))

theorem componentsOf_find (manifest : UpdateManifest) :
    (JsonValue.object (componentsOf manifest)).find firmwareComponentName =
        manifest.firmware.map (fun c => .object (componentMembers c)) ∧
      (JsonValue.object (componentsOf manifest)).find gatewareComponentName =
        manifest.gateware.map (fun c => .object (componentMembers c)) ∧
      (JsonValue.object (componentsOf manifest)).find provisioningComponentName =
        manifest.provisioning.map (fun c => .object (componentMembers c)) ∧
      (JsonValue.object (componentsOf manifest)).find factoryGatewareComponentName =
        manifest.factoryGateware.map (fun c => .object (componentMembers c)) := by
  have apart : text "firmware" ≠ text "gateware" ∧
      text "firmware" ≠ text "gateware-provisioning-svf" ∧
      text "firmware" ≠ text "gateware-factory" ∧
      text "gateware" ≠ text "gateware-provisioning-svf" ∧
      text "gateware" ≠ text "gateware-factory" ∧
      text "gateware-provisioning-svf" ≠ text "gateware-factory" := by
    decide
  obtain ⟨a, b, c, d, e, f⟩ := apart
  simp only [componentsOf, find_append, find_member, firmwareComponentName, gatewareComponentName,
    provisioningComponentName, factoryGatewareComponentName, a, b, c, d, e, f, a.symm, b.symm,
    c.symm, d.symm, e.symm, f.symm, if_true, if_false, Option.or_none, Option.none_or, and_self]

theorem declared_bounded {components : JsonValue} {name : Text}
    {component : Option UpdateComponent} (declared : Declared components name component) :
    ∀ c ∈ component, Bounded c := by
  cases declared with
  | absent => nofun
  | present found fields =>
    rintro c ⟨⟩
    refine ⟨fields.file.filled, ?_, fields.identity.filled, fields.interfaceVersion.least,
      integerField_lt fields.interfaceVersion⟩
    have most := integerField_lt fields.length
    omega

/-- What a manifest has to hold to be written and read back. -/
structure Sound (manifest : UpdateManifest) : Prop where
  manifestVersion : manifest.manifestVersion = updateManifestVersion
  version : manifest.version ≠ []
  dotted : Dotted manifest.version
  commit : manifest.commit ≠ []
  created : manifest.created ≠ []
  releaseNotes : manifest.releaseNotes ≠ []
  firmware : ∀ c ∈ manifest.firmware, Bounded c
  gateware : ∀ c ∈ manifest.gateware, Bounded c
  provisioning : ∀ c ∈ manifest.provisioning, Bounded c
  factoryGateware : ∀ c ∈ manifest.factoryGateware, Bounded c
  some : manifest.firmware.isSome ∨ manifest.gateware.isSome ∨ manifest.provisioning.isSome ∨
    manifest.factoryGateware.isSome
  minimumApplicationVersion : Dotted manifest.compatibility.minimumApplicationVersion ∧
    manifest.compatibility.minimumApplicationVersion ≠ []
  minimumRegisterMapVersion : 0 ≤ manifest.compatibility.minimumRegisterMapVersion ∧
    manifest.compatibility.minimumRegisterMapVersion < 2 ^ 63
  epcsLayoutVersion : 0 ≤ manifest.compatibility.epcsLayoutVersion ∧
    manifest.compatibility.epcsLayoutVersion < 2 ^ 63

theorem sound_of_declares {document : JsonValue} {manifest : UpdateManifest}
    (h : Declares document manifest) : Sound manifest := by
  obtain ⟨members, -, first, second, third, fourth, -⟩ := h.components.declared
  obtain ⟨members', -, minimum, registers, layout⟩ := h.compatibility.declared
  exact {
    manifestVersion := h.manifestVersion
    version := h.version.filled
    dotted := h.dotted
    commit := h.commit.filled
    created := h.created.filled
    releaseNotes := h.releaseNotes.filled
    firmware := declared_bounded first
    gateware := declared_bounded second
    provisioning := declared_bounded third
    factoryGateware := declared_bounded fourth
    some := h.components.some
    minimumApplicationVersion := ⟨h.compatibility.dotted, minimum.filled⟩
    minimumRegisterMapVersion := ⟨registers.least, integerField_lt registers⟩
    epcsLayoutVersion := ⟨layout.least, integerField_lt layout⟩ }

theorem componentsOf_names (manifest : UpdateManifest) :
    ((componentsOf manifest).map Prod.fst).Sublist componentNames := by
  have one (name : Text) (component : Option UpdateComponent) :
      ((componentMember name component).map Prod.fst).Sublist [name] := by
    cases component with
    | none => exact List.nil_sublist _
    | some c => exact List.Sublist.refl _
  simp only [componentsOf, List.map_append]
  exact (((one _ _).append (one _ _)).append (one _ _)).append (one _ _)

theorem components_written {manifest : UpdateManifest} (sound : Sound manifest) :
    DeclaredComponents (documentOf manifest) manifest where
  declared := by
    obtain ⟨first, second, third, fourth⟩ := componentsOf_find manifest
    refine ⟨componentsOf manifest, rfl, declared_found first sound.firmware,
      declared_found second sound.gateware, declared_found third sound.provisioning,
      declared_found fourth sound.factoryGateware, ?_⟩
    intro member among
    exact (componentsOf_names manifest).mem (List.mem_map_of_mem among)
  some := sound.some

theorem compatibility_written {manifest : UpdateManifest} (sound : Sound manifest) :
    DeclaredCompatibility (documentOf manifest) manifest.compatibility where
  declared := by
    obtain ⟨least, most⟩ := sound.minimumRegisterMapVersion
    obtain ⟨least', most'⟩ := sound.epcsLayoutVersion
    exact ⟨compatibilityOf manifest.compatibility, rfl,
      ⟨rfl, sound.minimumApplicationVersion.2⟩, integerField_number rfl least most,
      integerField_number rfl least' most'⟩
  dotted := sound.minimumApplicationVersion.1

theorem declares_written {manifest : UpdateManifest} (sound : Sound manifest) :
    Declares (documentOf manifest) manifest where
  object := ⟨_, rfl⟩
  schema := by
    refine integerField_number ?_ (by decide) (by decide)
    rw [← sound.manifestVersion]
    rfl
  manifestVersion := sound.manifestVersion
  channel := by
    refine ⟨rfl, ?_⟩
    cases manifest.channel
    · decide
    · decide
  version := ⟨rfl, sound.version⟩
  dotted := sound.dotted
  commit := ⟨rfl, sound.commit⟩
  created := ⟨rfl, sound.created⟩
  releaseNotes := ⟨rfl, sound.releaseNotes⟩
  components := components_written sound
  compatibility := compatibility_written sound

/-! ## What is written is a document that is read back -/

/-- What a value has to meet for its text to be read as the value. -/
structure Writable (levels : Nat) (v : JsonValue) : Prop where
  names : Throughout Unrepeated v
  numeric : Throughout Numeric v
  deep : Within levels v

theorem writable_inner {levels : Nat} {v : JsonValue} (unrepeated : Unrepeated v)
    (numeric : Numeric v) (inside : ∀ c ∈ children v, Writable levels c) :
    Writable (levels + 1) v where
  names := .intro unrepeated fun c among => (inside c among).names
  numeric := .intro numeric fun c among => (inside c among).numeric
  deep := fun c among => (inside c among).deep

theorem writable_leaf {v : JsonValue} (leaf : children v = []) (unrepeated : Unrepeated v)
    (numeric : Numeric v) (levels : Nat) : Writable levels v := by
  have none : ∀ c, c ∉ children v := by simp [leaf]
  refine ⟨.intro unrepeated fun c among => absurd among (none c),
    .intro numeric fun c among => absurd among (none c), ?_⟩
  cases levels with
  | zero => exact leaf
  | succ levels => exact fun c among => absurd among (none c)

theorem writable_string (t : Text) (levels : Nat) : Writable levels (.string t) :=
  @writable_leaf (.string t) rfl trivial trivial levels

theorem writable_number {n : Int} (least : 0 ≤ n) (levels : Nat) :
    Writable levels (numberValue n) := by
  obtain ⟨k, rfl⟩ := Int.eq_ofNat_of_zero_le least
  exact @writable_leaf (numberValue k) rfl trivial (numeral_decimalText k) levels

theorem component_writable {component : UpdateComponent} (bounded : Bounded component)
    (levels : Nat) : Writable (levels + 1) (.object (componentMembers component)) := by
  have names : ([text "file", text "length", text "sha256", text "identity",
      text "interface_version"] : List Text).Nodup := by decide
  refine writable_inner names trivial fun c among => ?_
  have length := toInt_length bounded.length
  simp only [children, componentMembers, List.map_cons, List.map_nil, List.mem_cons,
    List.not_mem_nil, or_false] at among
  rcases among with rfl | rfl | rfl | rfl | rfl
  · exact writable_string _ _
  · exact writable_number (by omega) _
  · exact writable_string _ _
  · exact writable_string _ _
  · exact writable_number bounded.interfaceVersion.1 _

theorem components_writable {manifest : UpdateManifest} (sound : Sound manifest)
    (levels : Nat) : Writable (levels + 2) (.object (componentsOf manifest)) := by
  have nodup : componentNames.Nodup := by decide
  have each {name : Text} {component : Option UpdateComponent}
      (bounded : ∀ c ∈ component, Bounded c) :
      ∀ m ∈ componentMember name component, Writable (levels + 1) m.2 := by
    cases component with
    | none => exact fun m among => absurd among List.not_mem_nil
    | some c =>
      intro m among
      rw [List.mem_singleton.mp among]
      exact component_writable (bounded c rfl) levels
  refine writable_inner (nodup.sublist (componentsOf_names manifest)) trivial fun c among => ?_
  obtain ⟨m, listed, rfl⟩ := List.mem_map.mp among
  simp only [componentsOf, List.mem_append] at listed
  rcases listed with ((listed | listed) | listed) | listed
  · exact each sound.firmware m listed
  · exact each sound.gateware m listed
  · exact each sound.provisioning m listed
  · exact each sound.factoryGateware m listed

theorem compatibility_writable {manifest : UpdateManifest} (sound : Sound manifest)
    (levels : Nat) :
    Writable (levels + 1) (.object (compatibilityOf manifest.compatibility)) := by
  have names : ([text "minimum_application_version", text "minimum_register_map_version",
      text "epcs_layout_version"] : List Text).Nodup := by decide
  refine writable_inner names trivial fun c among => ?_
  simp only [children, compatibilityOf, List.map_cons, List.map_nil, List.mem_cons,
    List.not_mem_nil, or_false] at among
  rcases among with rfl | rfl | rfl
  · exact writable_string _ _
  · exact writable_number sound.minimumRegisterMapVersion.1 _
  · exact writable_number sound.epcsLayoutVersion.1 _

theorem document_writable {manifest : UpdateManifest} (sound : Sound manifest) :
    Writable kMaximumDepth (documentOf manifest) := by
  have names : ([text "manifest_version", text "channel", text "version", text "commit",
      text "created", text "release_notes", text "components", text "compatibility"] :
      List Text).Nodup := by decide
  refine writable_inner names trivial fun c among => ?_
  simp only [children, documentOf, List.map_cons, List.map_nil, List.mem_cons, List.not_mem_nil,
    or_false] at among
  rcases among with rfl | rfl | rfl | rfl | rfl | rfl | rfl | rfl
  · exact writable_number (by rw [sound.manifestVersion]; decide) _
  · exact writable_string _ _
  · exact writable_string _ _
  · exact writable_string _ _
  · exact writable_string _ _
  · exact writable_string _ _
  · exact components_writable sound 29
  · exact compatibility_writable sound 30

/-- A text is read as a manifest exactly when it is a document, no name in it declared twice,
that declares the manifest. -/
theorem parseUpdateManifest_ok {t : Text} {manifest : UpdateManifest} :
    parseUpdateManifest t = .ok manifest ↔ ∃ document, parseJson t = .ok document ∧
      Throughout Unrepeated document ∧ Declares document manifest := by
  rw [parseUpdateManifest]
  cases parsed : parseJson t with
  | error failure =>
    refine iff_of_false (by intro read; cases read) ?_
    rintro ⟨document, read, -⟩
    cases read
  | ok document =>
    have names := (parseJson_ok.mp parsed).2.1
    constructor
    · intro read
      exact ⟨document, rfl, names, readManifest_ok.mp read⟩
    · rintro ⟨document', same, -, declares⟩
      obtain rfl := Except.ok.inj same
      exact readManifest_ok.mpr declares

theorem parse_written {manifest : UpdateManifest} (sound : Sound manifest) :
    parseUpdateManifest (serialiseUpdateManifest manifest) = .ok manifest := by
  have writable := document_writable sound
  have parsed := parse_serialise writable.names writable.numeric writable.deep
  exact parseUpdateManifest_ok.mpr
    ⟨documentOf manifest, parsed, writable.names, declares_written sound⟩

/-- What is accepted; and an accepted manifest is sound and comes back as it was. -/
theorem manifest_exact (t : Text) :
    (∀ manifest, parseUpdateManifest t = .ok manifest ↔ ∃ document, parseJson t = .ok document ∧
      Throughout Unrepeated document ∧ Declares document manifest) ∧
    ∀ manifest, parseUpdateManifest t = .ok manifest →
      Sound manifest ∧
        parseUpdateManifest (serialiseUpdateManifest manifest) = .ok manifest := by
  constructor
  · intro manifest
    exact parseUpdateManifest_ok
  · intro manifest read
    obtain ⟨document, -, -, declares⟩ := parseUpdateManifest_ok.mp read
    have sound := sound_of_declares declares
    exact ⟨sound, parse_written sound⟩

def gatewareOnly : UpdateManifest where
  manifestVersion := 1
  channel := .development
  version := text "1.2"
  commit := text "abc"
  created := text "now"
  releaseNotes := [0x0A]
  firmware := none
  gateware := some ⟨text "g", 3, Vector.replicate 32 0xAB, text "abc", 2⟩
  provisioning := none
  factoryGateware := none
  compatibility := ⟨text "1", 0, 1⟩

theorem gatewareOnly_sound : Sound gatewareOnly where
  manifestVersion := rfl
  version := by decide
  dotted := by decide
  commit := by decide
  created := by decide
  releaseNotes := by decide
  firmware := nofun
  gateware := by
    rintro c ⟨⟩
    exact ⟨by decide, by decide, by decide, by decide⟩
  provisioning := nofun
  factoryGateware := nofun
  some := Or.inr (Or.inl rfl)
  minimumApplicationVersion := ⟨by decide, by decide⟩
  minimumRegisterMapVersion := by decide
  epcsLayoutVersion := by decide

theorem gatewareOnly_exact :
    parseUpdateManifest (serialiseUpdateManifest gatewareOnly) = .ok gatewareOnly :=
  ((manifest_exact (serialiseUpdateManifest gatewareOnly)).2 gatewareOnly
    (parse_written gatewareOnly_sound)).2

/-! ## Inside a bundle -/

/-- With this parser a bundle's manifest is read as one on its own is. -/
theorem bundle_parses {env : Bundle.Environment}
    (json : ∀ t, env.parseJson t =
      (parseJson t).mapError fun failure => (failure.message, failure.offset)) (t : Text) :
    Bundle.parseUpdateManifest env t = parseUpdateManifest t := by
  rw [Bundle.parseUpdateManifest, parseUpdateManifest, json]
  cases parseJson t with
  | error failure => rfl
  | ok document => rfl

end ManifestRoundTrip
