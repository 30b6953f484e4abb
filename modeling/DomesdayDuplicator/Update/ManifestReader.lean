import DomesdayDuplicator.Foundations.Validation
import DomesdayDuplicator.Update.UpdateManifest

/-!
# Reading the manifest

`ParseUpdateManifest` from the parsed document on: every field the schema asks for,
with what is reported where one is missing or wrong.
-/

namespace ManifestReader

open Manifest Validation
open UpdateProtocol (Digest)

/-! ## The document -/

/-- A parsed document; a number is kept as the text it was written as. -/
inductive JsonValue where
  | null
  | boolean (value : Bool)
  | number (lexeme : Text)
  | string (value : Text)
  | array (elements : List JsonValue)
  | object (members : List (Text × JsonValue))

def digitOf (b : Byte) : Option Nat :=
  if 0x30 ≤ b.toNat ∧ b.toNat ≤ 0x39 then some (b.toNat - 0x30) else none

def decimal : Text → Option Nat
  | [] => none
  | digits => digits.foldlM (fun value b => (digitOf b).map fun digit => value * 10 + digit) 0

/-- `std::from_chars` into an `int64_t`, where the whole text is the number. -/
def fromChars (number : Text) : Option Int :=
  let value : Option Int := match number with
    | 0x2D#8 :: digits => (decimal digits).map fun n => -(n : Int)
    | digits => (decimal digits).map Int.ofNat
  value.filter fun n => decide (-2 ^ 63 ≤ n ∧ n < 2 ^ 63)

namespace JsonValue

def asString : JsonValue → Option Text
  | string value => some value
  | _ => none

def asInteger : JsonValue → Option Int
  | number lexeme => fromChars lexeme
  | _ => none

def asObject : JsonValue → Option (List (Text × JsonValue))
  | object members => some members
  | _ => none

def find (value : JsonValue) (name : Text) : Option JsonValue :=
  value.asObject.bind fun members =>
    (members.find? fun member => member.1 == name).map Prod.snd

end JsonValue

/-! ## Fields -/

def missing (name place : Text) : Text :=
  place ++ text ": missing \"" ++ name ++ text "\""

def malformed (name place what : Text) : Text :=
  place ++ text ": \"" ++ name ++ text "\" " ++ what

def readString (parent : JsonValue) (name place : Text) : Checked Text Text :=
  match parent.find name with
  | none => refuse (missing name place)
  | some value =>
    match value.asString with
    | none => refuse (malformed name place (text "is not a string"))
    | some [] => refuse (malformed name place (text "is empty"))
    | some contents => .ok contents

def readInteger (parent : JsonValue) (name place : Text) : Checked Text Int :=
  match parent.find name with
  | none => refuse (missing name place)
  | some value =>
    match value.asInteger with
    | none => refuse (malformed name place (text "is not a whole number"))
    | some number =>
      if number < 0 then refuse (malformed name place (text "is negative")) else .ok number

def hexNibble (character : Byte) : Option Nat :=
  let code := character.toNat
  if 0x30 ≤ code ∧ code ≤ 0x39 then some (code - 0x30)
  else if 0x61 ≤ code ∧ code ≤ 0x66 then some (code - 0x61 + 10)
  else if 0x41 ≤ code ∧ code ≤ 0x46 then some (code - 0x41 + 10)
  else none

def hexBytes : Text → Option (List Byte)
  | high :: low :: rest => do
    let high ← hexNibble high
    let low ← hexNibble low
    let bytes ← hexBytes rest
    return BitVec.ofNat 8 (16 * high + low) :: bytes
  | [] => some []
  | _ => none

def parseHexDigest (hex : Text) : Option Digest :=
  if hex.length ≠ 64 then none
  else (hexBytes hex).map fun bytes => Vector.ofFn fun i => bytes.getD i 0

def readDigest (parent : JsonValue) (place : Text) : Checked Text Digest :=
  match readString parent (text "sha256") place with
  | .error reasons => .error reasons
  | .ok hex =>
    match parseHexDigest hex with
    | none => refuse (place ++ text ": \"sha256\" is not 64 hex characters")
    | some digest => .ok digest

/-- A component that is not declared is no error; one that is declared is whole. -/
def readComponent (components : JsonValue) (name : Text) :
    Checked Text (Option UpdateComponent) :=
  let place := text "components." ++ name
  match components.find name with
  | none => .ok none
  | some value =>
    if value.asObject.isNone then refuse (place ++ text " is not an object")
    else
      let build (file : Text) (length : Int) (sha256 : Digest) (identity : Text)
          (interfaceVersion : Int) : Option UpdateComponent :=
        some ⟨file, length.toNat, sha256, identity, interfaceVersion⟩
      also (also (also (also (also (.ok build)
        (readString value (text "file") place))
        (readInteger value (text "length") place))
        (readDigest value place))
        (readString value (text "identity") place))
        (readInteger value (text "interface_version") place)

def splitDottedVersion (version : Text) : Option (List Int) :=
  (version.splitOn 0x2E).mapM fun part => (fromChars part).filter fun n => decide (0 ≤ n)

/-! ## The manifest -/

def firmwareComponentName : Text := text "firmware"
def gatewareComponentName : Text := text "gateware"
def provisioningComponentName : Text := text "gateware-provisioning-svf"
def factoryGatewareComponentName : Text := text "gateware-factory"

def componentNames : List Text :=
  [firmwareComponentName, gatewareComponentName, provisioningComponentName,
    factoryGatewareComponentName]

def readChannel (document : JsonValue) : Checked Text UpdateChannel :=
  match readString document (text "channel") (text "manifest") with
  | .error reasons => .error reasons
  | .ok channel =>
    if channel = text "release" then .ok .release
    else if channel = text "development" then .ok .development
    else refuse (text "manifest: \"channel\" is neither \"release\" nor \"development\"")

/-- The text of a field that could be read, or the empty one it was left at. -/
def orEmpty : Checked Text Text → Text
  | .ok contents => contents
  | .error _ => []

def dotted (version reason : Text) : Checked Text Unit :=
  if (splitDottedVersion version).isNone then refuse reason else .ok ()

/-- No member that this build does not know how to install. -/
def knownComponents (members : List (Text × JsonValue)) : Checked Text Unit :=
  match members.filter fun member => member.1 ∉ componentNames with
  | [] => .ok ()
  | unknown => .error (unknown.map fun member =>
      text "manifest: \"components\" declares \"" ++ member.1 ++
        text "\", which this build does not know how to install")

def someComponent (components : JsonValue) : Checked Text Unit :=
  if componentNames.all fun name => (components.find name).isNone then
    refuse (text "manifest: \"components\" declares nothing to install")
  else .ok ()

structure Components where
  firmware : Option UpdateComponent
  gateware : Option UpdateComponent
  provisioning : Option UpdateComponent
  factoryGateware : Option UpdateComponent

def readComponents (document : JsonValue) : Checked Text Components :=
  let refused := text "manifest: missing or malformed \"components\""
  match document.find (text "components") with
  | none => refuse refused
  | some components =>
    match components.asObject with
    | none => refuse refused
    | some members =>
      alongside (alongside (also (also (also (also (.ok Components.mk)
        (readComponent components firmwareComponentName))
        (readComponent components gatewareComponentName))
        (readComponent components provisioningComponentName))
        (readComponent components factoryGatewareComponentName))
        (knownComponents members)) (someComponent components)

def readCompatibility (document : JsonValue) : Checked Text UpdateCompatibility :=
  let refused := text "manifest: missing or malformed \"compatibility\""
  match document.find (text "compatibility") with
  | none => refuse refused
  | some compatibility =>
    if compatibility.asObject.isNone then refuse refused
    else
      let place := text "compatibility"
      let minimum := readString compatibility (text "minimum_application_version") place
      let checked := if orEmpty minimum = [] then .ok () else
        dotted (orEmpty minimum) (text
          "compatibility: \"minimum_application_version\" is not a dotted numeric version")
      alongside (also (also (also (.ok UpdateCompatibility.mk) minimum)
        (readInteger compatibility (text "minimum_register_map_version") place))
        (readInteger compatibility (text "epcs_layout_version") place)) checked

def buildManifest (channel : UpdateChannel) (version commit created releaseNotes : Text)
    (components : Components) (compatibility : UpdateCompatibility) : UpdateManifest where
  manifestVersion := updateManifestVersion
  channel := channel
  version := version
  commit := commit
  created := created
  releaseNotes := releaseNotes
  firmware := components.firmware
  gateware := components.gateware
  provisioning := components.provisioning
  factoryGateware := components.factoryGateware
  compatibility := compatibility

/-- A decimal number as `std::to_string` writes it. -/
def decimalText (n : Int) : Text := text (toString n)

/-- `ParseUpdateManifest` once the text is a document. -/
def readManifest (document : JsonValue) : Checked Text UpdateManifest :=
  if document.asObject.isNone then refuse (text "the manifest is not a JSON object")
  else
    let place := text "manifest"
    match readInteger document (text "manifest_version") place with
    | .error reasons => .error reasons
    | .ok declared =>
      if declared ≠ updateManifestVersion then
        refuse (text "the manifest declares schema version " ++ decimalText declared ++
          text ", and this build understands version " ++ decimalText updateManifestVersion)
      else
        let version := readString document (text "version") place
        also (also (alongside (also (also (also (also (also (.ok buildManifest)
          (readChannel document)) version)
          (readString document (text "commit") place))
          (readString document (text "created") place))
          (readString document (text "release_notes") place))
          (dotted (orEmpty version)
            (text "manifest: \"version\" is not a dotted numeric version")))
          (readComponents document)) (readCompatibility document)

/-! ## What a read manifest declares -/

theorem readString_ne {parent : JsonValue} {name place contents : Text}
    (read : readString parent name place = .ok contents) : contents ≠ [] := by
  rw [readString] at read
  split at read
  · cases read
  split at read
  · cases read
  · cases read
  rename_i filled found
  obtain rfl := Except.ok.inj read
  exact filled

/-- A declared component says what it is. -/
theorem readComponent_identity {components : JsonValue} {name : Text}
    {component : Option UpdateComponent}
    (read : readComponent components name = .ok component) : ∀ c ∈ component, c.identity ≠ [] := by
  simp only [readComponent] at read
  split at read
  · obtain rfl := Except.ok.inj read
    nofun
  split at read
  · cases read
  obtain ⟨_, interfaceVersion, next1, -, rfl⟩ := also_eq_ok.mp read
  obtain ⟨_, identity, next2, named, rfl⟩ := also_eq_ok.mp next1
  obtain ⟨_, sha256, next3, -, rfl⟩ := also_eq_ok.mp next2
  obtain ⟨_, length, next4, -, rfl⟩ := also_eq_ok.mp next3
  obtain ⟨_, file, next5, -, rfl⟩ := also_eq_ok.mp next4
  obtain rfl := Except.ok.inj next5
  rintro c ⟨⟩
  exact readString_ne named

theorem readComponents_identity {document : JsonValue} {components : Components}
    (read : readComponents document = .ok components) :
    (∀ c ∈ components.firmware, c.identity ≠ []) ∧ ∀ c ∈ components.gateware, c.identity ≠ [] := by
  simp only [readComponents] at read
  split at read
  · cases read
  split at read
  · cases read
  obtain ⟨rest, -⟩ := alongside_eq_ok.mp (alongside_eq_ok.mp read).left
  obtain ⟨_, factoryGateware, next1, -, rfl⟩ := also_eq_ok.mp rest
  obtain ⟨_, provisioning, next2, -, rfl⟩ := also_eq_ok.mp next1
  obtain ⟨_, gateware, next3, second, rfl⟩ := also_eq_ok.mp next2
  obtain ⟨_, firmware, next4, first, rfl⟩ := also_eq_ok.mp next3
  obtain rfl := Except.ok.inj next4
  exact ⟨readComponent_identity first, readComponent_identity second⟩

theorem readManifest_identity {document : JsonValue} {manifest : UpdateManifest}
    (read : readManifest document = .ok manifest) :
    (∀ c ∈ manifest.firmware, c.identity ≠ []) ∧ ∀ c ∈ manifest.gateware, c.identity ≠ [] := by
  simp only [readManifest] at read
  split at read
  · cases read
  split at read
  · cases read
  split at read
  · cases read
  obtain ⟨_, compatibility, next1, -, rfl⟩ := also_eq_ok.mp read
  obtain ⟨_, components, next2, declared, rfl⟩ := also_eq_ok.mp next1
  obtain ⟨rest, -⟩ := alongside_eq_ok.mp next2
  obtain ⟨_, releaseNotes, next3, -, rfl⟩ := also_eq_ok.mp rest
  obtain ⟨_, created, next4, -, rfl⟩ := also_eq_ok.mp next3
  obtain ⟨_, commit, next5, -, rfl⟩ := also_eq_ok.mp next4
  obtain ⟨_, version, next6, -, rfl⟩ := also_eq_ok.mp next5
  obtain ⟨_, channel, next7, -, rfl⟩ := also_eq_ok.mp next6
  obtain rfl := Except.ok.inj next7
  exact readComponents_identity declared

end ManifestReader
