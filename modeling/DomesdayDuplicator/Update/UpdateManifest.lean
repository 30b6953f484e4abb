import DomesdayDuplicator.Firmware.UpdateProtocol

/-!
# The update manifest

What the signed head of an update bundle says about its payloads.
-/

namespace Manifest

open UpdateProtocol (Digest)

abbrev Byte := BitVec 8

/-- A `std::string`. -/
abbrev Text := List Byte

/-- The bytes of a literal. -/
def text (s : String) : Text := s.toUTF8.data.toList.map UInt8.toBitVec

theorem text_ofList (chars : List Char) :
    text (String.ofList chars) = (chars.flatMap String.utf8EncodeChar).map UInt8.toBitVec := by
  rw [text, String.toUTF8_eq_toByteArray, String.toByteArray_ofList, List.utf8Encode,
    List.data_toByteArray]

inductive UpdateChannel where
  | release | development
  deriving DecidableEq

structure UpdateComponent where
  file : Text
  length : Nat
  sha256 : Digest
  identity : Text
  interfaceVersion : Int
  deriving DecidableEq

structure UpdateCompatibility where
  minimumApplicationVersion : Text
  minimumRegisterMapVersion : Int
  epcsLayoutVersion : Int
  deriving DecidableEq

structure UpdateManifest where
  manifestVersion : Int
  channel : UpdateChannel
  version : Text
  commit : Text
  created : Text
  releaseNotes : Text
  firmware : Option UpdateComponent
  gateware : Option UpdateComponent
  provisioning : Option UpdateComponent
  factoryGateware : Option UpdateComponent
  compatibility : UpdateCompatibility
  deriving DecidableEq

def updateManifestVersion : Int := 1

end Manifest
