import DomesdayDuplicator.Update.UpdateManifest
import Mathlib.Data.List.DropRight

/-!
# Minisign signatures

The reader of a signature file and the verifier of what it signs. The hash and the
curve are parameters.
-/

namespace Minisign

open Manifest (Byte Text text)

/-- `crypto_blake2b` with a 64-byte result and `crypto_ed25519_check`. -/
structure Crypto where
  blake2b : List Byte → List Byte
  ed25519Check : List Byte → List Byte → List Byte → Bool

structure MinisignPublicKey where
  keyId : List Byte
  key : List Byte

structure MinisignSignature where
  keyId : List Byte
  signature : List Byte
  trustedComment : Text
  globalSignature : List Byte

def kUntrustedCommentPrefix : Text := text "untrusted comment: "
def kTrustedCommentPrefix : Text := text "trusted comment: "
def kSignatureBytes : Nat := 2 + 8 + 64
def kGlobalSignatureBytes : Nat := 64

def kAlphabet : Text :=
  text "ABCDEFGHIJKLMNOPQRSTUVWXYZabcdefghijklmnopqrstuvwxyz0123456789+/"

/-- The decoder's accumulator, the bits in it that belong to no byte yet, and the bytes. -/
structure Decoding where
  accumulator : BitVec 32
  bits : Nat
  decoded : List Byte

def Decoding.symbol (state : Decoding) (character : Byte) : Option Decoding :=
  (kAlphabet.idxOf? character).map fun symbol =>
    let accumulator := (state.accumulator <<< 6) ||| BitVec.ofNat 32 symbol
    let bits := state.bits + 6
    if 8 ≤ bits then
      ⟨accumulator, bits - 8, state.decoded ++ [(accumulator >>> (bits - 8)).setWidth 8]⟩
    else ⟨accumulator, bits, state.decoded⟩

/-- Standard base64 with padding, and no other form of it. -/
def decodeBase64 (encoded : Text) : Option (List Byte) :=
  if encoded = [] ∨ encoded.length % 4 ≠ 0 then none
  else
    let padding := ((encoded.reverse.take 2).takeWhile (· == 0x3D)).length
    match (encoded.take (encoded.length - padding)).foldlM Decoding.symbol ⟨0, 0, []⟩ with
    | none => none
    | some last =>
      if 6 ≤ last.bits ∨ last.accumulator &&& ((1 <<< last.bits) - 1) ≠ 0 then none
      else some last.decoded

def dropReturn (line : Text) : Text :=
  if line.getLast? = some 0x0D then line.dropLast else line

def splitLines (contents : Text) : List Text :=
  ((contents.splitOn 0x0A).map dropReturn).rdropWhile List.isEmpty

def parseMinisignSignature (contents : Text) : Except Text MinisignSignature :=
  match splitLines contents with
  | [untrusted, line, trusted, covering] =>
    if ¬kUntrustedCommentPrefix.isPrefixOf untrusted then
      .error (text "the first line is not an untrusted comment")
    else if ¬kTrustedCommentPrefix.isPrefixOf trusted then
      .error (text "the third line is not a trusted comment")
    else
      match (decodeBase64 line).filter (·.length == kSignatureBytes) with
      | none => .error (text "the signature line is not base64 of the right length")
      | some decoded =>
        if decoded.take 2 ≠ text "ED" then .error (text "unknown signature algorithm")
        else
          match (decodeBase64 covering).filter (·.length == kGlobalSignatureBytes) with
          | none => .error (text "the global signature line is not base64 of the right length")
          | some global => .ok
            { keyId := (decoded.drop 2).take 8
              signature := (decoded.drop 10).take 64
              trustedComment := trusted.drop kTrustedCommentPrefix.length
              globalSignature := global }
  | _ => .error (text
      "a signature is a comment line, a signature line, a trusted comment line and a global signature line")

/-- Both signatures, and the key they name. -/
def verifyMinisign (crypto : Crypto) (message : List Byte) (signature : MinisignSignature)
    (publicKey : MinisignPublicKey) : Except Text Unit :=
  if signature.keyId ≠ publicKey.keyId then
    .error (text "the signature was made by a different key")
  else if ¬crypto.ed25519Check signature.signature publicKey.key (crypto.blake2b message) then
    .error (text "the signature does not match the signed data")
  else if ¬crypto.ed25519Check signature.globalSignature publicKey.key
      (signature.signature ++ signature.trustedComment) then
    .error (text "the trusted comment is not covered by the signature")
  else .ok ()

end Minisign
