import DomesdayDuplicator.Firmware.UpdateProtocol
import DomesdayDuplicator.Foundations.BlockStream
import Mathlib.Data.BitVec

/-!
# The streamed digest

`fx3/firmware/src/vendor/sha-256.c`, with which the agent takes the digest of what is sent to
it and of what it reads back. The message schedule is kept in sixteen words that are written
over as the rounds go; a write takes whole chunks from its data and gathers the rest in the
chunk of the context, whose older bytes are left where they are.
-/

namespace Sha256

open UpdateProtocol

abbrev Word := BitVec 32

def sizeOfChunk : Nat := 64
def totalLenLen : Nat := 8

def rightRot (value : Word) (count : Nat) : Word := value >>> count ||| value <<< (32 - count)

def k : List Word :=
  [0x428a2f98, 0x71374491, 0xb5c0fbcf, 0xe9b5dba5, 0x3956c25b, 0x59f111f1, 0x923f82a4,
   0xab1c5ed5, 0xd807aa98, 0x12835b01, 0x243185be, 0x550c7dc3, 0x72be5d74, 0x80deb1fe,
   0x9bdc06a7, 0xc19bf174, 0xe49b69c1, 0xefbe4786, 0x0fc19dc6, 0x240ca1cc, 0x2de92c6f,
   0x4a7484aa, 0x5cb0a9dc, 0x76f988da, 0x983e5152, 0xa831c66d, 0xb00327c8, 0xbf597fc7,
   0xc6e00bf3, 0xd5a79147, 0x06ca6351, 0x14292967, 0x27b70a85, 0x2e1b2138, 0x4d2c6dfc,
   0x53380d13, 0x650a7354, 0x766a0abb, 0x81c2c92e, 0x92722c85, 0xa2bfe8a1, 0xa81a664b,
   0xc24b8b70, 0xc76c51a3, 0xd192e819, 0xd6990624, 0xf40e3585, 0x106aa070, 0x19a4c116,
   0x1e376c08, 0x2748774c, 0x34b0bcb5, 0x391c0cb3, 0x4ed8aa4a, 0x5b9cca4f, 0x682e6ff3,
   0x748f82ee, 0x78a5636f, 0x84c87814, 0x8cc70208, 0x90befffa, 0xa4506ceb, 0xbef9a3f7,
   0xc67178f2]

/-- The big-endian word at `4 * j` of a chunk. -/
def loadWord (p : List Byte) (j : Nat) : Word :=
  (p.getD (4 * j) 0).setWidth 32 <<< 24 ||| (p.getD (4 * j + 1) 0).setWidth 32 <<< 16 |||
    (p.getD (4 * j + 2) 0).setWidth 32 <<< 8 ||| (p.getD (4 * j + 3) 0).setWidth 32

structure Working where
  ah : List Word
  w : List Word

/-- What goes into `w[j]`: a word of the chunk in the first row, then the next of the schedule. -/
def scheduled (p : List Byte) (i j : Nat) (w : List Word) : Word :=
  if i = 0 then loadWord p j
  else
    let a := w.getD ((j + 1) &&& 0xf) 0
    let b := w.getD ((j + 14) &&& 0xf) 0
    let s0 := rightRot a 7 ^^^ rightRot a 18 ^^^ (a >>> 3)
    let s1 := rightRot b 17 ^^^ rightRot b 19 ^^^ (b >>> 10)
    w.getD j 0 + s0 + w.getD ((j + 9) &&& 0xf) 0 + s1

/-- The body of the two loops of `consume_chunk`. -/
def turn (p : List Byte) (i j : Nat) (v : Working) : Working :=
  let w := v.w.set j (scheduled p i j v.w)
  let ah := fun n => v.ah.getD n 0
  let s1 := rightRot (ah 4) 6 ^^^ rightRot (ah 4) 11 ^^^ rightRot (ah 4) 25
  let ch := (ah 4 &&& ah 5) ^^^ (~~~ah 4 &&& ah 6)
  let temp1 := ah 7 + s1 + ch + k.getD (i <<< 4 ||| j) 0 + w.getD j 0
  let s0 := rightRot (ah 0) 2 ^^^ rightRot (ah 0) 13 ^^^ rightRot (ah 0) 22
  let maj := (ah 0 &&& ah 1) ^^^ (ah 0 &&& ah 2) ^^^ (ah 1 &&& ah 2)
  let temp2 := s0 + maj
  { ah := [temp1 + temp2, ah 0, ah 1, ah 2, ah 3 + temp1, ah 4, ah 5, ah 6], w }

/-- The words of the schedule have no value before the first row of turns gives them one. -/
def consumeChunk (unset : Vector Word 16) (h : List Word) (p : List Byte) : List Word :=
  let v := (List.range 4).foldl
    (fun v i => (List.range 16).foldl (fun v j => turn p i j v) v) ⟨h, unset.toList⟩
  h.zipWith (· + ·) v.ah

/-- `struct Sha_256`, with the place in its chunk as an index. -/
structure Context where
  chunk : List Byte
  chunkPos : Nat
  spaceLeft : Nat
  totalLen : BitVec 64
  h : List Word

def initialHash : List Word :=
  [0x6a09e667, 0xbb67ae85, 0x3c6ef372, 0xa54ff53a, 0x510e527f, 0x9b05688c, 0x1f83d9ab, 0x5be0cd19]

def init (memory : Vector Byte 64) : Context :=
  { chunk := memory.toList, chunkPos := 0, spaceLeft := sizeOfChunk, totalLen := 0
    h := initialHash }

/-- What `memcpy` and `memset` do to a chunk. -/
def store (chunk : List Byte) (pos : Nat) (bytes : List Byte) : List Byte :=
  chunk.take pos ++ bytes ++ chunk.drop (pos + bytes.length)

variable (unset : Vector Word 16)

/-- The loop of `sha_256_write`, for so many turns; each takes at least a byte. -/
def writeLoop : Nat → Context → List Byte → Context
  | 0, c, _ => c
  | turns + 1, c, p =>
    if 0 < p.length then
      if c.spaceLeft = sizeOfChunk ∧ sizeOfChunk ≤ p.length then
        writeLoop turns { c with h := consumeChunk unset c.h (p.take sizeOfChunk) }
          (p.drop sizeOfChunk)
      else
        let consumed := if p.length < c.spaceLeft then p.length else c.spaceLeft
        let c := { c with
          chunk := store c.chunk c.chunkPos (p.take consumed)
          spaceLeft := c.spaceLeft - consumed }
        let p := p.drop consumed
        if c.spaceLeft = 0 then
          writeLoop turns { c with
            h := consumeChunk unset c.h c.chunk, chunkPos := 0, spaceLeft := sizeOfChunk } p
        else writeLoop turns { c with chunkPos := c.chunkPos + consumed } p
    else c

def write (c : Context) (data : List Byte) : Context :=
  writeLoop unset data.length { c with totalLen := c.totalLen + BitVec.ofNat 64 data.length } data

/-- The bytes before these, each the low one of what is left of the length. -/
def storeDown : Nat → BitVec 64 → List Byte → List Byte
  | 0, _, bytes => bytes
  | n + 1, len, bytes => storeDown n (len >>> 8) (len.setWidth 8 :: bytes)

def lengthBytes (len : BitVec 64) : List Byte := storeDown 7 (len >>> 5) [(len <<< 3).setWidth 8]

def wordBytes (word : Word) : List Byte :=
  [(word >>> 24).setWidth 8, (word >>> 16).setWidth 8, (word >>> 8).setWidth 8, word.setWidth 8]

def close (c : Context) : List Byte :=
  let chunk := store c.chunk c.chunkPos [0x80]
  let pos := c.chunkPos + 1
  let spaceLeft := c.spaceLeft - 1
  let (h, chunk, pos, spaceLeft) :=
    if spaceLeft < totalLenLen then
      let chunk := store chunk pos (List.replicate spaceLeft 0)
      (consumeChunk unset c.h chunk, chunk, 0, sizeOfChunk)
    else (c.h, chunk, pos, spaceLeft)
  let left := spaceLeft - totalLenLen
  let chunk := store chunk pos (List.replicate left 0)
  let chunk := store chunk (pos + left) (lengthBytes c.totalLen)
  (consumeChunk unset h chunk).flatMap wordBytes

def calcSha256 (memory : Vector Byte 64) (input : List Byte) : List Byte :=
  close unset (write unset (init memory) input)

end Sha256
