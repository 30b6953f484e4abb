import Mathlib.Data.BitVec
import Mathlib.Data.List.GetD

/-!
# The USB-Blaster cable

`ddd-gui/src/capture/usb_blaster_cable.cpp` over any byte pipe. A transport answers every
request as it likes, on the strength of all the requests before; the cable keeps the
requests it has made and what came of them.
-/

namespace UsbBlaster

abbrev Byte := BitVec 8

def kBitBangTck : Byte := 0x01
def kBitBangTms : Byte := 0x02
def kBitBangTdi : Byte := 0x10
def kBitBangOutputEnable : Byte := 0x20
def kReadFlag : Byte := 0x40
def kByteShiftFlag : Byte := 0x80
def kWriteBufferBytes : Nat := 16 * 1024
def kFtdiStatusBytes : Nat := 2
def kMaximumShiftBytes : Nat := 63
def kEmptyReadLimit : Nat := 32

def bitAt (bits : List Byte) (index : Nat) : Bool := (bits.getD (index / 8) 0).getLsbD (index % 8)

def setBitAt (bits : List Byte) (index : Nat) (value : Bool) : List Byte :=
  if value then bits.modify (index / 8) (· ||| 1#8 <<< (index % 8)) else bits

/-! ## The byte pipe -/

/-- What the transport was asked for, and what came of it. -/
inductive Transfer where
  | write (bytes : List Byte) (sent : Bool)
  | read (received : Option (List Byte))
  deriving DecidableEq

/-- `IFtdiTransport`: a read that fails is `none`. -/
structure Transport where
  packetBytes : Nat
  write : List Transfer → List Byte → Bool
  read : List Transfer → Option (List Byte)

structure Cable where
  pending : List Byte
  transfers : List Transfer
  deriving DecidableEq

def Cable.opened : Cable := ⟨[], []⟩

def Cable.queue (c : Cable) (bytes : List Byte) : Cable := { c with pending := c.pending ++ bytes }

section Methods

variable (t : Transport)

/-- `pending_` is empty afterwards whether or not it could be sent. -/
def flush (c : Cable) : Cable × Bool :=
  if c.pending = [] then (c, true)
  else
    let sent := t.write c.transfers c.pending
    (⟨[], c.transfers ++ [.write c.pending sent]⟩, sent)

def flushIfFull (c : Cable) : Cable × Bool :=
  if c.pending.length < kWriteBufferBytes then (c, true) else flush t c

/-- The bytes of a read without the status bytes in front of each packet. -/
def payloadOf (packet : Nat) : Nat → List Byte → List Byte
  | 0, _ => []
  | packets + 1, received =>
    if received = [] then []
    else (received.take packet).drop kFtdiStatusBytes ++
      payloadOf packet packets (received.drop packet)

/-- The packet size `Read` works with. -/
def Transport.packet : Nat := max t.packetBytes (kFtdiStatusBytes + 1)

/-- Reads until one of them carries data; `none` when a read fails or too many in a row carry
nothing. -/
def readSome : Nat → Cable → Cable × Option (List Byte)
  | 0, c => (c, none)
  | empty + 1, c =>
    let received := t.read c.transfers
    let c := { c with transfers := c.transfers ++ [.read received] }
    match received with
    | none => (c, none)
    | some bytes =>
      let payload := payloadOf t.packet bytes.length bytes
      if payload = [] then readSome empty c else (c, some payload)

/-- The loop of `Read`. A round brings a byte at least, so `wanted` rounds are enough. -/
def readLoop (wanted : Nat) : Nat → List Byte → Cable → Cable × Option (List Byte)
  | 0, payload, c => (c, some payload)
  | rounds + 1, payload, c =>
    if wanted ≤ payload.length then (c, some payload)
    else
      match readSome t (kEmptyReadLimit + 1) c with
      | (c, none) => (c, none)
      | (c, some more) => readLoop wanted rounds (payload ++ more) c

/-- `Read`: exactly so many payload bytes, or nothing. -/
def read (wanted : Nat) (c : Cable) : Cable × Option (List Byte) :=
  match flush t c with
  | (c, false) => (c, none)
  | (c, true) =>
    match readLoop t wanted wanted [] c with
    | (c, none) => (c, none)
    | (c, some payload) => if payload.length > wanted then (c, none) else (c, some payload)

/-- One cycle in bit-bang mode, with the bit TDO held if it is asked for. -/
def shiftOneBit (tms tdi reading : Bool) (c : Cable) : Cable × Option Bool :=
  let pins := kBitBangOutputEnable ||| (if tms then kBitBangTms else 0) |||
    (if tdi then kBitBangTdi else 0)
  let c := c.queue [pins ||| (if reading then kReadFlag else 0), pins ||| kBitBangTck]
  if ¬ reading then
    match flushIfFull t c with
    | (c, true) => (c, some false)
    | (c, false) => (c, none)
  else
    match read t 1 c with
    | (c, some answer) => (c, some ((answer.getD 0 0).getLsbD 0))
    | (c, none) => (c, none)

/-- How many whole bytes from `bit` on hold TMS low, up to what one command carries. -/
def byteShiftableBytes (tms : List Byte) (bit bitCount : Nat) : Nat :=
  ((List.range kMaximumShiftBytes).takeWhile fun bytes =>
    decide (bit + (bytes + 1) * 8 ≤ bitCount) &&
      (List.range 8).all fun index => !bitAt tms (bit + bytes * 8 + index)).length

def packByte (tdi : List Byte) (bit : Nat) : Byte :=
  (List.range 8).foldl (fun value offset =>
    if bitAt tdi (bit + offset) then value ||| 1#8 <<< offset else value) 0

def shiftBytes (tdi : List Byte) (bit bytes : Nat) (c : Cable) : Cable × Bool :=
  flushIfFull t (c.queue ((kByteShiftFlag ||| BitVec.ofNat 8 bytes) ::
    (List.range bytes).map fun index => packByte tdi (bit + index * 8)))

/-- The loop of `Shift`; the bits captured so far are there when TDO was asked for. -/
def shiftLoop (tms tdi : List Byte) (bitCount : Nat) :
    Nat → Nat → Cable → Option (List Byte) → Cable × Option (List Byte) × Bool
  | 0, _, c, tdo => (c, tdo, true)
  | turns + 1, bit, c, tdo =>
    if bitCount ≤ bit then (c, tdo, true)
    else
      let wholeBytes := if tdo.isNone then byteShiftableBytes tms bit bitCount else 0
      if 0 < wholeBytes then
        match shiftBytes t tdi bit wholeBytes c with
        | (c, false) => (c, tdo, false)
        | (c, true) => shiftLoop tms tdi bitCount turns (bit + wholeBytes * 8) c tdo
      else
        match shiftOneBit t (bitAt tms bit) (bitAt tdi bit) tdo.isSome c with
        | (c, none) => (c, tdo, false)
        | (c, some value) =>
          shiftLoop tms tdi bitCount turns (bit + 1) c (tdo.map fun bits => setBitAt bits bit value)

/-- `Shift`: the TDO bits, when they are wanted, and whether it went well. -/
def shift (tms tdi : List Byte) (bitCount : Nat) (capture : Bool) (c : Cable) :
    Cable × Option (List Byte) × Bool :=
  shiftLoop t tms tdi bitCount bitCount 0 c
    (if capture then some (List.replicate ((bitCount + 7) / 8) 0) else none)

/-- The whole bytes of `RunClock`, in commands of up to 63. -/
def runBytes : Nat → Nat → Cable → Cable × Bool
  | 0, _, c => (c, true)
  | commands + 1, bytes, c =>
    if bytes = 0 then (c, true)
    else
      let now := min bytes kMaximumShiftBytes
      match flushIfFull t (c.queue ((kByteShiftFlag ||| BitVec.ofNat 8 now) ::
          List.replicate now 0)) with
      | (c, false) => (c, false)
      | (c, true) => runBytes commands (bytes - now) c

def runBits : Nat → Cable → Cable × Bool
  | 0, c => (c, true)
  | bits + 1, c =>
    match shiftOneBit t false false false c with
    | (c, none) => (c, false)
    | (c, some _) => runBits bits c

def runClock (count : Nat) (c : Cable) : Cable × Bool :=
  match runBytes t (count / 8) (count / 8) c with
  | (c, false) => (c, false)
  | (c, true) => runBits t (count % 8) c

/-- The calls of `IJtagCable`. -/
inductive Call where
  | shift (tms tdi : List Byte) (bitCount : Nat) (capture : Bool)
  | runClock (count : Nat)
  | flush
  deriving DecidableEq

/-- A call, with the bits it captured and whether it went well. -/
def call (c : Cable) : Call → Cable × Option (List Byte) × Bool
  | .shift tms tdi bitCount capture => shift t tms tdi bitCount capture c
  | .runClock count => ((runClock t count c).1, none, (runClock t count c).2)
  | .flush => ((flush t c).1, none, (flush t c).2)

/-- Calls one after the other, up to the first that fails: what each captured. -/
def calls : Cable → List Call → Cable × List (Option (List Byte)) × Bool
  | c, [] => (c, [], true)
  | c, k :: rest =>
    match call t c k with
    | (c, captured, false) => (c, [captured], false)
    | (c, captured, true) =>
      ((calls c rest).1, captured :: (calls c rest).2.1, (calls c rest).2.2)

end Methods

end UsbBlaster
