import DomesdayDuplicator.Jtag.UsbBlasterCable
import Mathlib.Data.List.TakeWhile
import Mathlib.Tactic.IntervalCases

/-!
# What the USB-Blaster's adapter makes of the bytes

The adapter of `usb_blaster_cable.h`: a bit-bang byte is a state of the pins, a byte-shift
command is followed by so many bytes of TDI. The bytes of the cable are always whole
commands, and they are the cycles it was asked for.
-/

namespace UsbBlaster

/-! ## The adapter -/

/-- What the adapter does: a cycle on the JTAG pins, or a byte with TDO back to the host. -/
inductive Pulse where
  | clock (tms tdi : Bool)
  | answer
  deriving DecidableEq

structure Adapter where
  tck : Bool
  /-- The data bytes that a byte-shift command is still to be given. -/
  left : Nat
  reading : Bool

def Adapter.byte (a : Adapter) (b : Byte) : Adapter × List Pulse :=
  if 0 < a.left then
    ({ a with left := a.left - 1 },
      (List.range 8).map (fun i => .clock false (b.getLsbD i)) ++
        if a.reading then [.answer] else [])
  else if b.getLsbD 7 then
    ({ a with left := (b &&& 0x3F).toNat, reading := b.getLsbD 6 }, [])
  else
    ({ a with tck := b.getLsbD 0 },
      (if b.getLsbD 6 then [.answer] else []) ++
        if b.getLsbD 0 && !a.tck then [.clock (b.getLsbD 1) (b.getLsbD 4)] else [])

def Adapter.bytes (a : Adapter) : List Byte → Adapter × List Pulse
  | [] => (a, [])
  | b :: rest =>
    let next := (a.byte b).1.bytes rest
    (next.1, (a.byte b).2 ++ next.2)

def Pulse.cycle : Pulse → Option (Bool × Bool)
  | .clock tms tdi => some (tms, tdi)
  | .answer => none

/-- The cycles among them. -/
def cycles (pulses : List Pulse) : List (Bool × Bool) := pulses.filterMap Pulse.cycle

/-- Bytes that are whole commands, and what the adapter does on them in any state. -/
def Speaks (bytes : List Byte) (pulses : List Pulse) : Prop :=
  ∀ a : Adapter, a.left = 0 → (a.bytes bytes).1.left = 0 ∧ (a.bytes bytes).2 = pulses

theorem bytes_append (a : Adapter) (first second : List Byte) :
    a.bytes (first ++ second) = (((a.bytes first).1.bytes second).1,
      (a.bytes first).2 ++ ((a.bytes first).1.bytes second).2) := by
  induction first generalizing a with
  | nil => rfl
  | cons b rest ih => simp [Adapter.bytes, ih]

theorem Speaks.nil : Speaks [] [] := fun _ idle => ⟨idle, rfl⟩

theorem Speaks.append {first second : List Byte} {p q : List Pulse} (h : Speaks first p)
    (h' : Speaks second q) : Speaks (first ++ second) (p ++ q) := by
  intro a idle
  obtain ⟨between, one⟩ := h a idle
  obtain ⟨after, two⟩ := h' _ between
  rw [bytes_append]
  exact ⟨after, by rw [one, two]⟩

def cyclePulses (tms tdi reading : Bool) : List Pulse :=
  (if reading then [.answer] else []) ++ [.clock tms tdi]

def Transfer.sent : Transfer → List Byte
  | .write bytes true => bytes
  | _ => []

def sentBytes (transfers : List Transfer) : List Byte := transfers.flatMap Transfer.sent

def Transfer.payload (packet : Nat) : Transfer → List Byte
  | .read (some bytes) => payloadOf packet bytes.length bytes
  | _ => []

/-- The payload the transport has delivered. -/
def delivered (packet : Nat) (transfers : List Transfer) : List Byte :=
  transfers.flatMap (Transfer.payload packet)

/-- Every read among them was answered by this transport. -/
def Made (t : Transport) (transfers : List Transfer) : Prop :=
  ∀ before r, before ++ [.read r] <+: transfers → r = t.read before

/-- What was sent and what waits are whole commands. -/
structure Holds (c : Cable) (pulses : List Pulse) : Prop where
  split : ∃ early late, Speaks (sentBytes c.transfers) early ∧ Speaks c.pending late ∧
    pulses = early ++ late

/-- What an operation does: all it was asked for and got payload `got`, or a beginning of it. -/
structure Does (t : Transport) (c c' : Cable) (ok : Bool) (asked : List Pulse)
    (got : List Byte) : Prop where
  whole : ok = true → ∀ pulses, Holds c pulses → Holds c' (pulses ++ asked)
  part : ok = false → ∀ pulses, Holds c pulses →
    ∃ early, Speaks (sentBytes c'.transfers) early ∧ early <+: pulses ++ asked
  made : Made t c.transfers → Made t c'.transfers
  payload : ok = true →
    delivered t.packet c'.transfers = delivered t.packet c.transfers ++ got

section Operations

variable {t : Transport} {c c₁ c₂ : Cable} {ok : Bool} {asked more : List Pulse}
  {got got' : List Byte}

theorem Does.refl : Does t c c true [] [] where
  whole := fun _ pulses holds => by rwa [List.append_nil]
  part := nofun
  made := id
  payload := fun _ => (List.append_nil _).symm

theorem Does.trans (first : Does t c c₁ true asked got) (second : Does t c₁ c₂ ok more got') :
    Does t c c₂ ok (asked ++ more) (got ++ got') where
  whole := fun went pulses holds => by
    rw [← List.append_assoc]
    exact second.whole went _ (first.whole rfl _ holds)
  part := fun failed pulses holds => by
    rw [← List.append_assoc]
    exact second.part failed _ (first.whole rfl _ holds)
  made := second.made ∘ first.made
  payload := fun went => by
    rw [second.payload went, first.payload rfl, List.append_assoc]

/-- After a failure nothing more is done. -/
theorem Does.fail (first : Does t c c₁ false asked got) (more : List Pulse) (got' : List Byte) :
    Does t c c₁ false (asked ++ more) got' where
  whole := nofun
  part := fun _ pulses holds => by
    obtain ⟨early, speaks, beginning⟩ := first.part rfl _ holds
    refine ⟨early, speaks, ?_⟩
    rw [← List.append_assoc]
    exact beginning.trans (List.prefix_append _ _)
  made := first.made
  payload := nofun

/-- What went well can still be refused. -/
theorem Does.refuse (done : Does t c c₁ true asked got) : Does t c c₁ false asked [] where
  whole := nofun
  part := fun _ pulses holds => by
    obtain ⟨early, late, sent, _, whole⟩ := done.whole rfl _ holds
    exact ⟨early, sent, ⟨late, whole.symm⟩⟩
  made := done.made
  payload := nofun

/-- The cycles of a scan from bit `first` on. -/
def scanPulses (tms tdi : List Byte) (capture : Bool) (first count : Nat) : List Pulse :=
  (List.range' first count).flatMap fun i => cyclePulses (bitAt tms i) (bitAt tdi i) capture

def idle (count : Nat) : List Pulse := List.replicate count (.clock false false)

/-- What a call asks of the adapter. -/
def Call.pulses : Call → List Pulse
  | .shift tms tdi bitCount capture => scanPulses tms tdi capture 0 bitCount
  | .runClock count => idle count
  | .flush => []

/-- The TDO bits a call returns, the first one first. -/
def Call.captured : Call → Option (List Byte) → List Bool
  | .shift _ _ bitCount true, some bits => (List.range bitCount).map (bitAt bits)
  | _, _ => []

/-- How many bits a call is to capture. -/
def Call.reads : Call → Nat
  | .shift _ _ bitCount true => bitCount
  | _ => 0

end Operations

/-! ## Answers in packets -/

section Answers

variable {t : Transport} {a : Adapter} {tdo : Nat → Byte}

end Answers

/-- The cycles a call asks for. -/
def Call.cycles (k : Call) : List (Bool × Bool) :=
  match k with
  | .shift tms tdi bitCount _ => (List.range bitCount).map fun i => (bitAt tms i, bitAt tdi i)
  | .runClock count => List.replicate count (false, false)
  | .flush => []

end UsbBlaster
