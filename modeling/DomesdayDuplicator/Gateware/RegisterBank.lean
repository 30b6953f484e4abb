import DomesdayDuplicator.Gateware.SpiRegisters

/-!
# The register bank

What the SPI port is for: a transaction is a command and the bytes of data after it, at an
address that counts up after each one. Nothing here has a clock or a shift register, and only
the bytes of a transaction that are complete count.
-/

namespace RegisterBank

open SpiRegisters (Address Bank Parameters Surroundings addressInWindow addressNext
  everySample everySecondSample telemetryIdAddress)
open SerialBits

/-- The register that the `k`-th byte of data meets. -/
def pointer (start : Address) : Nat → Address
  | 0 => start
  | k + 1 => addressNext (pointer start k)

def isRead (command : Byte) : Bool := command.msb
def addressOf (command : Byte) : Address := command.setWidth 7

def store (p : Parameters) (a : Address) (byte : Byte) (bank : Bank) : Bank :=
  if a = 0x10 then { bank with testMode := byte }
  else if a = 0x11 then { bank with led := byte }
  else if a = 0x12 ∧ p.decimationPresent = true then
    { bank with decimation := if byte = everySecondSample then everySecondSample else everySample }
  else bank

/-- The bytes of data after one another, from the `k`-th on. -/
def storeFrom (p : Parameters) (start : Address) (k : Nat) : List Byte → Bank → Bank
  | [], bank => bank
  | byte :: rest, bank => storeFrom p start (k + 1) rest (store p (pointer start k) byte bank)

def transactBytes (p : Parameters) (bank : Bank) : List Byte → Bank
  | [] => bank
  | command :: data =>
    if isRead command then bank else storeFrom p (addressOf command) 0 data bank

def transact (p : Parameters) (bank : Bank) (bits : List Bool) : Bank :=
  transactBytes p bank (bytes bits)

/-- What leaves by the window when these are the bytes so far, the last one just complete. -/
def windowWritten : List Byte → Option (BitVec 2 × Byte)
  | [] => none
  | command :: data =>
    match data.getLast? with
    | none => none
    | some byte =>
      let a := pointer (addressOf command) (data.length - 1)
      if !isRead command && addressInWindow a then some (a.setWidth 2, byte) else none

/-- What a whole run of data sends out by the window. -/
def leaving (start : Address) (k : Nat) : List Byte → List (BitVec 2 × Byte)
  | [] => []
  | byte :: rest =>
    (if addressInWindow (pointer start k) then [((pointer start k).setWidth 2, byte)] else []) ++
      leaving start (k + 1) rest

def latches (p : Parameters) (sent : List Byte) : Bool :=
  p.telemetryPresent && sent == [0xC0]

variable {p : Parameters} {start : Address} {command byte : Byte} {data : List Byte} {bank : Bank}

theorem storeFrom_snoc (k : Nat) : storeFrom p start k (data ++ [byte]) bank =
    store p (pointer start (k + data.length)) byte (storeFrom p start k data bank) := by
  induction data generalizing k bank with
  | nil => rfl
  | cons first data ih =>
    have place : k + (first :: data).length = k + 1 + data.length := by
      rw [List.length_cons]
      omega
    rw [List.cons_append, storeFrom, ih, place, storeFrom]

theorem transactBytes_snoc : transactBytes p bank (command :: data ++ [byte]) =
    if isRead command then bank
    else store p (pointer (addressOf command) data.length) byte
      (transactBytes p bank (command :: data)) := by
  rw [List.cons_append, transactBytes, transactBytes, storeFrom_snoc, Nat.zero_add]
  split_ifs
  · rfl
  · rfl

theorem windowWritten_snoc : windowWritten (command :: data ++ [byte]) =
    if !isRead command && addressInWindow (pointer (addressOf command) data.length) then
      some ((pointer (addressOf command) data.length).setWidth 2, byte) else none := by
  simp only [List.cons_append, windowWritten, List.getLast?_concat, List.length_append,
    List.length_singleton, Nat.add_sub_cancel]

/-- The address stays at the bridge's data register once it is there. -/
theorem pointer_stays {k : Nat} (there : pointer start k = SpiRegisters.bridgeDataAddress)
    (j : Nat) : pointer start (k + j) = SpiRegisters.bridgeDataAddress := by
  induction j with
  | zero => exact there
  | succ j ih =>
    rw [← Nat.add_assoc, pointer, ih]
    rfl

/-- Up to there it counts. -/
theorem pointer_counts {k : Nat}
    (before : ∀ j < k, start + BitVec.ofNat 7 j ≠ SpiRegisters.bridgeDataAddress) :
    pointer start k = start + BitVec.ofNat 7 k := by
  induction k with
  | zero => simp [pointer]
  | succ k ih =>
    have here := ih fun j less => before j (by omega)
    rw [pointer, here, addressNext, if_neg (before k (by omega)), BitVec.add_assoc]
    congr 1
    exact (BitVec.ofNat_add k 1).symm

end RegisterBank
