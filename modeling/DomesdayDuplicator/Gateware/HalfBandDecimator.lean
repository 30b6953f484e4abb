import DomesdayDuplicator.Foundations.ClockedCircuit

/-!
# The half-band decimator

`halfBandDecimator.v`, clock by clock: a history of 63 samples, the seven stages of the
pipeline behind it with one flag each, and the bypass. Every expression is taken at the
width it has in the source.
-/

namespace HalfBandDecimator

abbrev tapCount : Nat := 63
def centreTap : Fin tapCount := ⟨31, by decide⟩
def scaleBits : Nat := 15

def centreCoefficient : BitVec 16 := 16384#16
def roundOffset : BitVec 32 := 16384#32
def sampleOffset : BitVec 12 := 512#12
def sampleOffsetWide : BitVec 32 := 512#32
def minimumSample : BitVec 32 := 0#32
def maximumSample : BitVec 32 := 1023#32

/-- The generated table, the outermost pair lowest. -/
def coefficients : BitVec 256 :=
  10395#16 ++ -3373#16 ++ 1917#16 ++ -1261#16 ++
  877#16 ++ -623#16 ++ 443#16 ++ -311#16 ++
  214#16 ++ -143#16 ++ 92#16 ++ -56#16 ++
  32#16 ++ -16#16 ++ 7#16 ++ -2#16

def coefficient (pair : Fin 16) : BitVec 16 := coefficients.extractLsb' (16 * pair) 16

structure Pins where
  resetN : Bool
  sampleEnable : Bool
  dataIn : BitVec 10
  decimate : Bool

structure Registers where
  delay : Fin tapCount → BitVec 10
  outputPhase : Bool
  stageValid : Fin 7 → Bool
  preSum : Fin 16 → BitVec 12
  centreSample : BitVec 12
  product : Fin 16 → BitVec 32
  centreProduct : BitVec 32
  sumEight : Fin 8 → BitVec 32
  sumFour : Fin 4 → BitVec 32
  sumTwo : Fin 2 → BitVec 32
  total : BitVec 32
  filtered : BitVec 10

def reset : Registers where
  delay := fun _ => 0
  outputPhase := false
  stageValid := fun _ => false
  preSum := fun _ => 0
  centreSample := 0
  product := fun _ => 0
  centreProduct := 0
  sumEight := fun _ => 0
  sumFour := fun _ => 0
  sumTwo := fun _ => 0
  total := 0
  filtered := 0

/-! ## Between the registers -/

def outer (pair : Fin 16) : Fin tapCount := ⟨2 * pair, by rw [tapCount]; omega⟩

/-- The tap that mirrors `outer` about the centre. -/
def mirrored (pair : Fin 16) : Fin tapCount :=
  ⟨tapCount - 1 - 2 * pair, by rw [tapCount]; omega⟩

def even {n : Nat} (i : Fin n) : Fin (2 * n) := ⟨2 * i, by omega⟩
def odd {n : Nat} (i : Fin n) : Fin (2 * n) := ⟨2 * i + 1, by omega⟩

/-- A line of registers, each taking what the one before it held. -/
def shift {α : Type} {n : Nat} (first : α) (line : Fin (n + 1) → α) : Fin (n + 1) → α :=
  fun k => Fin.cases first (fun before => line before.castSucc) k

def centred (sample : BitVec 10) : BitVec 12 := sample.setWidth 12 - sampleOffset

def tapProduct (preSum : BitVec 12) (coefficient : BitVec 16) : BitVec 28 :=
  preSum.signExtend 28 * coefficient.signExtend 28

def tapProductWide (preSum : BitVec 12) (coefficient : BitVec 16) : BitVec 32 :=
  (tapProduct preSum coefficient).signExtend 32

def centreScaledWide (centreSample : BitVec 12) : BitVec 32 :=
  tapProductWide centreSample centreCoefficient

def scaled (total : BitVec 32) : BitVec 32 := (total + roundOffset).sshiftRight scaleBits

def recentred (total : BitVec 32) : BitVec 32 := scaled total + sampleOffsetWide

def clipped (total : BitVec 32) : BitVec 10 :=
  if (recentred total).slt minimumSample then 0#10
  else if maximumSample.slt (recentred total) then 1023#10
  else (recentred total).setWidth 10

/-- One edge of the clock, with the asynchronous reset in force or not. -/
def clock (i : Pins) (r : Registers) : Registers :=
  if i.resetN then
    { delay := if i.sampleEnable then shift i.dataIn r.delay else r.delay
      outputPhase := if i.sampleEnable then !r.outputPhase else r.outputPhase
      stageValid := shift (i.sampleEnable && r.outputPhase) r.stageValid
      preSum := fun pair => centred (r.delay (outer pair)) + centred (r.delay (mirrored pair))
      centreSample := centred (r.delay centreTap)
      product := fun pair => tapProductWide (r.preSum pair) (coefficient pair)
      centreProduct := centreScaledWide r.centreSample
      sumEight := fun k =>
        if k = 0 then r.product 0 + r.product 1 + r.centreProduct
        else r.product (even k) + r.product (odd k)
      sumFour := fun k => r.sumEight (even k) + r.sumEight (odd k)
      sumTwo := fun k => r.sumFour (even k) + r.sumFour (odd k)
      total := r.sumTwo 0 + r.sumTwo 1
      filtered := clipped r.total }
  else reset

/-! ## The outputs -/

/-- The registers as they stand while the reset is in force or not. -/
def present (resetN : Bool) (r : Registers) : Registers := if resetN then r else reset

def dataOut (i : Pins) (r : Registers) : BitVec 10 :=
  if i.decimate then (present i.resetN r).filtered else i.dataIn

def outputEnable (i : Pins) (r : Registers) : Bool :=
  if i.decimate then (present i.resetN r).stageValid 6 else i.sampleEnable

end HalfBandDecimator
