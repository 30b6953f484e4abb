import Mathlib.Data.List.Basic
import Mathlib.Data.Nat.Find

/-!
# What a capture file is called

`ddd-gui/src/capture/capture_naming.cpp` and `capture_format.cpp`: the stem made of the
naming fields, the suffix of the output format, a number where the name is taken, and the
sidecar's path, which is the capture's with the suffix changed.
-/

namespace CaptureNaming

abbrev Text := List Char

/-- A path as its string. -/
abbrev Path := List Char

def number (n : Int) : Text := (if n < 0 then ['-'] else []) ++ Nat.toDigits 10 n.natAbs

def twoDigits (value : Int) : Text :=
  if (number value).length < 2 then '0' :: number value else number value

/-! ## The stem -/

/-- A broken down time, with the year and the month as a reader writes them. -/
structure Time where
  year : Int
  month : Nat
  day : Nat
  hour : Nat
  minute : Nat
  second : Nat

def kUnknownCaptureTimestamp : Text := "0000-00-00_00-00-00".toList

/-- `when` is what `BreakDownTime` made of the clock, if it could. -/
def formatCaptureTimestamp : Option Time → Text
  | none => kUnknownCaptureTimestamp
  | some when =>
    number when.year ++ ['-'] ++ twoDigits when.month ++ ['-'] ++ twoDigits when.day ++ ['_'] ++
      twoDigits when.hour ++ ['-'] ++ twoDigits when.minute ++ ['-'] ++ twoDigits when.second

def kCaptureNamePrefix : Text := "RF-Sample_".toList
def kTestCaptureNamePrefix : Text := "TestData_".toList

def defaultCaptureStem (testMode : Bool) (when : Option Time) : Text :=
  (if testMode then kTestCaptureNamePrefix else kCaptureNamePrefix) ++ formatCaptureTimestamp when

def kForbiddenCharacters : Text := "<>:\"/\\|?*".toList

def kReservedNames : List Text :=
  ["CON", "PRN", "AUX", "NUL", "COM1", "COM2", "COM3", "COM4", "COM5", "COM6", "COM7", "COM8",
    "COM9", "LPT1", "LPT2", "LPT3", "LPT4", "LPT5", "LPT6", "LPT7", "LPT8", "LPT9"].map String.toList

def isReservedName (text : Text) : Bool := kReservedNames.contains (text.map Char.toUpper)

/-- `std::isspace` of the C locale. -/
def isSpace (c : Char) : Bool := c = ' ' ∨ 9 ≤ c.toNat ∧ c.toNat ≤ 13

def keeps (c : Char) : Bool :=
  ¬ (c.toNat < 0x20 ∨ c.toNat = 0x7F) ∧ ¬ kForbiddenCharacters.contains c

def sanitiseCaptureStem (text : Text) : Text :=
  let result := (text.filter keeps).dropWhile isSpace
  let result := (result.reverse.dropWhile fun c => isSpace c ∨ c = '.').reverse
  if isReservedName result then [] else result

inductive DiscTypeChoice where
  | unset | cav | clv

inductive VideoStandardChoice where
  | unset | ntsc | pal

inductive AudioTypeChoice where
  | unset | default | analogue | ac3 | dts

def discTypeChoiceToken : DiscTypeChoice → Text
  | .cav => "CAV".toList
  | .clv => "CLV".toList
  | .unset => []

def videoStandardChoiceToken : VideoStandardChoice → Text
  | .ntsc => "NTSC".toList
  | .pal => "PAL".toList
  | .unset => []

def audioTypeChoiceToken : AudioTypeChoice → Text
  | .analogue => "ANA".toList
  | .ac3 => "AC3".toList
  | .dts => "DTS".toList
  | .default | .unset => []

/-- The fields that reach a name; one that is not used is `none`. -/
structure CaptureNamingFields where
  title : Option Text
  discType : Option DiscTypeChoice
  videoStandard : Option VideoStandardChoice
  audio : Option AudioTypeChoice
  side : Option Int
  notes : Option Text
  mintMarks : Option Text
  metadataInName : Bool

/-- A part of a name with its separator, where there is anything of it. -/
def part (token : Text) : Text := if token = [] then [] else token ++ ['_']

def buildCaptureStem (fields : CaptureNamingFields) (typedName : Text) (testMode : Bool)
    (when : Option Time) : Text :=
  if testMode then defaultCaptureStem true when
  else
    let typed := sanitiseCaptureStem typedName
    if typed ≠ [] then typed
    else
      let title := (fields.title.map sanitiseCaptureStem).getD []
      let name := if title = [] then kCaptureNamePrefix else title ++ ['_']
      let details (tokens : Text) := if fields.metadataInName then tokens else []
      name ++
        details (part ((fields.discType.map discTypeChoiceToken).getD []) ++
          part ((fields.videoStandard.map videoStandardChoiceToken).getD []) ++
          part ((fields.audio.map audioTypeChoiceToken).getD [])) ++
        (fields.side.map fun side => "side".toList ++ number side ++ ['_']).getD [] ++
        details (part ((fields.notes.map sanitiseCaptureStem).getD []) ++
          part ((fields.mintMarks.map sanitiseCaptureStem).getD [])) ++
        formatCaptureTimestamp when

/-- `seconds` is the length in whole seconds, where there is any. -/
def appendDurationToStem (stem : Text) : Option Nat → Text
  | none => stem
  | some whole =>
    stem ++ ['_'] ++ twoDigits ↑(whole / 3600) ++ ['H'] ++ twoDigits ↑(whole / 60 % 60) ++ ['M'] ++
      twoDigits ↑(whole % 60) ++ ['S']

/-! ## The suffix -/

inductive CaptureOutputFormat where
  | flac | signed16Bit
  deriving DecidableEq

def kCaptureFileSuffix : Text := ".ddd.flac".toList
def kSigned16BitCaptureFileSuffix : Text := ".ddd.s16".toList
def kCaptureMetadataSuffix : Text := ".ddd.yaml".toList

def captureFileSuffix : CaptureOutputFormat → Text
  | .flac => kCaptureFileSuffix
  | .signed16Bit => kSigned16BitCaptureFileSuffix

def addCaptureFileSuffix (stem : Text) (format : CaptureOutputFormat) : Text :=
  if captureFileSuffix format <:+ stem then stem else stem ++ captureFileSuffix format

def matchedCaptureFileSuffix (filePath : Path) : Text :=
  if kCaptureFileSuffix <:+ filePath then kCaptureFileSuffix
  else if kSigned16BitCaptureFileSuffix <:+ filePath then kSigned16BitCaptureFileSuffix
  else []

def stripCaptureFileSuffix (filePath : Path) : Path :=
  filePath.take (filePath.length - (matchedCaptureFileSuffix filePath).length)

def captureMetadataPath (capturePath : Path) : Path :=
  stripCaptureFileSuffix capturePath ++ kCaptureMetadataSuffix

/-! ## The path -/

/-- `directory / name`. -/
def inside (directory : Path) (name : Text) : Path :=
  if directory = [] ∨ directory.getLast? = some '/' then directory ++ name
  else directory ++ '/' :: name

def buildCapturePath (directory : Path) (stem : Text) (testMode : Bool) (when : Option Time)
    (format : CaptureOutputFormat) : Path :=
  let name := if testMode then defaultCaptureStem true when else sanitiseCaptureStem stem
  let name := if name = [] then defaultCaptureStem testMode when else name
  inside directory (addCaptureFileSuffix name format)

def kMaximumNameAttempts : Nat := 1000

/-- The name with the number of the copy in it; copy 0 is the name that was asked for. -/
def candidate (preferred : Path) : Nat → Path
  | 0 => preferred
  | copy + 1 => stripCaptureFileSuffix preferred ++ [' ', '('] ++ number ↑(copy + 1) ++ [')'] ++
      matchedCaptureFileSuffix preferred

/-- The loop over the copies, of which `left` are still to be tried. -/
def tryCopies (taken : Path → Bool) (preferred : Path) : Nat → Nat → Path
  | 0, copy => candidate preferred (copy - 1)
  | left + 1, copy =>
    if taken (candidate preferred copy) then tryCopies taken preferred left (copy + 1)
    else candidate preferred copy

def makeUniqueCapturePath (taken : Path → Bool) (preferred : Path) : Path :=
  tryCopies taken preferred kMaximumNameAttempts 0

theorem tryCopies_first {taken : Path → Bool} {preferred : Path} {left copy n : Nat}
    (fewer : n < left) (before : ∀ m < n, taken (candidate preferred (copy + m)) = true)
    (free : taken (candidate preferred (copy + n)) = false) :
    tryCopies taken preferred left copy = candidate preferred (copy + n) := by
  induction n generalizing left copy with
  | zero =>
    obtain ⟨left, rfl⟩ := Nat.exists_eq_add_one_of_ne_zero (Nat.ne_zero_of_lt fewer)
    rw [Nat.add_zero] at free
    rw [tryCopies, free]
    rfl
  | succ n ih =>
    obtain ⟨left, rfl⟩ := Nat.exists_eq_add_one_of_ne_zero (Nat.ne_zero_of_lt fewer)
    have first : taken (candidate preferred copy) = true := before 0 (Nat.succ_pos n)
    have next : copy + (n + 1) = copy + 1 + n := by omega
    rw [tryCopies, if_pos first, next]
    refine ih (by omega) (fun m less => ?_) (next ▸ free)
    have later := before (m + 1) (by omega)
    rwa [Nat.add_left_comm, Nat.add_comm] at later

theorem tryCopies_all {taken : Path → Bool} {preferred : Path} {left copy : Nat}
    (all : ∀ m < left, taken (candidate preferred (copy + m)) = true) :
    tryCopies taken preferred left copy = candidate preferred (copy + left - 1) := by
  induction left generalizing copy with
  | zero => rfl
  | succ left ih =>
    have first : taken (candidate preferred copy) = true := all 0 (Nat.succ_pos left)
    rw [tryCopies, if_pos first, ih fun m less => ?_]
    · congr 1
      omega
    · have later := all (m + 1) (by omega)
      rwa [Nat.add_left_comm, Nat.add_comm] at later

/-- Copy `n` is the first whose name is not taken, and it is one that is tried. -/
structure FirstFree (taken : Path → Bool) (preferred : Path) (n : Nat) : Prop where
  tried : n < kMaximumNameAttempts
  before : ∀ m < n, taken (candidate preferred m) = true
  free : taken (candidate preferred n) = false

theorem FirstFree.chosen {taken : Path → Bool} {preferred : Path} {n : Nat}
    (h : FirstFree taken preferred n) :
    makeUniqueCapturePath taken preferred = candidate preferred n := by
  have first : tryCopies taken preferred kMaximumNameAttempts 0 = candidate preferred (0 + n) := by
    refine tryCopies_first h.tried (fun m less => ?_) ?_
    · rw [Nat.zero_add]
      exact h.before m less
    · rw [Nat.zero_add]
      exact h.free
  rwa [Nat.zero_add] at first

theorem exists_firstFree {taken : Path → Bool} {preferred : Path} {n : Nat}
    (tried : n < kMaximumNameAttempts) (free : taken (candidate preferred n) = false) :
    ∃ m, FirstFree taken preferred m := by
  have some : ∃ n, taken (candidate preferred n) = false := ⟨n, free⟩
  refine ⟨Nat.find some, ?_, ?_, Nat.find_spec some⟩
  · exact Nat.lt_of_le_of_lt (Nat.find_min' some free) tried
  · intro m less
    simpa using Nat.find_min some less

/-- With every name taken the last one tried is used all the same. -/
theorem makeUnique_taken {taken : Path → Bool} {preferred : Path}
    (all : ∀ n < kMaximumNameAttempts, taken (candidate preferred n) = true) :
    taken (makeUniqueCapturePath taken preferred) = true := by
  have last : makeUniqueCapturePath taken preferred = candidate preferred (kMaximumNameAttempts - 1) := by
    have tried : tryCopies taken preferred kMaximumNameAttempts 0 =
        candidate preferred (0 + kMaximumNameAttempts - 1) := by
      refine tryCopies_all fun m less => ?_
      rw [Nat.zero_add]
      exact all m less
    rwa [Nat.zero_add] at tried
  rw [last]
  exact all _ (by decide)

theorem stripCaptureFileSuffix_append (filePath : Path) :
    stripCaptureFileSuffix filePath ++ matchedCaptureFileSuffix filePath = filePath := by
  have ends : matchedCaptureFileSuffix filePath <:+ filePath := by
    rw [matchedCaptureFileSuffix]
    split
    · assumption
    split
    · assumption
    · exact List.nil_suffix
  obtain ⟨front, whole⟩ := ends
  have length : filePath.length - (matchedCaptureFileSuffix filePath).length = front.length := by
    rw [← congrArg List.length whole, List.length_append, Nat.add_sub_cancel]
  have front' : filePath.take front.length = front := by
    rw [← whole, List.take_left]
  rw [stripCaptureFileSuffix, length, front']
  exact whole

/-- A sidecar is not the capture it is beside. -/
theorem captureMetadataPath_ne (capturePath : Path) : captureMetadataPath capturePath ≠ capturePath := by
  intro same
  have whole := stripCaptureFileSuffix_append capturePath
  rw [captureMetadataPath] at same
  have suffix : kCaptureMetadataSuffix = matchedCaptureFileSuffix capturePath :=
    List.append_cancel_left (same.trans whole.symm)
  rw [matchedCaptureFileSuffix] at suffix
  split at suffix
  · exact absurd suffix (by decide)
  split at suffix
  · exact absurd suffix (by decide)
  · exact absurd suffix (by decide)

end CaptureNaming
