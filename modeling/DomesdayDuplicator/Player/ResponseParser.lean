import DomesdayDuplicator.Player.PlayerDefinition
import Mathlib.Data.List.DropRight
import Mathlib.Algebra.Ring.Nat

/-!
# Replies

What came back from the player, turned into something typed. A field the player did
not report, or could not determine, stays absent.
-/

namespace Player

inductive ReplyStatus where
  | ok | refused | noAnswer | unparseable | linkFailed | notConnected | unsupported
  | invalidArgument
  deriving DecidableEq, Repr

structure Reply where
  status : ReplyStatus := .noAnswer
  text : Text := []
  deriving DecidableEq

def Reply.ok (reply : Reply) : Bool := reply.status == .ok

/-- The two statuses that are about the link rather than about the disc. -/
def Reply.linkDown (reply : Reply) : Bool :=
  reply.status == .linkFailed || reply.status == .notConnected

def isDigit (c : Char) : Bool := decide ('0' ≤ c) && decide (c ≤ '9')

def isSpace (c : Char) : Bool :=
  c == ' ' || (decide (9 ≤ c.toNat) && decide (c.toNat ≤ 13))

def commandTerminator : Char := '\r'

def stripTerminator (raw : Text) : Text :=
  (raw.dropWhile isSpace).rdropWhile fun c => c == commandTerminator || c == '\n' || c == ' '

/-- `E` and at least one digit, and nothing else. -/
def isErrorCode (text : Text) : Bool :=
  decide (2 ≤ text.length) && text.head? == some 'E' && text.tail.all isDigit

/-! ## Player state -/

def parsePlayerState (raw : Text) (decode : StateDecode) : PlayerState :=
  let text := stripTerminator raw
  if text.isEmpty || !decode.start.isPrefixOf text then .unknown
  else ((decode.mappings.find? fun mapping => mapping.code.isPrefixOf text).map
    StateMapping.state).getD .unknown

/-- The reply says that the disc is moving. -/
def reportsSpinning (definition : PlayerDefinition) (reply : Reply) : Bool :=
  reply.ok && isSpinning (parsePlayerState reply.text definition.stateDecode)

/-! ## Addresses -/

structure DiscAddress where
  valid : Bool := false
  value : Int := -1
  inLeadIn : Bool := false
  inLeadOut : Bool := false
  deriving DecidableEq

def addressDigits (mode : AddressMode) (format : TimeCodeFormat) : Nat :=
  if mode = .frame then 5 else if format = .hmmss then 5 else 7

/-- Leading zeros are padding; a number that is all zeros keeps its last. -/
def significant (digits : Text) : Text :=
  if digits.all (· == '0') then digits.drop (digits.length - 1) else digits.dropWhile (· == '0')

def decimal (digits : Text) : Nat :=
  digits.foldl (fun value digit => value * 10 + (digit.toNat - '0'.toNat)) 0

/-- The lead-in and lead-out markers, and what follows them. -/
def addressMarks : Text → DiscAddress × Text
  | '<' :: rest => ({ inLeadIn := true }, rest)
  | '>' :: rest => ({ inLeadOut := true }, rest)
  | text => ({}, text)

def parseAddress (raw : Text) (mode : AddressMode) (format : TimeCodeFormat) : DiscAddress :=
  let (address, remaining) := addressMarks (stripTerminator raw)
  let leading := remaining.takeWhile isDigit
  if leading.isEmpty then address
  else
    let digits := significant leading
    if digits.length > addressDigits mode format then address
    else
      -- HMMSS lacks the frame field of the canonical form
      let scale := if mode = .timeCode ∧ format = .hmmss then 100 else 1
      { address with valid := true, value := decimal digits * scale }

theorem addressMarks_valid (text : Text) : (addressMarks text).1.valid = false := by
  unfold addressMarks
  split <;> rfl

theorem decimal_lt {digits : Text} (all : ∀ c ∈ digits, isDigit c = true) :
    decimal digits < 10 ^ digits.length := by
  suffices h : ∀ value, digits.foldl
      (fun value digit => value * 10 + (digit.toNat - '0'.toNat)) value <
      (value + 1) * 10 ^ digits.length by
    simpa [decimal] using h 0
  induction digits with
  | nil =>
    intro value
    simp
  | cons c rest ih =>
    intro value
    have small : c.toNat - '0'.toNat ≤ 9 := by
      have digit := all c (by simp)
      simp only [isDigit, Bool.and_eq_true, decide_eq_true_eq] at digit
      have upper : c.toNat ≤ '9'.toNat := digit.2
      have : '9'.toNat = 57 := rfl
      have : '0'.toNat = 48 := rfl
      omega
    have later := ih (fun d hd => all d (by simp [hd])) (value * 10 + (c.toNat - '0'.toNat))
    calc rest.foldl _ (value * 10 + (c.toNat - '0'.toNat))
        < (value * 10 + (c.toNat - '0'.toNat) + 1) * 10 ^ rest.length := later
      _ ≤ ((value + 1) * 10) * 10 ^ rest.length := Nat.mul_le_mul_right _ (by omega)
      _ = (value + 1) * 10 ^ (c :: rest).length := by
          rw [List.length_cons, Nat.pow_succ, Nat.mul_assoc, Nat.mul_comm 10]

theorem significant_digits {digits : Text} (all : ∀ c ∈ digits, isDigit c = true) :
    ∀ c ∈ significant digits, isDigit c = true := by
  intro c member
  unfold significant at member
  split at member
  · exact all c (List.mem_of_mem_drop member)
  · exact all c ((List.dropWhile_sublist _).mem member)

/-- A valid address is a number of at most seven digits, whatever the player sent. -/
theorem parseAddress_bounds {raw : Text} {mode : AddressMode} {format : TimeCodeFormat}
    (valid : (parseAddress raw mode format).valid = true) :
    0 ≤ (parseAddress raw mode format).value ∧
      (parseAddress raw mode format).value < 10000000 := by
  have unmarked := addressMarks_valid (stripTerminator raw)
  revert valid
  unfold parseAddress
  generalize addressMarks (stripTerminator raw) = marks at unmarked
  obtain ⟨address, remaining⟩ := marks
  dsimp only at unmarked ⊢
  split
  · intro valid
    exact absurd valid (by simp [unmarked])
  split
  · intro valid
    exact absurd valid (by simp [unmarked])
  rename_i short
  intro _
  simp only [not_lt] at short
  have digits : ∀ c ∈ remaining.takeWhile isDigit, isDigit c = true :=
    fun c hc => List.mem_takeWhile_imp hc
  have bound := decimal_lt (significant_digits digits)
  have wide := Nat.pow_le_pow_right (n := 10) (by decide) short
  generalize decimal (significant (remaining.takeWhile isDigit)) = value at bound ⊢
  cases mode <;> cases format <;>
    simp only [addressDigits, reduceCtorEq, and_true, and_false, if_true, if_false] at wide ⊢ <;>
    omega

/-! ## Disc status -/

structure DiscStatus where
  valid : Bool := false
  loaded : Option Bool := none
  type : DiscType := .unknown
  size : DiscSize := .unknown
  side : Option Int := none
  chapters : Option Bool := none
  deriving DecidableEq

def statusFlag (text : Text) (field : ReplyField) : Option Bool :=
  match field.bind (text[·]?) with
  | some '0' => some false
  | some '1' => some true
  | _ => none

/-- Long enough to hold every field the model claims to report. -/
def neededLength (fields : List ReplyField) : Nat :=
  fields.foldl (fun needed field => max needed ((field.map (· + 1)).getD 0)) 0

def parseDiscStatus (raw : Text) (decode : DiscStatusDecode) : DiscStatus :=
  let text := stripTerminator raw
  let fields := [decode.discLoaded, decode.discType, decode.discSize, decode.discSide,
    decode.chapters]
  if text.length < neededLength fields then {}
  else
    { valid := true
      loaded := statusFlag text decode.discLoaded
      chapters := statusFlag text decode.chapters
      type := match statusFlag text decode.discType with
        | some clv => if clv then .clv else .cav
        | none => .unknown
      size := match statusFlag text decode.discSize with
        | some small => if small then .cm20 else .cm30
        | none => .unknown
      side := (statusFlag text decode.discSide).map fun second => if second then 2 else 1 }

structure TvSystem where
  valid : Bool := false
  disc : VideoStandard := .unknown
  output : VideoStandard := .unknown
  externalSync : VideoStandard := .unknown
  deriving DecidableEq

def standardAt (text : Text) (field : ReplyField) : VideoStandard :=
  match field.bind (text[·]?) with
  | some '1' => .ntsc
  | some '2' => .pal
  | _ => .unknown

def parseTvSystem (raw : Text) (decode : TvSystemDecode) : TvSystem :=
  let text := stripTerminator raw
  if text.length < neededLength [decode.output, decode.disc, decode.externalSync] then {}
  else
    { valid := true
      output := standardAt text decode.output
      disc := standardAt text decode.disc
      externalSync := standardAt text decode.externalSync }

end Player
