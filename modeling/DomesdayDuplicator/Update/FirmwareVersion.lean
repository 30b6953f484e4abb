import DomesdayDuplicator.Update.UpdateManifest

/-!
# Which commit a version names

`ddd-gui/src/capture/firmware_version.cpp`: two stamps of different lengths, one of them
inside a USB product string, compared by the commit they name.
-/

namespace FirmwareVersion

open Manifest

def kMinimumCommitLength : Nat := 7

def isHexDigit (character : Byte) : Bool :=
  let code := character.toNat
  (0x30 ≤ code && code ≤ 0x39) || (0x61 ≤ code && code ≤ 0x66) || (0x41 ≤ code && code ≤ 0x46)

/-- `std::tolower` in the C locale. -/
def toLower (character : Byte) : Byte :=
  if 0x41 ≤ character.toNat ∧ character.toNat ≤ 0x5A then character + 0x20 else character

def dirtyMark : Text := text "-dirty"

/-- What stands before the first occurrence of a mark, or the whole text. -/
def beforeFirst (mark : Text) : Text → Text
  | [] => []
  | character :: rest =>
    if mark.isPrefixOf (character :: rest) then [] else character :: beforeFirst mark rest

def normaliseCommit (version : Text) : Option Text :=
  let version := beforeFirst dirtyMark version
  if version.length < kMinimumCommitLength then none
  else if !version.all isHexDigit then none
  else some (version.map toLower)

/-- What stands after the last occurrence of a character. -/
def afterLast (mark : Byte) : Text → Option Text
  | [] => none
  | character :: rest =>
    match afterLast mark rest with
    | some found => some found
    | none => if character = mark then some rest else none

/-- What stands before the first occurrence of a character. -/
def upTo (mark : Byte) : Text → Option Text
  | [] => none
  | character :: rest =>
    if character = mark then some [] else (upTo mark rest).map (character :: ·)

def openBracket : Byte := 0x28
def closeBracket : Byte := 0x29

def parseFirmwareCommit (productString : Text) : Option Text := do
  let inside ← afterLast openBracket productString
  let between ← upTo closeBracket inside
  normaliseCommit between

def commitsMatch (first second : Text) : Bool :=
  match normaliseCommit first, normaliseCommit second with
  | some left, some right =>
    let compared := min (min left.length right.length) 8
    left.take compared == right.take compared
  | _, _ => false

/-! ## Commits in their normal form -/

/-- A stamp as `NormaliseCommit` leaves it. -/
structure Normal (commit : Text) : Prop where
  long : kMinimumCommitLength ≤ commit.length
  hex : ∀ character ∈ commit, isHexDigit character = true
  lower : ∀ character ∈ commit, toLower character = character

theorem lower_hex : ∀ character : Byte, isHexDigit character = true →
    isHexDigit (toLower character) = true ∧ toLower (toLower character) = toLower character := by
  decide +kernel

theorem hex_plain : ∀ character : Byte, isHexDigit character = true →
    character ≠ openBracket ∧ character ≠ closeBracket ∧ character ≠ 0x2D := by
  decide +kernel

theorem normaliseCommit_normal {version commit : Text}
    (named : normaliseCommit version = some commit) : Normal commit := by
  simp only [normaliseCommit] at named
  split at named
  · cases named
  rename_i long
  split at named
  · cases named
  rename_i hex
  obtain rfl := Option.some.inj named
  have digits : ∀ character ∈ beforeFirst dirtyMark version, isHexDigit character = true := by
    simpa using hex
  constructor
  · rw [List.length_map]
    omega
  · intro character member
    obtain ⟨written, inside, rfl⟩ := List.mem_map.mp member
    exact (lower_hex written (digits written inside)).left
  · intro character member
    obtain ⟨written, inside, rfl⟩ := List.mem_map.mp member
    exact (lower_hex written (digits written inside)).right

theorem beforeFirst_dirty {commit : Text}
    (hex : ∀ character ∈ commit, isHexDigit character = true) :
    beforeFirst dirtyMark commit = commit := by
  induction commit with
  | nil => rfl
  | cons character rest ih =>
    have plain : ¬ dirtyMark.isPrefixOf (character :: rest) = true := by
      have differs := (hex_plain character (hex character (by simp))).right.right
      have mark : dirtyMark = 0x2D :: text "dirty" := by decide +kernel
      rw [mark, List.isPrefixOf_cons_cons, Bool.and_eq_true, beq_iff_eq]
      exact fun both => differs both.left.symm
    rw [beforeFirst, if_neg plain, ih fun c member => hex c (by simp [member])]

theorem Normal.normalised {commit : Text} (normal : Normal commit) :
    normaliseCommit commit = some commit := by
  have kept : commit.map toLower = commit := by
    rw [List.map_congr_left normal.lower, List.map_id']
  have hex : (!commit.all isHexDigit) = false := by
    simpa using normal.hex
  have long : ¬ commit.length < kMinimumCommitLength := Nat.not_lt.mpr normal.long
  simp only [normaliseCommit, beforeFirst_dirty normal.hex, if_neg long, hex, Bool.false_eq_true,
    if_false, kept]

/-- A commit matches the stamp it came from. -/
theorem commitsMatch_self {version commit : Text}
    (named : normaliseCommit version = some commit) : commitsMatch commit version = true := by
  simp [commitsMatch, (normaliseCommit_normal named).normalised, named]

theorem commitsMatch_names {first second : Text} (same : commitsMatch first second = true) :
    (normaliseCommit second).isSome := by
  simp only [commitsMatch] at same
  split at same
  · simp_all
  · cases same

theorem afterLast_absent {mark : Byte} {contents : Text} (absent : mark ∉ contents) :
    afterLast mark contents = none := by
  induction contents with
  | nil => rfl
  | cons character rest ih =>
    rw [List.mem_cons, not_or] at absent
    rw [afterLast, ih absent.right, if_neg fun same => absent.left same.symm]

theorem upTo_append {mark : Byte} {contents : Text} (absent : mark ∉ contents) (rest : Text) :
    upTo mark (contents ++ mark :: rest) = some contents := by
  induction contents with
  | nil => simp [upTo]
  | cons character tail ih =>
    rw [List.mem_cons, not_or] at absent
    rw [List.cons_append, upTo, if_neg fun same => absent.left same.symm, ih absent.right]
    rfl

/-- The product string of a device that runs a commit. -/
def productString (commit : Text) : Text := openBracket :: commit ++ [closeBracket]

theorem parseFirmwareCommit_productString {commit : Text} (normal : Normal commit) :
    parseFirmwareCommit (productString commit) = some commit := by
  have unopened : openBracket ∉ commit ++ [closeBracket] := by
    rw [List.mem_append, not_or]
    refine ⟨fun member => (hex_plain _ (normal.hex _ member)).left rfl, ?_⟩
    simp [openBracket, closeBracket]
  have unclosed : closeBracket ∉ commit :=
    fun member => (hex_plain _ (normal.hex _ member)).right.left rfl
  have inside : afterLast openBracket (productString commit) = some (commit ++ [closeBracket]) := by
    rw [productString, List.cons_append, afterLast, afterLast_absent unopened]
    simp
  rw [parseFirmwareCommit, inside]
  simp [upTo_append unclosed, normal.normalised]

end FirmwareVersion
