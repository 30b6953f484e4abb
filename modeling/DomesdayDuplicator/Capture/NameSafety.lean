import DomesdayDuplicator.Capture.CaptureNaming
import Mathlib.Data.List.DropRight
import Mathlib.Tactic.IntervalCases

/-!
# Which capture names are safe

A safe file name has none of the characters that are taken out, nothing loose before its
extension, and is no device of Windows up to its first dot. `SanitiseCaptureStem` looks at the
whole stem only, so what stands before a dot of its own, or before a suffix that was typed along,
gets past it.
-/

namespace NameSafety

open CaptureNaming

/-- A trailing character that is taken off. -/
def trails (c : Char) : Bool := isSpace c ∨ c = '.'

structure SafeName (format : CaptureOutputFormat) (name : Text) : Prop where
  filled : name ≠ []
  characters : ∀ c ∈ name, keeps c = true
  ends : ∃ base, name = base ++ captureFileSuffix format ∧ ∀ c ∈ base.getLast?, c ≠ '.' ∧ c ≠ ' '
  device : isReservedName (name.takeWhile (· ≠ '.')) = false

/-- A direct child of the directory, with a safe name. -/
def SafePath (format : CaptureOutputFormat) (directory path : Path) : Prop :=
  ∃ name, path = inside directory name ∧ SafeName format name

/-! ## What a text sanitises to -/

/-- The stem before it is looked up among the devices. -/
def trimmed (text : Text) : Text :=
  ((text.filter keeps).dropWhile isSpace).rdropWhile trails

theorem sanitise_eq (text : Text) :
    sanitiseCaptureStem text = if isReservedName (trimmed text) then [] else trimmed text := rfl

/-- Nothing in front or behind that would be taken off. -/
structure Tight (text : Text) : Prop where
  head : ∀ c ∈ text.head?, isSpace c = false
  last : ∀ c ∈ text.getLast?, trails c = false

theorem tight_nil : Tight [] where
  head := by simp
  last := by simp

theorem tight_ends {text : Text} {first last : Char} (head : text.head? = some first)
    (ends : text.getLast? = some last) (spaced : isSpace first = false)
    (loose : trails last = false) : Tight text where
  head := by
    intro c here
    rw [head] at here
    rwa [← Option.some.inj here]
  last := by
    intro c here
    rw [ends] at here
    rwa [← Option.some.inj here]

theorem trimmed_tight (text : Text) : Tight (trimmed text) where
  head := by
    intro c here
    obtain ⟨rest, whole⟩ := List.rdropWhile_prefix trails ((text.filter keeps).dropWhile isSpace)
    have first : c ∈ ((text.filter keeps).dropWhile isSpace).head? := by
      rw [← whole, List.head?_append]
      rw [Option.mem_def, trimmed] at here
      rw [here]
      rfl
    have stopped := List.head?_dropWhile_not isSpace (text.filter keeps)
    rw [Option.mem_def.mp first] at stopped
    exact stopped
  last := by
    intro c here
    obtain ⟨filled, rfl⟩ := List.mem_getLast?_eq_getLast here
    exact eq_false_of_ne_true (List.rdropWhile_last_not trails _ filled)

theorem dropWhile_run {p : Char → Bool} {lead rest : Text} (all : ∀ c ∈ lead, p c = true)
    (stop : ∀ c ∈ rest.head?, p c = false) : (lead ++ rest).dropWhile p = rest := by
  rw [List.dropWhile_append_of_pos all]
  cases rest with
  | nil => rfl
  | cons c rest => exact List.dropWhile_cons_of_neg (by simp [stop c rfl])

theorem rdropWhile_run {p : Char → Bool} {front trail : Text} (all : ∀ c ∈ trail, p c = true)
    (stop : ∀ c ∈ front.getLast?, p c = false) : (front ++ trail).rdropWhile p = front := by
  rw [List.rdropWhile, List.reverse_append, dropWhile_run, List.reverse_reverse]
  · intro c here
    exact all c (List.mem_reverse.mp here)
  · intro c here
    exact stop c (by rwa [List.head?_reverse] at here)

/-- However the kept characters are cut, what is tight between spaces and dots is what stays. -/
theorem trimmed_eq {text lead middle trail : Text}
    (kept : text.filter keeps = lead ++ middle ++ trail) (spaces : ∀ c ∈ lead, isSpace c = true) (loose : ∀ c ∈ trail, trails c = true)
    (tight : Tight middle) : trimmed text = middle := by
  rw [trimmed, kept]
  cases middle with
  | nil =>
    rw [List.append_nil, List.dropWhile_append_of_pos spaces, List.rdropWhile_eq_nil_iff]
    intro c here
    exact loose c (List.dropWhile_sublist isSpace |>.mem here)
  | cons c rest =>
    rw [List.append_assoc, dropWhile_run spaces, rdropWhile_run loose tight.last]
    intro d here
    exact tight.head d here

theorem trimmed_parts (text : Text) :
    ∃ lead trail, text.filter keeps = lead ++ trimmed text ++ trail ∧
      (∀ c ∈ lead, isSpace c = true) ∧ ∀ c ∈ trail, trails c = true := by
  refine ⟨(text.filter keeps).takeWhile isSpace,
    ((text.filter keeps).dropWhile isSpace).rtakeWhile trails, ?_, ?_, ?_⟩
  · rw [trimmed, List.append_assoc, List.rdropWhile_append_rtakeWhile]
    exact List.takeWhile_append_dropWhile.symm
  · intro c here
    exact List.mem_takeWhile_imp here
  · intro c here
    exact List.mem_rtakeWhile_imp here

theorem reserved_facts {text : Text} (reserved : isReservedName text = true) :
    text ≠ [] ∧ ∀ c ∈ text, c ≠ '.' ∧ c ≠ ' ' ∧ c ≠ '_' ∧ isSpace c = false := by
  have listed : text.map Char.toUpper ∈ kReservedNames := by
    simpa [isReservedName] using reserved
  have names : kReservedNames.all (fun name => decide (name ≠ []) &&
      name.all fun c => decide (c ≠ '.' ∧ c ≠ ' ' ∧ c ≠ '_' ∧ isSpace c = false)) = true := by
    decide
  have name := List.all_eq_true.mp names _ listed
  rw [Bool.and_eq_true, decide_eq_true_eq] at name
  obtain ⟨filled, upper⟩ := name
  refine ⟨by simpa using filled, fun c here => ?_⟩
  have raised := of_decide_eq_true (List.all_eq_true.mp upper c.toUpper (List.mem_map_of_mem here))
  refine ⟨?_, ?_, ?_, ?_⟩
  · rintro rfl
    exact raised.1 (by decide)
  · rintro rfl
    exact raised.2.1 (by decide)
  · rintro rfl
    exact raised.2.2.1 (by decide)
  · by_contra spaced
    have space := eq_true_of_ne_false spaced
    have small : c.toNat ≤ 32 := by
      simp only [isSpace, decide_eq_true_eq] at space
      rcases space with rfl | within
      · decide
      · omega
    have same : c.toUpper = c := by
      refine dif_neg fun letter => ?_
      have large : 97 ≤ c.toNat := UInt32.le_iff_toNat_le.mp letter.1
      omega
    rw [same] at raised
    exact spaced raised.2.2.2

theorem reserved_tight {text : Text} (reserved : isReservedName text = true) : Tight text where
  head := by
    intro c here
    exact ((reserved_facts reserved).2 c (List.mem_of_mem_head? here)).2.2.2
  last := by
    intro c here
    have facts := (reserved_facts reserved).2 c (List.mem_of_mem_getLast? here)
    simp [trails, facts]

/-- What `SanitiseCaptureStem` leaves alone. -/
structure Sound (stem : Text) : Prop where
  characters : ∀ c ∈ stem, keeps c = true
  tight : Tight stem
  free : isReservedName stem = false

theorem Sound.kept {stem : Text} (h : Sound stem) : sanitiseCaptureStem stem = stem := by
  have whole : stem.filter keeps = [] ++ stem ++ [] := by
    rw [List.nil_append, List.append_nil]
    exact List.filter_eq_self.mpr h.characters
  rw [sanitise_eq, trimmed_eq whole (by simp) (by simp) h.tight, h.free]
  rfl

theorem sanitise_sound (text : Text) : Sound (sanitiseCaptureStem text) := by
  rw [sanitise_eq]
  split
  · constructor
    · simp
    · exact tight_nil
    · rfl
  · rename_i free
    constructor
    · intro c here
      have inner : c ∈ text.filter keeps := by
        have dropped := (List.rdropWhile_prefix trails _).mem here
        exact (List.dropWhile_sublist isSpace).mem dropped
      exact (List.mem_filter.mp inner).2
    · exact trimmed_tight text
    · exact eq_false_of_ne_true free

theorem sanitise_idempotent (text : Text) :
    sanitiseCaptureStem (sanitiseCaptureStem text) = sanitiseCaptureStem text :=
  (sanitise_sound text).kept

theorem sanitise_parts {text : Text} (filled : sanitiseCaptureStem text ≠ []) :
    sanitiseCaptureStem text = trimmed text ∧ isReservedName (trimmed text) = false := by
  rw [sanitise_eq] at filled ⊢
  split
  · rename_i reserved
    rw [if_pos reserved] at filled
    exact absurd rfl filled
  · rename_i free
    exact ⟨rfl, eq_false_of_ne_true free⟩

/-! ## The texts that come out unsafe, by their kept characters -/

/-- Nothing is left of the text, or a device's name is. -/
def Unusable (text : Text) : Prop :=
  ∃ lead name trail, text.filter keeps = lead ++ name ++ trail ∧ (∀ c ∈ lead, isSpace c = true) ∧
    (∀ c ∈ trail, trails c = true) ∧ (name = [] ∨ isReservedName name = true)

/-- A device's name stands before the first dot, with something to keep behind it. -/
def Device (text : Text) : Prop :=
  ∃ lead name rest, text.filter keeps = lead ++ name ++ '.' :: rest ∧
    (∀ c ∈ lead, isSpace c = true) ∧ isReservedName name = true ∧ ∃ c ∈ rest, trails c = false

/-- The suffix was typed along, with a dot or a space before it. -/
def Loose (format : CaptureOutputFormat) (text : Text) : Prop :=
  ∃ front c trail, text.filter keeps = front ++ [c] ++ captureFileSuffix format ++ trail ∧
    (c = '.' ∨ c = ' ') ∧ (∀ d ∈ trail, trails d = true) ∧ ∃ d ∈ front ++ [c], isSpace d = false

theorem unusable_iff (text : Text) : Unusable text ↔ sanitiseCaptureStem text = [] := by
  constructor
  · rintro ⟨lead, name, trail, kept, spaces, loose, none | reserved⟩
    · rw [sanitise_eq, trimmed_eq kept spaces loose (none ▸ tight_nil), none]
      rfl
    · rw [sanitise_eq, trimmed_eq kept spaces loose (reserved_tight reserved), if_pos reserved]
  · intro empty
    obtain ⟨lead, trail, kept, spaces, loose⟩ := trimmed_parts text
    refine ⟨lead, trimmed text, trail, kept, spaces, loose, ?_⟩
    rw [sanitise_eq] at empty
    by_cases reserved : isReservedName (trimmed text) = true
    · exact Or.inr reserved
    · rw [if_neg reserved] at empty
      exact Or.inl empty

/-- The last of the characters that stays, with what is taken off behind it. -/
theorem exists_last {rest : Text} (stays : ∃ c ∈ rest, trails c = false) :
    ∃ front c trail, rest = front ++ [c] ++ trail ∧ trails c = false ∧
      ∀ d ∈ trail, trails d = true := by
  have filled : rest.rdropWhile trails ≠ [] := by
    intro none
    obtain ⟨c, here, kept⟩ := stays
    rw [List.rdropWhile_eq_nil_iff.mp none c here] at kept
    exact Bool.noConfusion kept
  refine ⟨(rest.rdropWhile trails).dropLast, (rest.rdropWhile trails).getLast filled,
    rest.rtakeWhile trails, ?_, ?_, ?_⟩
  · rw [List.dropLast_append_getLast, List.rdropWhile_append_rtakeWhile]
  · exact eq_false_of_ne_true (List.rdropWhile_last_not trails rest filled)
  · intro d here
    exact List.mem_rtakeWhile_imp here

theorem takeWhile_dot {name rest : Text} (none : ∀ c ∈ name, c ≠ '.') :
    (name ++ '.' :: rest).takeWhile (· ≠ '.') = name := by
  rw [List.takeWhile_append_of_pos (by simpa using none)]
  simp

theorem device_iff (text : Text) :
    Device text ↔ isReservedName ((sanitiseCaptureStem text).takeWhile (· ≠ '.')) = true := by
  constructor
  · rintro ⟨lead, name, rest, kept, spaces, reserved, stays⟩
    obtain ⟨front, c, trail, rfl, last, loose⟩ := exists_last stays
    obtain ⟨filled, clean⟩ := reserved_facts reserved
    have tight : Tight (name ++ '.' :: (front ++ [c])) := by
      constructor
      · intro d here
        rw [List.head?_append_of_ne_nil name filled] at here
        exact (reserved_tight reserved).head d here
      · intro d here
        have same : c = d := by simpa [List.getLast?_append, List.getLast?_cons] using here
        rw [← same]
        exact last
    have whole : trimmed text = name ++ '.' :: (front ++ [c]) := by
      have cut : text.filter keeps = lead ++ (name ++ '.' :: (front ++ [c])) ++ trail := by
        rw [kept]
        simp
      exact trimmed_eq cut spaces loose tight
    have free : isReservedName (name ++ '.' :: (front ++ [c])) = false := by
      by_contra device
      have dotted := (reserved_facts (eq_true_of_ne_false device)).2 '.' (by simp)
      exact dotted.1 rfl
    rw [sanitise_eq, whole, free, if_neg Bool.false_ne_true,
      takeWhile_dot fun d here => (clean d here).1]
    exact reserved
  · intro reserved
    have filled : sanitiseCaptureStem text ≠ [] := by
      intro none
      rw [none] at reserved
      exact Bool.noConfusion reserved
    obtain ⟨same, free⟩ := sanitise_parts filled
    rw [same] at reserved
    obtain ⟨lead, trail, kept, spaces, loose⟩ := trimmed_parts text
    have cut := List.takeWhile_append_dropWhile (p := (· ≠ '.')) (l := trimmed text)
    cases behind : (trimmed text).dropWhile (· ≠ '.') with
    | nil =>
      rw [behind, List.append_nil] at cut
      rw [cut, free] at reserved
      exact Bool.noConfusion reserved
    | cons c rest =>
      have dot : c = '.' := by
        have stopped := List.head?_dropWhile_not (· ≠ '.') (trimmed text)
        rw [behind] at stopped
        simpa using stopped
      rw [behind, dot] at cut
      refine ⟨lead, (trimmed text).takeWhile (· ≠ '.'), rest ++ trail, ?_, spaces, reserved, ?_⟩
      · rw [kept]
        nth_rewrite 1 [← cut]
        simp
      · have last := (trimmed_tight text).last
        rw [← cut] at last
        cases ends : rest.getLast? with
        | none =>
          rw [List.getLast?_eq_none_iff.mp ends] at last
          have dotted := last '.' (by simp)
          exact absurd dotted (by decide)
        | some d =>
          refine ⟨d, List.mem_append_left _ (List.mem_of_getLast? ends), last d ?_⟩
          simp [List.getLast?_append, List.getLast?_cons, ends]

theorem suffix_facts (format : CaptureOutputFormat) :
    (captureFileSuffix format).head? = some '.' ∧ (∀ c ∈ captureFileSuffix format, keeps c = true) ∧
      Tight (captureFileSuffix format) := by
  cases format
  · exact ⟨rfl, List.all_eq_true.mp (by decide), @tight_ends _ '.' 'c' rfl rfl rfl rfl⟩
  · exact ⟨rfl, List.all_eq_true.mp (by decide), @tight_ends _ '.' '6' rfl rfl rfl rfl⟩

theorem suffix_cons (format : CaptureOutputFormat) :
    ∃ rest, captureFileSuffix format = '.' :: rest :=
  List.head?_eq_some_iff.mp (suffix_facts format).1

theorem loose_iff (format : CaptureOutputFormat) (text : Text) :
    Loose format text ↔ ∃ base, sanitiseCaptureStem text = base ++ captureFileSuffix format ∧
      ∃ c ∈ base.getLast?, c = '.' ∨ c = ' ' := by
  obtain ⟨after, suffix⟩ := suffix_cons format
  constructor
  · rintro ⟨front, c, trail, kept, loose, spare, d, inside, letter⟩
    have cut := List.takeWhile_append_dropWhile (p := isSpace) (l := front ++ [c])
    cases body : (front ++ [c]).dropWhile isSpace with
    | nil =>
      rw [List.dropWhile_eq_nil_iff.mp body d inside] at letter
      exact Bool.noConfusion letter
    | cons e base =>
      rw [body] at cut
      have tight : Tight (e :: base ++ captureFileSuffix format) := by
        constructor
        · intro f here
          have stopped := List.head?_dropWhile_not isSpace (front ++ [c])
          rw [body] at stopped
          rw [← Option.some.inj (Option.mem_def.mp here)]
          exact stopped
        · intro f here
          rw [suffix, List.getLast?_append_of_ne_nil _ (List.cons_ne_nil _ _), ← suffix] at here
          exact (suffix_facts format).2.2.last f here
      have cut' : text.filter keeps = (front ++ [c]).takeWhile isSpace ++
          (e :: base ++ captureFileSuffix format) ++ trail := by
        rw [kept]
        nth_rewrite 1 [← cut]
        simp
      have whole : trimmed text = e :: base ++ captureFileSuffix format :=
        trimmed_eq cut' (fun f here => List.mem_takeWhile_imp here) spare tight
      have free : isReservedName (e :: base ++ captureFileSuffix format) = false := by
        by_contra device
        have dotted := (reserved_facts (eq_true_of_ne_false device)).2 '.' (by simp [suffix])
        exact dotted.1 rfl
      refine ⟨e :: base, ?_, c, ?_, loose⟩
      · rw [sanitise_eq, whole, free]
        rfl
      · have ends : (front ++ [c]).getLast? = some c := by simp
        rw [← cut, List.getLast?_append_of_ne_nil _ (List.cons_ne_nil _ _)] at ends
        exact ends
  · rintro ⟨base, whole, c, last, loose⟩
    have filled : sanitiseCaptureStem text ≠ [] := by
      rw [whole, suffix]
      simp
    obtain ⟨same, -⟩ := sanitise_parts filled
    rw [same] at whole
    obtain ⟨lead, trail, kept, -, spare⟩ := trimmed_parts text
    obtain ⟨front, rfl⟩ := List.getLast?_eq_some_iff.mp last
    refine ⟨lead ++ front, c, trail, ?_, loose, spare, ?_⟩
    · rw [kept, whole]
      simp
    · have head := (trimmed_tight text).head
      rw [whole] at head
      cases front with
      | nil =>
        exact ⟨c, by simp, head c rfl⟩
      | cons d front =>
        exact ⟨d, by simp, head d rfl⟩

/-! ## The name of a stem -/

/-- The stem has the suffix, with a dot or a space before it. -/
def LooseStem (format : CaptureOutputFormat) (stem : Text) : Prop :=
  ∃ base, stem = base ++ captureFileSuffix format ∧ ∃ c ∈ base.getLast?, c = '.' ∨ c = ' '

theorem takeWhile_suffix (format : CaptureOutputFormat) (stem : Text) :
    (stem ++ captureFileSuffix format).takeWhile (· ≠ '.') = stem.takeWhile (· ≠ '.') := by
  obtain ⟨after, suffix⟩ := suffix_cons format
  rw [suffix, List.takeWhile_append]
  split
  · rename_i whole
    rw [(List.takeWhile_prefix _).eq_of_length whole]
    simp
  · rfl

theorem safeName_iff {format : CaptureOutputFormat} {stem : Text} (sound : Sound stem)
    (filled : stem ≠ []) :
    SafeName format (addCaptureFileSuffix stem format) ↔
      isReservedName (stem.takeWhile (· ≠ '.')) = false ∧ ¬ LooseStem format stem := by
  obtain ⟨-, kept, -⟩ := suffix_facts format
  rw [addCaptureFileSuffix]
  split
  · rename_i typed
    constructor
    · intro safe
      refine ⟨safe.device, ?_⟩
      rintro ⟨base, whole, c, last, loose⟩
      obtain ⟨base', whole', clean⟩ := safe.ends
      have same : base = base' := List.append_cancel_right (whole.symm.trans whole')
      have neither := clean c (same ▸ last)
      rcases loose with dot | space
      · exact neither.1 dot
      · exact neither.2 space
    · rintro ⟨device, tidy⟩
      obtain ⟨base, whole⟩ := typed
      refine ⟨filled, sound.characters, ⟨base, whole.symm, ?_⟩, device⟩
      intro c last
      constructor
      · intro dot
        exact tidy ⟨base, whole.symm, c, last, Or.inl dot⟩
      · intro space
        exact tidy ⟨base, whole.symm, c, last, Or.inr space⟩
  · rename_i untyped
    constructor
    · intro safe
      refine ⟨takeWhile_suffix format stem ▸ safe.device, ?_⟩
      rintro ⟨base, whole, -⟩
      exact untyped ⟨base, whole.symm⟩
    · rintro ⟨device, -⟩
      refine ⟨by simp [filled], ?_, ⟨stem, rfl, ?_⟩, ?_⟩
      · intro c here
        rcases List.mem_append.mp here with own | added
        · exact sound.characters c own
        · exact kept c added
      · intro c last
        have stays := sound.tight.last c last
        constructor
        · rintro rfl
          exact absurd stays (by decide)
        · rintro rfl
          exact absurd stays (by decide)
      · rw [takeWhile_suffix]
        exact device

/-! ## Stems with a timestamp -/

theorem digit_facts {c : Char} (digit : c.isDigit = true) : keeps c = true ∧ trails c = false := by
  have listed : ∀ n, 48 ≤ n → n ≤ 57 →
      keeps (Char.ofNat n) = true ∧ trails (Char.ofNat n) = false := by
    intro n least most
    interval_cases n <;> decide
  simp only [Char.isDigit, Bool.and_eq_true, decide_eq_true_eq] at digit
  have least : 48 ≤ c.toNat := UInt32.le_iff_toNat_le.mp digit.1
  have most : c.toNat ≤ 57 := UInt32.le_iff_toNat_le.mp digit.2
  rw [← Char.ofNat_toNat c]
  exact listed c.toNat least most

/-- A stem that ends in a `-` and digits. -/
def Dated (stem : Text) : Prop :=
  ∃ front digits, stem = front ++ '-' :: digits ∧ digits ≠ [] ∧ ∀ c ∈ digits, c.isDigit = true

/-- The last character that is no digit. -/
def lastLetter (text : Text) : Option Char := (text.rdropWhile Char.isDigit).getLast?

theorem lastLetter_digits {front digits : Text} {c : Char} (letter : c.isDigit = false)
    (all : ∀ d ∈ digits, d.isDigit = true) : lastLetter (front ++ c :: digits) = some c := by
  have cut : front ++ c :: digits = (front ++ [c]) ++ digits := by simp
  rw [lastLetter, cut, rdropWhile_run all]
  · simp
  · simp [letter]

theorem Dated.untyped {stem : Text} (dated : Dated stem) (format : CaptureOutputFormat) :
    ¬ captureFileSuffix format <:+ stem := by
  rintro ⟨base, whole⟩
  obtain ⟨front, digits, rfl, -, all⟩ := dated
  have dash := @lastLetter_digits front digits '-' rfl all
  rw [← whole] at dash
  cases format
  · have letter := @lastLetter_digits (base ++ ".ddd.fla".toList) [] 'c' rfl (by simp)
    rw [List.append_assoc] at letter
    exact absurd (dash.symm.trans letter) (by decide)
  · have letter := @lastLetter_digits (base ++ ".ddd.".toList) "16".toList 's' rfl
      (List.all_eq_true.mp (by decide))
    rw [List.append_assoc] at letter
    exact absurd (dash.symm.trans letter) (by decide)

theorem number_natCast (n : Nat) : number n = Nat.toDigits 10 n := by
  rw [number, if_neg (by omega), List.nil_append, Int.natAbs_natCast]

theorem twoDigits_digits (n : Nat) : twoDigits n ≠ [] ∧ ∀ c ∈ twoDigits n, c.isDigit = true := by
  have digits : ∀ c ∈ Nat.toDigits 10 n, c.isDigit = true := by
    intro c here
    exact Nat.isDigit_of_mem_toDigits (by decide) (by decide) here
  rw [twoDigits, number_natCast]
  split
  · constructor
    · exact List.cons_ne_nil _ _
    · simpa using digits
  · exact ⟨Nat.toDigits_ne_nil, digits⟩

theorem number_keeps (n : Int) : ∀ c ∈ number n, keeps c = true := by
  intro c here
  rcases List.mem_append.mp here with sign | digits
  · split at sign
    · rw [List.mem_singleton.mp sign]
      decide
    · simp at sign
  · exact (digit_facts (Nat.isDigit_of_mem_toDigits (by decide) (by decide) digits)).1

theorem twoDigits_keeps (n : Nat) : ∀ c ∈ twoDigits n, keeps c = true := by
  intro c here
  exact (digit_facts ((twoDigits_digits n).2 c here)).1

theorem timestamp_keeps (when : Option Time) :
    ∀ c ∈ formatCaptureTimestamp when, keeps c = true := by
  cases when with
  | none => exact List.all_eq_true.mp (by decide)
  | some when =>
    intro c here
    have dash : keeps '-' = true := by decide
    have line : keeps '_' = true := by decide
    have year := number_keeps when.year c
    have two (n : Nat) := twoDigits_keeps n c
    simp only [formatCaptureTimestamp, List.mem_append, List.mem_singleton] at here
    grind

theorem timestamp_dated (when : Option Time) : Dated (formatCaptureTimestamp when) := by
  cases when with
  | none => exact ⟨"0000-00-00_00-00".toList, "00".toList, rfl, by decide,
      List.all_eq_true.mp (by decide)⟩
  | some when =>
    obtain ⟨filled, digits⟩ := twoDigits_digits when.second
    exact ⟨number when.year ++ ['-'] ++ twoDigits when.month ++ ['-'] ++ twoDigits when.day ++
      ['_'] ++ twoDigits when.hour ++ ['-'] ++ twoDigits when.minute, twoDigits when.second,
      List.append_assoc _ ['-'] _, filled, digits⟩

theorem Dated.behind {stem : Text} (dated : Dated stem) (front : Text) : Dated (front ++ stem) := by
  obtain ⟨before, digits, rfl, filled, all⟩ := dated
  exact ⟨front ++ before, digits, (List.append_assoc _ _ _).symm, filled, all⟩

theorem Dated.last {stem : Text} (dated : Dated stem) : ∀ c ∈ stem.getLast?, trails c = false := by
  obtain ⟨front, digits, rfl, filled, all⟩ := dated
  intro c here
  rw [List.getLast?_append_of_ne_nil _ (List.cons_ne_nil _ _), List.getLast?_cons_of_ne_nil filled]
    at here
  exact (digit_facts (all c (List.mem_of_getLast? here))).2

/-- A front part with a `_` behind it, and a timestamp in the end. -/
def stamped (front middle : Text) (when : Option Time) : Text :=
  front ++ '_' :: (middle ++ formatCaptureTimestamp when)

theorem stamped_dated (front middle : Text) (when : Option Time) :
    Dated (stamped front middle when) := by
  have dated := (timestamp_dated when).behind (front ++ '_' :: middle)
  rwa [List.append_assoc] at dated

theorem stamped_sound {front middle : Text} (sound : Sound front) (filled : front ≠ [])
    (kept : ∀ c ∈ middle, keeps c = true) (when : Option Time) :
    Sound (stamped front middle when) := by
  constructor
  · intro c here
    rcases List.mem_append.mp here with own | added
    · exact sound.characters c own
    rcases List.mem_cons.mp added with rfl | added
    · decide
    rcases List.mem_append.mp added with inner | time
    · exact kept c inner
    · exact timestamp_keeps when c time
  · constructor
    · intro c here
      rw [stamped, List.head?_append_of_ne_nil _ filled] at here
      exact sound.tight.head c here
    · exact (stamped_dated front middle when).last
  · by_contra device
    have lined := (reserved_facts (eq_true_of_ne_false device)).2 '_' (by simp [stamped])
    exact lined.2.2.1 rfl

theorem stamped_device {front : Text} (free : isReservedName front = false) (middle : Text)
    (when : Option Time) :
    isReservedName ((stamped front middle when).takeWhile (· ≠ '.')) =
      isReservedName (front.takeWhile (· ≠ '.')) := by
  rw [stamped, List.takeWhile_append]
  split
  · rename_i whole
    rw [(List.takeWhile_prefix _).eq_of_length whole, free]
    by_contra device
    have lined := (reserved_facts (eq_true_of_ne_false device)).2 '_' (by simp)
    exact lined.2.2.1 rfl
  · rfl

/-! ## The stems the naming fields make -/

theorem part_keeps {token : Text} (kept : ∀ c ∈ token, keeps c = true) :
    ∀ c ∈ part token, keeps c = true := by
  rw [part]
  split
  · simp
  · intro c here
    rcases List.mem_append.mp here with own | line
    · exact kept c own
    · rw [List.mem_singleton.mp line]
      decide

theorem token_keeps (fields : CaptureNamingFields) :
    (∀ c ∈ (fields.discType.map discTypeChoiceToken).getD [], keeps c = true) ∧
      (∀ c ∈ (fields.videoStandard.map videoStandardChoiceToken).getD [], keeps c = true) ∧
      ∀ c ∈ (fields.audio.map audioTypeChoiceToken).getD [], keeps c = true := by
  refine ⟨?_, ?_, ?_⟩
  · rcases fields.discType with _ | _ | _ | _ <;> exact List.all_eq_true.mp (by decide)
  · rcases fields.videoStandard with _ | _ | _ | _ <;> exact List.all_eq_true.mp (by decide)
  · rcases fields.audio with _ | _ | _ | _ | _ | _ <;> exact List.all_eq_true.mp (by decide)

theorem sanitised_keeps (text : Option Text) :
    ∀ c ∈ (text.map sanitiseCaptureStem).getD [], keeps c = true := by
  cases text with
  | none => simp
  | some text => exact (sanitise_sound text).characters

/-- What an automatic stem begins with. -/
def frontPart (fields : CaptureNamingFields) : Text :=
  let title := (fields.title.map sanitiseCaptureStem).getD []
  if title = [] then "RF-Sample".toList else title

theorem front_sound (fields : CaptureNamingFields) :
    Sound (frontPart fields) ∧ frontPart fields ≠ [] := by
  rw [frontPart]
  split
  · exact ⟨⟨List.all_eq_true.mp (by decide), @tight_ends _ 'R' 'e' rfl rfl rfl rfl, by decide⟩,
      by decide⟩
  · rename_i filled
    refine ⟨?_, filled⟩
    cases titled : fields.title with
    | none => exact absurd (by rw [titled]; rfl) filled
    | some title => exact sanitise_sound title

theorem front_device (fields : CaptureNamingFields) :
    isReservedName ((frontPart fields).takeWhile (· ≠ '.')) = false ↔
      ∀ title ∈ fields.title, ¬ Device title := by
  rw [frontPart]
  cases fields.title with
  | none => exact iff_of_true (by decide) (by simp)
  | some title =>
    simp only [Option.map_some, Option.getD_some, Option.mem_def, Option.some.injEq, forall_eq',
      device_iff, Bool.not_eq_true]
    split
    · rename_i none
      rw [none]
      exact iff_of_true (by decide) (by decide)
    · exact Iff.rfl

theorem automatic_stem {fields : CaptureNamingFields} {typedName : Text}
    (unusable : sanitiseCaptureStem typedName = []) (when : Option Time) :
    ∃ middle, (∀ c ∈ middle, keeps c = true) ∧
      buildCaptureStem fields typedName false when = stamped (frontPart fields) middle when := by
  have front : (if (fields.title.map sanitiseCaptureStem).getD [] = [] then kCaptureNamePrefix
      else (fields.title.map sanitiseCaptureStem).getD [] ++ ['_']) =
      frontPart fields ++ ['_'] := by
    rw [frontPart]
    split
    · rfl
    · rfl
  have side : ∀ c ∈ (fields.side.map fun side => "side".toList ++ number side ++ ['_']).getD [],
      keeps c = true := by
    cases fields.side with
    | none => simp
    | some side =>
      intro c here
      have word : ∀ c ∈ "side".toList, keeps c = true :=
        List.all_eq_true.mp (by decide)
      have line : keeps '_' = true := by decide
      have digits := number_keeps side c
      simp only [Option.map_some, Option.getD_some, List.mem_append, List.mem_singleton] at here
      grind
  obtain ⟨disc, video, audio⟩ := token_keeps fields
  have disc' := part_keeps disc
  have video' := part_keeps video
  have audio' := part_keeps audio
  have notes := part_keeps (sanitised_keeps fields.notes)
  have marks := part_keeps (sanitised_keeps fields.mintMarks)
  cases shown : fields.metadataInName with
  | false =>
    refine ⟨(fields.side.map fun side => "side".toList ++ number side ++ ['_']).getD [], side, ?_⟩
    simp only [buildCaptureStem, unusable, front, shown, stamped, ne_eq, not_true_eq_false,
      if_false, Bool.false_eq_true, List.append_nil, List.append_assoc, List.cons_append, List.nil_append]
  | true =>
    refine ⟨part ((fields.discType.map discTypeChoiceToken).getD []) ++
        part ((fields.videoStandard.map videoStandardChoiceToken).getD []) ++
        part ((fields.audio.map audioTypeChoiceToken).getD []) ++
        (fields.side.map fun side => "side".toList ++ number side ++ ['_']).getD [] ++
        part ((fields.notes.map sanitiseCaptureStem).getD []) ++
        part ((fields.mintMarks.map sanitiseCaptureStem).getD []), ?_, ?_⟩
    · intro c here
      simp only [List.mem_append] at here
      rcases here with ((((here | here) | here) | here) | here) | here
      · exact disc' c here
      · exact video' c here
      · exact audio' c here
      · exact side c here
      · exact notes c here
      · exact marks c here
    · simp only [buildCaptureStem, unusable, front, shown, stamped, ne_eq, not_true_eq_false,
        if_false, if_true, Bool.false_eq_true, List.append_assoc, List.cons_append, List.nil_append]

theorem test_stem (when : Option Time) :
    defaultCaptureStem true when = stamped "TestData".toList [] when := rfl

theorem build_sound (fields : CaptureNamingFields) (typedName : Text) (testMode : Bool)
    (when : Option Time) :
    Sound (buildCaptureStem fields typedName testMode when) ∧
      buildCaptureStem fields typedName testMode when ≠ [] := by
  cases testMode with
  | true =>
    refine ⟨?_, by simp [buildCaptureStem, test_stem, stamped]⟩
    have sound : Sound "TestData".toList :=
      ⟨List.all_eq_true.mp (by decide), @tight_ends _ 'T' 'a' rfl rfl rfl rfl, by decide⟩
    exact stamped_sound sound (by decide) (by simp) when
  | false =>
    by_cases unusable : sanitiseCaptureStem typedName = []
    · obtain ⟨middle, kept, stem⟩ := @automatic_stem fields typedName unusable when
      obtain ⟨sound, filled⟩ := front_sound fields
      rw [stem]
      exact ⟨stamped_sound sound filled kept when, by simp [stamped]⟩
    · have stem : buildCaptureStem fields typedName false when = sanitiseCaptureStem typedName := by
        simp [buildCaptureStem, unusable]
      rw [stem]
      exact ⟨sanitise_sound typedName, unusable⟩

/-- The path of a stem that sanitising leaves alone. -/
theorem path_sound {stem : Text} (sound : Sound stem) (filled : stem ≠ []) (directory : Path)
    (when : Option Time) (format : CaptureOutputFormat) :
    buildCapturePath directory stem false when format =
      inside directory (addCaptureFileSuffix stem format) := by
  simp [buildCapturePath, sound.kept, filled]

theorem inside_injective {directory : Path} {name name' : Text}
    (same : inside directory name = inside directory name') : name = name' := by
  rw [inside, inside] at same
  split at same
  · exact List.append_cancel_left same
  · exact List.cons_inj_right '/' |>.mp (List.append_cancel_left same)

theorem safePath_inside {format : CaptureOutputFormat} {directory : Path} {name : Text} :
    SafePath format directory (inside directory name) ↔ SafeName format name := by
  constructor
  · rintro ⟨other, same, safe⟩
    rw [inside_injective same]
    exact safe
  · intro safe
    exact ⟨name, rfl, safe⟩

theorem dated_safe {format : CaptureOutputFormat} {stem : Text} (sound : Sound stem)
    (filled : stem ≠ []) (dated : Dated stem) :
    SafeName format (addCaptureFileSuffix stem format) ↔
      isReservedName (stem.takeWhile (· ≠ '.')) = false := by
  rw [safeName_iff sound filled]
  refine and_iff_left ?_
  rintro ⟨base, whole, -⟩
  exact dated.untyped format ⟨base, whole.symm⟩

theorem path_safe (fields : CaptureNamingFields) (typedName : Text) (when : Option Time)
    (directory : Path) (format : CaptureOutputFormat) :
    SafePath format directory (buildCapturePath directory
        (buildCaptureStem fields typedName false when) false when format) ↔
      (¬ Device typedName ∧ ¬ Loose format typedName ∧
        (Unusable typedName → ∀ title ∈ fields.title, ¬ Device title)) := by
  obtain ⟨sound, filled⟩ := build_sound fields typedName false when
  rw [path_sound sound filled, safePath_inside, device_iff, loose_iff, unusable_iff]
  by_cases unusable : sanitiseCaptureStem typedName = []
  · obtain ⟨middle, kept, stem⟩ := @automatic_stem fields typedName unusable when
    have free := (front_sound fields).1.free
    rw [dated_safe sound filled (stem ▸ stamped_dated _ _ _), stem, stamped_device free,
      front_device, unusable]
    obtain ⟨after, suffix⟩ := suffix_cons format
    have none : ¬ ∃ base, [] = base ++ captureFileSuffix format ∧
        ∃ c ∈ base.getLast?, c = '.' ∨ c = ' ' := by
      rintro ⟨base, whole, -⟩
      simp [suffix] at whole
    constructor
    · intro titles
      exact ⟨by decide, none, fun _ => titles⟩
    · rintro ⟨-, -, titles⟩
      exact titles rfl
  · have stem : buildCaptureStem fields typedName false when = sanitiseCaptureStem typedName := by
      simp [buildCaptureStem, unusable]
    rw [safeName_iff sound filled, stem, Bool.not_eq_true]
    constructor
    · rintro ⟨device, tidy⟩
      exact ⟨device, tidy, fun none => absurd none unusable⟩
    · rintro ⟨device, tidy, -⟩
      exact ⟨device, tidy⟩

theorem test_path_safe (fields : CaptureNamingFields) (typedName : Text) (when : Option Time)
    (directory : Path) (format : CaptureOutputFormat) :
    SafePath format directory (buildCapturePath directory
      (buildCaptureStem fields typedName true when) true when format) := by
  obtain ⟨sound, filled⟩ := build_sound fields typedName true when
  have stem : buildCaptureStem fields typedName true when = defaultCaptureStem true when := rfl
  rw [stem] at sound filled
  have path : buildCapturePath directory (buildCaptureStem fields typedName true when) true when
      format = inside directory (addCaptureFileSuffix (defaultCaptureStem true when) format) := by
    simp [buildCapturePath, filled]
  have dated : Dated (defaultCaptureStem true when) := stamped_dated "TestData".toList [] when
  rw [path, safePath_inside, dated_safe sound filled dated, test_stem, stamped_device (by decide)]
  decide

/-- The path is safe, and sanitising changes neither its own result nor the stem that is built. -/
structure Named (fields : CaptureNamingFields) (typedName : Text) (testMode : Bool)
    (when : Option Time) (directory : Path) (format : CaptureOutputFormat) : Prop where
  path : SafePath format directory (buildCapturePath directory
    (buildCaptureStem fields typedName testMode when) testMode when format)
  idempotent : ∀ text,
    sanitiseCaptureStem (sanitiseCaptureStem text) = sanitiseCaptureStem text
  unchanged : sanitiseCaptureStem (buildCaptureStem fields typedName testMode when) =
    buildCaptureStem fields typedName testMode when

theorem named_iff (fields : CaptureNamingFields) (typedName : Text) (testMode : Bool)
    (when : Option Time) (directory : Path) (format : CaptureOutputFormat) :
    Named fields typedName testMode when directory format ↔
      testMode = true ∨ (¬ Device typedName ∧ ¬ Loose format typedName ∧
        (Unusable typedName → ∀ title ∈ fields.title, ¬ Device title)) := by
  have rest := (build_sound fields typedName testMode when).1.kept
  constructor
  · intro named
    cases testMode with
    | true => exact Or.inl rfl
    | false => exact Or.inr ((path_safe fields typedName when directory format).mp named.path)
  · intro condition
    refine ⟨?_, sanitise_idempotent, rest⟩
    cases testMode with
    | true => exact test_path_safe fields typedName when directory format
    | false =>
      rcases condition with test | condition
      · exact Bool.noConfusion test
      · exact (path_safe fields typedName when directory format).mpr condition

/-- `CON.x` is taken as it is typed, and `con.ddd.flac` with its suffix; so is a space there. -/
theorem devices_named :
    ∃ fields : CaptureNamingFields,
      buildCapturePath "/d".toList (buildCaptureStem fields "CON.x".toList false none) false none
          .flac = "/d/CON.x.ddd.flac".toList ∧
      buildCapturePath "/d".toList (buildCaptureStem fields "con.ddd.flac".toList false none) false
          none .flac = "/d/con.ddd.flac".toList ∧
      buildCapturePath "/d".toList (buildCaptureStem fields "x .ddd.flac".toList false none) false
          none .flac = "/d/x .ddd.flac".toList ∧
      ¬ SafePath .flac "/d".toList "/d/CON.x.ddd.flac".toList ∧
      ¬ SafePath .flac "/d".toList "/d/con.ddd.flac".toList ∧
      ¬ SafePath .flac "/d".toList "/d/x .ddd.flac".toList := by
  have reserved : ∀ name : Text, isReservedName (name.takeWhile (· ≠ '.')) = true →
      ¬ SafePath .flac "/d".toList (inside "/d".toList name) := by
    intro name device safe
    rw [(safePath_inside.mp safe).device] at device
    exact Bool.noConfusion device
  refine ⟨⟨none, none, none, none, none, none, none, false⟩, by decide, by decide, by decide,
    reserved "CON.x.ddd.flac".toList (by decide), reserved "con.ddd.flac".toList (by decide), ?_⟩
  intro safe
  have named : SafeName .flac "x .ddd.flac".toList :=
    (@safePath_inside .flac "/d".toList _).mp safe
  obtain ⟨base, whole, clean⟩ := named.ends
  have same : "x ".toList = base := List.append_cancel_right whole
  rw [← same] at clean
  exact (clean ' ' rfl).2 rfl

end NameSafety
