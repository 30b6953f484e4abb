import DomesdayDuplicator.Update.JsonParser
import Mathlib.Data.List.TakeWhile
import Mathlib.Tactic.SplitIfs

/-!
# What the JSON parser accepts

Each reader against the grammar, in both directions: what it reads is a spelling that stands at
the front of the text, and a spelling with something that closes it behind it is read.
-/

namespace Json

open FuelLoop Manifest ManifestReader

/-! ## Loops over the text -/

theorem loop_of_returns {α β : Type} {turn : α × Text → Turn (α × Text) (Outcome β)}
    (shortens : ∀ s next, turn s = .again next → next.2.length < s.2.length) {start : α} {t : Text}
    {result : Outcome β} (returned : Returns turn (start, t) result) :
    loop turn start t = result := by
  have all := run_of_returns (fun s => s.2.length) shortens returned
  rw [loop, all]
  rfl

theorem visits_of_loop {α β : Type} {turn : α × Text → Turn (α × Text) (Outcome β)} {start : α}
    {t : Text} {read : β × Text} (h : loop turn start t = .ok read) :
    ∃ last, Visits turn (start, t) last ∧ turn last = .done (.ok read) := by
  rw [loop] at h
  cases returned : run turn (t.length + 1) (start, t) with
  | none =>
    rw [returned] at h
    cases h
  | some result =>
    rw [returned] at h
    obtain rfl : result = .ok read := h
    exact visits_of_run returned

/-! ## Whitespace -/

theorem skip_split (t : Text) : ∃ a, Blank a ∧ t = a ++ skipWhitespace t := by
  refine ⟨t.takeWhile isWhitespace, ?_, List.takeWhile_append_dropWhile.symm⟩
  intro c here
  exact List.mem_takeWhile_imp here

theorem skip_blank {a : Text} (blank : Blank a) (t : Text) :
    skipWhitespace (a ++ t) = skipWhitespace t := List.dropWhile_append_of_pos blank

theorem skip_solid {c : Byte} (solid : isWhitespace c = false) (t : Text) :
    skipWhitespace (c :: t) = c :: t := List.dropWhile_cons_of_neg (by simp [solid])

theorem skip_skip (t : Text) : skipWhitespace (skipWhitespace t) = skipWhitespace t := by
  obtain ⟨a, blank, split⟩ := skip_split t
  calc skipWhitespace (skipWhitespace t) = skipWhitespace (a ++ skipWhitespace t) :=
        (skip_blank blank _).symm
    _ = skipWhitespace t := by rw [← split]

/-! ## Strings -/

theorem parseHexQuad_ok {t rest : Text} {value : Nat} :
    parseHexQuad t = .ok (value, rest) ↔
      ∃ a b c d, t = a :: b :: c :: d :: rest ∧ hexQuad a b c d = some value := by
  constructor
  · intro read
    rw [parseHexQuad.eq_def] at read
    split at read
    · rename_i a b c d after
      split at read
      · cases read
      · rename_i value' hex
        obtain ⟨rfl, rfl⟩ := Prod.mk.inj (Except.ok.inj read)
        exact ⟨a, b, c, d, rfl, hex⟩
    · cases read
  · rintro ⟨a, b, c, d, rfl, hex⟩
    rw [parseHexQuad, hex]

/-- Some pieces and the text they name, whatever comes after them. -/
def Names (ps : List Piece) (bytes : Text) : Prop :=
  ∀ qs t, Decodes qs t → Decodes (ps ++ qs) (bytes ++ t)

theorem parseUnicodeEscape_ok {t rest bytes : Text}
    (read : parseUnicodeEscape t = .ok (bytes, rest)) :
    ∃ ps, backslash :: 0x75 :: t = spelling ps ++ rest ∧ Names ps bytes ∧ ps ≠ [] := by
  rw [parseUnicodeEscape] at read
  split at read
  · cases read
  rename_i first after one
  obtain ⟨a, b, c, d, rfl, hex⟩ := parseHexQuad_ok.mp one
  split at read
  · rename_i high
    split at read
    · rename_i behind
      split at read
      · cases read
      rename_i second tail two
      obtain ⟨a', b', c', d', rfl, hex'⟩ := parseHexQuad_ok.mp two
      split at read
      · rename_i low
        obtain ⟨rfl, rfl⟩ := Prod.mk.inj (Except.ok.inj read)
        refine ⟨[.unit a b c d first hex, .unit a' b' c' d' second hex'], rfl, ?_,
          List.cons_ne_nil _ _⟩
        intro qs t named
        exact Decodes.pair high low named
      · cases read
    · cases read
  · rename_i high
    split at read
    · cases read
    rename_i low
    obtain ⟨rfl, rfl⟩ := Prod.mk.inj (Except.ok.inj read)
    refine ⟨[.unit a b c d first hex], rfl, ?_, List.cons_ne_nil _ _⟩
    intro qs t named
    exact Decodes.unit (eq_false_of_ne_true high) (eq_false_of_ne_true low) named

theorem shortEscape_some {escape stands : Byte} :
    shortEscape escape = some stands ↔ (escape, stands) ∈ escapes := by
  constructor
  · intro h
    rw [shortEscape] at h
    split_ifs at h with e e e e e e e e
    all_goals
      obtain rfl := Option.some.inj h
      rw [e]
      decide
  · intro listed
    simp only [escapes, List.mem_cons, Prod.mk.injEq, List.not_mem_nil, or_false] at listed
    rcases listed with h | h | h | h | h | h | h | h
    all_goals
      obtain ⟨rfl, rfl⟩ := h
      decide

/-- A turn that goes on has read some pieces. -/
theorem stringTurn_again {decoded t : Text} {next : Text × Text}
    (turned : stringTurn (decoded, t) = .again next) :
    ∃ ps bytes, t = spelling ps ++ next.2 ∧ next.1 = decoded ++ bytes ∧ Names ps bytes ∧
      ps ≠ [] := by
  rw [stringTurn.eq_def] at turned
  split at turned
  · cases turned
  rename_i c rest state
  obtain ⟨rfl, rfl⟩ := Prod.mk.inj state
  split at turned
  · cases turned
  rename_i unquoted
  split at turned
  · cases turned
  rename_i visible
  split at turned
  · rename_i plain
    obtain rfl := Turn.again.inj turned
    refine ⟨[.plain c ⟨by omega, unquoted, plain⟩], [c], rfl, rfl, ?_, List.cons_ne_nil _ _⟩
    intro qs t named
    exact Decodes.plain named
  rename_i escaping
  obtain rfl : c = backslash := not_not.mp escaping
  split at turned
  · cases turned
  rename_i escape after
  split at turned
  · rename_i unicode
    split at turned
    · cases turned
    rename_i bytes behind read
    obtain rfl := Turn.again.inj turned
    obtain ⟨ps, spelled, names, some⟩ := parseUnicodeEscape_ok read
    exact ⟨ps, bytes, unicode ▸ spelled, rfl, names, some⟩
  · split at turned
    · rename_i stands found
      obtain rfl := Turn.again.inj turned
      refine ⟨[.short escape stands (shortEscape_some.mp found)], [stands], rfl, rfl, ?_,
        List.cons_ne_nil _ _⟩
      intro qs t named
      exact Decodes.short named
    · cases turned

theorem stringTurn_done {decoded t : Text} {read : Text × Text}
    (turned : stringTurn (decoded, t) = .done (.ok read)) :
    t = quote :: read.2 ∧ read.1 = decoded := by
  rw [stringTurn.eq_def] at turned
  split at turned
  · cases turned
  rename_i c rest state
  obtain ⟨rfl, rfl⟩ := Prod.mk.inj state
  split at turned
  · rename_i closed
    obtain rfl := Except.ok.inj (Turn.done.inj turned)
    exact ⟨by rw [closed], rfl⟩
  split at turned
  · cases turned
  split at turned
  · cases turned
  split at turned
  · cases turned
  split at turned
  · split at turned
    · cases turned
    · cases turned
  · split at turned
    · cases turned
    · cases turned

theorem spelled_length (p : Piece) : 0 < p.spelled.length := by
  cases p
  all_goals exact Nat.succ_pos _

theorem spelling_length {ps : List Piece} (some : ps ≠ []) : 0 < (spelling ps).length := by
  obtain ⟨p, rest, rfl⟩ := List.exists_cons_of_ne_nil some
  rw [spelling, List.flatMap_cons, List.length_append]
  exact Nat.add_pos_left (spelled_length p) _

theorem stringTurn_shortens (s next : Text × Text) (turned : stringTurn s = .again next) :
    next.2.length < s.2.length := by
  obtain ⟨decoded, t⟩ := s
  obtain ⟨ps, bytes, split, -, -, some⟩ := stringTurn_again turned
  have longer := spelling_length some
  have whole := congrArg List.length split
  rw [List.length_append] at whole
  show next.2.length < t.length
  omega

theorem Names.append {ps qs : List Piece} {bytes more : Text} (first : Names ps bytes)
    (second : Names qs more) : Names (ps ++ qs) (bytes ++ more) := by
  intro rs t named
  rw [List.append_assoc, List.append_assoc]
  exact first _ _ (second rs t named)

theorem spelling_append (ps qs : List Piece) : spelling (ps ++ qs) = spelling ps ++ spelling qs :=
  List.flatMap_append

/-- What has been read of a string when the loop is at `s`. -/
def StringRead (t : Text) (s : Text × Text) : Prop :=
  ∃ ps, t = spelling ps ++ s.2 ∧ Names ps s.1

theorem stringRead_keeps (t : Text) (s next : Text × Text) (read : StringRead t s)
    (turned : stringTurn s = .again next) : StringRead t next := by
  obtain ⟨decoded, rest⟩ := s
  obtain ⟨ps, split, names⟩ := read
  obtain ⟨qs, bytes, more, decoded', names', -⟩ := stringTurn_again turned
  refine ⟨ps ++ qs, ?_, ?_⟩
  · rw [split, more, spelling_append, List.append_assoc]
  · rw [decoded']
    exact names.append names'

theorem turn_plain {c : Byte} (free : 0x20 ≤ c.toNat ∧ c ≠ quote ∧ c ≠ backslash)
    (decoded rest : Text) : stringTurn (decoded, c :: rest) = .again (decoded ++ [c], rest) := by
  obtain ⟨visible, unquoted, plain⟩ := free
  simp only [stringTurn, if_neg unquoted, if_neg (show ¬ c.toNat < 0x20 by omega), if_pos plain]

theorem turn_short {letter stands : Byte} (listed : (letter, stands) ∈ escapes)
    (decoded rest : Text) :
    stringTurn (decoded, backslash :: letter :: rest) = .again (decoded ++ [stands], rest) := by
  have found := shortEscape_some.mpr listed
  have none : shortEscape 0x75 = none := by decide
  have other : letter ≠ 0x75 := by
    rintro rfl
    exact absurd (none.symm.trans found) (by simp)
  simp only [stringTurn, if_neg other, found]
  rfl

theorem turn_unicode {t bytes rest : Text} (read : parseUnicodeEscape t = .ok (bytes, rest))
    (decoded : Text) :
    stringTurn (decoded, backslash :: 0x75 :: t) = .again (decoded ++ bytes, rest) := by
  simp only [stringTurn, read]
  rfl

theorem unicode_unit {a b c d : Byte} {value : Nat} (hex : hexQuad a b c d = some value)
    (high : isHigh value = false) (low : isLow value = false) (rest : Text) :
    parseUnicodeEscape (a :: b :: c :: d :: rest) = .ok (appendUtf8 value, rest) := by
  rw [parseUnicodeEscape, parseHexQuad_ok.mpr ⟨a, b, c, d, rfl, hex⟩]
  simp only [high, low]
  rfl

theorem unicode_pair {a b c d a' b' c' d' : Byte} {value value' : Nat}
    (hex : hexQuad a b c d = some value) (hex' : hexQuad a' b' c' d' = some value')
    (high : isHigh value = true) (low : isLow value' = true) (rest : Text) :
    parseUnicodeEscape
        (a :: b :: c :: d :: 0x5C#8 :: 0x75#8 :: a' :: b' :: c' :: d' :: rest) =
      .ok (appendUtf8 (joined value value'), rest) := by
  have second : parseHexQuad (a' :: b' :: c' :: d' :: rest) = .ok (value', rest) :=
    parseHexQuad_ok.mpr ⟨a', b', c', d', rfl, hex'⟩
  rw [parseUnicodeEscape, parseHexQuad_ok.mpr ⟨a, b, c, d, rfl, hex⟩]
  simp only [high, second, low]
  rfl

theorem string_returns {ps : List Piece} {t : Text} (named : Decodes ps t) (decoded rest : Text) :
    Returns stringTurn (decoded, spelling ps ++ quote :: rest) (.ok (decoded ++ t, rest)) := by
  induction named generalizing decoded with
  | nil =>
    rw [List.append_nil]
    have closed : stringTurn (decoded, quote :: rest) = .done (.ok (decoded, rest)) := rfl
    exact (returns_done closed).mpr rfl
  | @plain c free ps t _ ih =>
    have more := ih (decoded ++ [c])
    rw [List.append_assoc] at more
    exact (returns_again (turn_plain free decoded _)).mpr more
  | @short letter stands listed ps t _ ih =>
    have more := ih (decoded ++ [stands])
    rw [List.append_assoc] at more
    exact (returns_again (turn_short listed decoded _)).mpr more
  | @unit a b c d value hex ps t high low _ ih =>
    have more := ih (decoded ++ appendUtf8 value)
    rw [List.append_assoc] at more
    exact (returns_again (turn_unicode (unicode_unit hex high low _) decoded)).mpr more
  | @pair a b c d value hex a' b' c' d' value' hex' ps t high low _ ih =>
    have more := ih (decoded ++ appendUtf8 (joined value value'))
    rw [List.append_assoc] at more
    exact (returns_again (turn_unicode (unicode_pair hex hex' high low _) decoded)).mpr more

theorem parseString_ok {t decoded rest : Text} :
    parseString t = .ok (decoded, rest) ↔
      ∃ ps, t = spelling ps ++ quote :: rest ∧ Decodes ps decoded := by
  constructor
  · intro read
    obtain ⟨last, visited, done⟩ := visits_of_loop read
    have here : StringRead t last :=
      visited.invariant ⟨[], rfl, fun _ _ named => named⟩ (stringRead_keeps t)
    obtain ⟨ps, split, names⟩ := here
    obtain ⟨closed, same⟩ := stringTurn_done done
    refine ⟨ps, split.trans (by rw [closed]), ?_⟩
    have whole := names [] [] Decodes.nil
    rw [List.append_nil, List.append_nil] at whole
    rw [show decoded = last.1 from same]
    exact whole
  · rintro ⟨ps, rfl, named⟩
    exact loop_of_returns stringTurn_shortens (string_returns named [] rest)

/-! ## Numbers -/

theorem startsWithDigit_iff {t : Text} :
    startsWithDigit t = true ↔ ∃ c rest, t = c :: rest ∧ isDigit c = true := by
  cases t with
  | nil => simp [startsWithDigit]
  | cons c rest => simp [startsWithDigit]

theorem digits_split {t : Text} (starts : startsWithDigit t = true) :
    ∃ ds, t = ds ++ t.dropWhile isDigit ∧ Digits ds := by
  obtain ⟨c, rest, rfl, digit⟩ := startsWithDigit_iff.mp starts
  refine ⟨(c :: rest).takeWhile isDigit, List.takeWhile_append_dropWhile.symm, ?_, ?_⟩
  · rw [List.takeWhile_cons_of_pos digit]
    exact List.cons_ne_nil _ _
  · intro d here
    exact List.mem_takeWhile_imp here

theorem dropSign_split (signs : List Byte) (t : Text) :
    ∃ sign, t = sign ++ dropSign signs t ∧ (sign = [] ∨ ∃ s ∈ signs, sign = [s]) := by
  cases t with
  | nil => exact ⟨[], rfl, Or.inl rfl⟩
  | cons c rest =>
    rw [dropSign]
    split
    · rename_i listed
      exact ⟨[c], rfl, Or.inr ⟨c, listed, rfl⟩⟩
    · exact ⟨[], rfl, Or.inl rfl⟩

theorem integerPart_ok {t rest : Text} (read : integerPart t = .ok rest) :
    ∃ sign whole, t = sign ++ whole ++ rest ∧ (sign = [] ∨ sign = [0x2D]) ∧ Whole whole := by
  obtain ⟨sign, split, signed⟩ := dropSign_split [0x2D] t
  have signed' : sign = [] ∨ sign = [0x2D] := by simpa using signed
  rw [integerPart] at read
  split_ifs at read with starts zero
  · obtain rfl := Except.ok.inj read
    obtain ⟨after, behind⟩ := List.head?_eq_some_iff.mp zero
    refine ⟨sign, [0x30], ?_, signed', Whole.zero⟩
    rw [behind, List.tail_cons, List.append_assoc, List.singleton_append, ← behind]
    exact split
  · obtain rfl := Except.ok.inj read
    obtain ⟨ds, digits, some, all⟩ := digits_split starts
    obtain ⟨d, ds, rfl⟩ := List.exists_cons_of_ne_nil some
    refine ⟨sign, d :: ds, ?_, signed', Whole.digits (all d (by simp)) ?_ ?_⟩
    · rw [List.append_assoc, ← digits]
      exact split
    · rintro rfl
      rw [digits] at zero
      exact zero rfl
    · intro c here
      exact all c (List.mem_cons_of_mem d here)

theorem fractionPart_ok {t rest : Text} (read : fractionPart t = .ok rest) :
    ∃ fraction, t = fraction ++ rest ∧ Fraction fraction := by
  rw [fractionPart.eq_def] at read
  split at read
  · rename_i behind
    split at read
    · cases read
    · rename_i starts
      obtain rfl := Except.ok.inj read
      obtain ⟨ds, split, digits⟩ := digits_split (not_not.mp starts)
      refine ⟨0x2E :: ds, ?_, Fraction.point digits⟩
      rw [List.cons_append, ← split]
      rfl
  · obtain rfl := Except.ok.inj read
    exact ⟨[], rfl, Fraction.none⟩

theorem exponentPart_ok {t rest : Text} (read : exponentPart t = .ok rest) :
    ∃ exponent, t = exponent ++ rest ∧ Exponent exponent := by
  cases t with
  | nil =>
    obtain rfl := Except.ok.inj read
    exact ⟨[], rfl, Exponent.none⟩
  | cons e behind =>
    rw [exponentPart] at read
    split at read
    · rename_i letter
      simp only at read
      split at read
      · cases read
      rename_i starts
      obtain rfl := Except.ok.inj read
      obtain ⟨sign, split, signed⟩ := dropSign_split [0x2B, 0x2D] behind
      obtain ⟨ds, split', digits⟩ := digits_split (not_not.mp starts)
      refine ⟨e :: (sign ++ ds), ?_, Exponent.power letter (by simpa using signed) digits⟩
      rw [List.cons_append, List.append_assoc, ← split', ← split]
    · obtain rfl := Except.ok.inj read
      exact ⟨[], rfl, Exponent.none⟩

theorem numberEnd_ok {t rest : Text} :
    numberEnd t = .ok rest ↔ ∃ one two, integerPart t = .ok one ∧ fractionPart one = .ok two ∧
      exponentPart two = .ok rest := by
  constructor
  · intro read
    rw [numberEnd] at read
    cases first : integerPart t with
    | error stop =>
      rw [first] at read
      cases read
    | ok one =>
      replace read : (fractionPart one).bind exponentPart = .ok rest := by rwa [first] at read
      cases second : fractionPart one with
      | error stop =>
        rw [second] at read
        cases read
      | ok two =>
        rw [second] at read
        exact ⟨one, two, rfl, second, read⟩
  · rintro ⟨one, two, first, second, third⟩
    have last : (fractionPart one).bind exponentPart = .ok rest := by
      rw [second]
      exact third
    rw [numberEnd, first]
    exact last

theorem parseNumber_ok {t rest : Text} {v : JsonValue} (read : parseNumber t = .ok (v, rest)) :
    ∃ lexeme, t = lexeme ++ rest ∧ Numeral lexeme ∧ v = .number lexeme := by
  rw [parseNumber] at read
  cases ends : numberEnd t with
  | error stop =>
    rw [ends] at read
    cases read
  | ok behind =>
    rw [ends] at read
    obtain ⟨rfl, rfl⟩ := Prod.mk.inj (Except.ok.inj read)
    obtain ⟨one, two, first, second, third⟩ := numberEnd_ok.mp ends
    obtain ⟨sign, whole, split, signed, whole'⟩ := integerPart_ok first
    obtain ⟨fraction, split', fraction'⟩ := fractionPart_ok second
    obtain ⟨exponent, split'', exponent'⟩ := exponentPart_ok third
    have all : t = (sign ++ whole ++ fraction ++ exponent) ++ behind := by
      rw [split, split', split'']
      simp
    refine ⟨_, all, Numeral.parts signed whole' fraction' exponent', ?_⟩
    have length : t.length - behind.length = (sign ++ whole ++ fraction ++ exponent).length := by
      rw [all, List.length_append, Nat.add_sub_cancel]
    rw [length, all, List.take_left]

/-- What can stand behind a value. -/
def Closed (rest : Text) : Prop :=
  ∀ c ∈ rest.head?, isWhitespace c = true ∨ c = comma ∨ c = closeBracket ∨ c = closeBrace

theorem Closed.facts {rest : Text} (closed : Closed rest) :
    ∀ c ∈ rest.head?, isDigit c = false ∧ c ≠ 0x2E ∧ c ≠ 0x65 ∧ c ≠ 0x45 := by
  intro c here
  have known := closed c here
  simp only [isWhitespace, decide_eq_true_eq] at known
  rcases known with (rfl | rfl | rfl | rfl) | rfl | rfl | rfl
  all_goals decide

/-- The text does not go on with a digit. -/
def Undigited (rest : Text) : Prop := ∀ c ∈ rest.head?, isDigit c = false

theorem digits_end {ds rest : Text} (all : ∀ c ∈ ds, isDigit c = true) (ends : Undigited rest) :
    (ds ++ rest).dropWhile isDigit = rest := by
  rw [List.dropWhile_append_of_pos all]
  cases rest with
  | nil => rfl
  | cons c rest => exact List.dropWhile_cons_of_neg (by simp [ends c rfl])

theorem digits_start {ds : Text} (digits : Digits ds) (rest : Text) :
    startsWithDigit (ds ++ rest) = true := by
  obtain ⟨some, all⟩ := digits
  obtain ⟨d, ds, rfl⟩ := List.exists_cons_of_ne_nil some
  exact all d (by simp)

theorem dropSign_digit {signs : List Byte} {t : Text} (none : ∀ s ∈ signs, isDigit s = false)
    (starts : startsWithDigit t = true) : dropSign signs t = t := by
  obtain ⟨c, rest, rfl, digit⟩ := startsWithDigit_iff.mp starts
  have other : c ∉ signs := by
    intro listed
    rw [none c listed] at digit
    exact Bool.noConfusion digit
  rw [dropSign, if_neg other]

theorem whole_start {whole : Text} (h : Whole whole) (rest : Text) :
    startsWithDigit (whole ++ rest) = true := by
  cases h with
  | zero => rfl
  | digits first _ _ => exact first

theorem integerPart_reads {sign whole rest : Text} (signed : sign = [] ∨ sign = [0x2D])
    (h : Whole whole) (ends : Undigited rest) :
    integerPart (sign ++ whole ++ rest) = .ok rest := by
  have unsigned : dropSign [0x2D] (sign ++ whole ++ rest) = whole ++ rest := by
    rcases signed with rfl | rfl
    · refine dropSign_digit (fun s listed => ?_) (whole_start h rest)
      rw [List.mem_singleton.mp listed]
      decide
    · rfl
  rw [integerPart, unsigned, if_neg (by simp [whole_start h rest])]
  cases h with
  | zero => rfl
  | @digits d ds first proper all =>
    have other : (d :: ds ++ rest).head? ≠ some 0x30 := by simpa using proper
    have run : ∀ c ∈ d :: ds, isDigit c = true := by
      intro c here
      rcases List.mem_cons.mp here with rfl | here
      · exact first
      · exact all c here
    rw [if_neg other, digits_end run ends]

theorem fractionPart_reads {fraction rest : Text} (h : Fraction fraction) (ends : Undigited rest)
    (point : ∀ c ∈ rest.head?, c ≠ 0x2E) : fractionPart (fraction ++ rest) = .ok rest := by
  cases h with
  | none =>
    rw [List.nil_append, fractionPart.eq_def]
    split
    · exact absurd rfl (point 0x2E rfl)
    · rfl
  | @point ds digits =>
    have starts := digits_start digits rest
    have read : fractionPart (0x2E#8 :: (ds ++ rest)) = .ok rest := by
      rw [fractionPart, if_neg (by simp [starts]), digits_end digits.2 ends]
    exact read

theorem exponentPart_reads {exponent rest : Text} (h : Exponent exponent) (ends : Undigited rest)
    (letter : ∀ c ∈ rest.head?, c ≠ 0x65 ∧ c ≠ 0x45) :
    exponentPart (exponent ++ rest) = .ok rest := by
  cases h with
  | none =>
    cases rest with
    | nil => rfl
    | cons c rest =>
      rw [List.nil_append, exponentPart, if_neg]
      exact not_or.mpr (letter c rfl)
  | @power e sign ds letter signed digits =>
    have starts := digits_start digits rest
    have unsigned : dropSign [0x2B, 0x2D] (sign ++ ds ++ rest) = ds ++ rest := by
      rcases signed with rfl | rfl | rfl
      · refine dropSign_digit (fun s listed => ?_) starts
        rcases List.mem_pair.mp listed with rfl | rfl
        · decide
        · decide
      · rfl
      · rfl
    rw [List.cons_append, exponentPart, if_pos letter]
    simp only [unsigned, starts, not_true_eq_false, if_false]
    rw [digits_end digits.2 ends]

theorem parseNumber_reads {lexeme rest : Text} (numeral : Numeral lexeme) (closed : Closed rest) :
    parseNumber (lexeme ++ rest) = .ok (.number lexeme, rest) := by
  have facts := closed.facts
  have ends : numberEnd (lexeme ++ rest) = .ok rest := by
    obtain ⟨signed, first, second, third⟩ := numeral
    rename_i sign whole fraction exponent
    have behind : Undigited (exponent ++ rest) ∧ ∀ c ∈ (exponent ++ rest).head?, c ≠ 0x2E := by
      cases third with
      | none => exact ⟨fun c here => (facts c here).1, fun c here => (facts c here).2.1⟩
      | power letter =>
        rcases letter with rfl | rfl
        · exact ⟨by simp [Undigited, isDigit], by simp⟩
        · exact ⟨by simp [Undigited, isDigit], by simp⟩
    have behind' : Undigited (fraction ++ (exponent ++ rest)) := by
      cases second with
      | none => exact behind.1
      | point => simp [Undigited, isDigit]
    refine numberEnd_ok.mpr ⟨fraction ++ (exponent ++ rest), exponent ++ rest, ?_, ?_, ?_⟩
    · have read := integerPart_reads signed first behind'
      simpa using read
    · exact fractionPart_reads second behind.1 behind.2
    · have ends : Undigited rest := fun c here => (facts c here).1
      exact exponentPart_reads third ends fun c here => (facts c here).2.2
  have taken : (lexeme ++ rest).take ((lexeme ++ rest).length - rest.length) = lexeme := by
    rw [List.length_append, Nat.add_sub_cancel, List.take_left]
  rw [parseNumber, ends]
  exact congrArg (fun lexeme => Except.ok (JsonValue.number lexeme, rest)) taken

end Json
