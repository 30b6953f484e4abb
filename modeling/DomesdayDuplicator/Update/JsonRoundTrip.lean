import DomesdayDuplicator.Update.JsonAccepts

/-!
# Writing a JSON value and reading it back

`SerialiseJson` of `ddd-gui/src/capture/json_value.cpp`: what it writes is derived by the grammar
for the value that was written, so the parser makes that value of it.
-/

namespace Json

open Manifest ManifestReader

/-! ## The serialiser -/

def kDigits : Text := text "0123456789abcdef"

/-- One character of a string, as it is written. -/
def escaped (c : Byte) : Text :=
  if c = quote then [backslash, quote]
  else if c = backslash then [backslash, backslash]
  else if c = 0x08 then [backslash, 0x62]
  else if c = 0x0C then [backslash, 0x66]
  else if c = 0x0A then [backslash, 0x6E]
  else if c = 0x0D then [backslash, 0x72]
  else if c = 0x09 then [backslash, 0x74]
  else if c.toNat < 0x20 then
    [backslash, 0x75, 0x30, 0x30, kDigits.getD (c.toNat >>> 4) 0, kDigits.getD (c.toNat &&& 0x0F) 0]
  else [c]

def appendEscaped (t : Text) : Text := quote :: (t.flatMap escaped ++ [quote])

def appendIndent (depth : Nat) : Text := List.replicate (depth * 2) 0x20

/-- What stands behind an item that is followed by `rest`. -/
def separator {α : Type} (rest : List α) : Text :=
  (if rest.isEmpty then [] else [comma]) ++ [0x0A]

mutual

def appendValue (depth : Nat) : JsonValue → Text
  | .null => text "null"
  | .boolean value => if value then text "true" else text "false"
  | .number lexeme => lexeme
  | .string value => appendEscaped value
  | .array [] => [openBracket, closeBracket]
  | .array (e :: es) =>
    openBracket :: 0x0A :: (appendElements (depth + 1) (e :: es) ++ appendIndent depth ++
      [closeBracket])
  | .object [] => [openBrace, closeBrace]
  | .object (m :: ms) =>
    openBrace :: 0x0A :: (appendMembers (depth + 1) (m :: ms) ++ appendIndent depth ++ [closeBrace])

def appendElements (depth : Nat) : List JsonValue → Text
  | [] => []
  | e :: es =>
    appendIndent depth ++ appendValue depth e ++ separator es ++ appendElements depth es

def appendMembers (depth : Nat) : List (Text × JsonValue) → Text
  | [] => []
  | (name, v) :: ms =>
    appendIndent depth ++ appendEscaped name ++ [colon, 0x20] ++ appendValue depth v ++
      separator ms ++ appendMembers depth ms

end

def serialiseJson (value : JsonValue) : Text := appendValue 0 value ++ [0x0A]

/-! ## What is written is derived -/

theorem value_induct {P : JsonValue → Prop} (step : ∀ v, (∀ c ∈ children v, P c) → P v)
    (v : JsonValue) : P v := by
  refine step v fun c among => value_induct step c
termination_by sizeOf v
decreasing_by
  cases v with
  | array es =>
    have less := List.sizeOf_lt_of_mem (show c ∈ es from among)
    simp only [JsonValue.array.sizeOf_spec]
    omega
  | object ms =>
    obtain ⟨m, listed, rfl⟩ := List.mem_map.mp among
    have less := List.sizeOf_lt_of_mem listed
    obtain ⟨name, w⟩ := m
    simp only [JsonValue.object.sizeOf_spec, Prod.mk.sizeOf_spec] at less ⊢
    omega
  | null => exact absurd among List.not_mem_nil
  | boolean => exact absurd among List.not_mem_nil
  | number => exact absurd among List.not_mem_nil
  | string => exact absurd among List.not_mem_nil

theorem control_hex : ∀ n < 0x20,
    hexQuad 0x30 0x30 (kDigits.getD (n >>> 4) 0) (kDigits.getD (n &&& 0x0F) 0) = some n := by
  decide

theorem escaped_piece (c : Byte) :
    ∃ p : Piece, p.spelled = escaped c ∧ ∀ ps t, Decodes ps t → Decodes (p :: ps) (c :: t) := by
  have listed {letter : Byte} (known : (letter, c) ∈ escapes) : ∃ p : Piece,
      p.spelled = [backslash, letter] ∧ ∀ ps t, Decodes ps t → Decodes (p :: ps) (c :: t) :=
    ⟨.short letter c known, rfl, fun _ _ named => .short named⟩
  rw [escaped]
  split_ifs with unquoted plain e e e e e control
  · exact listed (by rw [unquoted]; decide)
  · exact listed (by rw [plain]; decide)
  · exact listed (by rw [e]; decide)
  · exact listed (by rw [e]; decide)
  · exact listed (by rw [e]; decide)
  · exact listed (by rw [e]; decide)
  · exact listed (by rw [e]; decide)
  · refine ⟨.unit _ _ _ _ c.toNat (control_hex c.toNat control), rfl, ?_⟩
    intro ps t named
    have itself : appendUtf8 c.toNat = [c] := by
      rw [appendUtf8, if_pos (by omega), BitVec.ofNat_toNat, BitVec.setWidth_eq]
    have high : isHigh c.toNat = false := by
      rw [isHigh, decide_eq_false_iff_not]
      omega
    have low : isLow c.toNat = false := by
      rw [isLow, decide_eq_false_iff_not]
      omega
    have unit := @Decodes.unit _ _ _ _ _ (control_hex c.toNat control) _ _ high low named
    rwa [itself] at unit
  · exact ⟨.plain c ⟨by omega, unquoted, plain⟩, rfl, fun _ _ named => .plain named⟩

theorem escaped_pieces (t : Text) : ∃ ps, spelling ps = t.flatMap escaped ∧ Decodes ps t := by
  induction t with
  | nil => exact ⟨[], rfl, Decodes.nil⟩
  | cons c t ih =>
    obtain ⟨ps, spelled, named⟩ := ih
    obtain ⟨p, one, first⟩ := escaped_piece c
    refine ⟨p :: ps, ?_, first ps t named⟩
    rw [spelling, List.flatMap_cons, List.flatMap_cons, one, ← spelled]
    rfl

theorem blank_indent (depth : Nat) : Blank (appendIndent depth) := by
  intro c here
  rw [List.eq_of_mem_replicate here]
  rfl

theorem blank_line : Blank [0x0A] := by
  intro c here
  rw [List.mem_singleton.mp here]
  rfl

theorem elements_spelled {depth : Nat} {e : JsonValue} {es : List JsonValue}
    (each : ∀ v ∈ e :: es, Spells (.value v) (appendValue depth v)) {after : Text}
    (blank : Blank after) :
    Spells (.elements (e :: es)) (0x0A :: (appendElements depth (e :: es) ++ after)) := by
  have before : Blank ([0x0A] ++ appendIndent depth) := blank_line.append (blank_indent depth)
  induction es generalizing e with
  | nil =>
    have only := Spells.lastElement before (blank_line.append blank) (each e (by simp))
    simpa [appendElements, separator] using only
  | cons f es ih =>
    have rest := @ih f fun v among => each v (List.mem_cons_of_mem e among)
    have none : Blank [] := by simp [Blank]
    have more := Spells.moreElements before none (each e (by simp)) rest
    rw [appendElements]
    simpa [separator] using more

theorem members_spelled {depth : Nat} {m : Text × JsonValue} {ms : List (Text × JsonValue)}
    (each : ∀ n ∈ m :: ms, Spells (.value n.2) (appendValue depth n.2)) {after : Text}
    (blank : Blank after) :
    Spells (.members (m :: ms)) (0x0A :: (appendMembers depth (m :: ms) ++ after)) := by
  have before : Blank ([0x0A] ++ appendIndent depth) := blank_line.append (blank_indent depth)
  have none : Blank [] := by simp [Blank]
  have space : Blank [0x20] := by
    intro c here
    rw [List.mem_singleton.mp here]
    rfl
  induction ms generalizing m with
  | nil =>
    obtain ⟨name, v⟩ := m
    obtain ⟨ps, spelled, named⟩ := escaped_pieces name
    have only := Spells.lastMember before (blank_line.append blank) named none space
      (each (name, v) (by simp))
    simpa [appendMembers, appendEscaped, separator, labelled, spelled] using only
  | cons n ms ih =>
    obtain ⟨name, v⟩ := m
    obtain ⟨ps, spelled, named⟩ := escaped_pieces name
    have rest := @ih n fun w among => each w (List.mem_cons_of_mem _ among)
    have more := Spells.moreMembers before none named none space (each (name, v) (by simp)) rest
    rw [appendMembers]
    simpa [appendEscaped, separator, labelled, spelled] using more

theorem written_spelled {v : JsonValue} (numeric : Throughout Numeric v) (depth : Nat) :
    Spells (.value v) (appendValue depth v) := by
  induction v using value_induct generalizing depth with
  | step v ih =>
    obtain ⟨here, inside⟩ := numeric
    cases v with
    | null => exact Spells.null
    | boolean value =>
      cases value with
      | true => exact Spells.yes
      | false => exact Spells.no
    | number lexeme => exact Spells.number here
    | string t =>
      obtain ⟨ps, spelled, named⟩ := escaped_pieces t
      rw [appendValue, appendEscaped, ← spelled]
      exact Spells.string named
    | array es =>
      cases es with
      | nil => exact @Spells.noElements [] (by simp [Blank])
      | cons e es =>
        have each : ∀ w ∈ e :: es, Spells (.value w) (appendValue (depth + 1) w) :=
          fun w among => ih w among (inside w among) (depth + 1)
        exact Spells.array (elements_spelled each (blank_indent depth))
    | object ms =>
      cases ms with
      | nil => exact @Spells.noMembers [] (by simp [Blank])
      | cons m ms =>
        have each : ∀ n ∈ m :: ms, Spells (.value n.2) (appendValue (depth + 1) n.2) := by
          intro n among
          have child : n.2 ∈ children (.object (m :: ms)) := List.mem_map_of_mem among
          exact ih n.2 child (inside n.2 child) (depth + 1)
        exact Spells.object (members_spelled each (blank_indent depth))

theorem parse_serialise {v : JsonValue} (names : Throughout Unrepeated v)
    (numeric : Throughout Numeric v) (deep : Within kMaximumDepth v) :
    parseJson (serialiseJson v) = .ok v := by
  have document : Document v (serialiseJson v) :=
    ⟨[], appendValue 0 v, [0x0A], rfl, by simp [Blank], blank_line, written_spelled numeric 0⟩
  exact parseJson_ok.mpr ⟨document, names, deep⟩

/-- What is accepted, and for which value, the strings being those without a lone surrogate;
and every value comes back as it was written. -/
theorem json_exact :
    (∀ t v, parseJson t = .ok v ↔
      Document v t ∧ Throughout Unrepeated v ∧ Within kMaximumDepth v) ∧
    (∀ ps, (∃ t, Decodes ps t) ↔ paired false ps = true) ∧
    ∀ v, Throughout Unrepeated v → Throughout Numeric v → Within kMaximumDepth v →
      parseJson (serialiseJson v) = .ok v := by
  refine ⟨?_, decodes_iff_paired, ?_⟩
  · intro t v
    exact parseJson_ok
  · intro v names numeric deep
    exact parse_serialise names numeric deep

/-- A number and a name with a control character. -/
theorem json_exact_sample :
    parseJson (serialiseJson (.object [([0x01], .number (text "10"))])) =
      .ok (.object [([0x01], .number (text "10"))]) := by
  have numeral : Numeral (text "10") :=
    Numeral.parts (Or.inl rfl) (@Whole.digits 0x31 [0x30] rfl (by decide) (by decide))
      Fraction.none Exponent.none
  refine json_exact.2.2 _ ?_ ?_ ?_
  · refine .intro (by simp [Unrepeated]) ?_
    rintro c (_ | ⟨_, ⟨⟩⟩)
    exact .intro trivial (by simp [children])
  · refine .intro trivial ?_
    rintro c (_ | ⟨_, ⟨⟩⟩)
    exact .intro numeral (by simp [children])
  · rintro c (_ | ⟨_, ⟨⟩⟩)
    rintro d ⟨⟩

end Json
