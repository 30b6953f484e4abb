import DomesdayDuplicator.Update.JsonReads

/-!
# Which documents are accepted

Values, with the loops over elements and members: a text is read as a value exactly when the
grammar derives it for that value, no object in it repeats a name and it is not nested too deep.
-/

namespace Json

open FuelLoop Manifest ManifestReader

theorem map_ok {α β : Type} {x : Except Stop α} {f : α → β} {y : β} (h : x.map f = .ok y) :
    ∃ a, x = .ok a ∧ f a = y := by
  cases x with
  | error stop => cases h
  | ok a => exact ⟨a, rfl, Except.ok.inj h⟩

/-! ## Items between brackets -/

section

variable {α : Type} {item : List α → Text → Outcome α} {close : Byte}
  {unterminated expected : String}

theorem listTurn_again {items : List α} {t : Text} {next : List α × Text}
    (turned : listTurn item close unterminated expected (items, t) = .again next) :
    ∃ x rest b, item items t = .ok (x, rest) ∧ Blank b ∧ rest = b ++ comma :: next.2 ∧
      next.1 = items ++ [x] := by
  rw [listTurn] at turned
  split at turned
  · cases turned
  rename_i x rest read
  obtain ⟨b, blank, whole⟩ := skip_split rest
  split at turned
  · cases turned
  rename_i c after behind
  split at turned
  · rename_i separated
    obtain rfl := Turn.again.inj turned
    exact ⟨x, rest, b, read, blank, by rw [whole, behind, separated], rfl⟩
  split at turned
  · cases turned
  · cases turned

theorem listTurn_done {items : List α} {t : Text} {read : List α × Text}
    (turned : listTurn item close unterminated expected (items, t) = .done (.ok read)) :
    ∃ x rest b, item items t = .ok (x, rest) ∧ Blank b ∧ rest = b ++ close :: read.2 ∧
      read.1 = items ++ [x] := by
  rw [listTurn] at turned
  split at turned
  · cases turned
  rename_i x rest one
  obtain ⟨b, blank, whole⟩ := skip_split rest
  split at turned
  · cases turned
  rename_i c after behind
  split at turned
  · cases turned
  split at turned
  · rename_i closed
    obtain rfl := Except.ok.inj (Turn.done.inj turned)
    exact ⟨x, rest, b, one, blank, by rw [whole, behind, closed], rfl⟩
  · cases turned

theorem listTurn_comma {items : List α} {t rest b after : Text} {x : α}
    (read : item items t = .ok (x, rest)) (blank : Blank b) (split : rest = b ++ comma :: after) :
    listTurn item close unterminated expected (items, t) = .again (items ++ [x], after) := by
  have behind : skipWhitespace rest = comma :: after := by
    rw [split, skip_blank blank]
    rfl
  rw [listTurn, read]
  simp only [behind, if_true]

theorem listTurn_close {items : List α} {t rest b after : Text} {x : α}
    (read : item items t = .ok (x, rest)) (blank : Blank b) (split : rest = b ++ close :: after)
    (solid : isWhitespace close = false) (other : close ≠ comma) :
    listTurn item close unterminated expected (items, t) = .done (.ok (items ++ [x], after)) := by
  have behind : skipWhitespace rest = close :: after := by
    rw [split, skip_blank blank, skip_solid solid]
  rw [listTurn, read]
  simp only [behind, if_neg other, if_true]

end

/-! ## What is read is derived -/

/-- What there is to say of a value that is read with so many levels left. -/
structure Good (levels : Nat) (v : JsonValue) : Prop where
  names : Throughout Unrepeated v
  deep : ∃ inside, levels = inside + 1 ∧ Within inside v

theorem good_of_children {levels : Nat} {v : JsonValue} (here : Unrepeated v)
    (inside : ∀ c ∈ children v, Good levels c) : Good (levels + 1) v where
  names := Throughout.intro here fun c among => (inside c among).names
  deep := by
    refine ⟨levels, rfl, ?_⟩
    cases levels with
    | zero =>
      refine List.eq_nil_iff_forall_not_mem.mpr fun c among => ?_
      obtain ⟨k, none, -⟩ := (inside c among).deep
      exact absurd none (Nat.succ_ne_zero k).symm
    | succ levels =>
      intro c among
      obtain ⟨k, same, within⟩ := (inside c among).deep
      exact Nat.succ.inj same ▸ within

theorem Blank.append {a b : Text} (first : Blank a) (second : Blank b) : Blank (a ++ b) := by
  intro c here
  rcases List.mem_append.mp here with one | two
  · exact first c one
  · exact second c two

theorem spells_elements_pad {a t : Text} {es : List JsonValue} (blank : Blank a)
    (spelled : Spells (.elements es) t) : Spells (.elements es) (a ++ t) := by
  cases spelled with
  | @lastElement a' b v t before after only =>
    have padded := Spells.lastElement (blank.append before) after only
    simpa using padded
  | @moreElements a' b v t es t' before after first rest =>
    have padded := Spells.moreElements (blank.append before) after first rest
    simpa using padded

theorem spells_members_pad {a t : Text} {ms : List (Text × JsonValue)} (blank : Blank a)
    (spelled : Spells (.members ms) t) : Spells (.members ms) (a ++ t) := by
  cases spelled with
  | @lastMember a' b ps name c d v t before after named left right only =>
    have padded := Spells.lastMember (blank.append before) after named left right only
    simpa using padded
  | @moreMembers a' b ps name c d v t ms t' before after named left right first rest =>
    have padded := Spells.moreMembers (blank.append before) after named left right first rest
    simpa using padded

/-- What a value's reader returns is derived from the front of the text. -/
def Derives (levels : Nat) (value : Text → Outcome JsonValue) : Prop :=
  ∀ t v rest, value t = .ok (v, rest) → ∃ s, t = s ++ rest ∧ Spells (.value v) s ∧ Good levels v

/-- What has been read of an array when its loop is at `s`. -/
def ElementsRead (levels : Nat) (t : Text) (s : List JsonValue × Text) : Prop :=
  ∃ before, t = before ++ s.2 ∧
    (∀ tail u, Spells (.elements tail) u → Spells (.elements (s.1 ++ tail)) (before ++ u)) ∧
    ∀ e ∈ s.1, Good levels e

section

variable {levels : Nat} {value : Text → Outcome JsonValue}

theorem parseElement_derives (derives : Derives levels value) {es : List JsonValue} {t rest : Text}
    {v : JsonValue} (read : parseElement value es t = .ok (v, rest)) :
    ∃ a s, t = a ++ s ++ rest ∧ Blank a ∧ Spells (.value v) s ∧ Good levels v := by
  obtain ⟨a, blank, split⟩ := skip_split t
  obtain ⟨s, split', spelled, good⟩ := derives _ _ _ read
  exact ⟨a, s, by rw [List.append_assoc, ← split', ← split], blank, spelled, good⟩

theorem elementsRead_keeps (derives : Derives levels value) (t : Text)
    (s next : List JsonValue × Text) (read : ElementsRead levels t s)
    (turned : elementTurn value s = .again next) : ElementsRead levels t next := by
  obtain ⟨es, here⟩ := s
  obtain ⟨before, split, spells, good⟩ := read
  obtain ⟨v, rest, b, one, blank, behind, es'⟩ := listTurn_again turned
  obtain ⟨a, body, split', blank', spelled, good'⟩ := parseElement_derives derives one
  refine ⟨before ++ (a ++ body ++ b ++ [comma]), ?_, ?_, ?_⟩
  · rw [split, split', behind]
    simp
  · intro tail u spelled'
    rw [es', List.append_assoc, List.append_assoc]
    have more := spells _ _ (Spells.moreElements blank' blank spelled spelled')
    simpa using more
  · intro e among
    rw [es'] at among
    rcases List.mem_append.mp among with old | new
    · exact good e old
    · rw [List.mem_singleton.mp new]
      exact good'

theorem parseArray_derives (derives : Derives levels value) {t rest : Text} {v : JsonValue}
    (read : parseArray value t = .ok (v, rest)) :
    ∃ s, openBracket :: t = s ++ rest ∧ Spells (.value v) s ∧ Good (levels + 1) v := by
  obtain ⟨a, blank, split⟩ := skip_split t
  rw [parseArray] at read
  split at read
  · rename_i after behind
    obtain ⟨rfl, rfl⟩ := Prod.mk.inj (Except.ok.inj read)
    refine ⟨openBracket :: (a ++ [closeBracket]), ?_, Spells.noElements blank, ?_⟩
    · rw [split, behind]
      simp
    · exact good_of_children trivial (by simp [children])
  · obtain ⟨⟨es, after⟩, looped, rebuilt⟩ := map_ok read
    obtain ⟨rfl, rfl⟩ := Prod.mk.inj rebuilt
    obtain ⟨last, visited, done⟩ := visits_of_loop looped
    have start : ElementsRead levels t ([], skipWhitespace t) :=
      ⟨a, split, fun _ _ spelled => spells_elements_pad blank spelled, by simp⟩
    obtain ⟨before, split', spells, good⟩ := visited.invariant start (elementsRead_keeps derives t)
    obtain ⟨w, behind, b, one, blank', closing, whole⟩ := listTurn_done done
    obtain ⟨a', body, split'', blank'', spelled, good'⟩ := parseElement_derives derives one
    have all := spells _ _ (Spells.lastElement blank'' blank' spelled)
    rw [← show es = last.1 ++ [w] from whole] at all
    refine ⟨_, ?_, Spells.array all, good_of_children trivial ?_⟩
    · rw [split', split'', closing]
      simp
    · intro e among
      rw [children, show es = last.1 ++ [w] from whole] at among
      rcases List.mem_append.mp among with old | new
      · exact good e old
      · rw [List.mem_singleton.mp new]
        exact good'

theorem parseMember_derives (derives : Derives levels value) {ms : List (Text × JsonValue)}
    {t rest name : Text} {v : JsonValue} (read : parseMember value ms t = .ok ((name, v), rest)) :
    ∃ a ps c d body, t = a ++ labelled ps c d body ++ rest ∧ Blank a ∧ Decodes ps name ∧ Blank c ∧
      Blank d ∧ Spells (.value v) body ∧ Good levels v ∧ name ∉ ms.map Prod.fst := by
  obtain ⟨a, blank, split⟩ := skip_split t
  rw [parseMember] at read
  split at read
  · rename_i inside behind
    split at read
    · cases read
    rename_i name' after one
    obtain ⟨ps, spelled, named⟩ := parseString_ok.mp one
    split at read
    · cases read
    rename_i fresh
    obtain ⟨c, blank', split'⟩ := skip_split after
    split at read
    · rename_i tail colon_
      obtain ⟨⟨w, final⟩, two, rebuilt⟩ := map_ok read
      obtain ⟨pair, rfl⟩ := Prod.mk.inj rebuilt
      obtain ⟨rfl, rfl⟩ := Prod.mk.inj pair
      obtain ⟨d, blank'', split''⟩ := skip_split tail
      obtain ⟨body, split₃, spelled', good⟩ := derives _ _ _ two
      refine ⟨a, ps, c, d, body, ?_, blank, named, blank', blank'', spelled', good, ?_⟩
      · rw [split, behind, spelled, split', colon_, split'', split₃, labelled]
        simp
      · simpa using fresh
    · cases read
  · cases read

/-- What has been read of an object when its loop is at `s`. -/
def MembersRead (levels : Nat) (t : Text) (s : List (Text × JsonValue) × Text) : Prop :=
  ∃ before, t = before ++ s.2 ∧
    (∀ tail u, Spells (.members tail) u → Spells (.members (s.1 ++ tail)) (before ++ u)) ∧
    (∀ m ∈ s.1, Good levels m.2) ∧ (s.1.map Prod.fst).Nodup

theorem nodup_snoc {ms : List (Text × JsonValue)} {name : Text} {v : JsonValue}
    (nodup : (ms.map Prod.fst).Nodup) (fresh : name ∉ ms.map Prod.fst) :
    ((ms ++ [(name, v)]).map Prod.fst).Nodup := by
  rw [List.map_append]
  refine nodup.append (List.nodup_singleton _) ?_
  intro other here there
  rw [List.mem_singleton.mp there] at here
  exact fresh here

theorem membersRead_keeps (derives : Derives levels value) (t : Text)
    (s next : List (Text × JsonValue) × Text) (read : MembersRead levels t s)
    (turned : memberTurn value s = .again next) : MembersRead levels t next := by
  obtain ⟨ms, here⟩ := s
  obtain ⟨before, split, spells, good, nodup⟩ := read
  obtain ⟨⟨name, v⟩, rest, b, one, blank, behind, ms'⟩ := listTurn_again turned
  obtain ⟨a, ps, c, d, body, split', blank', named, left, right, spelled, good', fresh⟩ :=
    parseMember_derives derives one
  refine ⟨before ++ (a ++ labelled ps c d body ++ b ++ [comma]), ?_, ?_, ?_, ?_⟩
  · rw [split, split', behind]
    simp
  · intro tail u spelled'
    rw [ms', List.append_assoc, List.append_assoc]
    have more := spells _ _ (Spells.moreMembers blank' blank named left right spelled spelled')
    simpa using more
  · intro m among
    rw [ms'] at among
    rcases List.mem_append.mp among with old | new
    · exact good m old
    · rw [List.mem_singleton.mp new]
      exact good'
  · rw [ms']
    exact nodup_snoc nodup fresh

theorem parseObject_derives (derives : Derives levels value) {t rest : Text} {v : JsonValue}
    (read : parseObject value t = .ok (v, rest)) :
    ∃ s, openBrace :: t = s ++ rest ∧ Spells (.value v) s ∧ Good (levels + 1) v := by
  obtain ⟨a, blank, split⟩ := skip_split t
  rw [parseObject] at read
  split at read
  · rename_i after behind
    obtain ⟨rfl, rfl⟩ := Prod.mk.inj (Except.ok.inj read)
    refine ⟨openBrace :: (a ++ [closeBrace]), ?_, Spells.noMembers blank, ?_⟩
    · rw [split, behind]
      simp
    · exact good_of_children (by simp [Unrepeated]) (by simp [children])
  · obtain ⟨⟨ms, after⟩, looped, rebuilt⟩ := map_ok read
    obtain ⟨rfl, rfl⟩ := Prod.mk.inj rebuilt
    obtain ⟨last, visited, done⟩ := visits_of_loop looped
    have start : MembersRead levels t ([], skipWhitespace t) :=
      ⟨a, split, fun _ _ spelled => spells_members_pad blank spelled, by simp, by simp⟩
    obtain ⟨before, split', spells, good, nodup⟩ :=
      visited.invariant start (membersRead_keeps derives t)
    obtain ⟨⟨name, w⟩, behind, b, one, blank', closing, whole⟩ := listTurn_done done
    obtain ⟨a', ps, c, d, body, split'', blank'', named, left, right, spelled, good', fresh⟩ :=
      parseMember_derives derives one
    have all := spells _ _ (Spells.lastMember blank'' blank' named left right spelled)
    have nodup' := nodup_snoc (v := w) nodup fresh
    rw [← show ms = last.1 ++ [(name, w)] from whole] at all nodup'
    refine ⟨_, ?_, Spells.object all, good_of_children nodup' ?_⟩
    · rw [split', split'', closing]
      simp
    · intro e among
      obtain ⟨m, among', rfl⟩ := List.mem_map.mp among
      rw [show ms = last.1 ++ [(name, w)] from whole] at among'
      rcases List.mem_append.mp among' with old | new
      · exact good m old
      · rw [List.mem_singleton.mp new]
        exact good'

end

theorem parseLiteral_ok {literal t rest : Text} {value v : JsonValue}
    (read : parseLiteral literal value t = .ok (v, rest)) : t = literal ++ rest ∧ v = value := by
  rw [parseLiteral] at read
  split at read
  · rename_i starts
    obtain ⟨rfl, rfl⟩ := Prod.mk.inj (Except.ok.inj read)
    obtain ⟨rest, rfl⟩ := starts
    rw [List.drop_left]
    exact ⟨rfl, rfl⟩
  · cases read

theorem good_leaf {levels : Nat} {v : JsonValue} (here : Unrepeated v) (leaf : children v = []) :
    Good (levels + 1) v := good_of_children here (by simp [leaf])

theorem parseValue_derives (levels : Nat) : Derives levels (parseValue levels) := by
  induction levels with
  | zero =>
    intro t v rest read
    cases read
  | succ levels ih =>
    intro t v rest read
    cases t with
    | nil => cases read
    | cons c after =>
      rw [parseValue] at read
      split_ifs at read with e e e e e e
      · rw [e]
        exact parseObject_derives ih read
      · rw [e]
        exact parseArray_derives ih read
      · obtain ⟨⟨decoded, behind⟩, one, rebuilt⟩ := map_ok read
        obtain ⟨rfl, rfl⟩ := Prod.mk.inj rebuilt
        obtain ⟨ps, split, named⟩ := parseString_ok.mp one
        refine ⟨quote :: (spelling ps ++ [quote]), ?_, Spells.string named, good_leaf trivial rfl⟩
        rw [e, split]
        simp
      · obtain ⟨split, rfl⟩ := parseLiteral_ok read
        exact ⟨_, split, Spells.yes, good_leaf trivial rfl⟩
      · obtain ⟨split, rfl⟩ := parseLiteral_ok read
        exact ⟨_, split, Spells.no, good_leaf trivial rfl⟩
      · obtain ⟨split, rfl⟩ := parseLiteral_ok read
        exact ⟨_, split, Spells.null, good_leaf trivial rfl⟩
      · obtain ⟨lexeme, split, numeral, rfl⟩ := parseNumber_ok read
        exact ⟨_, split, Spells.number numeral, good_leaf trivial rfl⟩

/-! ## What is derived is read -/

theorem Good.children {levels : Nat} {v : JsonValue} (good : Good (levels + 1) v) :
    ∀ c ∈ children v, Good levels c := by
  obtain ⟨names, inside, same, within⟩ := good
  obtain rfl := Nat.succ.inj same
  obtain ⟨-, below⟩ := names
  intro c among
  cases levels with
  | zero => exact absurd (show c ∈ [] from within ▸ among) List.not_mem_nil
  | succ levels => exact ⟨below c among, levels, rfl, within c among⟩

theorem Good.unrepeated {levels : Nat} {v : JsonValue} (good : Good levels v) : Unrepeated v := by
  obtain ⟨here, -⟩ := good.names
  exact here

theorem numeral_head {lexeme : Text} (numeral : Numeral lexeme) :
    ∃ c t, lexeme = c :: t ∧ (c = 0x2D ∨ isDigit c = true) := by
  obtain ⟨signed, first, -, -⟩ := numeral
  rcases signed with rfl | rfl
  · cases first with
    | zero => exact ⟨_, _, rfl, Or.inr rfl⟩
    | digits digit _ _ => exact ⟨_, _, rfl, Or.inr digit⟩
  · exact ⟨_, _, rfl, Or.inl rfl⟩

/-- A number begins with none of the characters that open another value. -/
theorem numeral_head_other {c : Byte} (first : c = 0x2D ∨ isDigit c = true) :
    ∀ d ∈ [openBrace, openBracket, quote, 0x74, 0x66, 0x6E, closeBracket, 0x20, 0x09, 0x0A, 0x0D],
      c ≠ d := by
  rintro d listed rfl
  simp only [List.mem_cons, List.not_mem_nil, or_false] at listed
  rcases first with rfl | digit
  · exact absurd listed (by decide)
  · rcases listed with rfl | rfl | rfl | rfl | rfl | rfl | rfl | rfl | rfl | rfl | rfl
    all_goals exact absurd digit (by decide)

theorem value_head {v : JsonValue} {t : Text} (spelled : Spells (.value v) t) :
    ∃ c u, t = c :: u ∧ isWhitespace c = false ∧ c ≠ closeBracket := by
  cases spelled with
  | null => exact ⟨0x6E, text "ull", rfl, rfl, by decide⟩
  | yes => exact ⟨0x74, text "rue", rfl, rfl, by decide⟩
  | no => exact ⟨0x66, text "alse", rfl, rfl, by decide⟩
  | string named => exact ⟨_, _, rfl, rfl, by decide⟩
  | noElements gap => exact ⟨_, _, rfl, rfl, by decide⟩
  | array inside => exact ⟨_, _, rfl, rfl, by decide⟩
  | noMembers gap => exact ⟨_, _, rfl, rfl, by decide⟩
  | object inside => exact ⟨_, _, rfl, rfl, by decide⟩
  | number numeral =>
    obtain ⟨c, u, rfl, first⟩ := numeral_head numeral
    have other := numeral_head_other first
    refine ⟨c, u, rfl, ?_, other closeBracket (by simp)⟩
    simp [isWhitespace, other]

theorem skip_value {v : JsonValue} {a t : Text} (blank : Blank a) (spelled : Spells (.value v) t)
    (rest : Text) : skipWhitespace (a ++ (t ++ rest)) = t ++ rest := by
  obtain ⟨c, u, rfl, solid, -⟩ := value_head spelled
  rw [skip_blank blank, List.cons_append, skip_solid solid]

theorem closed_after {b : Text} (blank : Blank b) {c : Byte}
    (closes : c = comma ∨ c = closeBracket ∨ c = closeBrace) (rest : Text) :
    Closed (b ++ c :: rest) := by
  intro d here
  cases b with
  | nil =>
    obtain rfl : c = d := Option.some.inj here
    exact Or.inr closes
  | cons e b =>
    obtain rfl : e = d := Option.some.inj here
    exact Or.inl (blank e (by simp))

section

variable {α : Type} {item : List α → Text → Outcome α} {close : Byte}
  {unterminated expected : String}

theorem listTurn_skip (skips : ∀ items t, item items (skipWhitespace t) = item items t)
    (items : List α) (t : Text) :
    listTurn item close unterminated expected (items, skipWhitespace t) =
      listTurn item close unterminated expected (items, t) := by
  rw [listTurn, listTurn, skips]

theorem listTurn_shortens
    (shorter : ∀ items t x rest, item items t = .ok (x, rest) → rest.length ≤ t.length)
    (s next : List α × Text)
    (turned : listTurn item close unterminated expected s = .again next) :
    next.2.length < s.2.length := by
  obtain ⟨items, t⟩ := s
  obtain ⟨x, rest, b, read, -, split, -⟩ := listTurn_again turned
  have most := shorter items t x rest read
  rw [split, List.length_append, List.length_cons] at most
  show next.2.length < t.length
  omega

end

theorem parseElement_skips (value : Text → Outcome JsonValue) (es : List JsonValue) (t : Text) :
    parseElement value es (skipWhitespace t) = parseElement value es t := by
  rw [parseElement, parseElement, skip_skip]

theorem parseMember_skips (value : Text → Outcome JsonValue) (ms : List (Text × JsonValue))
    (t : Text) : parseMember value ms (skipWhitespace t) = parseMember value ms t := by
  rw [parseMember, parseMember, skip_skip]

theorem element_shortens (levels : Nat) (s next : List JsonValue × Text)
    (turned : elementTurn (parseValue levels) s = .again next) : next.2.length < s.2.length := by
  refine listTurn_shortens (fun es t v rest read => ?_) s next turned
  obtain ⟨a, body, split, -⟩ := parseElement_derives (parseValue_derives levels) read
  rw [split, List.length_append]
  exact Nat.le_add_left _ _

theorem member_shortens (levels : Nat) (s next : List (Text × JsonValue) × Text)
    (turned : memberTurn (parseValue levels) s = .again next) : next.2.length < s.2.length := by
  refine listTurn_shortens (fun ms t m rest read => ?_) s next turned
  obtain ⟨a, ps, c, d, body, split, -⟩ := parseMember_derives (parseValue_derives levels) read
  rw [split, List.length_append]
  exact Nat.le_add_left _ _

/-- The readers make of a derived text what it is derived for. -/
def Reads : Phrase → Text → Prop
  | .value v, t => ∀ levels rest, Good levels v → Closed rest →
      parseValue levels (t ++ rest) = .ok (v, rest)
  | .elements es, t => ∀ levels done rest, (∀ e ∈ es, Good levels e) →
      Returns (elementTurn (parseValue levels)) (done, t ++ closeBracket :: rest)
        (.ok (done ++ es, rest))
  | .members ms, t => ∀ levels done rest, (∀ m ∈ ms, Good levels m.2) →
      ((done ++ ms).map Prod.fst).Nodup →
      Returns (memberTurn (parseValue levels)) (done, t ++ closeBrace :: rest)
        (.ok (done ++ ms, rest))

theorem element_reads {levels : Nat} {v : JsonValue} {a t rest : Text} (blank : Blank a)
    (spelled : Spells (.value v) t) (reads : Reads (.value v) t) (good : Good levels v)
    (closed : Closed rest) (done : List JsonValue) :
    parseElement (parseValue levels) done (a ++ t ++ rest) = .ok (v, rest) := by
  rw [parseElement, List.append_assoc, skip_value blank spelled]
  exact reads levels rest good closed

theorem member_reads {levels : Nat} {v : JsonValue} {a c d t rest name : Text} {ps : List Piece}
    (blank : Blank a) (named : Decodes ps name) (left : Blank c) (right : Blank d)
    (spelled : Spells (.value v) t) (reads : Reads (.value v) t) (good : Good levels v)
    (closed : Closed rest) {done : List (Text × JsonValue)} (fresh : name ∉ done.map Prod.fst) :
    parseMember (parseValue levels) done (a ++ labelled ps c d t ++ rest) =
      .ok ((name, v), rest) := by
  have opened : skipWhitespace (a ++ labelled ps c d t ++ rest) =
      0x22#8 :: (spelling ps ++ quote :: (c ++ 0x3A#8 :: (d ++ (t ++ rest)))) := by
    rw [List.append_assoc, skip_blank blank, labelled, List.cons_append, skip_solid (by decide)]
    simp
  have one : parseString (spelling ps ++ quote :: (c ++ 0x3A#8 :: (d ++ (t ++ rest)))) =
      .ok (name, c ++ 0x3A#8 :: (d ++ (t ++ rest))) := parseString_ok.mpr ⟨ps, rfl, named⟩
  have new : (done.any fun member => member.1 == name) = false := by
    refine List.any_eq_false.mpr fun member among same => fresh ?_
    rw [← eq_of_beq same]
    exact List.mem_map_of_mem among
  have behind : skipWhitespace (c ++ 0x3A#8 :: (d ++ (t ++ rest))) =
      0x3A#8 :: (d ++ (t ++ rest)) := by
    rw [skip_blank left, skip_solid (by decide)]
  have value := reads levels rest good closed
  rw [parseMember, opened]
  simp only [one, new, behind, skip_value right spelled, value]
  rfl

theorem elements_head {es : List JsonValue} {t : Text} (spelled : Spells (.elements es) t)
    (rest : Text) : ∃ c u, skipWhitespace (t ++ rest) = c :: u ∧ c ≠ closeBracket := by
  cases spelled with
  | @lastElement a b v t before after only =>
    obtain ⟨c, u, split, -, other⟩ := value_head only
    refine ⟨c, u ++ (b ++ rest), ?_, other⟩
    rw [List.append_assoc, List.append_assoc, skip_value before only, split]
    rfl
  | @moreElements a b v t es t' before after first more =>
    obtain ⟨c, u, split, -, other⟩ := value_head first
    refine ⟨c, u ++ (b ++ comma :: t' ++ rest), ?_, other⟩
    rw [List.append_assoc, List.append_assoc, List.append_assoc, skip_value before first, split]
    simp

theorem members_head {ms : List (Text × JsonValue)} {t : Text} (spelled : Spells (.members ms) t)
    (rest : Text) : ∃ u, skipWhitespace (t ++ rest) = quote :: u := by
  have named {a : Text} (before : Blank a) (ps : List Piece) (c d body more : Text) :
      ∃ u, skipWhitespace (a ++ (labelled ps c d body ++ more)) = quote :: u := by
    rw [skip_blank before, labelled, List.cons_append, skip_solid (by decide)]
    exact ⟨_, rfl⟩
  cases spelled with
  | @lastMember a b ps name c d v t before =>
    rw [List.append_assoc, List.append_assoc]
    exact named before ps c d t _
  | @moreMembers a b ps name c d v t ms t' before =>
    rw [List.append_assoc, List.append_assoc, List.append_assoc]
    exact named before ps c d t _

theorem parseArray_reads {es : List JsonValue} {t : Text} (spelled : Spells (.elements es) t)
    (reads : Reads (.elements es) t) {levels : Nat} (good : ∀ e ∈ es, Good levels e)
    (rest : Text) :
    parseArray (parseValue levels) (t ++ closeBracket :: rest) = .ok (.array es, rest) := by
  obtain ⟨c, u, head, other⟩ := elements_head spelled (closeBracket :: rest)
  have returned := reads levels [] rest good
  have same : elementTurn (parseValue levels) ([], skipWhitespace (t ++ closeBracket :: rest)) =
      elementTurn (parseValue levels) ([], t ++ closeBracket :: rest) :=
    listTurn_skip (parseElement_skips _) [] _
  rw [← returns_congr same] at returned
  have looped := loop_of_returns (element_shortens levels) returned
  rw [parseArray]
  split
  · rename_i closing
    rw [head] at closing
    exact absurd (List.cons.inj closing).1 other
  · rw [looped]
    rfl

theorem parseObject_reads {ms : List (Text × JsonValue)} {t : Text}
    (spelled : Spells (.members ms) t) (reads : Reads (.members ms) t) {levels : Nat}
    (good : ∀ m ∈ ms, Good levels m.2) (nodup : (ms.map Prod.fst).Nodup) (rest : Text) :
    parseObject (parseValue levels) (t ++ closeBrace :: rest) = .ok (.object ms, rest) := by
  obtain ⟨u, head⟩ := members_head spelled (closeBrace :: rest)
  have returned := reads levels [] rest good nodup
  have same : memberTurn (parseValue levels) ([], skipWhitespace (t ++ closeBrace :: rest)) =
      memberTurn (parseValue levels) ([], t ++ closeBrace :: rest) :=
    listTurn_skip (parseMember_skips _) [] _
  rw [← returns_congr same] at returned
  have looped := loop_of_returns (member_shortens levels) returned
  rw [parseObject]
  split
  · rename_i closing
    rw [head] at closing
    exact absurd (List.cons.inj closing).1 (by decide)
  · rw [looped]
    rfl

theorem parseLiteral_reads (literal : Text) (value : JsonValue) (rest : Text) :
    parseLiteral literal value (literal ++ rest) = .ok (value, rest) := by
  rw [parseLiteral, if_pos (List.prefix_append literal rest), List.drop_left]

theorem parseValue_number {lexeme rest : Text} (numeral : Numeral lexeme) (closed : Closed rest)
    (levels : Nat) : parseValue (levels + 1) (lexeme ++ rest) = .ok (.number lexeme, rest) := by
  have read := parseNumber_reads numeral closed
  obtain ⟨c, u, rfl, first⟩ := numeral_head numeral
  have other := numeral_head_other first
  rw [List.cons_append, parseValue, if_neg (other _ (by simp)), if_neg (other _ (by simp)),
    if_neg (other _ (by simp)), if_neg (other _ (by simp)), if_neg (other _ (by simp)),
    if_neg (other _ (by simp))]
  exact read

theorem nodup_parts {done ms : List (Text × JsonValue)} {name : Text} {v : JsonValue}
    (nodup : ((done ++ (name, v) :: ms).map Prod.fst).Nodup) : name ∉ done.map Prod.fst := by
  rw [List.map_append, List.map_cons] at nodup
  intro here
  exact (List.nodup_append.mp nodup).2.2 name here name (by simp) rfl

theorem reads_of_spells {p : Phrase} {t : Text} (spelled : Spells p t) : Reads p t := by
  induction spelled with
  | null =>
    rintro levels rest ⟨-, inside, rfl, -⟩ closed
    exact parseLiteral_reads (text "null") .null rest
  | yes =>
    rintro levels rest ⟨-, inside, rfl, -⟩ closed
    exact parseLiteral_reads (text "true") (.boolean true) rest
  | no =>
    rintro levels rest ⟨-, inside, rfl, -⟩ closed
    exact parseLiteral_reads (text "false") (.boolean false) rest
  | number numeral =>
    rintro levels rest ⟨-, inside, rfl, -⟩ closed
    exact parseValue_number numeral closed inside
  | @string ps t named =>
    rintro levels rest ⟨-, inside, rfl, -⟩ closed
    have read : parseString (spelling ps ++ [quote] ++ rest) = .ok (t, rest) :=
      parseString_ok.mpr ⟨ps, List.append_assoc _ _ _, named⟩
    have opened : parseValue (inside + 1) (quote :: (spelling ps ++ [quote] ++ rest)) =
        (parseString (spelling ps ++ [quote] ++ rest)).map fun read =>
          (.string read.1, read.2) := rfl
    exact opened.trans (by rw [read]; rfl)
  | @noElements a gap =>
    rintro levels rest ⟨-, inside, rfl, -⟩ closed
    have skipped : skipWhitespace (a ++ [closeBracket] ++ rest) = 0x5D#8 :: rest := by
      rw [List.append_assoc, skip_blank gap]
      rfl
    have opened : parseValue (inside + 1) (openBracket :: (a ++ [closeBracket] ++ rest)) =
        parseArray (parseValue inside) (a ++ [closeBracket] ++ rest) := rfl
    refine opened.trans ?_
    rw [parseArray, skipped]
    rfl
  | @array es t spelled ih =>
    rintro levels rest good closed
    obtain ⟨inside, rfl, -⟩ := good.deep
    have read := parseArray_reads spelled ih good.children rest
    have opened : parseValue (inside + 1) (openBracket :: (t ++ [closeBracket] ++ rest)) =
        parseArray (parseValue inside) (t ++ [closeBracket] ++ rest) := rfl
    refine opened.trans ?_
    rw [List.append_assoc]
    exact read
  | @noMembers a gap =>
    rintro levels rest ⟨-, inside, rfl, -⟩ closed
    have skipped : skipWhitespace (a ++ [closeBrace] ++ rest) = 0x7D#8 :: rest := by
      rw [List.append_assoc, skip_blank gap]
      rfl
    have opened : parseValue (inside + 1) (openBrace :: (a ++ [closeBrace] ++ rest)) =
        parseObject (parseValue inside) (a ++ [closeBrace] ++ rest) := rfl
    refine opened.trans ?_
    rw [parseObject, skipped]
    rfl
  | @object ms t spelled ih =>
    rintro levels rest good closed
    obtain ⟨inside, rfl, -⟩ := good.deep
    have below : ∀ m ∈ ms, Good inside m.2 := by
      intro m among
      exact good.children m.2 (List.mem_map_of_mem among)
    have read := parseObject_reads spelled ih below good.unrepeated rest
    have opened : parseValue (inside + 1) (openBrace :: (t ++ [closeBrace] ++ rest)) =
        parseObject (parseValue inside) (t ++ [closeBrace] ++ rest) := rfl
    refine opened.trans ?_
    rw [List.append_assoc]
    exact read
  | @lastElement a b v t before after only ih =>
    intro levels done rest good
    have closed := closed_after after (Or.inr (Or.inl rfl)) rest
    have read := element_reads before only ih (good v (by simp)) closed done
    rw [List.append_assoc]
    exact (returns_done (listTurn_close read after rfl (by decide) (by decide))).mpr rfl
  | @moreElements a b v t es t' before after first more ih ih' =>
    intro levels done rest good
    have closed := closed_after after (Or.inl rfl) (t' ++ closeBracket :: rest)
    have read := element_reads before first ih (good v (by simp)) closed done
    have rest' := ih' levels (done ++ [v]) rest fun e among => good e (by simp [among])
    rw [List.append_assoc] at rest'
    have split : a ++ t ++ b ++ comma :: t' ++ closeBracket :: rest =
        a ++ t ++ (b ++ comma :: (t' ++ closeBracket :: rest)) := by simp
    rw [split]
    exact (returns_again (listTurn_comma read after rfl)).mpr rest'
  | @lastMember a b ps name c d v t before after named left right only ih =>
    intro levels done rest good nodup
    have closed := closed_after after (Or.inr (Or.inr rfl)) rest
    have read := member_reads before named left right only ih (good (name, v) (by simp))
      closed (nodup_parts nodup)
    rw [List.append_assoc]
    exact (returns_done (listTurn_close read after rfl (by decide) (by decide))).mpr rfl
  | @moreMembers a b ps name c d v t ms t' before after named left right first more ih ih' =>
    intro levels done rest good nodup
    have closed := closed_after after (Or.inl rfl) (t' ++ closeBrace :: rest)
    have read := member_reads before named left right first ih (good (name, v) (by simp))
      closed (nodup_parts nodup)
    have rest' := ih' levels (done ++ [(name, v)]) rest (fun m among => good m (by simp [among]))
      (by simpa using nodup)
    rw [List.append_assoc] at rest'
    have split : a ++ labelled ps c d t ++ b ++ comma :: t' ++ closeBrace :: rest =
        a ++ labelled ps c d t ++ (b ++ comma :: (t' ++ closeBrace :: rest)) := by simp
    rw [split]
    exact (returns_again (listTurn_comma read after rfl)).mpr rest'

/-! ## Documents -/

theorem closed_blank {b : Text} (blank : Blank b) : Closed b := by
  intro c here
  exact Or.inl (blank c (List.mem_of_mem_head? here))

theorem parseJson_ok {t : Text} {v : JsonValue} :
    parseJson t = .ok v ↔
      Document v t ∧ Throughout Unrepeated v ∧ Within kMaximumDepth v := by
  obtain ⟨a, blank, split⟩ := skip_split t
  constructor
  · intro read
    rw [parseJson, parseDocument] at read
    cases one : parseValue (kMaximumDepth + 1) (skipWhitespace t) with
    | error stop =>
      rw [one] at read
      cases read
    | ok pair =>
      obtain ⟨w, rest⟩ := pair
      obtain ⟨s, split', spelled, good⟩ := parseValue_derives _ _ _ _ one
      obtain ⟨b, blank', split''⟩ := skip_split rest
      cases behind : skipWhitespace rest with
      | cons c after =>
        simp only [one, behind, fail] at read
        cases read
      | nil =>
        simp only [one, behind] at read
        obtain rfl := Except.ok.inj read
        rw [behind, List.append_nil] at split''
        obtain ⟨names, inside, same, within⟩ := good
        obtain rfl := Nat.succ.inj same
        refine ⟨⟨a, s, b, ?_, blank, blank', spelled⟩, names, within⟩
        rw [List.append_assoc, ← split'', ← split', ← split]
  · rintro ⟨⟨a, s, b, rfl, before, after, spelled⟩, names, within⟩
    have good : Good (kMaximumDepth + 1) v := ⟨names, kMaximumDepth, rfl, within⟩
    have read : parseValue (kMaximumDepth + 1) (s ++ b) = .ok (v, b) :=
      reads_of_spells spelled _ _ good (closed_blank after)
    have ends : skipWhitespace b = [] := List.dropWhile_eq_nil_iff.mpr after
    have whole : parseDocument (a ++ s ++ b) = .ok (v, []) := by
      rw [parseDocument, List.append_assoc, skip_value before spelled, read]
      simp only [ends]
    rw [parseJson, whole]

/-! ## Lone surrogates -/

theorem paired_of_decodes {ps : List Piece} {t : Text} (named : Decodes ps t) :
    paired false ps = true := by
  induction named with
  | nil => rfl
  | plain _ ih => exact ih
  | short _ ih => exact ih
  | unit high low _ ih => simp [paired, high, low, ih]
  | @pair a b c d value hex a' b' c' d' value' hex' ps t high low _ ih =>
    have apart : isLow value = false := by
      simp only [isHigh, isLow, decide_eq_true_eq, decide_eq_false_iff_not] at high ⊢
      omega
    simp [paired, high, low, apart, ih]

theorem decodes_of_paired : ∀ ps : List Piece, paired false ps = true → ∃ t, Decodes ps t
  | [], _ => ⟨[], .nil⟩
  | .plain c free :: ps, h => by
    obtain ⟨t, named⟩ := decodes_of_paired ps h
    exact ⟨_, .plain named⟩
  | .short letter stands listed :: ps, h => by
    obtain ⟨t, named⟩ := decodes_of_paired ps h
    exact ⟨_, .short named⟩
  | [.unit a b c d value hex], h => by
    simp only [paired, Bool.and_eq_true, Bool.not_eq_true'] at h
    exact ⟨_, .unit h.2 h.1 .nil⟩
  | .unit a b c d value hex :: p :: ps, h => by
    rw [paired, Bool.and_eq_true, Bool.not_eq_true'] at h
    obtain ⟨low, rest⟩ := h
    cases high : isHigh value with
    | false =>
      rw [high] at rest
      obtain ⟨t, named⟩ := decodes_of_paired (p :: ps) rest
      exact ⟨_, .unit high low named⟩
    | true =>
      rw [high] at rest
      cases p with
      | plain => simp [paired] at rest
      | short => simp [paired] at rest
      | unit a' b' c' d' value' hex' =>
        rw [paired, Bool.and_eq_true] at rest
        obtain ⟨t, named⟩ := decodes_of_paired ps rest.2
        exact ⟨_, .pair high rest.1 named⟩

/-- A string names a text exactly when none of its surrogates stands alone. -/
theorem decodes_iff_paired (ps : List Piece) : (∃ t, Decodes ps t) ↔ paired false ps = true :=
  ⟨fun ⟨_, named⟩ => paired_of_decodes named, decodes_of_paired ps⟩

end Json
