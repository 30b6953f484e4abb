import DomesdayDuplicator.Capture.YamlLines

/-!
# What a document holds

The lines a reader finds in what some calls write: the key lines that were put off until then, and
under them the lines of the calls, each comment with whatever its text has behind a line break.
-/

namespace Yaml

open Manifest ManifestReader
open Json (quote backslash colon)

/-! ## Lines of a text -/

theorem contents_append (a b : Text) : contents (a ++ 0x0A :: b) = contents a ++ contents b := by
  rw [contents, List.splitOnP_append_cons a b rfl, List.filterMap_append]
  rfl

/-- The text ends with a whole line. -/
def Complete (t : Text) : Prop := t = [] ∨ ∃ lines, t = lines ++ [0x0A]

theorem Complete.contents {a : Text} (complete : Complete a) (b : Text) :
    contents (a ++ b) = Yaml.contents a ++ Yaml.contents b := by
  rcases complete with rfl | ⟨lines, rfl⟩
  · rfl
  · have whole : Yaml.contents (lines ++ [0x0A]) = Yaml.contents lines := by
      rw [contents_append]
      exact List.append_nil _
    rw [whole, List.append_assoc, List.singleton_append, contents_append]

theorem Complete.append {a b : Text} (first : Complete a) (second : Complete b) :
    Complete (a ++ b) := by
  rcases second with rfl | ⟨lines, rfl⟩
  · rwa [List.append_nil]
  · exact Or.inr ⟨a ++ lines, (List.append_assoc _ _ _).symm⟩

theorem contents_line {l : Text} (unbroken : Unbroken l) :
    contents (l ++ [0x0A]) = (lineOf l).toList := by
  have one : contents l = (lineOf l).toList := by
    rw [contents, List.splitOnP_eq_singleton unbroken, List.filterMap_cons]
    cases lineOf l <;> rfl
  rw [contents_append, one]
  exact List.append_nil _

theorem splitOnP_unbroken {a : Text} (unbroken : Unbroken a) (t : Text) :
    (a ++ t).splitOnP isBreak = (t.splitOnP isBreak).modifyHead (a ++ ·) := by
  induction a with
  | nil => exact (congrFun List.modifyHead_id _).symm
  | cons c a ih =>
    rw [List.cons_append, List.splitOnP_cons_eq_if_modifyHead,
      if_neg (by simp [unbroken c List.mem_cons_self]),
      ih fun b here => unbroken b (List.mem_cons_of_mem c here), List.modifyHead_modifyHead]
    rfl

/-! ## Comments -/

/-- The lines a reader finds in a comment: those behind a line break of its text. -/
def loudLines (t : Text) : List Line := (t.splitOnP isBreak).tail.filterMap lineOf

theorem contents_comment (depth : Nat) (t : Text) :
    contents (writeIndent depth ++ 0x23 :: 0x20 :: t ++ [0x0A]) = loudLines t := by
  have unbroken : Unbroken (writeIndent depth ++ [0x23, 0x20]) :=
    (unbroken_indent depth).append (by decide)
  obtain ⟨first, rest, split⟩ := List.exists_cons_of_ne_nil (List.splitOnP_ne_nil isBreak t)
  have silent : lineOf ((writeIndent depth ++ [0x23, 0x20]) ++ first) = none := by
    rw [List.append_assoc]
    exact lineOf_comment depth (0x20 :: first)
  have whole : contents (writeIndent depth ++ 0x23 :: 0x20 :: t) = loudLines t := by
    rw [show writeIndent depth ++ 0x23 :: 0x20 :: t = (writeIndent depth ++ [0x23, 0x20]) ++ t by
      simp, contents, splitOnP_unbroken unbroken, loudLines, split, List.modifyHead_cons,
      List.filterMap_cons, silent]
    rfl
  rw [contents_append, whole]
  exact List.append_nil _

/-! ## The lines of calls -/

def pendingLines : Nat → List OpenMapping → List Line
  | _, [] => []
  | level, mapping :: inner =>
    (if mapping.written then [] else [.member (2 * level) mapping.key none]) ++
      pendingLines (level + 1) inner

def Entry.lines (depth : Nat) : Entry → List Line
  | .comment t => loudLines t
  | e => (e.scalar.map fun s => .member (2 * depth) s.1 (some s.2.node)).toList

def linesOf : Nat → Items → List Line
  | _, .done => []
  | depth, .entry e rest => e.lines depth ++ linesOf depth rest
  | depth, .mapping key inner rest =>
    (if inner.idle then [.member (2 * depth) key (some (.mapping []))]
      else .member (2 * depth) key none :: linesOf (depth + 1) inner) ++ linesOf depth rest

theorem contents_flushText (level : Nat) (opened : List OpenMapping) :
    Complete (flushText level opened) ∧
      contents (flushText level opened) = pendingLines level opened := by
  induction opened generalizing level with
  | nil => exact ⟨Or.inl rfl, rfl⟩
  | cons mapping inner ih =>
    obtain ⟨complete, lines⟩ := ih (level + 1)
    rw [flushText, pendingLines]
    split
    · exact ⟨complete, lines⟩
    · have bare := lineOf_bare level mapping.key
      have first : Complete (writeIndent level ++ writeKey mapping.key ++ [0x0A]) :=
        Or.inr ⟨_, rfl⟩
      refine ⟨first.append complete, ?_⟩
      rw [first.contents, lines, contents_line ((unbroken_indent level).append
        (unbroken_key mapping.key)), bare]
      rfl

theorem pendingLines_append (level : Nat) (opened : List OpenMapping) (mapping : OpenMapping) :
    pendingLines level (opened ++ [mapping]) = pendingLines level opened ++
      if mapping.written then [] else [.member (2 * (level + opened.length)) mapping.key none] := by
  induction opened generalizing level with
  | nil => exact List.append_nil _
  | cons first opened ih =>
    rw [List.cons_append, pendingLines, pendingLines, ih, List.append_assoc, List.length_cons,
      Nat.add_right_comm, Nat.add_assoc]

theorem pendingLines_marked (level : Nat) (opened : List OpenMapping) :
    pendingLines level (marked opened) = [] := by
  induction opened generalizing level with
  | nil => rfl
  | cons first opened ih => exact ih (level + 1)

theorem marked_marked (opened : List OpenMapping) : marked (marked opened) = marked opened := by
  simp [marked]

theorem length_marked (opened : List OpenMapping) : (marked opened).length = opened.length :=
  List.length_map _

/-! ## What calls write -/

/-- The writer went on by some lines; with any of them, the open mappings have their key lines. -/
structure Wrote (w after : YamlWriter) (idle : Bool) (lines : List Line) : Prop where
  complete : Complete after.text
  opened : after.opened = if idle then w.opened else marked w.opened
  found : contents after.text =
    contents w.text ++ if idle then [] else pendingLines 0 w.opened ++ lines
  nothing : idle = true → lines = []

theorem Wrote.trans {w between after : YamlWriter} {idle still : Bool} {lines more : List Line}
    (first : Wrote w between idle lines) (second : Wrote between after still more) :
    Wrote w after (idle && still) (lines ++ more) := by
  refine ⟨second.complete, ?_, ?_, ?_⟩
  · rw [second.opened, first.opened]
    cases idle <;> cases still <;> simp [marked_marked]
  · rw [second.found, first.found, first.opened]
    cases idle with
    | true => simp [first.nothing rfl]
    | false => simp [pendingLines_marked]; cases still <;> simp [second.nothing]
  · intro both
    obtain ⟨one, other⟩ := Bool.and_eq_true_iff.mp both
    rw [first.nothing one, second.nothing other]
    rfl

theorem line_wrote {w : YamlWriter} (complete : Complete w.text) {l : Text} {lines : List Line}
    (found : contents (writeIndent w.opened.length ++ l ++ [0x0A]) = lines) :
    Wrote w (w.line l) false lines := by
  obtain ⟨flushed, keys⟩ := contents_flushText 0 w.opened
  have text : (w.line l).text =
      w.text ++ flushText 0 w.opened ++ (writeIndent w.opened.length ++ l ++ [0x0A]) := by
    simp [YamlWriter.line, YamlWriter.flushOpenMappings, length_marked]
  have whole : Complete (w.text ++ flushText 0 w.opened) := complete.append flushed
  refine ⟨?_, rfl, ?_, fun no => absurd no Bool.false_ne_true⟩
  · rw [text]
    exact whole.append (Or.inr ⟨_, rfl⟩)
  · rw [text, whole.contents, complete.contents, keys, found]
    simp

theorem scalar_wrote {w : YamlWriter} (complete : Complete w.text) (key : Text) (value : Scalar) :
    Wrote w (w.scalar key value) false
      [.member (2 * w.opened.length) key (some value.node)] := by
  refine line_wrote complete ?_
  have unbroken : Unbroken (writeIndent w.opened.length ++
      (writeKey key ++ 0x20 :: value.written)) :=
    (unbroken_indent _).append ((unbroken_key key).append
      (Unbroken.append (by decide : Unbroken [0x20]) (unbroken_written value)))
  rw [contents_line unbroken, lineOf_value _ key (readValue_written value)]
  rfl

theorem entry_wrote {w : YamlWriter} (complete : Complete w.text) (e : Entry) :
    Wrote w (w.entry e) (!e.writes) (e.lines w.opened.length) := by
  cases e with
  | comment t =>
    refine line_wrote complete ?_
    split
    · rename_i empty
      subst empty
      have unbroken : Unbroken (writeIndent w.opened.length ++ [0x23]) :=
        (unbroken_indent _).append (by decide)
      rw [contents_line unbroken, lineOf_comment]
      rfl
    · exact contents_comment w.opened.length t
  | blankLine =>
    refine ⟨complete.append (Or.inr ⟨[], rfl⟩), rfl, complete.contents [0x0A], fun _ => rfl⟩
  | string key value => exact scalar_wrote complete key _
  | stringIfPresent key value =>
    by_cases empty : value = []
    · subst empty
      exact ⟨complete, rfl, (List.append_nil _).symm, fun _ => rfl⟩
    · have written := scalar_wrote complete key (.string value)
      simpa [YamlWriter.entry, YamlWriter.stringIfPresent, YamlWriter.string, Entry.writes,
        Entry.lines, Entry.scalar, empty] using written
  | integer key value => exact scalar_wrote complete key _
  | unsigned key value => exact scalar_wrote complete key _
  | number key value => exact scalar_wrote complete key _
  | boolean key value => exact scalar_wrote complete key _

/-- The mapping that is ended was begun last. -/
theorem endMapping_append (t : Text) (opened : List OpenMapping) (mapping : OpenMapping) :
    YamlWriter.endMapping ⟨t, opened ++ [mapping]⟩ =
      if mapping.written then ⟨t, opened⟩
      else YamlWriter.line ⟨t, opened⟩ (writeKey mapping.key ++ [0x20, 0x7B, 0x7D]) := by
  rw [YamlWriter.endMapping]
  simp

theorem mapping_wrote {w inside : YamlWriter} {key : Text} {idle : Bool} {lines : List Line}
    (inner : Wrote (w.beginMapping key) inside idle lines) :
    Wrote w inside.endMapping false
      (if idle then [.member (2 * w.opened.length) key (some (.mapping []))]
        else .member (2 * w.opened.length) key none :: lines) := by
  obtain ⟨t, opened⟩ := inside
  have whole : Complete t := inner.complete
  have ends : opened = _ := inner.opened
  have found : contents t = _ := inner.found
  cases idle with
  | true =>
    obtain rfl : opened = w.opened ++ [⟨key, false⟩] := ends
    rw [endMapping_append]
    have empty : readValue [0x7B, 0x7D] = some (.mapping []) := rfl
    have unbroken : Unbroken (writeIndent w.opened.length ++
        (writeKey key ++ [0x20, 0x7B, 0x7D])) :=
      (unbroken_indent _).append ((unbroken_key key).append (by decide))
    have line := @line_wrote ⟨t, w.opened⟩ whole (writeKey key ++ [0x20, 0x7B, 0x7D]) _
      ((contents_line unbroken).trans (congrArg Option.toList (lineOf_value _ key empty)))
    refine ⟨line.complete, line.opened, ?_, fun no => absurd no Bool.false_ne_true⟩
    exact line.found.trans (congrArg (· ++ _) (found.trans (List.append_nil _)))
  | false =>
    obtain rfl : opened = marked w.opened ++ [⟨key, true⟩] := by
      rw [ends]
      simp [marked, YamlWriter.beginMapping]
    rw [endMapping_append]
    refine ⟨whole, rfl, ?_, fun no => absurd no Bool.false_ne_true⟩
    have pending := pendingLines_append 0 w.opened ⟨key, false⟩
    rw [Nat.zero_add] at pending
    refine found.trans ?_
    simp [YamlWriter.beginMapping, pending]

/-- What the calls of any items write. -/
theorem items_wrote (items : Items) {w : YamlWriter} (complete : Complete w.text) :
    Wrote w (items.calls.foldl YamlWriter.call w) items.idle (linesOf w.opened.length items) := by
  induction items generalizing w with
  | done => exact ⟨complete, rfl, (List.append_nil _).symm, fun _ => rfl⟩
  | entry e rest ih =>
    have first := entry_wrote complete e
    have second := ih first.complete
    have level : (w.entry e).opened.length = w.opened.length := by
      rw [first.opened]
      split <;> simp [length_marked]
    rw [level] at second
    exact first.trans second
  | mapping key inner rest inner_ih rest_ih =>
    have inside := @inner_ih (w.beginMapping key) complete
    have level : (w.beginMapping key).opened.length = w.opened.length + 1 := by
      simp [YamlWriter.beginMapping]
    rw [level] at inside
    have first := mapping_wrote inside
    have second := rest_ih first.complete
    rw [first.opened, if_neg Bool.false_ne_true, length_marked] at second
    have both := first.trans second
    rw [Items.calls, List.foldl_cons, List.foldl_append, List.foldl_cons]
    exact both

/-- The lines of a document. -/
theorem contents_document (items : Items) : contents (document items.calls) = linesOf 0 items := by
  have wrote := @items_wrote items ⟨[], []⟩ (Or.inl rfl)
  refine wrote.found.trans ?_
  cases idle : items.idle with
  | true => exact (wrote.nothing idle).symm
  | false => rfl

end Yaml
