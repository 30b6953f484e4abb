import DomesdayDuplicator.Capture.YamlRoundTrip

/-!
# Documents made of parts

What some items one after another, under a key or only on a condition keep of the parts: keys among
given names in their order, comments of one line, and no mapping without members but with comments.
-/

namespace Yaml

open Manifest ManifestReader

namespace Items

def one (e : Entry) : Items := .entry e .done

def under (key : Text) (inner : Items) : Items := .mapping key inner .done

def append : Items → Items → Items
  | .done, after => after
  | .entry e rest, after => .entry e (rest.append after)
  | .mapping key inner rest, after => .mapping key inner (rest.append after)

def parts : List Items → Items
  | [] => .done
  | first :: rest => first.append (parts rest)

def given (condition : Prop) [Decidable condition] (items : Items) : Items :=
  if condition then items else .done

end Items

open Items

theorem members_append (a b : Items) : members (a.append b) = members a ++ members b := by
  induction a with
  | done => rfl
  | entry e rest ih => rw [append, members, members, ih, List.append_assoc]
  | mapping key inner rest _ ih => rw [append, members, members, ih, List.cons_append]

theorem idle_append (a b : Items) : (a.append b).idle = (a.idle && b.idle) := by
  induction a with
  | done => rfl
  | entry e rest ih => rw [append, idle, idle, ih, Bool.and_assoc]
  | mapping => rfl

/-- The items read back, with their keys among these. -/
structure Faithful (items : Items) (names : List Text) : Prop where
  keys : (keys items).Sublist names
  inside : DistinctInside items
  quiet : Quiet items
  filled : Filled items

theorem Faithful.distinct {items : Items} {names : List Text} (faithful : Faithful items names)
    (nodup : names.Nodup) : Distinct items :=
  ⟨nodup.sublist faithful.keys, faithful.inside⟩

theorem Faithful.done : Faithful .done [] :=
  ⟨List.Sublist.refl [], trivial, trivial, trivial⟩

theorem Faithful.append {a b : Items} {names more : List Text} (first : Faithful a names)
    (second : Faithful b more) : Faithful (a.append b) (names ++ more) := by
  have keys : (Yaml.keys (a.append b)).Sublist (names ++ more) := by
    rw [Yaml.keys, members_append, List.map_append]
    exact first.keys.append second.keys
  refine ⟨keys, ?_, ?_, ?_⟩
  · have inside := first.inside
    clear first keys
    induction a with
    | done => exact second.inside
    | entry e rest ih => exact ih inside
    | mapping key inner rest _ ih => exact ⟨inside.1, inside.2.1, ih inside.2.2⟩
  · have quiet := first.quiet
    clear first keys
    induction a with
    | done => exact second.quiet
    | entry e rest ih => exact ⟨quiet.1, ih quiet.2⟩
    | mapping key inner rest _ ih => exact ⟨quiet.1, ih quiet.2⟩
  · have filled := first.filled
    clear first keys
    induction a with
    | done => exact second.filled
    | entry e rest ih => exact ih filled
    | mapping key inner rest _ ih => exact ⟨filled.1, filled.2.1, ih filled.2.2⟩

theorem Faithful.given {items : Items} {names : List Text} (faithful : Faithful items names)
    (condition : Prop) [Decidable condition] : Faithful (items.given condition) names := by
  by_cases holds : condition
  · rwa [Items.given, if_pos holds]
  · rw [Items.given, if_neg holds]
    exact ⟨List.nil_sublist names, trivial, trivial, trivial⟩

theorem Faithful.comment {t : Text} (line : loudLines t = []) : Faithful (one (.comment t)) [] :=
  ⟨List.Sublist.refl [], trivial, ⟨line, trivial⟩, trivial⟩

/-- Without members nothing was written either. -/
structure Plain (items : Items) (names : List Text) : Prop extends Faithful items names where
  silent : members items = [] → items.idle = true

theorem Plain.done : Plain .done [] := ⟨Faithful.done, fun _ => rfl⟩

theorem Plain.blank : Plain (one .blankLine) [] :=
  ⟨⟨List.Sublist.refl [], trivial, ⟨trivial, trivial⟩, trivial⟩, fun _ => rfl⟩

theorem Plain.append {a b : Items} {names more : List Text} (first : Plain a names)
    (second : Plain b more) : Plain (a.append b) (names ++ more) := by
  refine ⟨first.toFaithful.append second.toFaithful, fun none => ?_⟩
  rw [members_append, List.append_eq_nil_iff] at none
  rw [idle_append, first.silent none.1, second.silent none.2]
  rfl

theorem Plain.given {items : Items} {names : List Text} (plain : Plain items names)
    (condition : Prop) [Decidable condition] : Plain (items.given condition) names := by
  refine ⟨plain.toFaithful.given condition, fun none => ?_⟩
  by_cases holds : condition
  · rw [Items.given, if_pos holds] at none ⊢
    exact plain.silent none
  · rw [Items.given, if_neg holds]
    rfl

theorem Plain.scalar {e : Entry} {key : Text} {value : Scalar}
    (written : e.scalar = some (key, value)) : Plain (one e) [key] := by
  have found : members (one e) = [(key, value.node)] := by
    rw [one, members, written]
    rfl
  have quiet : e.quiet := by
    cases e with
    | comment => cases written
    | _ => trivial
  refine ⟨⟨?_, trivial, ⟨quiet, trivial⟩, trivial⟩, fun none => ?_⟩
  · rw [keys, found]
    exact List.Sublist.refl [key]
  · rw [found] at none
    cases none

theorem Plain.stringIfPresent (key value : Text) :
    Plain (one (.stringIfPresent key value)) [key] := by
  by_cases empty : value = []
  · subst empty
    exact ⟨⟨List.nil_sublist [key], trivial, ⟨trivial, trivial⟩, trivial⟩, fun _ => rfl⟩
  · exact Plain.scalar (if_neg empty)

theorem Plain.under {inner : Items} {names : List Text} (plain : Plain inner names)
    (nodup : names.Nodup) (key : Text) : Plain (inner.under key) [key] := by
  refine ⟨⟨List.Sublist.refl [key], ?_, ⟨plain.quiet, trivial⟩, ?_⟩, fun none => nomatch none⟩
  · exact ⟨(plain.distinct nodup).1, plain.inside, trivial⟩
  · refine ⟨fun written none => ?_, plain.filled, trivial⟩
    exact absurd (written.symm.trans (plain.silent none)) Bool.false_ne_true

end Yaml
