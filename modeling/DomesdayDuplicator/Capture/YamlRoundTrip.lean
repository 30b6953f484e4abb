import DomesdayDuplicator.Capture.YamlContents

/-!
# Writing a document and reading it back

The tree that balanced calls make, and what a reader builds from the lines of their document. The
two are the same but for a mapping with comments and no members, and for a comment whose text has
more lines than comments.
-/

namespace Yaml

open Manifest ManifestReader
open Json (quote backslash colon)

/-! ## The tree of the calls -/

/-- The members some items write. -/
def members : Items → List (Text × Node)
  | .done => []
  | .entry e rest => (e.scalar.map fun s => (s.1, s.2.node)).toList ++ members rest
  | .mapping key inner rest => (key, .mapping (members inner)) :: members rest

def keys (items : Items) : List Text := (members items).map fun m => m.1

/-- The keys of every mapping inside are distinct. -/
def DistinctInside : Items → Prop
  | .done => True
  | .entry _ rest => DistinctInside rest
  | .mapping _ inner rest => (keys inner).Nodup ∧ DistinctInside inner ∧ DistinctInside rest

/-- Keys are distinct within a mapping. -/
def Distinct (items : Items) : Prop := (keys items).Nodup ∧ DistinctInside items

/-- A comment is one line: any other its text has is blank or a comment itself. -/
def Entry.quiet : Entry → Prop
  | .comment t => loudLines t = []
  | _ => True

def Quiet : Items → Prop
  | .done => True
  | .entry e rest => e.quiet ∧ Quiet rest
  | .mapping _ inner rest => Quiet inner ∧ Quiet rest

/-- A mapping in which something was written has a member. -/
def Filled : Items → Prop
  | .done => True
  | .entry _ rest => Filled rest
  | .mapping _ inner rest =>
    (inner.idle = false → members inner ≠ []) ∧ Filled inner ∧ Filled rest

/-! ## What is read of the lines -/

/-- The members a reader finds: a key line with nothing under it has no value. -/
def asRead : Items → List (Text × Node)
  | .done => []
  | .entry e rest => (e.scalar.map fun s => (s.1, s.2.node)).toList ++ asRead rest
  | .mapping key inner rest =>
    (key, if inner.idle then .mapping [] else if asRead inner = [] then .null
      else .mapping (asRead inner)) :: asRead rest

def placed (indent : Nat) (found : List (Text × Node)) : Pending := found.map fun m => (indent, m)

theorem keys_asRead (items : Items) : (asRead items).map (fun m => m.1) = keys items := by
  induction items with
  | done => rfl
  | entry e rest ih =>
    rw [asRead, keys, members, List.map_append, List.map_append, ih]
    rfl
  | mapping key inner rest _ ih =>
    rw [asRead, keys, members, List.map_cons, List.map_cons, ih]
    rfl

theorem nil_asRead (items : Items) : asRead items = [] ↔ members items = [] := by
  have same : (asRead items).map (fun m => m.1) = (members items).map fun m => m.1 :=
    keys_asRead items
  constructor
  · intro none
    rw [none] at same
    exact List.map_eq_nil_iff.mp same.symm
  · intro none
    rw [none] at same
    exact List.map_eq_nil_iff.mp same

theorem uniform_placed {found : List (Text × Node)} (distinct : (found.map fun m => m.1).Nodup)
    (indent : Nat) : uniform (placed indent found) = true := by
  cases found with
  | nil => rfl
  | cons first rest =>
    have whole : (placed indent (first :: rest)).map (fun m => m.2.1) =
        (first :: rest).map fun m => m.1 := by
      simp [placed]
    have level : (placed indent rest).all (fun m => m.1 = indent) = true := by
      simp [placed]
    rw [placed, List.map_cons, uniform]
    exact Bool.and_eq_true_iff.mpr ⟨level, decide_eq_true (whole ▸ distinct)⟩

/-- No deeper line comes next. -/
def Outside (indent : Nat) (pending : Pending) : Prop := ∀ m ∈ pending.head?, m.1 ≤ indent

theorem Outside.placed {indent : Nat} {pending : Pending} (outside : Outside indent pending)
    (found : List (Text × Node)) : Outside indent (placed indent found ++ pending) := by
  cases found with
  | nil => exact outside
  | cons first rest =>
    rintro m ⟨⟩
    exact Nat.le_refl _

theorem Outside.split {indent deep : Nat} {pending : Pending} (outside : Outside indent pending)
    (deeper : indent < deep) (found : List (Text × Node)) :
    (Yaml.placed deep found ++ pending).takeWhile (fun m => indent < m.1) = Yaml.placed deep found ∧
      (Yaml.placed deep found ++ pending).dropWhile (fun m => indent < m.1) = pending := by
  have inner : ∀ m ∈ Yaml.placed deep found, decide (indent < m.1) = true := by
    intro m here
    obtain ⟨n, -, rfl⟩ := List.mem_map.mp here
    exact decide_eq_true deeper
  have stops : pending.takeWhile (fun m => indent < m.1) = [] ∧
      pending.dropWhile (fun m => indent < m.1) = pending := by
    cases pending with
    | nil => exact ⟨rfl, rfl⟩
    | cons m rest =>
      have level : ¬ indent < m.1 := Nat.not_lt.mpr (outside m rfl)
      simp [level]
  rw [List.takeWhile_append_of_pos inner, List.dropWhile_append_of_pos inner, stops.1, stops.2,
    List.append_nil]
  exact ⟨rfl, rfl⟩

theorem attach_value {indent : Nat} {pending : Pending} (outside : Outside indent pending)
    (key : Text) (node : Node) :
    attach (.member indent key (some node)) pending = some ((indent, key, node) :: pending) := by
  obtain ⟨inside, behind⟩ := outside.split (Nat.lt_succ_self indent) []
  rw [Yaml.placed, List.map_nil, List.nil_append] at inside behind
  simp [attach, inside, behind]

theorem attach_bare {indent deep : Nat} {pending : Pending} (outside : Outside indent pending)
    (deeper : indent < deep) (key : Text) {found : List (Text × Node)}
    (distinct : (found.map fun m => m.1).Nodup) :
    attach (.member indent key none) (placed deep found ++ pending) =
      some ((indent, key, if found = [] then .null else .mapping found) :: pending) := by
  obtain ⟨inside, behind⟩ := outside.split deeper found
  simp only [attach, inside, behind, uniform_placed distinct, if_true]
  cases found with
  | nil => rfl
  | cons first rest => simp [placed]

theorem Entry.quiet.lines {e : Entry} (quiet : e.quiet) (depth : Nat) :
    e.lines depth =
      (e.scalar.map fun s => .member (2 * depth) s.1 (some s.2.node)).toList := by
  cases e with
  | comment t => exact quiet
  | _ => rfl

theorem idle_members {items : Items} (idle : items.idle = true) :
    members items = [] ∧ Quiet items := by
  induction items with
  | done => exact ⟨rfl, trivial⟩
  | entry e rest ih =>
    obtain ⟨silent, still⟩ := Bool.and_eq_true_iff.mp idle
    obtain ⟨none, quiet⟩ := ih still
    cases e with
    | comment t => exact absurd silent Bool.false_ne_true
    | blankLine => exact ⟨none, trivial, quiet⟩
    | stringIfPresent key value =>
      by_cases empty : value = []
      · subst empty
        exact ⟨none, trivial, quiet⟩
      · simp [Entry.writes, Entry.scalar, empty] at silent
    | _ => exact absurd silent Bool.false_ne_true
  | mapping => exact absurd idle Bool.false_ne_true

/-- What a reader builds from the lines of some items, before what it has read behind them. -/
theorem build_linesOf {items : Items} (quiet : Quiet items) (distinct : DistinctInside items)
    {depth : Nat} {behind : List Line} {pending : Pending} (built : build behind = some pending)
    (outside : Outside (2 * depth) pending) :
    build (linesOf depth items ++ behind) =
      some (placed (2 * depth) (asRead items) ++ pending) := by
  induction items generalizing depth behind pending with
  | done => exact built
  | entry e rest ih =>
    have below := ih quiet.2 distinct built outside
    rw [linesOf, quiet.1.lines, asRead]
    cases e.scalar with
    | none => exact below
    | some s =>
      change (build (linesOf depth rest ++ behind)).bind _ = _
      rw [below, Option.bind_some, attach_value (outside.placed _)]
      rfl
  | mapping key inner rest inner_ih rest_ih =>
    obtain ⟨keys, inside, next⟩ := distinct
    have below := rest_ih quiet.2 next built outside
    have here := outside.placed (asRead rest)
    rw [linesOf, asRead]
    split
    · change (build (linesOf depth rest ++ behind)).bind _ = _
      rw [below, Option.bind_some, attach_value here]
      rfl
    · have deeper : Outside (2 * (depth + 1)) (placed (2 * depth) (asRead rest) ++ pending) :=
        fun m first => Nat.le_trans (here m first) (by omega)
      have within := inner_ih quiet.1 inside below deeper
      rw [List.append_assoc, List.cons_append]
      change (build (linesOf (depth + 1) inner ++ (linesOf depth rest ++ behind))).bind _ = _
      rw [within, Option.bind_some,
        attach_bare here (by omega) key ((keys_asRead inner).symm ▸ keys)]
      rfl

/-- What is read of a document whose comments are one line each. -/
theorem read_quiet {items : Items} (quiet : Quiet items) (distinct : Distinct items) :
    read (document items.calls) = some (asRead items) := by
  have built := @build_linesOf items quiet distinct.2 0 [] [] rfl (fun m none => nomatch none)
  rw [List.append_nil, List.append_nil] at built
  have whole := uniform_placed ((keys_asRead items).symm ▸ distinct.1) 0
  rw [read, contents_document, built, Option.bind_some, if_pos whole]
  simp [placed]

/-! ## The lines of a tree

A reader makes one node of every line, so a document with further lines has another tree. -/

mutual

def Node.nodes : Node → Nat
  | .mapping inside => 1 + nodesOf inside
  | _ => 1

def nodesOf : List (Text × Node) → Nat
  | [] => 0
  | (_, node) :: rest => node.nodes + nodesOf rest

end

def Line.nodes : Line → Nat
  | .member _ _ (some node) => node.nodes
  | _ => 1

theorem Node.nodes_pos (node : Node) : 0 < node.nodes := by
  cases node with
  | mapping inside =>
    rw [Node.nodes]
    omega
  | _ => simp [Node.nodes]

theorem Line.nodes_pos (line : Line) : 0 < line.nodes := by
  unfold Line.nodes
  split
  · exact Node.nodes_pos _
  · exact Nat.one_pos

def lineNodes (lines : List Line) : Nat := (lines.map Line.nodes).sum

theorem lineNodes_append (a b : List Line) : lineNodes (a ++ b) = lineNodes a + lineNodes b := by
  simp [lineNodes]

theorem lineNodes_zero {lines : List Line} (none : lineNodes lines = 0) : lines = [] := by
  cases lines with
  | nil => rfl
  | cons line rest =>
    have some := line.nodes_pos
    simp only [lineNodes, List.map_cons, List.sum_cons] at none
    omega

theorem nodesOf_append (a b : List (Text × Node)) : nodesOf (a ++ b) = nodesOf a + nodesOf b := by
  induction a with
  | nil => exact (Nat.zero_add _).symm
  | cons first a ih => rw [List.cons_append, nodesOf, nodesOf, ih, Nat.add_assoc]

theorem attach_nodes {line : Line} {pending after : Pending}
    (attached : attach line pending = some after) :
    nodesOf (after.map fun m => m.2) = line.nodes + nodesOf (pending.map fun m => m.2) := by
  cases line with
  | unreadable => cases attached
  | member indent key value =>
    have whole : nodesOf (pending.map fun m => m.2) =
        nodesOf ((pending.takeWhile fun m => indent < m.1).map fun m => m.2) +
          nodesOf ((pending.dropWhile fun m => indent < m.1).map fun m => m.2) := by
      rw [← nodesOf_append, ← List.map_append, List.takeWhile_append_dropWhile]
    cases value with
    | some node =>
      simp only [attach] at attached
      split at attached
      · rename_i none
        cases attached
        rw [whole, List.isEmpty_iff.mp none]
        simp [nodesOf, Line.nodes]
      · cases attached
    | none =>
      simp only [attach] at attached
      split at attached
      · rename_i none
        cases attached
        rw [whole, List.isEmpty_iff.mp none]
        simp [nodesOf, Line.nodes, Node.nodes]
      · split at attached
        · cases attached
          rw [whole]
          simp [nodesOf, Line.nodes, Node.nodes, Nat.add_assoc]
        · cases attached

theorem build_nodes {lines : List Line} {built : Pending} (builds : build lines = some built) :
    nodesOf (built.map fun m => m.2) = lineNodes lines := by
  induction lines generalizing built with
  | nil =>
    cases builds
    rfl
  | cons line rest ih =>
    obtain ⟨pending, below, attached⟩ := Option.bind_eq_some_iff.mp builds
    rw [attach_nodes attached, ih below]
    rfl

theorem read_nodes {t : Text} {found : List (Text × Node)} (reads : read t = some found) :
    nodesOf found = lineNodes (contents t) := by
  obtain ⟨built, builds, rest⟩ := Option.bind_eq_some_iff.mp reads
  split at rest
  · cases rest
    exact build_nodes builds
  · cases rest

/-- The lines of some items are the nodes of their tree, and whatever else comments hold. -/
theorem linesOf_nodes (items : Items) (depth : Nat) :
    nodesOf (members items) ≤ lineNodes (linesOf depth items) ∧
      (lineNodes (linesOf depth items) ≤ nodesOf (members items) → Quiet items) := by
  induction items generalizing depth with
  | done => exact ⟨Nat.le_refl _, fun _ => trivial⟩
  | entry e rest ih =>
    obtain ⟨least, quiet⟩ := ih depth
    rw [linesOf, members, lineNodes_append, nodesOf_append]
    have here : nodesOf (e.scalar.map fun s => (s.1, s.2.node)).toList ≤ lineNodes (e.lines depth) ∧
        (lineNodes (e.lines depth) ≤ nodesOf (e.scalar.map fun s => (s.1, s.2.node)).toList →
          e.quiet) := by
      cases e with
      | comment t => exact ⟨Nat.zero_le _, fun none => lineNodes_zero (Nat.le_zero.mp none)⟩
      | stringIfPresent key value =>
        by_cases empty : value = []
        · simp [Entry.lines, Entry.scalar, empty, Entry.quiet, nodesOf]
        · simp [Entry.lines, Entry.scalar, empty, Entry.quiet, nodesOf, lineNodes, Line.nodes]
      | _ =>
        simp [Entry.lines, Entry.scalar, Entry.quiet, nodesOf, lineNodes, Line.nodes]
    refine ⟨by omega, fun most => ⟨here.2 (by omega), quiet (by omega)⟩⟩
  | mapping key inner rest inner_ih rest_ih =>
    obtain ⟨least, quiet⟩ := rest_ih depth
    rw [linesOf, members, lineNodes_append, nodesOf, Node.nodes]
    split
    · rename_i idle
      obtain ⟨none, silent⟩ := idle_members idle
      have one : lineNodes [.member (2 * depth) key (some (.mapping []))] = 1 := rfl
      rw [none, nodesOf, one]
      exact ⟨by omega, fun most => ⟨silent, quiet (by omega)⟩⟩
    · obtain ⟨inside, still⟩ := inner_ih (depth + 1)
      have first : lineNodes (.member (2 * depth) key none :: linesOf (depth + 1) inner) =
          1 + lineNodes (linesOf (depth + 1) inner) := rfl
      rw [first]
      exact ⟨by omega, fun most => ⟨still (by omega), quiet (by omega)⟩⟩

/-! ## Mappings with comments only -/

theorem asRead_members (items : Items) : asRead items = members items ↔ Filled items := by
  induction items with
  | done => exact ⟨fun _ => trivial, fun _ => rfl⟩
  | entry e rest ih =>
    rw [asRead, members, List.append_cancel_left_eq]
    exact ih
  | mapping key inner rest inner_ih rest_ih =>
    rw [asRead, members, Filled, List.cons.injEq, rest_ih, Prod.mk.injEq, ← inner_ih]
    cases idle : inner.idle with
    | true =>
      obtain ⟨none, -⟩ := idle_members idle
      simp [none, (nil_asRead inner).mpr none]
    | false =>
      by_cases none : members inner = []
      · simp [none, (nil_asRead inner).mpr none]
      · simp [none, mt (nil_asRead inner).mp none]

/-- A document reads back as the tree that was written, where comments have one line each and no
mapping has comments but no members. -/
theorem read_document {items : Items} (distinct : Distinct items) :
    read (document items.calls) = some (members items) ↔ Quiet items ∧ Filled items := by
  constructor
  · intro reads
    have nodes := read_nodes reads
    rw [contents_document] at nodes
    have quiet := (linesOf_nodes items 0).2 (Nat.le_of_eq nodes.symm)
    refine ⟨quiet, (asRead_members items).mp ?_⟩
    exact Option.some.inj ((read_quiet quiet distinct).symm.trans reads)
  · rintro ⟨quiet, filled⟩
    rw [read_quiet quiet distinct, (asRead_members items).mpr filled]

/-! ## Balanced calls -/

theorem balanced_calls (items : Items) (depth : Nat) (rest : List Call) :
    balanced depth (items.calls ++ rest) = balanced depth rest := by
  induction items generalizing depth rest with
  | done => rfl
  | entry e more ih => exact ih depth rest
  | mapping key inner more inner_ih more_ih =>
    rw [Items.calls, List.cons_append, balanced, List.append_assoc, inner_ih, List.cons_append,
      balanced, more_ih]

/-- Calls within `depth` mappings end each of them, with items before. -/
theorem balanced_splits {depth : Nat} {calls : List Call} (even : balanced depth calls = true) :
    ∃ items : Items, (depth = 0 ∧ calls = items.calls) ∨
      ∃ outer rest, depth = outer + 1 ∧ calls = items.calls ++ .endMapping :: rest ∧
        balanced outer rest = true := by
  induction h : calls.length using Nat.strongRecOn generalizing depth calls with
  | ind n ih =>
    subst h
    match calls, even with
    | [], even => exact ⟨.done, Or.inl ⟨of_decide_eq_true even, rfl⟩⟩
    | .entry e :: rest, even =>
      have still : balanced depth rest = true := even
      obtain ⟨items, ends⟩ := ih rest.length (Nat.lt_succ_self _) still rfl
      refine ⟨.entry e items, ?_⟩
      rcases ends with ⟨zero, rfl⟩ | ⟨outer, behind, level, rfl, more⟩
      · exact Or.inl ⟨zero, rfl⟩
      · exact Or.inr ⟨outer, behind, level, rfl, more⟩
    | .beginMapping key :: rest, even =>
      have deeper : balanced (depth + 1) rest = true := even
      obtain ⟨inner, ends⟩ := ih rest.length (Nat.lt_succ_self _) deeper rfl
      rcases ends with ⟨zero, -⟩ | ⟨outer, behind, level, rfl, still⟩
      · exact absurd zero (by omega)
      · obtain rfl : depth = outer := by omega
        have shorter : behind.length < (Call.beginMapping key ::
            (inner.calls ++ .endMapping :: behind)).length := by
          simp
          omega
        obtain ⟨items, ends⟩ := ih behind.length shorter still rfl
        refine ⟨.mapping key inner items, ?_⟩
        rcases ends with ⟨zero, rfl⟩ | ⟨outer, last, level, rfl, more⟩
        · exact Or.inl ⟨zero, rfl⟩
        · refine Or.inr ⟨outer, last, level, ?_, more⟩
          simp [Items.calls]
    | .endMapping :: rest, even =>
      cases depth with
      | zero => exact absurd even Bool.false_ne_true
      | succ outer => exact ⟨.done, Or.inr ⟨outer, rest, rfl, rfl, even⟩⟩

/-- Balanced calls are the calls of items. -/
theorem balanced_iff (calls : List Call) :
    balanced 0 calls = true ↔ ∃ items : Items, calls = items.calls := by
  constructor
  · intro even
    obtain ⟨items, ⟨-, same⟩ | ⟨outer, -, level, -⟩⟩ := balanced_splits even
    · exact ⟨items, same⟩
    · exact absurd level (by omega)
  · rintro ⟨items, rfl⟩
    rw [← List.append_nil items.calls, balanced_calls]
    rfl

end Yaml
