/-
This file counts the nodes of a tree at a path, where a walk sees only the first one.
-/

import Peakwork.Library.Paths

namespace Peakwork.PropertyTree

/-- All children of the name, in order. -/
def named (tree : PropertyTree) (key : String) : List PropertyTree :=
  (tree.children.filter (·.1 = key)).map (·.2)

/-- All nodes at a path, whichever children of the same names lead there. -/
def nodesAt : List String → PropertyTree → List PropertyTree
  | [], tree => [tree]
  | key :: rest, tree => (tree.named key).flatMap (nodesAt rest)

/-- The node is the only one at the path, and a walk finds it. -/
structure Only (tree : PropertyTree) (keys : List String) (node : PropertyTree) : Prop where
  alone : nodesAt keys tree = [node]
  found : tree.walk keys = some node

/-- The first node at a path is changed, and a missing one is made. -/
def changeAt (change : PropertyTree → PropertyTree) : List String → PropertyTree → PropertyTree
  | [], tree => change tree
  | key :: rest, tree => tree.descend key (changeAt change rest)

variable {tree child old node : PropertyTree} {key : String} {rest keys : List String} {others : List PropertyTree}

theorem find_eq_head (tree : PropertyTree) (key : String) : tree.find key = (tree.named key).head? := by
  rw [find, named, List.head?_map, List.head?_filter]

theorem named_pushBack (tree child : PropertyTree) (key : String) :
    (tree.pushBack key child).named key = tree.named key ++ [child] := by
  rw [named, pushBack, children_node, List.filter_append, List.map_append]
  simp [named]

theorem named_replaceFirst {data : String} {children : List (String × PropertyTree)}
    (before : (PropertyTree.node data children).named key = old :: others) :
    (PropertyTree.node data (replaceFirst key child children)).named key = child :: others := by
  induction children with
  | nil => cases before
  | cons entry rest ih =>
      by_cases here : entry.1 = key
      · rw [replaceFirst, if_pos here]
        rw [named, children_node, List.filter_cons_of_pos (by simp [here]), List.map_cons] at before ⊢
        rw [(List.cons.inj before).2]
      · rw [replaceFirst, if_neg here]
        rw [named, children_node, List.filter_cons_of_neg (by simpa using here)] at before ⊢
        exact ih before

theorem named_descend_found (change : PropertyTree → PropertyTree) (before : tree.named key = old :: others) :
    (tree.descend key change).named key = change old :: others := by
  have found : tree.find key = some old := by rw [find_eq_head, before, List.head?_cons]
  rw [descend, found]
  rw [← node_data_children tree] at before
  exact named_replaceFirst before

theorem named_descend_missing (change : PropertyTree → PropertyTree) (before : tree.named key = []) :
    (tree.descend key change).named key = [change empty] := by
  have missing : tree.find key = none := by rw [find_eq_head, before, List.head?_nil]
  rw [descend, missing]
  show (tree.pushBack key (change empty)).named key = _
  rw [named_pushBack, before, List.nil_append]

/-- A walk leads to one of the nodes. -/
theorem mem_nodesAt_of_walk (found : tree.walk keys = some node) : node ∈ nodesAt keys tree := by
  induction keys generalizing tree with
  | nil =>
      cases found
      exact List.mem_singleton_self node
  | cons key rest ih =>
      obtain ⟨next, here, there⟩ := Option.bind_eq_some_iff.mp found
      rw [find_eq_head] at here
      exact List.mem_flatMap.mpr ⟨next, List.mem_of_head? here, ih there⟩

theorem nodesAt_missing (before : tree.named key = []) : nodesAt (key :: rest) tree = [] := by
  rw [nodesAt, before, List.flatMap_nil]

theorem nodesAt_found (before : tree.named key = child :: others) :
    nodesAt (key :: rest) tree = nodesAt rest child ++ others.flatMap (nodesAt rest) := by
  rw [nodesAt, before, List.flatMap_cons]

theorem not_only (none_ : nodesAt keys tree = []) : ¬ Only tree keys node := fun only => by
  have one := only.alone
  rw [none_] at one
  cases one

theorem only_nil : Only tree [] node ↔ node = tree := by
  constructor
  · rintro ⟨_, found⟩
    exact (Option.some.inj found).symm
  · rintro rfl
    exact ⟨rfl, rfl⟩

/-- The only node at a path is below the first child, and nothing is below the others. -/
theorem only_cons (here : tree.named key = child :: others) :
    Only tree (key :: rest) node ↔ Only child rest node ∧ others.flatMap (nodesAt rest) = [] := by
  have nodes : nodesAt (key :: rest) tree = _ := nodesAt_found here
  have walks : tree.walk (key :: rest) = child.walk rest := by
    rw [walk, find_eq_head, here, List.head?_cons, Option.bind_some]
  constructor
  · rintro ⟨alone, found⟩
    rw [nodes] at alone
    rw [walks] at found
    have inside := mem_nodesAt_of_walk found
    rcases List.append_eq_singleton_iff.mp alone with ⟨none_, _⟩ | ⟨one, none_⟩
    · rw [none_] at inside
      cases inside
    · exact ⟨⟨one, found⟩, none_⟩
  · rintro ⟨⟨one, found⟩, none_⟩
    refine ⟨?_, walks.trans found⟩
    rw [nodes, one, none_, List.append_nil]

/-- A change of the first child decides alone when nothing is below the others. -/
theorem only_descend_found (change : PropertyTree → PropertyTree) (before : tree.named key = old :: others) :
    Only (tree.descend key change) (key :: rest) node ↔
      Only (change old) rest node ∧ others.flatMap (nodesAt rest) = [] :=
  only_cons (named_descend_found change before)

theorem only_descend_missing (change : PropertyTree → PropertyTree) (before : tree.named key = []) :
    Only (tree.descend key change) (key :: rest) node ↔ Only (change empty) rest node := by
  rw [only_cons (named_descend_missing change before), List.flatMap_nil]
  exact and_iff_left rfl

/-- After a change at a path there is one node when there was none or one that a walk found. -/
theorem only_changeAt (change : PropertyTree → PropertyTree) :
    Only (changeAt change keys tree) keys node ↔
      (nodesAt keys tree = [] ∧ node = change empty) ∨ ∃ old, Only tree keys old ∧ node = change old := by
  induction keys generalizing tree with
  | nil =>
      rw [changeAt, only_nil]
      simp [only_nil, nodesAt]
  | cons key rest ih =>
      rw [changeAt]
      cases before : tree.named key with
      | nil =>
          have none_ : nodesAt (key :: rest) tree = [] := nodesAt_missing before
          have lost (old : PropertyTree) : ¬ Only tree (key :: rest) old := not_only none_
          rw [only_descend_missing _ before, ih, none_]
          cases rest with
          | nil => simp [only_nil, nodesAt, lost]
          | cons next rest =>
              have below : nodesAt (next :: rest) empty = [] := rfl
              have nowhere (old : PropertyTree) : ¬ Only empty (next :: rest) old := not_only below
              simp [lost, below, nowhere]
      | cons child others =>
          rw [only_descend_found _ before, ih]
          simp only [nodesAt_found before, List.append_eq_nil_iff, only_cons before]
          constructor
          · rintro ⟨⟨none_, made⟩ | ⟨old, only, made⟩, alone⟩
            · exact .inl ⟨⟨none_, alone⟩, made⟩
            · exact .inr ⟨old, ⟨only, alone⟩, made⟩
          · rintro (⟨⟨none_, alone⟩, made⟩ | ⟨old, ⟨only, alone⟩, made⟩)
            · exact ⟨.inl ⟨none_, made⟩, alone⟩
            · exact ⟨.inr ⟨old, only, made⟩, alone⟩

/-- An added node is the only one when there was none. -/
theorem only_addChildAt (long : keys ≠ []) :
    Only (addChildAt child keys tree) keys node ↔ nodesAt keys tree = [] ∧ node = child := by
  induction keys generalizing tree with
  | nil => exact absurd rfl long
  | cons key rest ih =>
      cases rest with
      | nil =>
          have nodes (tree : PropertyTree) : nodesAt [key] tree = tree.named key := by
            simp [nodesAt, List.flatMap_singleton']
          rw [addChildAt, nodes]
          cases before : tree.named key with
          | nil =>
              have after : (tree.pushBack key child).named key = [child] := by
                rw [named_pushBack, before, List.nil_append]
              rw [only_cons after, only_nil, List.flatMap_nil]
              simp
          | cons first others =>
              have after : (tree.pushBack key child).named key = first :: (others ++ [child]) := by
                rw [named_pushBack, before, List.cons_append]
              rw [only_cons after]
              simp [nodesAt]
      | cons next rest =>
          rw [addChildAt]
          cases before : tree.named key with
          | nil =>
              rw [only_descend_missing _ before, ih (by simp), nodesAt_missing before]
              exact and_congr_left fun _ => ⟨fun _ => rfl, fun _ => rfl⟩
          | cons first others =>
              rw [only_descend_found _ before, ih (by simp), nodesAt_found before, List.append_eq_nil_iff,
                and_right_comm]

/-- A child that is added behind a path is added to the node there. -/
theorem addChildAt_append (child : PropertyTree) (keys : List String) (last : String) (tree : PropertyTree) :
    addChildAt child (keys ++ [last]) tree = changeAt (·.pushBack last child) keys tree := by
  induction keys generalizing tree with
  | nil => rfl
  | cons key rest ih =>
      have below : addChildAt child (rest ++ [last]) = changeAt (·.pushBack last child) rest := by
        funext tree
        exact ih tree
      rw [changeAt, ← below]
      cases rest with
      | nil => rfl
      | cons next rest => rfl

end Peakwork.PropertyTree
