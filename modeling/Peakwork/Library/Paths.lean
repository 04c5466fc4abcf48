/-
This file gives the laws of reading and writing a tree at its paths.
-/

import Peakwork.Library.PropertyTree

namespace Peakwork.PropertyTree

section Children

variable {key other : String} {child old : PropertyTree} {children : List (String × PropertyTree)}
  {data : String}

theorem find_replaceFirst_self (found : (node data children).find key = some old) :
    (node data (replaceFirst key child children)).find key = some child := by
  induction children with
  | nil => cases found
  | cons entry rest ih =>
      by_cases here : entry.1 = key
      · simp [replaceFirst, find, children_node, here]
      · simp only [find, children_node, List.find?_cons_of_neg, here, decide_false,
          Bool.false_eq_true, not_false_eq_true, replaceFirst, if_false] at found ih ⊢
        exact ih found

theorem find_replaceFirst_other (different : other ≠ key) :
    (node data (replaceFirst key child children)).find other = (node data children).find other := by
  induction children with
  | nil => rfl
  | cons entry rest ih =>
      simp only [find, children_node] at ih ⊢
      by_cases here : entry.1 = key
      · have apart : ¬ key = other := fun same => different same.symm
        simp [replaceFirst, here, apart]
      · by_cases there : entry.1 = other
        · simp [replaceFirst, there, different]
        · simp [replaceFirst, here, there, ih]

theorem replaceFirst_found (found : (node data children).find key = some child) :
    replaceFirst key child children = children := by
  induction children with
  | nil => rfl
  | cons entry rest ih =>
      by_cases here : entry.1 = key
      · simp only [find, children_node, List.find?_cons_of_pos, here, decide_true,
          Option.map_some, Option.some.injEq] at found
        rw [replaceFirst, if_pos here, ← found, ← here]
      · simp only [find, children_node, List.find?_cons_of_neg, here, decide_false,
          Bool.false_eq_true, not_false_eq_true] at found ih
        rw [replaceFirst, if_neg here, ih found]

end Children

variable (tree child : PropertyTree) (key other value : String) (change : PropertyTree → PropertyTree)

theorem find_pushBack_self (missing : tree.find key = none) :
    (tree.pushBack key child).find key = some child := by
  have absent : tree.children.find? (fun entry => entry.1 = key) = none := Option.map_eq_none_iff.mp missing
  simp [find, pushBack, children_node, List.find?_append, absent]

theorem find_pushBack_other (different : other ≠ key) :
    (tree.pushBack key child).find other = tree.find other := by
  have apart : ¬ key = other := fun same => different same.symm
  simp [find, pushBack, children_node, List.find?_append, apart]

/-- A first child stays the first one. -/
theorem find_pushBack_found {old : PropertyTree} (found : tree.find other = some old) :
    (tree.pushBack key child).find other = some old := by
  obtain ⟨entry, first, rfl⟩ := Option.map_eq_some_iff.mp found
  simp only [find, pushBack, children_node, List.find?_append] at first ⊢
  rw [show tree.children.find? _ = some entry from first]
  rfl

theorem find_descend_self :
    (tree.descend key change).find key = some (change ((tree.find key).getD empty)) := by
  unfold descend
  cases found : tree.find key with
  | none => exact find_pushBack_self tree _ key found
  | some old =>
      rw [← node_data_children tree] at found
      exact find_replaceFirst_self found

theorem find_descend_other (different : other ≠ key) :
    (tree.descend key change).find other = tree.find other := by
  unfold descend
  cases tree.find key with
  | none => exact find_pushBack_other tree _ key other different
  | some old =>
      rw [← node_data_children tree, data_node, children_node]
      exact find_replaceFirst_other different

/-- A change that does nothing to the child does nothing to its parent. -/
theorem descend_unchanged {old : PropertyTree} (found : tree.find key = some old)
    (same : change old = old) : tree.descend key change = tree := by
  rw [descend, found]
  dsimp only
  have kept : replaceFirst key old tree.children = tree.children := by
    rw [← node_data_children tree] at found
    exact replaceFirst_found found
  rw [same, kept, node_data_children]

/-- The text that is read at a path is written back without a change. -/
theorem putAt_unchanged {keys : List String} {tree old : PropertyTree} (found : tree.walk keys = some old) :
    putAt old.data keys tree = tree := by
  induction keys generalizing tree with
  | nil =>
      cases found
      exact node_data_children old
  | cons key rest ih =>
      obtain ⟨next, here, there⟩ := Option.bind_eq_some_iff.mp found
      exact descend_unchanged tree key _ here (ih there)

/-- A text that is written at a path is read there. -/
theorem walk_putAt_self (keys : List String) (tree : PropertyTree) :
    (putAt value keys tree).walk keys = some (((tree.walk keys).getD empty).setData value) := by
  induction keys generalizing tree with
  | nil => rfl
  | cons key rest ih =>
      rw [putAt, walk, find_descend_self, Option.bind_some, ih, walk]
      cases found : tree.find key with
      | some next => rfl
      | none =>
          cases rest with
          | nil => rfl
          | cons next rest => rfl

/-- Neither path leads through the other. -/
def Apart (keys others : List String) : Prop := ¬ keys <+: others ∧ ¬ others <+: keys

theorem Apart.tail {keys others : List String} (apart : Apart (key :: keys) (key :: others)) :
    Apart keys others :=
  ⟨fun before => apart.1 (List.cons_prefix_cons.mpr ⟨rfl, before⟩),
    fun before => apart.2 (List.cons_prefix_cons.mpr ⟨rfl, before⟩)⟩

theorem walk_empty (others : List String) (long : others ≠ []) : empty.walk others = none := by
  cases others with
  | nil => exact absurd rfl long
  | cons key rest => rfl

/-- A change at the child that keeps a walk below it keeps the walk. -/
theorem walk_descend {rest : List String}
    (kept : (change ((tree.find key).getD empty)).walk rest = ((tree.find key).getD empty).walk rest)
    (long : rest ≠ []) : (tree.descend key change).walk (key :: rest) = tree.walk (key :: rest) := by
  rw [walk, find_descend_self, Option.bind_some, kept, walk]
  cases tree.find key with
  | some next => rfl
  | none => exact walk_empty rest long

/-- A text that is written at a path is seen by a walk only where it leads to the path or above it. -/
theorem walk_putAt_other (keys others : List String) (tree : PropertyTree) (away : ¬ others <+: keys) :
    (putAt value keys tree).walk others = tree.walk others := by
  induction keys generalizing tree others with
  | nil =>
      cases others with
      | nil => exact absurd List.nil_prefix away
      | cons first others => rfl
  | cons key rest ih =>
      cases others with
      | nil => exact absurd List.nil_prefix away
      | cons first others =>
          rw [putAt]
          by_cases same : first = key
          · subst same
            have inner : ¬ others <+: rest := fun before => away (List.cons_prefix_cons.mpr ⟨rfl, before⟩)
            refine walk_descend tree first _ (ih others _ inner) ?_
            rintro rfl
            exact inner List.nil_prefix
          · rw [walk, find_descend_other tree key first _ same, walk]

theorem walk_addChildAt_other (keys others : List String) (tree : PropertyTree)
    (apart : Apart keys others) : (addChildAt child keys tree).walk others = tree.walk others := by
  induction keys generalizing tree others with
  | nil => exact absurd (List.nil_prefix) apart.1
  | cons key rest ih =>
      cases others with
      | nil => exact absurd (List.nil_prefix) apart.2
      | cons first others =>
          by_cases same : first = key
          · subst same
            have inner := apart.tail
            cases rest with
            | nil => exact absurd List.nil_prefix inner.1
            | cons next rest =>
                refine walk_descend tree first _ (ih others _ inner) ?_
                rintro rfl
                exact inner.2 List.nil_prefix
          · cases rest with
            | nil => rw [addChildAt, walk, find_pushBack_other tree child key first same, walk]
            | cons next rest => rw [addChildAt, walk, find_descend_other tree key first _ same, walk]

/-- Every node of a tree has its place in the other tree. -/
def Within (tree other : PropertyTree) : Prop :=
  ∀ keys, (tree.walk keys).isSome → (other.walk keys).isSome

/-- A tree has its place in the other one when each of its first children has. -/
theorem within_of_find {tree other : PropertyTree}
    (first : ∀ key old, tree.find key = some old → ∃ new, other.find key = some new ∧ Within old new) :
    Within tree other := by
  intro keys there
  cases keys with
  | nil => rfl
  | cons key rest =>
      rw [walk] at there ⊢
      cases found : tree.find key with
      | none =>
          rw [found] at there
          cases there
      | some old =>
          obtain ⟨new, here, within⟩ := first key old found
          rw [here]
          rw [found] at there
          exact within rest there

variable {tree child key change} in
theorem within_descend (grows : ∀ old, Within old (change old)) : Within tree (tree.descend key change) := by
  apply within_of_find
  intro first old found
  by_cases same : first = key
  · subst same
    refine ⟨change old, ?_, grows old⟩
    rw [find_descend_self, found, Option.getD_some]
  · exact ⟨old, (find_descend_other tree key first change same).trans found, fun _ there => there⟩

theorem within_putAt (keys : List String) (tree : PropertyTree) : Within tree (putAt value keys tree) := by
  induction keys generalizing tree with
  | nil => exact within_of_find fun _ old found => ⟨old, found, fun _ there => there⟩
  | cons key rest ih => exact within_descend ih

theorem within_pushBack : Within tree (tree.pushBack key child) :=
  within_of_find fun first old found =>
    ⟨old, find_pushBack_found tree child key first found, fun _ there => there⟩

theorem within_addChildAt (keys : List String) (tree : PropertyTree) :
    Within tree (addChildAt child keys tree) := by
  induction keys generalizing tree with
  | nil => exact fun _ there => there
  | cons key rest ih =>
      cases rest with
      | nil => exact within_pushBack tree child key
      | cons next rest => exact within_descend ih

theorem pushBack_ne : tree.pushBack key child ≠ tree := by
  intro same
  have longer := congrArg (fun tree => tree.children.length) same
  simp [pushBack] at longer

/-- An added node is a new one. -/
theorem addChildAt_ne (keys : List String) (long : keys ≠ []) (tree : PropertyTree) :
    addChildAt child keys tree ≠ tree := by
  induction keys generalizing tree with
  | nil => exact absurd rfl long
  | cons key rest ih =>
      cases rest with
      | nil => exact pushBack_ne tree child key
      | cons next rest =>
          intro same
          have below := find_descend_self tree key (addChildAt child (next :: rest))
          rw [addChildAt] at same
          rw [same] at below
          rw [below, Option.getD_some] at below
          exact ih (by simp) _ (Option.some.inj below).symm

theorem segments_ne_nil (path : String) : segments path ≠ [] := by
  rw [segments]
  simp [List.splitOn, List.splitOnP_ne_nil]

/-- A path of two parts without dots has these parts. -/
theorem segments_dotted {first second : String} (plain : '.' ∉ first.toList) (rest : '.' ∉ second.toList) :
    segments (first ++ "." ++ second) = [first, second] := by
  have dot : ".".toList = ['.'] := by decide
  have outside {name : String} (plain : '.' ∉ name.toList) : ∀ c ∈ name.toList, (c == '.') = false := by
    intro c member
    rw [beq_eq_false_iff_ne]
    rintro rfl
    exact plain member
  rw [segments, String.toList_append, String.toList_append, dot, List.append_assoc, List.singleton_append,
    List.splitOn, List.splitOnP_append_cons_of_forall_mem (outside plain) '.' (by decide),
    List.splitOnP_eq_singleton (outside rest)]
  simp

section Dotted

variable {first second : String} (plain : '.' ∉ first.toList) (rest : '.' ∉ second.toList)
include plain rest

theorem addChild_dotted : tree.addChild (first ++ "." ++ second) child =
    addChildAt child [first, second] tree := by
  rw [addChild, segments_dotted plain rest]

variable (long : second ≠ "")
include long

theorem steps_dotted : steps (first ++ "." ++ second) = [first, second] := by
  rw [steps, segments_dotted plain rest]
  simp [long]

theorem getChild_dotted : tree.getChild (first ++ "." ++ second) = tree.walk [first, second] := by
  rw [getChild, steps_dotted plain rest long]

theorem put_dotted : tree.put (first ++ "." ++ second) value = putAt value [first, second] tree := by
  rw [put, steps_dotted plain rest long, segments_dotted plain rest, ite_self]

end Dotted

theorem within_put (path : String) : Within tree (tree.put path value) := by
  unfold put
  split
  · exact within_putAt value _ tree
  · exact within_putAt value _ tree

/-- The text that is read at a path that exists is written back without a change. -/
theorem put_unchanged (path defValue : String) (there : (tree.getChild path).isSome) :
    tree.put path (tree.get path defValue) = tree := by
  obtain ⟨child, found⟩ := Option.isSome_iff_exists.mp there
  rw [put, if_pos there, get, found, Option.map_some, Option.getD_some]
  exact putAt_unchanged found

end Peakwork.PropertyTree
