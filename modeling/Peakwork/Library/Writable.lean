/-
This file says which trees JSON can represent, and which changes keep them so.
-/

import Peakwork.Library.Json
import Peakwork.Library.Paths

namespace Peakwork.Json

open PropertyTree

variable {root : Bool} {tree child : PropertyTree} {key : String} {keys : List String}

theorem verify_iff : verify root tree = true ↔
    (tree.data = "" ∨ (root = false ∧ tree.children = [])) ∧
      ∀ entry ∈ tree.children, verify false entry.2 = true := by
  cases tree with
  | node data children =>
      rw [verify, verifyAll_eq]
      simp

theorem verify_find (valid : verify root tree = true) (found : tree.find key = some child) :
    verify false child = true := by
  obtain ⟨entry, first, rfl⟩ := Option.map_eq_some_iff.mp found
  exact (verify_iff.mp valid).2 entry (List.mem_of_find?_eq_some first)

theorem verify_walk (valid : verify false tree = true) (found : tree.walk keys = some child) :
    verify false child = true := by
  induction keys generalizing tree with
  | nil =>
      cases found
      exact valid
  | cons key rest ih =>
      obtain ⟨next, here, there⟩ := Option.bind_eq_some_iff.mp found
      exact ih (verify_find valid here) there

/-- What the root may be, any node may be. -/
theorem verify_below (valid : verify root tree = true) : verify false tree = true := by
  obtain ⟨own, below⟩ := verify_iff.mp valid
  exact verify_iff.mpr ⟨own.imp_right fun leaf => ⟨rfl, leaf.2⟩, below⟩

theorem children_of_data (valid : verify root tree = true) (text : tree.data ≠ "") : tree.children = [] :=
  ((verify_iff.mp valid).1.resolve_left text).2

mutual

/-- The tree that a reader makes of a value; an array has unnamed children. -/
def Value.tree : Value → PropertyTree
  | .string text => .leaf text
  | .array items => .node "" (itemTrees items)
  | .object members => .node "" (memberTrees members)

def itemTrees : List Value → List (String × PropertyTree)
  | [] => []
  | value :: rest => ("", value.tree) :: itemTrees rest

def memberTrees : List (String × Value) → List (String × PropertyTree)
  | [] => []
  | (key, value) :: rest => (key, value.tree) :: memberTrees rest

end

mutual

/-- A reader makes no node with both a text and children. -/
theorem verify_tree : (value : Value) → verify false value.tree = true
  | .string text => verify_leaf text
  | .array items => by
      rw [Value.tree, verify_iff]
      exact ⟨.inl rfl, verify_itemTrees items⟩
  | .object members => by
      rw [Value.tree, verify_iff]
      exact ⟨.inl rfl, verify_memberTrees members⟩

theorem verify_itemTrees : (items : List Value) → ∀ entry ∈ itemTrees items, verify false entry.2 = true
  | [] => fun _ member => absurd member List.not_mem_nil
  | value :: rest => by
      rw [itemTrees, List.forall_mem_cons]
      exact ⟨verify_tree value, verify_itemTrees rest⟩

theorem verify_memberTrees : (members : List (String × Value)) →
    ∀ entry ∈ memberTrees members, verify false entry.2 = true
  | [] => fun _ member => absurd member List.not_mem_nil
  | (key, value) :: rest => by
      rw [memberTrees, List.forall_mem_cons]
      exact ⟨verify_tree value, verify_memberTrees rest⟩

end

theorem verify_empty : verify false .empty = true := by decide

/-- A text fits where no node gets both a text and children, and the root gets no text. -/
def fits (root : Bool) (value : String) : List String → PropertyTree → Bool
  | [], tree => value = "" ∨ (root = false ∧ tree.children.isEmpty)
  | key :: rest, tree =>
      decide (tree.data = "") &&
        match tree.find key with
        | some child => fits false value rest child
        | none => true

/-- A new node fits below nodes without a text. -/
def fitsChild : List String → PropertyTree → Bool
  | [], _ => true
  | [_], tree => tree.data = ""
  | key :: next :: rest, tree =>
      decide (tree.data = "") &&
        match tree.find key with
        | some child => fitsChild (next :: rest) child
        | none => true

theorem fits_empty (value : String) (keys : List String) : fits false value keys .empty = true := by
  cases keys with
  | nil => simp [fits, PropertyTree.empty]
  | cons key rest => rfl

theorem fitsChild_empty (keys : List String) : fitsChild keys .empty = true := by
  cases keys with
  | nil => rfl
  | cons key rest =>
      cases rest with
      | nil => simp [fitsChild, PropertyTree.empty]
      | cons next rest => rfl

theorem replaceFirst_ne_nil {old : PropertyTree} (found : tree.find key = some old) :
    replaceFirst key child tree.children ≠ [] := by
  cases tree with
  | node data entries =>
      intro none_
      have here : (node data (replaceFirst key child entries)).find key = some child :=
        find_replaceFirst_self found
      rw [children_node] at none_
      rw [none_] at here
      cases here

theorem mem_replaceFirst {old : PropertyTree} (found : tree.find key = some old)
    (keeps : PropertyTree → Prop) (all : ∀ entry ∈ tree.children, keeps entry.2) :
    (∀ entry ∈ replaceFirst key child tree.children, keeps entry.2) ↔ keeps child := by
  cases tree with
  | node data entries =>
      rw [children_node] at all ⊢
      induction entries with
      | nil => cases found
      | cons entry rest ih =>
          by_cases here : entry.1 = key
          · rw [replaceFirst, if_pos here]
            constructor
            · intro each
              exact each (key, child) List.mem_cons_self
            · intro new other member
              rcases List.mem_cons.mp member with rfl | later
              · exact new
              · exact all other (List.mem_cons_of_mem _ later)
          · rw [replaceFirst, if_neg here]
            have below : (node data rest).find key = some old := by
              rw [find, children_node, List.find?_cons_of_neg (by simpa using here)] at found
              exact found
            rw [List.forall_mem_cons, ih below fun other member => all other (List.mem_cons_of_mem _ member)]
            exact and_iff_right (all entry List.mem_cons_self)

/-- A change below a node is a change that the child allows, below a node without a text. -/
theorem verify_descend (change : PropertyTree → PropertyTree) (valid : verify false tree = true) :
    verify root (tree.descend key change) = true ↔
      tree.data = "" ∧ verify false (change ((tree.find key).getD .empty)) = true := by
  have below := (verify_iff.mp valid).2
  unfold descend
  cases found : tree.find key with
  | some old =>
      have full : replaceFirst key (change old) tree.children ≠ [] := replaceFirst_ne_nil found
      rw [verify_iff, data_node, children_node,
        mem_replaceFirst found (fun tree => verify false tree = true) below]
      simp [full]
  | none =>
      rw [verify_iff, pushBack, data_node, children_node, List.forall_mem_append, List.forall_mem_singleton,
        and_iff_right below]
      simp

/-- A tree stays one that JSON can represent exactly when the text fits. -/
theorem verify_putAt (value : String) (valid : verify false tree = true) :
    verify root (putAt value keys tree) = true ↔ fits root value keys tree = true := by
  induction keys generalizing root tree with
  | nil =>
      rw [putAt, setData, verify_iff, data_node, children_node, and_iff_left (verify_iff.mp valid).2, fits]
      simp
  | cons key rest ih =>
      rw [putAt, verify_descend _ valid, fits, Bool.and_eq_true, decide_eq_true_eq]
      cases found : tree.find key with
      | some old => rw [Option.getD_some, ih (verify_find valid found)]
      | none =>
          have made : verify false (putAt value rest .empty) = true :=
            (ih verify_empty).mpr (fits_empty value rest)
          rw [Option.getD_none, made]

theorem verify_addChildAt (valid : verify false tree = true) (own : verify false child = true)
    (long : keys ≠ []) :
    verify root (addChildAt child keys tree) = true ↔ fitsChild keys tree = true := by
  induction keys generalizing root tree with
  | nil => exact absurd rfl long
  | cons key rest ih =>
      cases rest with
      | nil =>
          rw [addChildAt, pushBack, verify_iff, data_node, children_node, List.forall_mem_append,
            List.forall_mem_singleton, and_iff_right (verify_iff.mp valid).2, fitsChild]
          simp [own]
      | cons next rest =>
          rw [addChildAt, verify_descend _ valid, fitsChild, Bool.and_eq_true, decide_eq_true_eq]
          cases found : tree.find key with
          | some old => rw [Option.getD_some, ih (verify_find valid found) (by simp)]
          | none =>
              have made : verify false (addChildAt child (next :: rest) .empty) = true :=
                (ih verify_empty (by simp)).mpr (fitsChild_empty _)
              rw [Option.getD_none, made]

end Peakwork.Json
