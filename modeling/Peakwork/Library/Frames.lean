/-
This file says which nodes a change at one path keeps.
-/

import Peakwork.Library.Nodes

namespace Peakwork.PropertyTree

variable {change : PropertyTree → PropertyTree} {tree node : PropertyTree} {keys path : List String} {key : String}

theorem putAt_eq_changeAt (value : String) (keys : List String) :
    putAt value keys = changeAt (·.setData value) keys := by
  induction keys with
  | nil => rfl
  | cons key rest ih =>
      funext tree
      rw [putAt, changeAt, ih]

/-- A change of a node keeps what stands below it. -/
def KeepsBelow (change : PropertyTree → PropertyTree) : Prop :=
  ∀ tree keys node, keys ≠ [] → tree.walk keys = some node → (change tree).walk keys = some node

theorem keepsBelow_setData (value : String) : KeepsBelow (·.setData value) := by
  intro tree keys node long found
  cases keys with
  | nil => exact absurd rfl long
  | cons key rest => exact found

theorem keepsBelow_pushBack (key : String) (child : PropertyTree) : KeepsBelow (·.pushBack key child) := by
  intro tree keys node long found
  cases keys with
  | nil => exact absurd rfl long
  | cons first rest =>
      obtain ⟨next, here, there⟩ := Option.bind_eq_some_iff.mp found
      rw [walk, find_pushBack_found tree child key first here]
      exact there

/-- A node stays as it is when it does not stand above the change. -/
theorem walk_changeAt_away (keeps : KeepsBelow change) (found : tree.walk keys = some node)
    (away : ¬ keys <+: path) : (changeAt change path tree).walk keys = some node := by
  induction path generalizing tree keys with
  | nil =>
      apply keeps tree keys node _ found
      rintro rfl
      exact away List.nil_prefix
  | cons key rest ih =>
      cases keys with
      | nil => exact absurd List.nil_prefix away
      | cons first others =>
          obtain ⟨next, here, there⟩ := Option.bind_eq_some_iff.mp found
          by_cases same : first = key
          · subst same
            have inner := ih there fun before => away (List.cons_prefix_cons.mpr ⟨rfl, before⟩)
            rw [changeAt, walk, find_descend_self, here]
            exact inner
          · rw [changeAt, walk, find_descend_other tree key first _ same, here]
            exact there

theorem data_descend (tree : PropertyTree) (key : String) (change : PropertyTree → PropertyTree) :
    (tree.descend key change).data = tree.data := by
  rw [descend]
  cases tree.find key with
  | none => rfl
  | some old => rfl

/-- A node above the change keeps its text. -/
theorem data_changeAt_above {below : List String} (found : tree.walk keys = some node)
    (other : below = [] → ∀ tree, (change tree).data = tree.data) :
    ∃ later, (changeAt change (keys ++ below) tree).walk keys = some later ∧ later.data = node.data := by
  induction keys generalizing tree with
  | nil =>
      cases found
      cases below with
      | nil => exact ⟨_, rfl, other rfl node⟩
      | cons key rest => exact ⟨_, rfl, data_descend node key _⟩
  | cons key rest ih =>
      obtain ⟨next, here, there⟩ := Option.bind_eq_some_iff.mp found
      obtain ⟨later, reached, text⟩ := ih there
      refine ⟨later, ?_, text⟩
      rw [List.cons_append, changeAt, walk, find_descend_self, here]
      exact reached

/-- A node keeps its text when it is not the one that is changed. -/
theorem data_changeAt_other (keeps : KeepsBelow change) (found : tree.walk keys = some node)
    (other : keys = path → ∀ tree, (change tree).data = tree.data) :
    ∃ later, (changeAt change path tree).walk keys = some later ∧ later.data = node.data := by
  by_cases above : keys <+: path
  · obtain ⟨below, rfl⟩ := above
    apply data_changeAt_above found
    exact fun none_ => other (by rw [none_, List.append_nil])
  · exact ⟨node, walk_changeAt_away keeps found above, rfl⟩

/-- A node below a path shows that there is a node at the path. -/
theorem walk_above {front : List String} (before : front <+: keys) (found : tree.walk keys = some node) :
    (tree.walk front).isSome := by
  induction front generalizing tree keys with
  | nil => rfl
  | cons key rest ih =>
      obtain ⟨tail, rfl⟩ := before
      obtain ⟨next, here, there⟩ := Option.bind_eq_some_iff.mp found
      rw [walk, here]
      exact ih (List.prefix_append rest tail) there

theorem steps_before_segments (key : String) : steps key <+: segments key := by
  unfold steps
  split
  · exact List.dropLast_prefix _
  · exact List.prefix_refl _

theorem front_before_steps (key : String) : (segments key).dropLast <+: steps key := by
  unfold steps
  split
  · exact List.prefix_refl _
  · exact List.dropLast_prefix _

/-- Nothing stands at a key that is missing, nor below it. -/
theorem not_above_segments (missing : tree.getChild key = none) (found : tree.walk keys = some node) :
    ¬ segments key <+: keys := by
  intro above
  have there : (tree.getChild key).isSome := walk_above ((steps_before_segments key).trans above) found
  rw [missing] at there
  cases there

theorem prefix_steps_of_segments (missing : tree.getChild key = none) (found : tree.walk keys = some node)
    (before : keys <+: segments key) : keys <+: steps key := by
  have different : keys ≠ segments key := by
    rintro rfl
    exact not_above_segments missing found (List.prefix_refl _)
  have shorter : keys <+: (segments key).dropLast := by
    obtain ⟨tail, shape⟩ := before
    cases tail using List.reverseRecOn with
    | nil => exact absurd (by rw [← shape, List.append_nil]) different
    | append_singleton front last _ =>
        rw [← shape, ← List.append_assoc, List.dropLast_concat]
        exact List.prefix_append keys front
  exact shorter.trans (front_before_steps key)

end Peakwork.PropertyTree
