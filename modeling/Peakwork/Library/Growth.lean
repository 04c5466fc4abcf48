/-
This file says that a node grows: its entries keep their places, and new ones stand behind them.
-/

import Peakwork.Library.Nodes

namespace Peakwork.PropertyTree

/-- An entry is new when its name may be added and its node grew from an empty one. -/
def IsNew (may : String → PropertyTree → PropertyTree → Prop) (adds : String → Prop)
    (entry : String × PropertyTree) : Prop := adds entry.1 ∧ may entry.1 empty entry.2

/-- Every entry keeps its name and its place, and its node changes as it may. -/
inductive EntriesGrow (may : String → PropertyTree → PropertyTree → Prop) (adds : String → Prop) :
    List (String × PropertyTree) → List (String × PropertyTree) → Prop where
  | behind {added : List (String × PropertyTree)} (new : ∀ entry ∈ added, IsNew may adds entry) :
      EntriesGrow may adds [] added
  | entry {name : String} {old new : PropertyTree} {before after : List (String × PropertyTree)}
      (changed : may name old new) (rest : EntriesGrow may adds before after) :
      EntriesGrow may adds ((name, old) :: before) ((name, new) :: after)

/-- The text stays, and so does every entry at its place. -/
structure Grows (may : String → PropertyTree → PropertyTree → Prop) (adds : String → Prop)
    (before after : PropertyTree) : Prop where
  data : after.data = before.data
  children : EntriesGrow may adds before.children after.children

section Entries

variable {may : String → PropertyTree → PropertyTree → Prop} {adds : String → Prop}
  {before middle after added : List (String × PropertyTree)}

theorem EntriesGrow.refl (same : ∀ name tree, may name tree tree) (entries : List (String × PropertyTree)) :
    EntriesGrow may adds entries entries := by
  induction entries with
  | nil => exact .behind fun _ member => absurd member List.not_mem_nil
  | cons entry rest ih => exact .entry (same entry.1 entry.2) ih

/-- What grew from new entries is new. -/
theorem EntriesGrow.new
    (trans : ∀ name first second third, may name first second → may name second third → may name first third)
    (grows : EntriesGrow may adds before after) (new : ∀ entry ∈ before, IsNew may adds entry) :
    ∀ entry ∈ after, IsNew may adds entry := by
  induction grows with
  | behind added => exact added
  | entry changed rest ih =>
      intro entry member
      rcases List.mem_cons.mp member with rfl | later
      · obtain ⟨named, made⟩ := new _ List.mem_cons_self
        exact ⟨named, trans _ _ _ _ made changed⟩
      · exact ih (fun entry inside => new entry (List.mem_cons_of_mem _ inside)) entry later

theorem EntriesGrow.trans
    (trans : ∀ name first second third, may name first second → may name second third → may name first third)
    (first : EntriesGrow may adds before middle) (second : EntriesGrow may adds middle after) :
    EntriesGrow may adds before after := by
  induction first generalizing after with
  | behind added => exact .behind (second.new trans added)
  | entry changed rest ih =>
      cases second with
      | entry again others => exact .entry (trans _ _ _ _ changed again) (ih others)

theorem EntriesGrow.append (same : ∀ name tree, may name tree tree) (entries : List (String × PropertyTree))
    (new : ∀ entry ∈ added, IsNew may adds entry) : EntriesGrow may adds entries (entries ++ added) := by
  induction entries with
  | nil => exact .behind new
  | cons entry rest ih => exact .entry (same entry.1 entry.2) ih

theorem EntriesGrow.replaceFirst (same : ∀ name tree, may name tree tree) {data key : String}
    {old new : PropertyTree} (found : (node data before).find key = some old) (changed : may key old new) :
    EntriesGrow may adds before (replaceFirst key new before) := by
  induction before with
  | nil => cases found
  | cons entry rest ih =>
      obtain ⟨name, child⟩ := entry
      by_cases here : name = key
      · subst here
        simp only [find, children_node, List.find?_cons_of_pos, decide_true, Option.map_some,
          Option.some.injEq] at found
        subst found
        rw [PropertyTree.replaceFirst, if_pos rfl]
        exact .entry changed (.refl same rest)
      · simp only [find, children_node, List.find?_cons_of_neg, here, decide_false, Bool.false_eq_true,
          not_false_eq_true] at found ih
        rw [PropertyTree.replaceFirst, if_neg here]
        exact .entry (same name child) (ih found)

/-- The nodes below the entries of a name stay the same when no new entry has nodes there. -/
theorem EntriesGrow.nodesAt {key : String} {rest : List String} (grows : EntriesGrow may adds before after)
    (kept : ∀ old new, may key old new → nodesAt rest new = nodesAt rest old)
    (deeper : adds key → rest ≠ []) (data : String) :
    nodesAt (key :: rest) (node data after) = nodesAt (key :: rest) (node data before) := by
  have cons (name : String) (child : PropertyTree) (others : List (String × PropertyTree)) :
      PropertyTree.nodesAt (key :: rest) (node data ((name, child) :: others)) =
        (if name = key then PropertyTree.nodesAt rest child else []) ++
          PropertyTree.nodesAt (key :: rest) (node data others) := by
    rw [PropertyTree.nodesAt, PropertyTree.nodesAt, named, named, children_node, children_node]
    split_ifs with here
    · rw [List.filter_cons_of_pos (by simpa using here), List.map_cons, List.flatMap_cons]
    · rw [List.filter_cons_of_neg (by simpa using here), List.nil_append]
  induction grows with
  | behind new =>
      rename_i added
      induction added with
      | nil => rfl
      | cons entry others ih =>
          obtain ⟨named, made⟩ := new entry List.mem_cons_self
          have none_ : (if entry.1 = key then PropertyTree.nodesAt rest entry.2 else []) = [] := by
            split_ifs with here
            · subst here
              rw [kept _ _ made]
              cases rest with
              | nil => exact absurd rfl (deeper named)
              | cons next below => rfl
            · rfl
          rw [show entry :: others = (entry.1, entry.2) :: others from rfl, cons, none_, List.nil_append]
          exact ih fun entry inside => new entry (List.mem_cons_of_mem _ inside)
  | @entry name old new before after changed others ih =>
      rw [cons, cons, ih]
      split_ifs with here
      · subst here
        rw [kept _ _ changed]
      · rfl

end Entries

variable {may : String → PropertyTree → PropertyTree → Prop} {adds : String → Prop}
  {before middle after tree : PropertyTree}

theorem Grows.refl (same : ∀ name tree, may name tree tree) (tree : PropertyTree) : Grows may adds tree tree :=
  ⟨rfl, .refl same _⟩

theorem Grows.trans
    (trans : ∀ name first second third, may name first second → may name second third → may name first third)
    (first : Grows may adds before middle) (second : Grows may adds middle after) :
    Grows may adds before after :=
  ⟨second.data.trans first.data, first.children.trans trans second.children⟩

theorem grows_pushBack (same : ∀ name tree, may name tree tree) {key : String} {child : PropertyTree}
    (new : IsNew may adds (key, child)) : Grows may adds tree (tree.pushBack key child) := by
  refine ⟨rfl, .append same _ fun entry member => ?_⟩
  rw [List.mem_singleton.mp member]
  exact new

/-- A change of the first entry of a name, or of a new one, makes a node grow. -/
theorem grows_descend (same : ∀ name tree, may name tree tree) {key : String}
    {change : PropertyTree → PropertyTree} (adds_key : adds key) (changed : ∀ old, may key old (change old)) :
    Grows may adds tree (tree.descend key change) := by
  unfold descend
  cases found : tree.find key with
  | none => exact grows_pushBack same ⟨adds_key, changed empty⟩
  | some old =>
      rw [← node_data_children tree] at found
      exact ⟨rfl, .replaceFirst same found (changed old)⟩

/-- The nodes at a path stay the same when growth keeps them and adds no entry that is at the path itself. -/
theorem Grows.nodesAt {key : String} {rest : List String} (grows : Grows may adds before after)
    (kept : ∀ old new, may key old new → nodesAt rest new = nodesAt rest old) (deeper : adds key → rest ≠ []) :
    nodesAt (key :: rest) after = nodesAt (key :: rest) before := by
  have nodes := grows.children.nodesAt kept deeper before.data
  rw [node_data_children] at nodes
  rw [← nodes, ← grows.data, node_data_children]

end Peakwork.PropertyTree
