/-
This file gives the texts of a tree as a map from its paths.
-/

import Peakwork.Library.Frames

namespace Peakwork

/-- The text at each path that has one. -/
abbrev PathMap (Name Text : Type) : Type := List Name → Option Text

namespace PathMap

variable {Name Text : Type} [DecidableEq Name]

/-- A missing node above a new one gets the blank text. -/
def above (blank : Text) (map : PathMap Name Text) (path : List Name) : Option Text := some ((map path).getD blank)

/-- The text at a path is replaced. -/
def remember (blank : Text) (keys : List Name) (value : Text) (map : PathMap Name Text) : PathMap Name Text := fun path =>
  if path = keys then some value else if path <+: keys then map.above blank path else map path

/-- Another map is hung in at a path that has nothing yet. -/
def graft (blank : Text) (keys : List Name) (map child : PathMap Name Text) : PathMap Name Text := fun path =>
  if (map keys).isSome then map path
  else if keys <+: path then child (path.drop keys.length)
  else if path <+: keys then map.above blank path
  else map path

variable {blank value : Text} {keys path : List Name} {map child : PathMap Name Text}

theorem remember_away (away : ¬ path <+: keys) : remember blank keys value map path = map path := by
  have other : path ≠ keys := fun same => away (same ▸ List.prefix_refl keys)
  rw [remember, if_neg other, if_neg away]

end PathMap

namespace PropertyTree

open PathMap

/-- The text that is read at each path. -/
def texts (tree : PropertyTree) : PathMap String String := fun path => (tree.walk path).map data

variable {tree old child : PropertyTree} {key value : String} {path : List String}

@[simp] theorem texts_nil : tree.texts [] = some tree.data := rfl

theorem texts_cons : tree.texts (key :: path) = (tree.find key).bind fun below => below.texts path := by
  rw [texts, walk, Option.map_bind]
  rfl

/-- Below a child that is missing there is nothing but the blank child itself. -/
theorem above_below : ((tree.find key).getD empty).texts.above "" path = tree.texts.above "" (key :: path) := by
  rw [above, above, texts_cons]
  cases tree.find key with
  | some below => rfl
  | none =>
      cases path with
      | nil => rfl
      | cons first rest => rfl

theorem texts_below (long : path ≠ []) : ((tree.find key).getD empty).texts path = tree.texts (key :: path) := by
  rw [texts_cons]
  cases tree.find key with
  | some below => rfl
  | none =>
      cases path with
      | nil => exact absurd rfl long
      | cons first rest => rfl

theorem texts_present {others : List String} (there : (tree.texts (key :: others)).isSome) :
    ((tree.find key).getD empty).texts path = tree.texts (key :: path) := by
  rw [texts_cons] at there ⊢
  cases found : tree.find key with
  | some below => rfl
  | none =>
      rw [found] at there
      exact absurd there Bool.false_ne_true

theorem texts_descend_self (change : PropertyTree → PropertyTree) :
    (tree.descend key change).texts (key :: path) = (change ((tree.find key).getD empty)).texts path := by
  rw [texts_cons, find_descend_self]
  rfl

theorem texts_descend_other (change : PropertyTree → PropertyTree) {other : String} (different : other ≠ key) :
    (tree.descend key change).texts (other :: path) = tree.texts (other :: path) := by
  rw [texts_cons, texts_cons, find_descend_other tree key other change different]

/-- A text that is put at a path is remembered there. -/
theorem texts_putAt (keys : List String) : (putAt value keys tree).texts = remember "" keys value tree.texts := by
  induction keys generalizing tree with
  | nil =>
      funext path
      cases path with
      | nil => rfl
      | cons first rest => exact (remember_away fun before => absurd (List.prefix_nil.mp before) (List.cons_ne_nil _ _)).symm
  | cons key rest ih =>
      funext path
      cases path with
      | nil =>
          rw [texts_nil, putAt, data_descend]
          rfl
      | cons first others =>
          by_cases same : first = key
          · subst same
            rw [putAt, texts_descend_self, ih, remember, remember]
            by_cases here : others = rest
            · rw [if_pos here, if_pos (congrArg (first :: ·) here)]
            · rw [if_neg here, if_neg fun equal => here (List.cons.inj equal).2]
              by_cases before : others <+: rest
              · rw [if_pos before, if_pos (List.cons_prefix_cons.mpr ⟨rfl, before⟩), above_below]
              · have long : others ≠ [] := fun empty => before (empty ▸ List.nil_prefix)
                rw [if_neg before, if_neg fun longer => before (List.cons_prefix_cons.mp longer).2, texts_below long]
          · rw [putAt, texts_descend_other _ same, remember_away fun before => same (List.cons_prefix_cons.mp before).1]

theorem texts_pushBack_some (found : tree.find key = some old) : (tree.pushBack key child).texts = tree.texts := by
  funext path
  cases path with
  | nil => rfl
  | cons first rest =>
      rw [texts_cons, texts_cons]
      by_cases same : first = key
      · rw [same, find_pushBack_found tree child key key found, found]
      · rw [find_pushBack_other tree child key first same]

/-- A child is added below its missing parents, and one that exists already hides it. -/
theorem texts_addChildAt (keys : List String) : (addChildAt child keys tree).texts = graft "" keys tree.texts child.texts := by
  induction keys generalizing tree with
  | nil => rfl
  | cons key rest ih =>
      funext path
      cases rest with
      | nil =>
          rw [addChildAt]
          cases found : tree.find key with
          | some old =>
              have there : (tree.texts [key]).isSome := by
                rw [texts_cons, found]
                rfl
              rw [texts_pushBack_some found, graft, if_pos there]
          | none =>
              have missing : ¬ (tree.texts [key]).isSome := by
                rw [texts_cons, found]
                exact Bool.false_ne_true
              rw [graft, if_neg missing]
              cases path with
              | nil =>
                  rw [if_neg fun before => absurd (List.prefix_nil.mp before) (List.cons_ne_nil _ _), if_pos List.nil_prefix]
                  rfl
              | cons first others =>
                  by_cases same : first = key
                  · rw [same, if_pos (List.cons_prefix_cons.mpr ⟨rfl, List.nil_prefix⟩), texts_cons,
                      find_pushBack_self tree child key found]
                    rfl
                  · rw [if_neg fun before => same (List.cons_prefix_cons.mp before).1.symm,
                      if_neg fun before => same (List.cons_prefix_cons.mp before).1, texts_cons, texts_cons,
                      find_pushBack_other tree child key first same]
      | cons next rest =>
          cases path with
          | nil =>
              rw [texts_nil, addChildAt, data_descend, graft]
              split
              · rfl
              · rw [if_neg fun before => absurd (List.prefix_nil.mp before) (List.cons_ne_nil _ _), if_pos List.nil_prefix]
                rfl
          | cons first others =>
              by_cases same : first = key
              · subst same
                rw [addChildAt, texts_descend_self, ih, graft, graft, texts_below (List.cons_ne_nil next rest)]
                split
                · exact texts_present ‹_›
                · by_cases inside : next :: rest <+: others
                  · rw [if_pos inside, if_pos (List.cons_prefix_cons.mpr ⟨rfl, inside⟩)]
                    rfl
                  · rw [if_neg inside, if_neg fun longer => inside (List.cons_prefix_cons.mp longer).2]
                    by_cases before : others <+: next :: rest
                    · rw [if_pos before, if_pos (List.cons_prefix_cons.mpr ⟨rfl, before⟩), above_below]
                    · have long : others ≠ [] := fun empty => before (empty ▸ List.nil_prefix)
                      rw [if_neg before, if_neg fun longer => before (List.cons_prefix_cons.mp longer).2, texts_below long]
              · rw [addChildAt, texts_descend_other _ same, graft]
                split
                · rfl
                · rw [if_neg fun before => same (List.cons_prefix_cons.mp before).1.symm,
                    if_neg fun before => same (List.cons_prefix_cons.mp before).1]

end PropertyTree

end Peakwork
