/-
This file says that a write keeps the values at all other keys.
-/

import Peakwork.Library.Frames
import Peakwork.Proof.Config.Writes

namespace Peakwork.Config

open PropertyTree

def WriteCall.key : WriteCall → String
  | .string key _ => key
  | .int key _ => key
  | .array key _ => key

/-- A write keeps the texts at all other keys, and the nodes that do not lead to its own key. -/
structure KeepsOthers (key : String) (before after : PropertyTree) : Prop where
  texts : ∀ keys node, keys ≠ [] → keys ≠ steps key → before.walk keys = some node →
    ∃ later, after.walk keys = some later ∧ later.data = node.data
  nodes : ∀ keys node, keys ≠ [] → ¬ keys <+: steps key → before.walk keys = some node →
    after.walk keys = some node

/-- There is no node but perhaps the one at the key. -/
def NothingElse (key : String) (tree : PropertyTree) : Prop :=
  ∀ keys, keys ≠ [] → keys ≠ steps key → tree.walk keys = none

section Writes

variable {key value : String} {tree node : PropertyTree} {keys : List String}

theorem keepsOthers_put (key value : String) (tree : PropertyTree) :
    KeepsOthers key tree (tree.put key value) := by
  rw [put]
  by_cases present : (tree.getChild key).isSome = true
  · rw [if_pos present, putAt_eq_changeAt]
    constructor
    · intro keys node _ other found
      exact data_changeAt_other (keepsBelow_setData value) found fun same => absurd same other
    · intro keys node _ away found
      exact walk_changeAt_away (keepsBelow_setData value) found away
  · have missing := Option.not_isSome_iff_eq_none.mp present
    rw [if_neg present, putAt_eq_changeAt]
    constructor
    · intro keys node _ _ found
      apply data_changeAt_other (keepsBelow_setData value) found
      rintro rfl
      exact absurd (List.prefix_refl _) (not_above_segments missing found)
    · intro keys node _ away found
      apply walk_changeAt_away (keepsBelow_setData value) found
      exact fun before => away (prefix_steps_of_segments missing found before)

theorem keepsOthers_withArray (key : String) (values : List String) (tree : PropertyTree) :
    KeepsOthers key tree (withArray key values tree) := by
  rw [withArray]
  split
  · obtain ⟨front, last, shape⟩ : ∃ front last, segments key = front ++ [last] :=
      ⟨_, _, (List.dropLast_append_getLast (segments_ne_nil key)).symm⟩
    have keeps := keepsBelow_pushBack last (arrayTree values)
    have above : front <+: steps key := by
      have shorter := front_before_steps key
      rw [shape, List.dropLast_concat] at shorter
      exact shorter
    rw [addChild, shape, addChildAt_append]
    constructor
    · intro keys node _ _ found
      exact data_changeAt_other keeps found fun _ _ => rfl
    · intro keys node _ away found
      exact walk_changeAt_away keeps found fun before => away (before.trans above)
  · exact ⟨fun _ node _ _ found => ⟨node, found, rfl⟩, fun _ _ _ _ found => found⟩

theorem keepsOthers_made (config : Config) (call : WriteCall) :
    KeepsOthers call.key config.root (call.made config) := by
  cases call with
  | string key value => exact keepsOthers_put key value config.root
  | int key value => exact keepsOthers_put key (Decimal.castString value) config.root
  | array key values => exact keepsOthers_withArray key values config.root

theorem keepsOthers_of_nothing (nothing : NothingElse key tree) (after : PropertyTree) :
    KeepsOthers key tree after := by
  constructor
  · intro keys node long other found
    rw [nothing keys long other] at found
    cases found
  · intro keys node long away found
    have other : keys ≠ steps key := by
      rintro rfl
      exact away (List.prefix_refl _)
    rw [nothing keys long other] at found
    cases found

theorem nothingElse_of_empty (keeps : KeepsOthers key tree .empty) : NothingElse key tree := by
  intro keys long other
  rw [Option.eq_none_iff_forall_not_mem]
  intro node found
  obtain ⟨later, reached, _⟩ := keeps.texts keys node long other found
  rw [walk_empty keys long] at reached
  cases reached

theorem nothingElse_empty (key : String) : NothingElse key .empty := fun keys long _ => walk_empty keys long

end Writes

end Peakwork.Config
