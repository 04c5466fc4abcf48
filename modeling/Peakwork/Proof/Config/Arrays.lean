/-
This file decides when an array that is written is the array that is read.
-/

import Peakwork.Library.Nodes
import Peakwork.Proof.Config.Defaults

namespace Peakwork.Config

open PropertyTree

/-- Every read gives the array, and there is one node at the key. -/
structure Wins (config : Config) (key : String) (values : List String) : Prop where
  read : ∀ defValue, ∃ after, (getArray key defValue).run config = .ok values after
  one : ∃ node, nodesAt (steps key) config.root = [node]

/-- A write of an array that returns replaces what was at the key. -/
def LastWriteWins (config : Config) : UserCall → Prop
  | .write (.array key values) => key ≠ "" → values ≠ [] →
      ∀ after, (write key values).run config = .ok () after → Wins after key values
  | _ => True

/-- A key that ends with a dot leads a walk to the node above the one that is added. -/
def EndsWithDot (key : String) : Prop := (segments key).getLast? = some ""

instance (key : String) : Decidable (EndsWithDot key) := inferInstanceAs (Decidable (_ = _))

/-- What the tree must have at the key before the write. -/
def Replaceable (root : PropertyTree) (key : String) (values : List String) : Prop :=
  if (root.find key).isSome then ∃ node, Only root (steps key) node ∧ items node = values
  else if EndsWithDot key then
    (nodesAt (steps key) root = [] ∧ values = [""]) ∨
      ∃ node, Only root (steps key) node ∧ items node ++ [""] = values
  else nodesAt (steps key) root = []

/-- Each array goes where there is none, unless it is there already. -/
def WritesOnce (config : Config) : UserCall → Prop
  | .write (.array key values) => key ≠ "" → values ≠ [] →
      Json.verify true (withArray key values config.root) = true → Replaceable config.root key values
  | _ => True

variable {config : Config} {key : String} {values : List String}

theorem items_arrayTree (values : List String) : items (arrayTree values) = values := by
  rw [arrayTree_eq, items, children_node, List.map_map]
  exact List.map_id values

theorem items_pushBack (tree child : PropertyTree) (key : String) :
    items (tree.pushBack key child) = items tree ++ [child.data] := by
  rw [items, pushBack, children_node, List.map_append]
  rfl

theorem data_arrayTree (values : List String) : (arrayTree values).data = "" := by
  rw [arrayTree_eq, data_node]

theorem segments_of_dot (dotted : EndsWithDot key) : segments key = steps key ++ [""] := by
  have last := segments_ne_nil key
  rw [EndsWithDot, List.getLast?_eq_getLast_of_ne_nil last] at dotted
  rw [steps, List.getLast?_eq_getLast_of_ne_nil last, if_pos dotted, ← Option.some.inj dotted,
    List.dropLast_append_getLast]

theorem steps_of_plain (plain : ¬ EndsWithDot key) : steps key = segments key := if_neg plain

/-- The reads give the array exactly when the only node has its texts. -/
theorem wins_iff (free : config.mtx = false) (long : values ≠ []) :
    Wins config key values ↔ ∃ node, Only config.root (steps key) node ∧ items node = values := by
  constructor
  · rintro ⟨read, node, alone⟩
    cases found : config.root.getChild key with
    | none =>
        obtain ⟨after, returned⟩ := read []
        rw [getArray_missing free key [] found] at returned
        cases returned
    | some child =>
        have inside : child ∈ nodesAt (steps key) config.root := mem_nodesAt_of_walk found
        rw [alone] at inside
        have same := List.mem_singleton.mp inside
        subst same
        obtain ⟨after, returned⟩ := read []
        rw [getArray_run config key [] free child found] at returned
        injection returned with same
        refine ⟨child, ⟨alone, found⟩, ?_⟩
        show child.children.map (·.2.data) = values
        rw [← same]
        split
        · rename_i none_
          exact List.isEmpty_iff.mp none_
        · rfl
  · rintro ⟨node, ⟨alone, found⟩, rfl⟩
    refine ⟨fun defValue => ⟨config, ?_⟩, node, alone⟩
    have full : (node.children.map (·.2.data)).isEmpty = false := List.isEmpty_eq_false_iff.mpr long
    rw [getArray_run config key defValue free node found, full]
    rfl

/-- The array is the only one at its key after the write exactly when it replaces nothing else. -/
theorem only_withArray_iff (root : PropertyTree) (key : String) (values : List String) :
    (∃ node, Only (withArray key values root) (steps key) node ∧ items node = values) ↔
      Replaceable root key values := by
  unfold withArray Replaceable
  cases found : root.find key with
  | some child => exact Iff.rfl
  | none =>
      show (∃ node, Only (root.addChild key (arrayTree values)) (steps key) node ∧ items node = values) ↔ _
      rw [if_neg (by decide), addChild]
      split
      · rename_i dotted
        have made : items (empty.pushBack "" (arrayTree values)) = [""] := by
          rw [items_pushBack, data_arrayTree]
          rfl
        have longer (old : PropertyTree) : items (old.pushBack "" (arrayTree values)) = items old ++ [""] := by
          rw [items_pushBack, data_arrayTree]
        rw [segments_of_dot dotted, addChildAt_append]
        simp only [only_changeAt]
        constructor
        · rintro ⟨node, ⟨none_, rfl⟩ | ⟨old, only, rfl⟩, same⟩
          · exact .inl ⟨none_, same.symm.trans made⟩
          · exact .inr ⟨old, only, (longer old).symm.trans same⟩
        · rintro (⟨none_, rfl⟩ | ⟨old, only, same⟩)
          · exact ⟨_, .inl ⟨none_, rfl⟩, made⟩
          · exact ⟨_, .inr ⟨old, only, rfl⟩, (longer old).trans same⟩
      · rename_i plain
        rw [steps_of_plain plain]
        simp only [only_addChildAt (segments_ne_nil key)]
        constructor
        · rintro ⟨node, ⟨none_, _⟩, _⟩
          exact none_
        · intro none_
          exact ⟨arrayTree values, ⟨none_, rfl⟩, items_arrayTree values⟩

/-- A write that returns wins exactly when it replaces nothing else. -/
theorem lastWriteWins_iff (free : config.mtx = false) (call : UserCall) :
    LastWriteWins config call ↔ WritesOnce config call := by
  cases call with
  | write call =>
      cases call with
      | array key values =>
          apply forall_congr'
          intro named
          apply forall_congr'
          intro long
          have after : (config.stored (withArray key values config.root)).mtx = false := free
          rw [← only_withArray_iff, write_run config key values free]
          constructor
          · intro wins valid
            rw [if_pos valid] at wins
            exact (wins_iff after long).mp (wins _ rfl)
          · intro only final returned
            obtain ⟨valid, rfl⟩ := ends_of_written returned
            exact (wins_iff after long).mpr (only valid)
      | string key value => exact Iff.rfl
      | int key value => exact Iff.rfl
  | getString key defValue => exact Iff.rfl
  | getArray key defValue => exact Iff.rfl
  | getInt key defValue => exact Iff.rfl

/-- Every write of an array is the one that is read next exactly when each replaces nothing else. -/
theorem lastWriteWins_run_iff (folder name : String) (content : Option Json.Value) (calls : List UserCall) :
    StepsMeet afterUserCall LastWriteWins (constructed folder name content) calls ↔
      StepsMeet afterUserCall WritesOnce (constructed folder name content) calls :=
  stepsMeet_congr (fun _ call free _ => afterUserCall_free free call) (fun _ call free => lastWriteWins_iff free call)
    _ calls (readable_constructed folder name content).free

/-- A second array at a dotted key goes behind the first one, which is read. -/
theorem second_array_lost :
    ¬ StepsMeet afterUserCall LastWriteWins (constructed "." "daemon.cfg" none)
      [.write (.array "a.b" ["x"]), .write (.array "a.b" ["y"])] := by
  rintro ⟨_, second, _⟩
  have free := (readable_constructed "." "daemon.cfg" none).free
  have keys : steps "a.b" = ["a", "b"] := by decide
  have parts : segments "a.b" = ["a", "b"] := by decide
  have written : (afterUserCall (constructed "." "daemon.cfg" none) (.write (.array "a.b" ["x"]))).root =
      .node "" [("a", .node "" [("b", arrayTree ["x"])])] := by
    have made : withArray "a.b" ["x"] (constructed "." "daemon.cfg" none).root =
        .node "" [("a", .node "" [("b", arrayTree ["x"])])] := by
      show PropertyTree.addChildAt (arrayTree ["x"]) (segments "a.b") .empty = _
      rw [parts]
      rfl
    have returned := write_run (constructed "." "daemon.cfg" none) "a.b" ["x"] free
    rw [made, if_pos (by decide)] at returned
    rw [afterUserCall, UserCall.run, WriteCall.run, returned]
    rfl
  have once := (lastWriteWins_iff (afterUserCall_free free _) _).mp second (by decide) (by decide)
  rw [written] at once
  have nothing := once (by decide)
  rw [Replaceable, if_neg (by decide), if_neg (by decide), keys] at nothing
  exact absurd nothing (List.cons_ne_nil _ _)

end Peakwork.Config
