/-
This file says what each method of a configuration does.
-/

import Peakwork.Construction.Config.Config
import Peakwork.Library.Action
import Peakwork.Library.Writable

namespace Peakwork.Config

open PropertyTree

variable (config : Config) (key value defValue : String) (values : List String)

/-- The configuration and its file have the same new tree. -/
def stored (root : PropertyTree) : Config :=
  { config with
    root
    file := .holds root }

/-- The new tree is not in the file, and nothing else is. -/
def spoiled (root : PropertyTree) : Config :=
  { config with
    root
    file := .unreadable }

section Lock

variable {config} {α : Type} {body : Call α} {after : Config}

theorem locked_ok {value : α} (free : config.mtx = false)
    (done : body.run { config with mtx := true } = .ok value after) :
    (locked body).run config = .ok value { after with mtx := false } := by
  have unfolded : body { config with mtx := true } = .ok value after := done
  simp only [EStateM.run, locked, free, Bool.false_eq_true, if_false, unfolded]

theorem locked_error {failure : Failure} (free : config.mtx = false)
    (failed : body.run { config with mtx := true } = .error failure after) :
    (locked body).run config = .error failure { after with mtx := false } := by
  have unfolded : body { config with mtx := true } = .error failure after := failed
  simp only [EStateM.run, locked, free, Bool.false_eq_true, if_false, unfolded]

/-- A thread that holds the mutex waits for itself. -/
theorem locked_taken (taken : config.mtx = true) : (locked body).run config = .error .deadlock config := by
  simp only [EStateM.run, locked, taken, if_true]

/-- A call that returns has taken the branch that writes. -/
theorem ends_of_written {valid : Prop} [Decidable valid] {written spoiled : Config} {failure : Failure}
    (ends : (if valid then .ok () written else .error failure spoiled : EStateM.Result Failure Config Unit) =
      .ok () after) : valid ∧ after = written := by
  split at ends
  · cases ends
    exact ⟨‹_›, rfl⟩
  · cases ends

end Lock

/-- Both writes change the tree and then write the file. -/
theorem change_run (free : config.mtx = false) (change : Config → Config) (root : PropertyTree)
    (cantAdd : String)
    (changed : change { config with mtx := true } = { config with mtx := true, root := root }) :
    (tryCatch (locked do
        modify change
        writeJson) (rethrow cantAdd) : Call Unit).run config =
      if Json.verify true root then .ok () (config.stored root)
      else .error (.runtimeError ("Can't write json file : " ++ (config.configPath ++
        ": ptree contains data that cannot be represented in JSON"))) (config.spoiled root) := by
  by_cases valid : Json.verify true root = true
  · have inner : (do
        modify change
        writeJson : Call Unit).run { config with mtx := true } =
          .ok () { config.stored root with mtx := true } := by
      change writeJson (change _) = _
      rw [changed, writeJson, if_pos valid]
      rfl
    rw [Action.catch_ok (locked_ok free inner), if_pos valid, ← free]
    rfl
  · have inner : (do
        modify change
        writeJson : Call Unit).run { config with mtx := true } =
          .error (.jsonParser (config.configPath ++
            ": ptree contains data that cannot be represented in JSON"))
            { config.spoiled root with mtx := true } := by
      change writeJson (change _) = _
      rw [changed, writeJson, if_neg valid]
      rfl
    rw [Action.catch_error (locked_error free inner), if_neg valid, ← free]
    rfl

theorem writeString_run (free : config.mtx = false) :
    (writeString key value).run config =
      if Json.verify true (config.root.put key value) then .ok () (config.stored (config.root.put key value))
      else .error (.runtimeError ("Can't write json file : " ++ (config.configPath ++
        ": ptree contains data that cannot be represented in JSON")))
        (config.spoiled (config.root.put key value)) :=
  change_run config free _ _ _ rfl

theorem writeString_ends (free : config.mtx = false) {after : Config}
    (ends : (writeString key value).run config = .ok () after) :
    Json.verify true (config.root.put key value) = true ∧
      after = config.stored (config.root.put key value) := by
  rw [writeString_run config key value free] at ends
  exact ends_of_written ends

/-- The tree after an array has been written. -/
def withArray (root : PropertyTree) : PropertyTree :=
  if (root.find key).isNone then root.addChild key (arrayTree values) else root

theorem write_run (free : config.mtx = false) :
    (write key values).run config =
      if Json.verify true (withArray key values config.root) then
        .ok () (config.stored (withArray key values config.root))
      else .error (.runtimeError ("Can't write json file : " ++ (config.configPath ++
        ": ptree contains data that cannot be represented in JSON")))
        (config.spoiled (withArray key values config.root)) := by
  refine change_run config free _ _ _ ?_
  unfold withArray
  split
  · rfl
  · rfl

theorem write_ends (free : config.mtx = false) {after : Config}
    (ends : (write key values).run config = .ok () after) :
    Json.verify true (withArray key values config.root) = true ∧
      after = config.stored (withArray key values config.root) := by
  rw [write_run config key values free] at ends
  exact ends_of_written ends

theorem getString_run (free : config.mtx = false) :
    (getString key defValue).run config = .ok (config.root.get key defValue) config := by
  have inner : (get key defValue).run { config with mtx := true } =
      .ok (config.root.get key defValue) { config with mtx := true } := rfl
  rw [getString, locked_ok free (Action.catch_ok inner), ← free]

/-- An empty array counts as none. -/
theorem getArray_run (free : config.mtx = false) (child : PropertyTree)
    (found : config.root.getChild key = some child) :
    (getArray key values).run config =
      .ok (if (child.children.map (·.2.data)).isEmpty then values else child.children.map (·.2.data))
        config := by
  have here : (getChild key).run { config with mtx := true } = .ok child { config with mtx := true } := by
    simp only [EStateM.run, getChild, found]
  have listed : (do
      let child ← getChild key
      let res := child.children.map (·.2.data)
      return if res.isEmpty then values else res : Call (List String)).run { config with mtx := true } =
        .ok (if (child.children.map (·.2.data)).isEmpty then values else child.children.map (·.2.data))
          { config with mtx := true } := Action.bind_ok here
  rw [getArray, locked_ok free (Action.catch_ok listed), ← free]

theorem getInt_run (free : config.mtx = false) (defValue : Int) :
    (getInt key defValue).run config =
      match Decimal.castInt (config.root.get key (Decimal.castString defValue)) with
      | some value => .ok value config
      | none => .error .badLexicalCast config := by
  rw [getInt, Action.bind_ok (getString_run config key _ free)]
  cases Decimal.castInt (config.root.get key (Decimal.castString defValue)) with
  | some value => rfl
  | none => rfl

theorem arrayTree_eq (values : List String) :
    arrayTree values = .node "" (values.map fun value => ("", .leaf value)) := by
  have leaf (value : String) : PropertyTree.empty.put "" value = .leaf value := by
    have root : steps "" = [] := by decide
    rw [put, PropertyTree.getChild, root]
    rfl
  have pushed := foldl_pushBack (fun value => PropertyTree.empty.put "" value) "" values .empty
  rw [arrayTree, pushed]
  simp only [leaf]
  rfl

theorem verify_arrayTree (values : List String) : Json.verify false (arrayTree values) = true := by
  rw [arrayTree_eq, Json.verify_iff]
  refine ⟨.inl rfl, fun entry member => ?_⟩
  obtain ⟨value, _, rfl⟩ := List.mem_map.mp member
  exact Json.verify_leaf value

end Peakwork.Config
