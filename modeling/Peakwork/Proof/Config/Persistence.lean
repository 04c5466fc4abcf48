/-
This file proves that a configuration is a map of texts that lives on in its file.
-/

import Peakwork.Library.PathMap
import Peakwork.Proof.Config.Arrays

namespace Peakwork.Config

open PropertyTree

/-- Another process constructs the configuration of the same path. -/
def reopen (config : Config) : Option Config :=
  match init.run { config with root := .empty, mtx := false } with
  | .ok _ after => some after
  | .error _ _ => none

/-- A user calls a method, or the process ends and another one starts. -/
inductive UserEvent where
  | calls (call : UserCall)
  | restart
  deriving DecidableEq, Repr

def UserEvent.next (config : Config) : UserEvent → Option Config
  | .calls call => some (afterUserCall config call)
  | .restart => config.reopen

/-- The texts of an array are below it without names. -/
def arrayTexts (values : List String) : PathMap String String
  | [] => some ""
  | [key] => if key = "" then values.head? else none
  | _ => none

/-- A path that ends with a dot is that of the node above it once this node is there. -/
def putPath (map : PathMap String String) (key : String) : List String :=
  if (map (steps key)).isSome then steps key else segments key

/-- What a write does to the map of the texts. -/
def WriteCall.remembered (map : PathMap String String) : WriteCall → PathMap String String
  | .string key value => map.remember "" (putPath map key) value
  | .int key value => map.remember "" (putPath map key) (Decimal.castString value)
  | .array key values => if (map [key]).isSome then map else map.graft "" (segments key) (arrayTexts values)

/-- Reads and restarts do nothing to the map. -/
def UserEvent.remembered (map : PathMap String String) : UserEvent → PathMap String String
  | .calls (.write call) => call.remembered map
  | _ => map

theorem texts_arrayTree (values : List String) : (arrayTree values).texts = arrayTexts values := by
  rw [arrayTree_eq]
  funext path
  cases path with
  | nil => rfl
  | cons first rest =>
      rw [texts_cons, find, children_node]
      by_cases unnamed : first = ""
      · subst unnamed
        cases values with
        | nil => cases rest <;> rfl
        | cons value values => cases rest <;> rfl
      · have none_ : (values.map fun value => ("", leaf value)).find? (fun entry => entry.1 = first) = none := by
          rw [List.find?_eq_none]
          intro entry member
          obtain ⟨value, _, rfl⟩ := List.mem_map.mp member
          exact fun same => unnamed (of_decide_eq_true same).symm
        rw [none_]
        cases rest with
        | nil => exact (if_neg unnamed).symm
        | cons next rest => rfl

section Calls

variable {config : Config}

theorem texts_put (key value : String) (tree : PropertyTree) :
    (tree.put key value).texts = tree.texts.remember "" (putPath tree.texts key) value := by
  have agree : (tree.getChild key).isSome = (tree.texts (steps key)).isSome := (Option.isSome_map ..).symm
  rw [put, putPath, agree]
  split
  · exact texts_putAt _
  · exact texts_putAt _

theorem texts_withArray (key : String) (values : List String) (tree : PropertyTree) :
    (withArray key values tree).texts =
      if (tree.texts [key]).isSome then tree.texts else tree.texts.graft "" (segments key) (arrayTexts values) := by
  have agree : (tree.texts [key]).isSome = (tree.find key).isSome := by
    rw [texts_cons]
    cases tree.find key <;> rfl
  rw [withArray, agree, addChild]
  cases tree.find key with
  | some old => rfl
  | none =>
      rw [Option.isNone_none, if_pos rfl, texts_addChildAt, texts_arrayTree]
      exact (if_neg Bool.false_ne_true).symm

theorem texts_made (call : WriteCall) : (call.made config).texts = call.remembered config.root.texts := by
  cases call with
  | string key value => exact texts_put key value _
  | int key value => exact texts_put key _ _
  | array key values => exact texts_withArray key values _

/-- The tree is what the file is read into, unless the last write has spoiled the file. -/
structure Synced (config : Config) : Prop where
  free : config.mtx = false
  file : config.file = .holds config.root ∨ config.file = .unreadable ∨ config.file = .absent ∧ config.root = .empty

/-- A write puts the new tree into the file or leaves a file that is not read. -/
theorem afterUserCall_write (free : config.mtx = false) (call : WriteCall) :
    (call.run.run config = .ok () (config.stored (call.made config)) ∧
        afterUserCall config (.write call) = config.stored (call.made config)) ∨
      ∃ failure, call.run.run config = .error failure (config.spoiled (call.made config)) ∧
        afterUserCall config (.write call) = config.spoiled (call.made config) := by
  have ran := call.run_eq free
  by_cases valid : Json.verify true (call.made config) = true
  · rw [if_pos valid] at ran
    apply Or.inl
    constructor
    · exact ran
    · rw [afterUserCall, UserCall.run, ran]
  · rw [if_neg valid] at ran
    apply Or.inr
    apply Exists.intro
    constructor
    · exact ran
    · rw [afterUserCall, UserCall.run, ran]

/-- A read changes nothing, also one that fails. -/
theorem afterUserCall_read (free : config.mtx = false) {call : UserCall} (read : ∀ write, call ≠ .write write) :
    afterUserCall config call = config := by
  cases call with
  | write call => exact absurd rfl (read call)
  | getString key defValue =>
      rw [afterUserCall, UserCall.run, discard_ok (getString_run config key defValue free)]
  | getArray key defValue =>
      cases found : config.root.getChild key with
      | some child =>
          rw [afterUserCall, UserCall.run, discard_ok (getArray_run config key defValue free child found)]
      | none =>
          rw [afterUserCall, UserCall.run, discard_error (getArray_missing free key defValue found)]
  | getInt key defValue =>
      have ran := getInt_run config key free defValue
      split at ran
      · rw [afterUserCall, UserCall.run, discard_ok ran]
      · rw [afterUserCall, UserCall.run, discard_error ran]

theorem reopen_spoiled (root : PropertyTree) : (config.spoiled root).reopen = none := rfl

/-- A configuration whose file is read comes back as it was. -/
theorem Synced.reopen (synced : Synced config) (readable : config.file ≠ .unreadable) : config.reopen = some config := by
  obtain ⟨folder, path, root, mtx, file⟩ := config
  obtain ⟨free, held | spoiled | ⟨absent, bare⟩⟩ := synced
  · rw [Config.reopen, show file = .holds root from held, show mtx = false from free]
    rfl
  · exact absurd spoiled readable
  · rw [Config.reopen, show file = .absent from absent, show root = .empty from bare, show mtx = false from free]
    rfl

theorem Synced.reopen_cases (synced : Synced config) : config.reopen = some config ∨ config.reopen = none := by
  by_cases spoiled : config.file = .unreadable
  · apply Or.inr
    rw [Config.reopen]
    obtain ⟨folder, path, root, mtx, file⟩ := config
    rw [show file = .unreadable from spoiled]
    rfl
  · exact Or.inl (synced.reopen spoiled)

/-- One event does to the texts in memory what it does to the map. -/
theorem Synced.next (synced : Synced config) {event : UserEvent} {after : Config} (runs : event.next config = some after) :
    Synced after ∧ after.root.texts = event.remembered config.root.texts := by
  cases event with
  | calls call =>
      have same : afterUserCall config call = after := Option.some.inj runs
      rw [← same]
      cases call with
      | write call =>
          rcases afterUserCall_write synced.free call with ⟨_, done⟩ | ⟨_, _, done⟩
          · rw [done]
            exact ⟨⟨synced.free, .inl rfl⟩, texts_made call⟩
          · rw [done]
            exact ⟨⟨synced.free, .inr (.inl rfl)⟩, texts_made call⟩
      | getString key defValue =>
          rw [afterUserCall_read synced.free fun _ => UserCall.noConfusion]
          exact ⟨synced, rfl⟩
      | getArray key defValue =>
          rw [afterUserCall_read synced.free fun _ => UserCall.noConfusion]
          exact ⟨synced, rfl⟩
      | getInt key defValue =>
          rw [afterUserCall_read synced.free fun _ => UserCall.noConfusion]
          exact ⟨synced, rfl⟩
  | restart =>
      have again : config.reopen = some after := runs
      rcases synced.reopen_cases with back | dead
      · rw [back] at again
        rw [← Option.some.inj again]
        exact ⟨synced, rfl⟩
      · rw [dead] at again
        exact absurd again.symm (Option.some_ne_none after)

theorem Synced.run (synced : Synced config) (events : List UserEvent) {after : Config}
    (runs : events.foldlM UserEvent.next config = some after) :
    Synced after ∧ after.root.texts = events.foldl UserEvent.remembered config.root.texts := by
  induction events generalizing config with
  | nil =>
      rw [← Option.some.inj runs]
      exact ⟨synced, rfl⟩
  | cons event rest ih =>
      obtain ⟨middle, first, later⟩ := Option.bind_eq_some_iff.mp runs
      obtain ⟨still, now⟩ := synced.next first
      obtain ⟨last, then_⟩ := ih still later
      exact ⟨last, by rw [then_, now, List.foldl_cons]⟩

end Calls

theorem synced_constructed (folder name : String) (content : Option Json.Value) :
    Synced (constructed folder name content) := by
  cases content with
  | none => exact ⟨rfl, .inr (.inr ⟨rfl, rfl⟩)⟩
  | some value => exact ⟨rfl, .inl rfl⟩

/-- In every run of calls and restarts each text that is read is the one that the map has kept, and a restart is not
noticed unless the write before it has failed. -/
theorem settings_persist (folder name : String) (content : Option Json.Value) (events : List UserEvent) (after : Config)
    (runs : events.foldlM UserEvent.next (constructed folder name content) = some after) :
    (∀ key defValue, (getString key defValue).run after =
      .ok ((events.foldl UserEvent.remembered (constructed folder name content).root.texts (steps key)).getD defValue) after) ∧
      ∀ call : WriteCall, (∃ later, call.run.run after = .ok () later ∧ later.reopen = some later) ∨
        ∃ failure later, call.run.run after = .error failure later ∧ later.reopen = none := by
  obtain ⟨synced, texts⟩ := (synced_constructed folder name content).run events runs
  constructor
  · intro key defValue
    rw [← texts]
    exact getString_run after key defValue synced.free
  · intro call
    rcases afterUserCall_write synced.free call with ⟨returned, _⟩ | ⟨failure, thrown, _⟩
    · have stays : Synced (after.stored (call.made after)) := ⟨synced.free, .inl rfl⟩
      exact Or.inl ⟨_, returned, stays.reopen File.noConfusion⟩
    · exact Or.inr ⟨failure, _, thrown, reopen_spoiled _⟩

/-- A value is written, and another process reads it. -/
def writtenThenRestarted : List UserEvent := [.calls (.write (.string "a" "x")), .restart]

theorem settings_persist_example :
    let after := (constructed "." "daemon.cfg" none).stored (.node "" [("a", .leaf "x")])
    (∀ key defValue, (getString key defValue).run after =
      .ok ((writtenThenRestarted.foldl UserEvent.remembered (constructed "." "daemon.cfg" none).root.texts
        (steps key)).getD defValue) after) ∧
      ∀ call : WriteCall, (∃ later, call.run.run after = .ok () later ∧ later.reopen = some later) ∨
        ∃ failure later, call.run.run after = .error failure later ∧ later.reopen = none := by
  apply settings_persist
  have keys : steps "a" = ["a"] := by decide
  have parts : segments "a" = ["a"] := by decide
  have put : PropertyTree.put .empty "a" "x" = .node "" [("a", .leaf "x")] := by
    rw [PropertyTree.put, PropertyTree.getChild, keys, parts]
    rfl
  have written : (writeString "a" "x").run (constructed "." "daemon.cfg" none) =
      .ok () ((constructed "." "daemon.cfg" none).stored (.node "" [("a", .leaf "x")])) := by
    rw [writeString_run _ _ _ rfl]
    show (if Json.verify true (PropertyTree.put .empty "a" "x") then _ else _) = _
    rw [show (constructed "." "daemon.cfg" none).root.put "a" "x" = _ from put, put, if_pos (by decide)]
  have called : UserEvent.next (constructed "." "daemon.cfg" none) (.calls (.write (.string "a" "x"))) =
      some ((constructed "." "daemon.cfg" none).stored (.node "" [("a", .leaf "x")])) := by
    rw [UserEvent.next, afterUserCall, UserCall.run, WriteCall.run, written]
  rw [writtenThenRestarted, List.foldlM_cons, called]
  rfl

end Peakwork.Config
