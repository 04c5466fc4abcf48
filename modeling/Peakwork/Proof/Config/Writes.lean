/-
This file decides when a write that fails leaves the configuration and its file as they were.
-/

import Peakwork.Library.Run
import Peakwork.Proof.Config.Calls

namespace Peakwork.Config

open PropertyTree

/-- These are the calls that write. -/
inductive WriteCall where
  | string (key value : String)
  | int (key : String) (value : Int)
  | array (key : String) (values : List String)
  deriving DecidableEq, Repr

def WriteCall.run : WriteCall → Call Unit
  | .string key value => writeString key value
  | .int key value => writeInt key value
  | .array key values => write key values

/-- The caller catches the exception of a call and goes on. -/
def afterCall (config : Config) (call : WriteCall) : Config :=
  match call.run.run config with
  | .ok _ after => after
  | .error _ after => after

/-- A call that returns has written its tree, and a call that throws has changed nothing. -/
def LeavesNoTrace (config : Config) (call : WriteCall) : Prop :=
  match call.run.run config with
  | .ok _ after => after.file = .holds after.root
  | .error _ after => after.root = config.root ∧ after.file = config.file

/-- The parts of a key as `put` uses them. -/
def putKeys (root : PropertyTree) (key : String) : List String :=
  if (root.getChild key).isSome then steps key else segments key

/-- The text or the array fits into the tree at its key. -/
def Fits (config : Config) : WriteCall → Prop
  | .string key value => Json.fits true value (putKeys config.root key) config.root = true
  | .int key value =>
      Json.fits true (Decimal.castString value) (putKeys config.root key) config.root = true
  | .array key _ =>
      (config.root.find key).isSome ∨ Json.fitsChild (segments key) config.root = true

/-- The tree that a call makes in memory. -/
def WriteCall.made (config : Config) : WriteCall → PropertyTree
  | .string key value => config.root.put key value
  | .int key value => config.root.put key (Decimal.castString value)
  | .array key values => withArray key values config.root

theorem WriteCall.run_eq {config : Config} (free : config.mtx = false) (call : WriteCall) :
    call.run.run config =
      if Json.verify true (call.made config) then .ok () (config.stored (call.made config))
      else .error (.runtimeError ("Can't write json file : " ++ (config.configPath ++
        ": ptree contains data that cannot be represented in JSON"))) (config.spoiled (call.made config)) := by
  cases call with
  | string key value => exact writeString_run config key value free
  | int key value => exact writeString_run config key (Decimal.castString value) free
  | array key values => exact write_run config key values free

theorem verify_put {root : PropertyTree} (own : Json.verify false root = true) (key value : String) :
    Json.verify true (root.put key value) = true ↔
      Json.fits true value (putKeys root key) root = true := by
  rw [← Json.verify_putAt value own, put, putKeys]
  split
  · rfl
  · rfl

/-- A key that the root has already leaves the tree as it is. -/
theorem verify_withArray {root : PropertyTree} (own : Json.verify false root = true) (key : String)
    (values : List String) : Json.verify true (withArray key values root) = true ↔
      ((root.find key).isSome ∨ Json.fitsChild (segments key) root = true) := by
  rw [withArray]
  cases found : root.find key with
  | none =>
      rw [Option.isNone_none, if_pos rfl, addChild, Json.verify_addChildAt own (verify_arrayTree values) (segments_ne_nil key)]
      simp
  | some child =>
      have full : root.children ≠ [] := by
        intro none_
        rw [find, none_] at found
        cases found
      obtain ⟨text, below⟩ := Json.verify_iff.mp own
      have valid : Json.verify true root = true := by
        rw [Json.verify_iff]
        exact ⟨.inl (text.resolve_right fun leaf => full leaf.2), below⟩
      simp [valid]

/-- The tree is one that a reader can make, and the file can be read. -/
structure Readable (config : Config) : Prop where
  free : config.mtx = false
  own : Json.verify false config.root = true
  file : config.file ≠ .unreadable

theorem fits_iff {config : Config} (readable : Readable config) (call : WriteCall) :
    Json.verify true (call.made config) = true ↔ Fits config call := by
  cases call with
  | string key value => exact verify_put readable.own key value
  | int key value => exact verify_put readable.own key (Decimal.castString value)
  | array key values => exact verify_withArray readable.own key values

/-- A call that does not fit empties the file. -/
theorem leavesNoTrace_iff {config : Config} (readable : Readable config) (call : WriteCall) :
    LeavesNoTrace config call ↔ Fits config call := by
  rw [← fits_iff readable, LeavesNoTrace, call.run_eq readable.free]
  by_cases valid : Json.verify true (call.made config) = true
  · rw [if_pos valid]
    exact ⟨fun _ => valid, fun _ => rfl⟩
  · rw [if_neg valid]
    exact ⟨fun unchanged => absurd unchanged.2.symm readable.file, fun fits => absurd fits valid⟩

theorem readable_afterCall {config : Config} (readable : Readable config) (call : WriteCall)
    (fits : Fits config call) : Readable (afterCall config call) := by
  have valid := (fits_iff readable call).mpr fits
  rw [afterCall, call.run_eq readable.free, if_pos valid]
  exact ⟨readable.free, Json.verify_below valid, by simp [stored]⟩

/-- The file of a value, or no file. -/
def fileOf : Option Json.Value → File
  | none => .absent
  | some value => .holds value.tree

/-- The configuration that `Init` makes from the file. -/
def constructed (folder name : String) (content : Option Json.Value) : Config :=
  match init.run (blank folder name (fileOf content)) with
  | .ok _ config | .error _ config => config

theorem constructed_eq (folder name : String) (content : Option Json.Value) : constructed folder name content =
    { blank folder name (fileOf content) with root := (content.map Json.Value.tree).getD .empty } := by
  cases content with
  | none => rfl
  | some value => rfl

theorem readable_constructed (folder name : String) (content : Option Json.Value) :
    Readable (constructed folder name content) := by
  rw [constructed_eq]
  cases content with
  | none => exact ⟨rfl, Json.verify_empty, by simp [blank, fileOf]⟩
  | some value => exact ⟨rfl, Json.verify_tree value, by simp [blank, fileOf]⟩

/-- All calls on a configuration from a file that parses leave no trace when they fail exactly when
each of them fits, and then none of them fails. -/
theorem leavesNoTrace_run_iff (folder name : String) (content : Option Json.Value)
    (calls : List WriteCall) :
    StepsMeet afterCall LeavesNoTrace (constructed folder name content) calls ↔
      StepsMeet afterCall Fits (constructed folder name content) calls :=
  stepsMeet_congr (fun _ call readable => readable_afterCall readable call)
    (fun _ call readable => leavesNoTrace_iff readable call) _ calls
    (readable_constructed folder name content)

/-- A text below a text empties the file. -/
theorem failed_write_leaves_trace :
    ¬ StepsMeet afterCall LeavesNoTrace (constructed "." "daemon.cfg" none)
      [.string "a" "x", .string "a.b" "y"] := by
  rintro ⟨_, second, _⟩
  have readable := readable_constructed "." "daemon.cfg" none
  have first : Fits (constructed "." "daemon.cfg" none) (.string "a" "x") := by
    change Json.fits true "x" (putKeys .empty "a") .empty = true
    decide
  have written : (afterCall (constructed "." "daemon.cfg" none) (.string "a" "x")).root =
      .node "" [("a", .leaf "x")] := by
    rw [afterCall, WriteCall.run_eq readable.free, if_pos ((fits_iff readable _).mpr first)]
    have keys : steps "a" = ["a"] := by decide
    have parts : segments "a" = ["a"] := by decide
    change PropertyTree.put .empty "a" "x" = _
    rw [put, PropertyTree.getChild, keys, parts]
    rfl
  rw [leavesNoTrace_iff (readable_afterCall readable _ first), Fits, written] at second
  exact absurd second (by decide)

end Peakwork.Config
