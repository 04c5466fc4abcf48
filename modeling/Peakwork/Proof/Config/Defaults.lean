/-
This file decides when a read with a default does what its handler was written for.
-/

import Peakwork.Proof.Config.Writes

namespace Peakwork.Config

open PropertyTree

/-- These are the calls of a user of a configuration. -/
inductive UserCall where
  | write (call : WriteCall)
  | getString (key defValue : String)
  | getArray (key : String) (defValue : List String)
  | getInt (key : String) (defValue : Int)
  deriving DecidableEq, Repr

/-- The value that is read is left out. -/
def UserCall.run : UserCall → Call Unit
  | .write call => call.run
  | .getString key defValue => discard (Config.getString key defValue)
  | .getArray key defValue => discard (Config.getArray key defValue)
  | .getInt key defValue => discard (Config.getInt key defValue)

/-- The user catches the exception of a call and goes on. A call that is stuck never comes back, so of a run
only the calls up to it happen; it counts here as one that changes nothing. -/
def afterUserCall (config : Config) (call : UserCall) : Config :=
  match call.run.run config with
  | .ok _ after => after
  | .error _ after => after

section Reads

variable {α : Type} (config : Config) (key : String)

/-- The default is returned, and the tree and the file have it at the key afterwards. -/
def StoresDefault (read : Call α) (defValue : α) (held : PropertyTree → α) : Prop :=
  ∃ after, read.run config = .ok defValue after ∧ (after.root.getChild key).map held = some defValue ∧
    after.file = .holds after.root

/-- Nothing is changed by a read that returns. -/
def ChangesNothing (read : Call α) : Prop := ∃ value, read.run config = .ok value config

/-- A missing key is stored with its default, and a key that is present is only read. -/
def ReadsWithDefault (read : Call α) (defValue : α) (held : PropertyTree → α) : Prop :=
  if (config.root.getChild key).isSome then ChangesNothing config read
  else StoresDefault config key read defValue held

end Reads

/-- The texts of the children of a node. -/
def items (node : PropertyTree) : List String := node.children.map (·.2.data)

/-- A call does not wait for the mutex that its own thread has locked, and a read obeys its law. -/
structure Lawful (config : Config) (call : UserCall) : Prop where
  alive : ∀ after, call.run.run config ≠ .error .deadlock after
  reads : match call with
    | .getString key defValue => ReadsWithDefault config key (getString key defValue) defValue data
    | .getArray key defValue => ReadsWithDefault config key (getArray key defValue) defValue items
    | _ => True

/-- A key that is read as a text or as an array has a node. -/
def ReadsPresent (config : Config) : UserCall → Prop
  | .getString key _ => (config.root.getChild key).isSome
  | .getArray key _ => (config.root.getChild key).isSome
  | _ => True

variable {config : Config}

theorem discard_ok {α : Type} {read : Call α} {value : α} {after : Config}
    (done : read.run config = .ok value after) : (discard read : Call Unit).run config = .ok () after := by
  have unfolded : read config = .ok value after := done
  simp only [discard, Functor.discard, Functor.mapConst, Function.comp, EStateM.run, EStateM.map, unfolded]

theorem discard_error {α : Type} {read : Call α} {failure : Failure} {after : Config}
    (failed : read.run config = .error failure after) :
    (discard read : Call Unit).run config = .error failure after := by
  have unfolded : read config = .error failure after := failed
  simp only [discard, Functor.discard, Functor.mapConst, Function.comp, EStateM.run, EStateM.map, unfolded]

/-- A write below a locked guard waits for it. -/
theorem write_locked (taken : config.mtx = true) (key : String) (values : List String) :
    (write key values).run config = .error .deadlock config := by
  unfold write
  rw [Action.catch_error (locked_taken taken)]
  rfl

/-- The handler of a missing key waits for the mutex that the read itself has locked. -/
theorem getArray_missing (free : config.mtx = false) (key : String) (defValue : List String)
    (missing : config.root.getChild key = none) :
    (getArray key defValue).run config = .error .deadlock config := by
  have thrown : (getChild key).run { config with mtx := true } = .error .badPath { config with mtx := true } := by
    simp only [EStateM.run, getChild, missing]
  have body : (do
      let child ← getChild key
      let res := child.children.map (·.2.data)
      return if res.isEmpty then defValue else res : Call (List String)).run { config with mtx := true } =
        .error .badPath { config with mtx := true } := Action.bind_error thrown
  have stuck : (write key defValue).run { config with mtx := true } =
      .error .deadlock { config with mtx := true } := write_locked rfl key defValue
  have handled : (do
      write key defValue
      return defValue : Call (List String)).run { config with mtx := true } =
        .error .deadlock { config with mtx := true } := Action.bind_error stuck
  rw [getArray, locked_error free ((Action.catch_error body).trans handled), ← free]

/-- No call leaves the mutex locked. -/
theorem afterUserCall_free (free : config.mtx = false) (call : UserCall) : (afterUserCall config call).mtx = false := by
  unfold afterUserCall
  cases call with
  | write call =>
      rw [UserCall.run, call.run_eq free]
      by_cases valid : Json.verify true (call.made config) = true
      · rw [if_pos valid]
        exact free
      · rw [if_neg valid]
        exact free
  | getString key defValue =>
      rw [UserCall.run, discard_ok (getString_run config key defValue free)]
      exact free
  | getArray key defValue =>
      cases found : config.root.getChild key with
      | some child =>
          rw [UserCall.run, discard_ok (getArray_run config key defValue free child found)]
          exact free
      | none =>
          rw [UserCall.run, discard_error (getArray_missing free key defValue found)]
          exact free
  | getInt key defValue =>
      have read := getInt_run config key free defValue
      split at read
      · rw [UserCall.run, discard_ok read]
        exact free
      · rw [UserCall.run, discard_error read]
        exact free

theorem write_alive (free : config.mtx = false) (call : WriteCall) (after : Config) :
    call.run.run config ≠ .error .deadlock after := by
  intro stuck
  rw [call.run_eq free] at stuck
  split at stuck
  · cases stuck
  · cases stuck

theorem getInt_alive (free : config.mtx = false) (key : String) (defValue : Int) (after : Config) :
    (discard (getInt key defValue) : Call Unit).run config ≠ .error .deadlock after := by
  intro stuck
  have read := getInt_run config key free defValue
  split at read
  · rw [discard_ok read] at stuck
    cases stuck
  · rw [discard_error read] at stuck
    cases stuck

/-- A read of a text never reaches its handler, so it stores nothing. -/
theorem getString_reads_iff (free : config.mtx = false) (key defValue : String) :
    ReadsWithDefault config key (getString key defValue) defValue data ↔ (config.root.getChild key).isSome := by
  have read := getString_run config key defValue free
  by_cases present : (config.root.getChild key).isSome = true
  · rw [ReadsWithDefault, if_pos present]
    exact ⟨fun _ => present, fun _ => ⟨_, read⟩⟩
  · rw [ReadsWithDefault, if_neg present]
    constructor
    · rintro ⟨after, stored, there, _⟩
      have kept : config = after := by
        rw [read] at stored
        injection stored
      subst kept
      rw [Option.not_isSome_iff_eq_none.mp present] at there
      cases there
    · intro there
      exact absurd there present

theorem getArray_reads_iff (free : config.mtx = false) (key : String) (defValue : List String) :
    ReadsWithDefault config key (getArray key defValue) defValue items ↔ (config.root.getChild key).isSome := by
  cases found : config.root.getChild key with
  | some child =>
      have present : (config.root.getChild key).isSome = true := Option.isSome_of_eq_some found
      rw [ReadsWithDefault, if_pos present]
      exact ⟨fun _ => rfl, fun _ => ⟨_, getArray_run config key defValue free child found⟩⟩
  | none =>
      have stuck := getArray_missing free key defValue found
      rw [ReadsWithDefault, found, if_neg (by decide)]
      constructor
      · rintro ⟨after, stored, _⟩
        rw [stuck] at stored
        cases stored
      · intro there
        cases there

/-- A read obeys its law exactly when its key is present. -/
theorem lawful_iff (free : config.mtx = false) (call : UserCall) : Lawful config call ↔ ReadsPresent config call := by
  constructor
  · rintro ⟨_, reads⟩
    cases call with
    | write call => trivial
    | getString key defValue => exact (getString_reads_iff free key defValue).mp reads
    | getArray key defValue => exact (getArray_reads_iff free key defValue).mp reads
    | getInt key defValue => trivial
  · intro present
    cases call with
    | write call => exact ⟨write_alive free call, trivial⟩
    | getString key defValue =>
        refine ⟨fun after stuck => ?_, (getString_reads_iff free key defValue).mpr present⟩
        rw [UserCall.run, discard_ok (getString_run config key defValue free)] at stuck
        cases stuck
    | getArray key defValue =>
        refine ⟨fun after stuck => ?_, (getArray_reads_iff free key defValue).mpr present⟩
        obtain ⟨child, found⟩ := Option.isSome_iff_exists.mp present
        rw [UserCall.run, discard_ok (getArray_run config key defValue free child found)] at stuck
        cases stuck
    | getInt key defValue => exact ⟨getInt_alive free key defValue, trivial⟩

/-- All calls on a configuration obey their laws exactly when each read finds its key. -/
theorem lawful_run_iff (folder name : String) (content : Option Json.Value) (calls : List UserCall) :
    StepsMeet afterUserCall Lawful (constructed folder name content) calls ↔
      StepsMeet afterUserCall ReadsPresent (constructed folder name content) calls :=
  stepsMeet_congr (fun _ call free _ => afterUserCall_free free call) (fun _ call free => lawful_iff free call) _ calls
    (readable_constructed folder name content).free

/-- The first read of a text stores nothing, and the first read of an array waits for itself. -/
theorem missing_key_unlawful :
    ¬ StepsMeet afterUserCall Lawful (constructed "." "daemon.cfg" none) [.getString "a" "x"] ∧
      ¬ StepsMeet afterUserCall Lawful (constructed "." "daemon.cfg" none) [.getArray "a" ["x"]] := by
  have free := (readable_constructed "." "daemon.cfg" none).free
  have missing : (constructed "." "daemon.cfg" none).root.getChild "a" = none := by
    have keys : steps "a" = ["a"] := by decide
    rw [PropertyTree.getChild, keys]
    rfl
  constructor
  · rintro ⟨lawful, _⟩
    have present := (lawful_iff free _).mp lawful
    rw [ReadsPresent, missing] at present
    cases present
  · rintro ⟨lawful, _⟩
    exact lawful.alive _ (discard_error (getArray_missing free "a" ["x"] missing))

end Peakwork.Config
