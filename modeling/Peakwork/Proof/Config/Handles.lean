/-
This file decides when the handles of the manager lose no value of a file.
-/

import Peakwork.Construction.Config.ConfigManager
import Peakwork.Proof.Config.Others
import Peakwork.Proof.Config.Restart

namespace Peakwork.Config

open PropertyTree

/-- The file that a path denotes. -/
def filePath (path : String) : FilePath := .ofText path.toList

namespace ConfigManager

open Daemon (readTree)

/-- What a program does with the manager and with the handles that it has. -/
inductive Event where
  | getConfig (folder name : String)
  | write (cfg : Nat) (call : WriteCall)
  deriving DecidableEq, Repr

/-- An object with the file that is at its path now. -/
def withFile (manager : ConfigManager) (object : Config) : Config :=
  { object with file := manager.files (filePath object.configPath) }

/-- A call through a handle changes its object and the file at the path of the object. -/
def write (manager : ConfigManager) (cfg : Nat) (call : WriteCall) : ConfigManager :=
  match manager.objects[cfg]? with
  | none => manager
  | some object =>
      let after := afterCall (manager.withFile object) call
      { manager with
        objects := manager.objects.set cfg after
        files := Function.update manager.files (filePath object.configPath) after.file }

def next (manager : ConfigManager) : Event → ConfigManager
  | .getConfig folder name =>
      match (getConfig folder name).run manager with
      | .ok _ after => after
      | .error _ after => after
  | .write cfg call => manager.write cfg call

/-- Two handles of one file are the same one. -/
def OneObject (manager : ConfigManager) : Prop :=
  ∀ first ∈ manager.configs, ∀ second ∈ manager.configs, filePath first.1 = filePath second.1 → first.2 = second.2

/-- A handle is the only one of its file and stays in the cache, an exception leaves the cache, and a write
keeps the values of all other keys in the file. -/
def Safe (manager : ConfigManager) : Event → Prop
  | .getConfig folder name =>
      match (getConfig folder name).run manager with
      | .ok cfg after =>
          (folder ++ "/" ++ name, cfg) ∈ after.configs ∧ manager.configs ⊆ after.configs ∧ OneObject after
      | .error _ after => after.configs = manager.configs
  | .write cfg call => ∀ object, manager.objects[cfg]? = some object →
      KeepsOthers call.key (readTree (manager.files (filePath object.configPath)))
        (readTree ((manager.write cfg call).files (filePath object.configPath)))

/-- A file is opened under one text only, and a text or an array fits into the tree of its object. -/
def Separate (manager : ConfigManager) : Event → Prop
  | .getConfig folder name => (manager.configs.lookup (folder ++ "/" ++ name)).isSome ∨
      manager.files (filePath (folder ++ "/" ++ name)) = .unreadable ∨
        ∀ entry ∈ manager.configs, filePath entry.1 ≠ filePath (folder ++ "/" ++ name)
  | .write cfg call => ∀ object, manager.objects[cfg]? = some object →
      Fits object call ∨ NothingElse call.key (readTree (manager.files (filePath object.configPath)))

/-- Every object is in the cache under its path, it is the only one of its file, and the file has its tree. -/
structure Sound (manager : ConfigManager) : Prop where
  free : ∀ (cfg : Nat) object, manager.objects[cfg]? = some object → object.mtx = false
  valid : ∀ path, Json.verify false (readTree (manager.files path)) = true
  inFile : ∀ (cfg : Nat) object, manager.objects[cfg]? = some object →
    manager.files (filePath object.configPath) = .unreadable ∨
      object.root = readTree (manager.files (filePath object.configPath))
  entries : ∀ path cfg, (path, cfg) ∈ manager.configs ↔
    ∃ object, manager.objects[cfg]? = some object ∧ object.configPath = path
  one : OneObject manager

variable {manager : ConfigManager} {folder name : String} {cfg : Nat} {object : Config} {call : WriteCall}

theorem getConfig_cached (found : manager.configs.lookup (folder ++ "/" ++ name) = some cfg) :
    (getConfig folder name).run manager = .ok cfg manager := by
  have read : (getThe ConfigManager : Call ConfigManager).run manager = .ok manager manager := rfl
  rw [getConfig, Action.bind_ok read, found]
  show (cached (folder ++ "/" ++ name)) manager = _
  rw [cached, found]

/-- The object that is made for a path. -/
def made (manager : ConfigManager) (folder name : String) : Config :=
  { blank folder name (manager.files (filePath (folder ++ "/" ++ name))) with
    root := readTree (manager.files (filePath (folder ++ "/" ++ name))) }

theorem makeShared_run (readable : manager.files (filePath (folder ++ "/" ++ name)) ≠ .unreadable) :
    (makeShared folder name).run manager = .ok manager.objects.length
      { manager with objects := manager.objects ++ [manager.made folder name] } := by
  have started : Config.init.run (blank folder name (manager.files (filePath (folder ++ "/" ++ name)))) =
      .ok () (manager.made folder name) := by
    unfold made
    revert readable
    cases manager.files (filePath (folder ++ "/" ++ name)) with
    | absent => exact fun _ => rfl
    | unreadable => exact fun readable => absurd rfl readable
    | holds tree => exact fun _ => rfl
  show makeShared folder name manager = _
  rw [makeShared, show manager.files (.ofText _) = manager.files (filePath (folder ++ "/" ++ name)) from rfl, started]

theorem makeShared_error (unreadable : manager.files (filePath (folder ++ "/" ++ name)) = .unreadable) :
    ∃ failure, (makeShared folder name).run manager = .error failure manager := by
  have failed : Config.init.run (blank folder name (manager.files (filePath (folder ++ "/" ++ name)))) =
      .error (.runtimeError ("Can't parse config file : " ++ (folder ++ "/" ++ name)))
        (blank folder name .unreadable) := by
    rw [unreadable]
    rfl
  refine ⟨.constructor (.runtimeError ("Can't parse config file : " ++ (folder ++ "/" ++ name))), ?_⟩
  show makeShared folder name manager = _
  rw [makeShared, show manager.files (.ofText _) = manager.files (filePath (folder ++ "/" ++ name)) from rfl, failed]

theorem getConfig_new (missing : manager.configs.lookup (folder ++ "/" ++ name) = none)
    (readable : manager.files (filePath (folder ++ "/" ++ name)) ≠ .unreadable) :
    (getConfig folder name).run manager = .ok manager.objects.length
      { manager with
        configs := (folder ++ "/" ++ name, manager.objects.length) :: manager.configs
        objects := manager.objects ++ [manager.made folder name] } := by
  have read : (getThe ConfigManager : Call ConfigManager).run manager = .ok manager manager := rfl
  rw [getConfig, Action.bind_ok read, missing, Option.isNone_none, if_pos rfl,
    Action.bind_ok (makeShared_run readable)]
  show cached (folder ++ "/" ++ name) _ = _
  rw [cached]
  simp only [List.lookup_cons_self]

theorem getConfig_unreadable (missing : manager.configs.lookup (folder ++ "/" ++ name) = none)
    (unreadable : manager.files (filePath (folder ++ "/" ++ name)) = .unreadable) :
    ∃ failure, (getConfig folder name).run manager = .error failure manager := by
  have read : (getThe ConfigManager : Call ConfigManager).run manager = .ok manager manager := rfl
  obtain ⟨failure, failed⟩ := makeShared_error unreadable
  refine ⟨failure, ?_⟩
  rw [getConfig, Action.bind_ok read, missing, Option.isNone_none, if_pos rfl,
    Action.bind_error failed]

/-- A call makes its tree from the tree of the object alone. -/
theorem made_withFile (manager : ConfigManager) (object : Config) (call : WriteCall) :
    call.made (manager.withFile object) = call.made object := by
  cases call with
  | string key value => rfl
  | int key value => rfl
  | array key values => rfl

theorem fits_withFile (manager : ConfigManager) (object : Config) (call : WriteCall) :
    Fits (manager.withFile object) call ↔ Fits object call := by
  cases call with
  | string key value => exact Iff.rfl
  | int key value => exact Iff.rfl
  | array key values => exact Iff.rfl

/-- A call leaves the object with its tree in the file, or the file without any tree. -/
theorem write_found (found : manager.objects[cfg]? = some object) (free : object.mtx = false) (call : WriteCall) :
    ∃ after : Config, manager.write cfg call =
        { manager with
          objects := manager.objects.set cfg after
          files := Function.update manager.files (filePath object.configPath) after.file } ∧
      after.configPath = object.configPath ∧ after.mtx = false ∧
        (Json.verify true (call.made object) = true ∧ after.root = call.made object ∧ after.file = .holds after.root ∨
          Json.verify true (call.made object) = false ∧ after.file = .unreadable) := by
  have ran := @WriteCall.run_eq (manager.withFile object) free call
  rw [made_withFile] at ran
  rw [write, found]
  cases valid : Json.verify true (call.made object) with
  | true =>
      rw [valid, if_pos rfl] at ran
      refine ⟨_, rfl, ?_⟩
      rw [afterCall, ran]
      exact ⟨rfl, free, .inl ⟨rfl, rfl, rfl⟩⟩
  | false =>
      rw [valid, if_neg (by decide)] at ran
      refine ⟨_, rfl, ?_⟩
      rw [afterCall, ran]
      exact ⟨rfl, free, .inr ⟨rfl, rfl⟩⟩

/-- Two objects of one file are the same one. -/
theorem Sound.eq_of_filePath (sound : Sound manager) {other : Nat} {second : Config}
    (first : manager.objects[cfg]? = some object) (also : manager.objects[other]? = some second)
    (same : filePath object.configPath = filePath second.configPath) : cfg = other :=
  sound.one _ ((sound.entries _ _).mpr ⟨object, first, rfl⟩) _ ((sound.entries _ _).mpr ⟨second, also, rfl⟩) same

theorem Sound.write (sound : Sound manager) (cfg : Nat) (call : WriteCall) : Sound (manager.write cfg call) := by
  cases found : manager.objects[cfg]? with
  | none =>
      rw [ConfigManager.write, found]
      exact sound
  | some object =>
      obtain ⟨after, written, path, free, outcome⟩ := write_found found (sound.free cfg object found) call
      have inside : cfg < manager.objects.length := (List.getElem?_eq_some_iff.mp found).1
      have own : Json.verify false (readTree after.file) = true := by
        rcases outcome with ⟨valid, root, file⟩ | ⟨_, file⟩
        · rw [file, root]
          exact Json.verify_below valid
        · rw [file]
          exact Json.verify_empty
      have held : after.file = .unreadable ∨ after.root = readTree after.file := by
        rcases outcome with ⟨_, _, file⟩ | ⟨_, file⟩
        · rw [file]
          exact .inr rfl
        · exact .inl file
      rw [written]
      constructor
      · intro other second also
        rw [List.getElem?_set, if_pos inside] at also
        split at also
        · cases also
          exact free
        · exact sound.free other second also
      · intro place
        show Json.verify false (readTree (Function.update manager.files _ after.file place)) = true
        rw [Function.update_apply]
        split
        · exact own
        · exact sound.valid place
      · intro other second also
        rw [List.getElem?_set, if_pos inside] at also
        show Function.update manager.files _ after.file _ = _ ∨ _ = readTree (Function.update manager.files _ after.file _)
        rw [Function.update_apply]
        split at also
        · cases also
          rw [if_pos (by rw [path])]
          exact held
        · rename_i different
          rw [if_neg fun same => different (sound.eq_of_filePath found also same.symm)]
          exact sound.inFile other second also
      · intro text other
        rw [sound.entries]
        show (∃ second, manager.objects[other]? = some second ∧ second.configPath = text) ↔
          ∃ second, (manager.objects.set cfg after)[other]? = some second ∧ second.configPath = text
        rw [List.getElem?_set, if_pos inside]
        split
        · rename_i same
          rw [← same, found]
          simp [path]
        · rfl
      · exact sound.one

/-- The manager after a new object has been made for a path. -/
def added (manager : ConfigManager) (folder name : String) : ConfigManager :=
  { manager with
    configs := (folder ++ "/" ++ name, manager.objects.length) :: manager.configs
    objects := manager.objects ++ [manager.made folder name] }

/-- A text is cached, or its file cannot be parsed, or a new object is made for it. -/
theorem getConfig_cases (manager : ConfigManager) (folder name : String) :
    (∃ cfg, manager.configs.lookup (folder ++ "/" ++ name) = some cfg ∧
        (getConfig folder name).run manager = .ok cfg manager) ∨
      (manager.configs.lookup (folder ++ "/" ++ name) = none ∧
        manager.files (filePath (folder ++ "/" ++ name)) = .unreadable ∧
          ∃ failure, (getConfig folder name).run manager = .error failure manager) ∨
      manager.configs.lookup (folder ++ "/" ++ name) = none ∧
        manager.files (filePath (folder ++ "/" ++ name)) ≠ .unreadable ∧
          (getConfig folder name).run manager = .ok manager.objects.length (manager.added folder name) := by
  cases found : manager.configs.lookup (folder ++ "/" ++ name) with
  | some cfg => exact .inl ⟨cfg, rfl, getConfig_cached found⟩
  | none =>
      by_cases unreadable : manager.files (filePath (folder ++ "/" ++ name)) = .unreadable
      · exact .inr (.inl ⟨rfl, unreadable, getConfig_unreadable found unreadable⟩)
      · exact .inr (.inr ⟨rfl, unreadable, getConfig_new found unreadable⟩)

/-- A new object is in the cache alone exactly when no other one has its file. -/
theorem Sound.oneObject_added_iff (sound : Sound manager) : OneObject (manager.added folder name) ↔
    ∀ entry ∈ manager.configs, filePath entry.1 ≠ filePath (folder ++ "/" ++ name) := by
  have old (entry : String × Nat) (member : entry ∈ manager.configs) : entry.2 ≠ manager.objects.length := by
    obtain ⟨object, found, _⟩ := (sound.entries entry.1 entry.2).mp member
    have inside := (List.getElem?_eq_some_iff.mp found).1
    omega
  constructor
  · intro one entry member same
    exact old entry member (one entry (List.mem_cons_of_mem _ member) _ List.mem_cons_self same)
  · intro apart first left second right same
    rcases List.mem_cons.mp left with rfl | left
    · rcases List.mem_cons.mp right with rfl | right
      · rfl
      · exact absurd same.symm (apart second right)
    · rcases List.mem_cons.mp right with rfl | right
      · exact absurd same (apart first left)
      · exact sound.one first left second right same

theorem Sound.added (sound : Sound manager)
    (apart : ∀ entry ∈ manager.configs, filePath entry.1 ≠ filePath (folder ++ "/" ++ name)) :
    Sound (manager.added folder name) := by
  have cases_of (cfg : Nat) (object : Config) (found : (manager.added folder name).objects[cfg]? = some object) :
      manager.objects[cfg]? = some object ∨ cfg = manager.objects.length ∧ object = manager.made folder name := by
    have split_ := found
    rw [ConfigManager.added, List.getElem?_append] at split_
    split at split_
    · exact .inl split_
    · obtain ⟨here, same⟩ := List.getElem?_eq_some_iff.mp split_
      rw [List.length_singleton] at here
      exact .inr ⟨by omega, by simpa using same.symm⟩
  constructor
  · intro cfg object found
    rcases cases_of cfg object found with old | ⟨_, rfl⟩
    · exact sound.free cfg object old
    · rfl
  · exact sound.valid
  · intro cfg object found
    rcases cases_of cfg object found with old | ⟨_, rfl⟩
    · exact sound.inFile cfg object old
    · exact .inr rfl
  · intro path cfg
    constructor
    · intro member
      rcases List.mem_cons.mp member with new | member
      · cases new
        exact ⟨manager.made folder name, List.getElem?_concat_length, rfl⟩
      · obtain ⟨object, found, same⟩ := (sound.entries path cfg).mp member
        have inside := (List.getElem?_eq_some_iff.mp found).1
        exact ⟨object, (List.getElem?_append_left inside).trans found, same⟩
    · rintro ⟨object, found, rfl⟩
      rcases cases_of cfg object found with old | ⟨rfl, rfl⟩
      · exact List.mem_cons_of_mem _ ((sound.entries _ cfg).mpr ⟨object, old, rfl⟩)
      · exact List.mem_cons_self
  · exact sound.oneObject_added_iff.mpr apart

theorem mem_of_lookup {path : String} (found : manager.configs.lookup path = some cfg) :
    (path, cfg) ∈ manager.configs := by
  obtain ⟨front, back, shape, _⟩ := List.lookup_eq_some_iff.mp found
  rw [shape]
  exact List.mem_append_right _ List.mem_cons_self

/-- A call of the manager is safe exactly when it opens no file again under another text. -/
theorem Sound.safe_getConfig_iff (sound : Sound manager) :
    Safe manager (.getConfig folder name) ↔ Separate manager (.getConfig folder name) := by
  rw [Safe, Separate]
  rcases getConfig_cases manager folder name with ⟨cfg, found, run⟩ | ⟨missing, unreadable, failure, run⟩ |
    ⟨missing, readable, run⟩
  · rw [run, found]
    exact ⟨fun _ => .inl rfl, fun _ => ⟨mem_of_lookup found, List.Subset.refl _, sound.one⟩⟩
  · rw [run]
    exact ⟨fun _ => .inr (.inl unreadable), fun _ => rfl⟩
  · rw [run, missing, or_iff_right (by decide), or_iff_right readable, ← sound.oneObject_added_iff]
    exact ⟨fun safe => safe.2.2, fun one => ⟨List.mem_cons_self, List.subset_cons_self _ _, one⟩⟩

theorem Sound.getConfig (sound : Sound manager) (separate : Separate manager (.getConfig folder name)) :
    Sound (manager.next (.getConfig folder name)) := by
  rw [next]
  rcases getConfig_cases manager folder name with ⟨cfg, _, run⟩ | ⟨_, _, failure, run⟩ | ⟨missing, readable, run⟩
  · rw [run]
    exact sound
  · rw [run]
    exact sound
  · rw [run]
    rw [Separate, missing] at separate
    exact sound.added ((separate.resolve_left (by decide)).resolve_left readable)

/-- A write is safe exactly when it fits or has nothing to lose. -/
theorem Sound.safe_write_iff (sound : Sound manager) (cfg : Nat) (call : WriteCall) :
    Safe manager (.write cfg call) ↔ Separate manager (.write cfg call) := by
  apply forall_congr'
  intro object
  apply forall_congr'
  intro found
  have free := sound.free cfg object found
  obtain ⟨after, written, _, _, outcome⟩ := write_found found free call
  have file : (manager.write cfg call).files (filePath object.configPath) = after.file := by
    rw [written]
    exact Function.update_self _ _ _
  have fits (readable : manager.files (filePath object.configPath) ≠ .unreadable) :
      Json.verify true (call.made object) = true ↔ Fits object call := by
    have root := (sound.inFile cfg object found).resolve_left readable
    have own : Json.verify false object.root = true := root ▸ sound.valid (filePath object.configPath)
    have opened : Readable (manager.withFile object) := ⟨free, own, readable⟩
    rw [← made_withFile manager, ← fits_withFile manager]
    exact fits_iff opened call
  rw [file]
  by_cases unreadable : manager.files (filePath object.configPath) = .unreadable
  · have nothing : NothingElse call.key (readTree (manager.files (filePath object.configPath))) := by
      rw [unreadable]
      exact nothingElse_empty call.key
    exact ⟨fun _ => .inr nothing, fun _ => keepsOthers_of_nothing nothing _⟩
  · have root := (sound.inFile cfg object found).resolve_left unreadable
    rw [← fits unreadable]
    rcases outcome with ⟨valid, tree, held⟩ | ⟨invalid, emptied⟩
    · rw [held, ← root, show readTree (.holds after.root) = after.root from rfl, tree]
      exact ⟨fun _ => .inl valid, fun _ => keepsOthers_made object call⟩
    · rw [emptied, invalid]
      constructor
      · exact fun keeps => .inr (nothingElse_of_empty keeps)
      · exact fun either => keepsOthers_of_nothing (either.resolve_left (by decide)) _

/-- A disk has nothing at a path, or a text that is not JSON, or the text of a value. -/
inductive Content where
  | absent
  | unreadable
  | json (value : Json.Value)

def Content.file : Content → File
  | .absent => .absent
  | .unreadable => .unreadable
  | .json value => .holds value.tree

/-- A process starts with an empty cache. -/
def start (disk : FilePath → Content) : ConfigManager := { files := fun path => (disk path).file }

theorem sound_start (disk : FilePath → Content) : Sound (start disk) := by
  constructor
  · intro cfg object found
    cases found
  · intro path
    show Json.verify false (readTree (disk path).file) = true
    cases disk path with
    | absent => exact Json.verify_empty
    | unreadable => exact Json.verify_empty
    | json value => exact Json.verify_tree value
  · intro cfg object found
    cases found
  · intro path cfg
    constructor
    · intro member
      cases member
    · rintro ⟨object, found, _⟩
      cases found
  · intro first member
    cases member

theorem Sound.next (sound : Sound manager) (event : Event) (separate : Separate manager event) :
    Sound (manager.next event) := by
  cases event with
  | getConfig folder name => exact sound.getConfig separate
  | write cfg call => exact sound.write cfg call

theorem Sound.safe_iff (sound : Sound manager) (event : Event) : Safe manager event ↔ Separate manager event := by
  cases event with
  | getConfig folder name => exact sound.safe_getConfig_iff
  | write cfg call => exact sound.safe_write_iff cfg call

/-- In every run from a start the handles of a file are one object and no write removes the value of another
key exactly when no file is opened under a second text and every write fits or has nothing to lose. -/
theorem handles_lose_nothing_iff (disk : FilePath → Content) (events : List Event) :
    StepsMeet next Safe (start disk) events ↔ StepsMeet next Separate (start disk) events :=
  stepsMeet_congr (fun _ event sound separate => sound.next event separate)
    (fun _ event sound => sound.safe_iff event) _ events (sound_start disk)

/-- An object with an empty tree writes its one text, whatever the file has. -/
theorem write_empty {key : String} (value : String) (found : manager.objects[cfg]? = some object)
    (free : object.mtx = false) (root : object.root = .empty) (parts : segments key = [key]) (long : key ≠ "") :
    (manager.write cfg (.string key value)).files (filePath object.configPath) =
      .holds (.node "" [(key, .leaf value)]) := by
  have keys : steps key = [key] := by
    rw [steps, parts]
    simp [long]
  have tree : WriteCall.made object (.string key value) = .node "" [(key, .leaf value)] := by
    show object.root.put key value = _
    rw [root, put, PropertyTree.getChild, keys, parts]
    rfl
  obtain ⟨after, written, _, _, outcome⟩ := write_found found free (.string key value)
  rw [tree] at outcome
  have valid : Json.verify true (.node "" [(key, .leaf value)]) = true := by
    rw [Json.verify_iff]
    refine ⟨.inl rfl, fun entry member => ?_⟩
    rw [List.mem_singleton.mp member]
    exact Json.verify_leaf value
  rcases outcome with ⟨_, made, held⟩ | ⟨invalid, _⟩
  · rw [written, ← made, ← held]
    exact Function.update_self _ _ _
  · rw [valid] at invalid
    cases invalid

/-- One file is opened under two texts, and each handle writes a key. -/
def twoSpellings : List Event :=
  [.getConfig "." "daemon.cfg", .getConfig "./" "daemon.cfg", .write 0 (.string "a" "x"), .write 1 (.string "b" "y")]

def emptyDisk : ConfigManager := start fun _ => .absent

/-- The two handles are two objects of one file. -/
def bothOpened : ConfigManager := (emptyDisk.added "." "daemon.cfg").added "./" "daemon.cfg"

theorem first_opened : next emptyDisk (.getConfig "." "daemon.cfg") = emptyDisk.added "." "daemon.cfg" := by
  have readable : emptyDisk.files (filePath ("." ++ "/" ++ "daemon.cfg")) ≠ .unreadable := by
    intro same
    cases same
  rw [next, getConfig_new rfl readable]
  rfl

theorem second_missing : (emptyDisk.added "." "daemon.cfg").configs.lookup ("./" ++ "/" ++ "daemon.cfg") = none := by
  decide

theorem second_opened : next (emptyDisk.added "." "daemon.cfg") (.getConfig "./" "daemon.cfg") = bothOpened := by
  have readable : (emptyDisk.added "." "daemon.cfg").files (filePath ("./" ++ "/" ++ "daemon.cfg")) ≠
      .unreadable := by
    intro same
    cases same
  rw [next, getConfig_new second_missing readable]
  rfl

/-- The second object does not know the value that was written through the first one. -/
theorem second_spelling_loses_value :
    ¬ StepsMeet next Safe emptyDisk twoSpellings ∧
      (readTree ((play next emptyDisk (twoSpellings.take 3)).files (filePath "./daemon.cfg"))).walk ["a"] =
        some (.leaf "x") ∧
      (readTree ((play next emptyDisk twoSpellings).files (filePath "./daemon.cfg"))).walk ["a"] = none := by
  have third : play next emptyDisk (twoSpellings.take 3) = bothOpened.write 0 (.string "a" "x") := by
    rw [twoSpellings, List.take_succ_cons, List.take_succ_cons, List.take_succ_cons, List.take_zero, play_cons,
      play_cons, play_cons, first_opened, second_opened]
    rfl
  have fourth : play next emptyDisk twoSpellings =
      (bothOpened.write 0 (.string "a" "x")).write 1 (.string "b" "y") := by
    rw [← third]
    rfl
  have file : filePath ("./" ++ "/" ++ "daemon.cfg") = filePath "./daemon.cfg" := by decide
  refine ⟨?_, ?_, ?_⟩
  · rintro ⟨_, safe, _⟩
    rw [first_opened] at safe
    have sound : Sound (emptyDisk.added "." "daemon.cfg") :=
      (sound_start _).added fun entry member => absurd member List.not_mem_nil
    have separate := sound.safe_getConfig_iff.mp safe
    rw [Separate, second_missing] at separate
    rcases separate with cached | unreadable | apart
    · cases cached
    · cases unreadable
    · exact apart _ List.mem_cons_self file.symm
  · have parts : segments "a" = ["a"] := by decide
    have found : bothOpened.objects[0]? = some (emptyDisk.made "." "daemon.cfg") := rfl
    have held := write_empty "x" found rfl rfl parts (by decide)
    rw [third, show filePath "./daemon.cfg" = filePath (emptyDisk.made "." "daemon.cfg").configPath from rfl, held]
    rfl
  · have parts : segments "b" = ["b"] := by decide
    have first : bothOpened.objects[0]? = some (emptyDisk.made "." "daemon.cfg") := rfl
    obtain ⟨after, written, _⟩ := write_found first rfl (.string "a" "x")
    have found : (bothOpened.write 0 (.string "a" "x")).objects[1]? =
        some ((emptyDisk.added "." "daemon.cfg").made "./" "daemon.cfg") := by
      rw [written]
      rfl
    have held := write_empty "y" found rfl rfl parts (by decide)
    rw [fourth, ← file, show filePath ("./" ++ "/" ++ "daemon.cfg") =
      filePath ((emptyDisk.added "." "daemon.cfg").made "./" "daemon.cfg").configPath from rfl, held]
    rfl

end ConfigManager

end Peakwork.Config
