/-
This file decides when a second start leaves the configuration as the first start left it.
-/

import Peakwork.Proof.Config.Settings

namespace Peakwork.Config.Daemon

open PropertyTree

/-- A constructor that throws leaves no configuration. -/
def fileAfter : EStateM.Result Failure Config Unit → Option File
  | .ok _ config => some config.file
  | .error _ _ => none

/-- What a start leaves in the file when it succeeds. -/
def leaves (file : File) : Option File := fileAfter (construct file)

def restarts : Nat → File → Option File
  | 0, file => some file
  | count + 1, file => (leaves file).bind (restarts count)

/-- The tree that a start reads. -/
def readTree : File → PropertyTree
  | .holds tree => tree
  | _ => .empty

/-- The configuration that a start has read. -/
def opened (file : File) : Config := { blank "." "daemon.cfg" file with root := readTree file }

theorem leaves_readable {file : File} (readable : file ≠ .unreadable) :
    leaves file = fileAfter (init.run (opened file)) := by
  have read : Config.init.run (blank "." "daemon.cfg" file) = .ok () (opened file) := by
    cases file with
    | absent => rfl
    | unreadable => exact absurd rfl readable
    | holds tree => rfl
  rw [leaves, construct, Action.bind_ok read]

theorem fileAfter_eq_some {result : EStateM.Result Failure Config Unit} {file : File}
    (left : fileAfter result = some file) : ∃ config, result = .ok () config ∧ config.file = file := by
  cases result with
  | ok value config => exact ⟨config, rfl, Option.some.inj left⟩
  | error failure config => cases left

/-- A start leaves a settled tree. -/
theorem leaves_settled {file after : File} (started : leaves file = some after) :
    ∃ tree, after = .holds tree ∧ Settled (opened (.holds tree)) ∧
      tree.find symbolsPath = (readTree file).find symbolsPath := by
  have readable : file ≠ .unreadable := by
    rintro rfl
    cases started
  rw [leaves_readable readable] at started
  obtain ⟨last, ends, rfl⟩ := fileAfter_eq_some started
  obtain ⟨settled, entry⟩ := init_settles rfl ends
  exact ⟨last.root, settled.file, ⟨rfl, rfl, settled.valid, settled.present, settled.timeout⟩, entry⟩

/-- A start leaves a settled tree as it is exactly when the whole path of the symbols is an entry of
the root. -/
theorem leaves_settled_iff {tree : PropertyTree} (settled : Settled (opened (.holds tree))) :
    leaves (.holds tree) = some (.holds tree) ↔ (tree.find symbolsPath).isSome := by
  obtain ⟨child, found⟩ := settled.timeout_there
  have root : (opened (.holds tree)).root = tree := rfl
  have valid : Json.verify true tree = true := settled.valid
  rw [leaves_readable (by simp), settled.init found, write_run _ _ _ settled.free, root]
  generalize (if (child.children.map (·.2.data)).isEmpty then updateSymbols
    else child.children.map (·.2.data)) = values
  cases entry : tree.find symbolsPath with
  | some child =>
      have same : withArray symbolsPath values tree = tree := by
        rw [withArray, entry]
        rfl
      rw [same, if_pos valid]
      exact ⟨fun _ => rfl, fun _ => rfl⟩
  | none =>
      have added : withArray symbolsPath values tree =
          addChildAt (arrayTree values) [sectionIEX.name, "update_symbols"] tree := by
        rw [withArray_symbols, entry]
        rfl
      rw [added]
      refine ⟨fun same => ?_, fun absent => absurd absent (by decide)⟩
      split at same
      · have grown := File.holds.inj (Option.some.inj same)
        exact absurd grown (addChildAt_ne (arrayTree values) _ (by decide) tree)
      · cases same

/-- The nodes of the settings make a tree a settled one. -/
theorem settled_opened {tree : PropertyTree} (valid : Json.verify true tree = true)
    (present : ∀ setting ∈ texts, (tree.walk [setting.sect.name, setting.keyName]).isSome = true)
    (value : Int) (small : Decimal.isInt value = true)
    (timeout : (tree.walk [sectionIEX.name, "update_price_timeout_sec"]).map PropertyTree.data =
      some (Decimal.castString value)) : Settled (opened (.holds tree)) := by
  refine ⟨rfl, rfl, valid, fun setting member => ?_, value, small, ?_⟩
  · obtain ⟨plain, rest, long⟩ := plain_text member
    change (tree.getChild (_ ++ "." ++ _)).isSome = true
    rw [getChild_dotted tree plain rest long]
    exact present setting member
  · change (tree.getChild (_ ++ "." ++ _)).map _ = _
    rw [getChild_dotted tree plain_iex plain_timeout (by decide)]
    exact timeout

/-- These are the settings of a file that nobody has edited. -/
def defaults : PropertyTree := .node "" [
  ("daemon", .node "" [("log_path", .leaf logFile), ("db_path", .leaf dbFile)]),
  ("grpc_server", .node "" [("interface", .leaf grpcInterface), ("port", .leaf grpcPort)]),
  ("iex_api", .node "" [
    ("url", .leaf iexUrl),
    ("tocken", .leaf iexToken),
    ("update_price_timeout_sec", .leaf "3"),
    ("update_symbols", arrayTree updateSymbols)])]

theorem settled_defaults : Settled (opened (.holds defaults)) :=
  settled_opened (by decide) (by decide) 3 (by decide) (by decide)

theorem leaves_defaults : leaves (.holds defaults) =
    some (.holds (addChildAt (arrayTree updateSymbols) [sectionIEX.name, "update_symbols"] defaults)) := by
  have found : (opened (.holds defaults)).root.getChild timeoutPath = some (.leaf "3") := by
    change defaults.getChild (_ ++ "." ++ _) = _
    rw [getChild_dotted defaults plain_iex plain_timeout (by decide)]
    rfl
  have added : withArray symbolsPath updateSymbols (opened (.holds defaults)).root =
      addChildAt (arrayTree updateSymbols) [sectionIEX.name, "update_symbols"] defaults := by
    rw [withArray_symbols, if_pos (by decide)]
    rfl
  have start := settled_defaults.init found
  have none_ : ((PropertyTree.leaf "3").children.map (·.2.data)).isEmpty = true := rfl
  rw [if_pos none_, write_run _ _ _ settled_defaults.free, added, if_pos (by decide)] at start
  rw [leaves_readable (by simp), start]
  rfl

/-- An entry with the whole path keeps the start from adding the symbols. -/
def edited : PropertyTree := defaults.pushBack symbolsPath (arrayTree ["aapl"])

theorem settled_edited : Settled (opened (.holds edited)) :=
  settled_opened (by decide) (by decide) 3 (by decide) (by decide)

/-- Any number of restarts leaves the file as the first start left it exactly when the whole path of
the symbols is an entry of the root of the file that the first start found. -/
theorem restarts_leave_iff (file after : File) (started : leaves file = some after) :
    (∀ count, restarts count after = some after) ↔ ((readTree file).find symbolsPath).isSome := by
  obtain ⟨tree, rfl, settled, entry⟩ := leaves_settled started
  rw [← entry, ← leaves_settled_iff settled]
  constructor
  · intro same
    have once := same 1
    rw [restarts] at once
    cases left : leaves (.holds tree) with
    | none =>
        rw [left] at once
        cases once
    | some second =>
        rw [left] at once
        exact once
  · intro same count
    induction count with
    | zero => rfl
    | succ count ih => rw [restarts, same, Option.bind_some, ih]

theorem restarts_leave_iff_example :
    (∀ count, restarts count (.holds edited) = some (.holds edited)) ↔
      (edited.find symbolsPath).isSome :=
  restarts_leave_iff (.holds edited) (.holds edited)
    ((leaves_settled_iff settled_edited).mpr (by decide))

/-- Every start on a file without edits adds the symbols once more. -/
theorem restart_adds_symbols : ∃ after, leaves (.holds defaults) = some after ∧
    ¬ ∀ count, restarts count after = some after := by
  refine ⟨_, leaves_defaults, fun same => ?_⟩
  obtain ⟨tree, left, settled, entry⟩ := leaves_settled leaves_defaults
  have again := same 1
  rw [restarts, left] at again
  cases second : leaves (.holds tree) with
  | none =>
      rw [second] at again
      cases again
  | some file =>
      rw [second] at again
      cases again
      have present := (leaves_settled_iff settled).mp second
      rw [entry] at present
      exact absurd present (by decide)

end Peakwork.Config.Daemon
