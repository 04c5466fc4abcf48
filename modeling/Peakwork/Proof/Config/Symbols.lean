/-
This file decides when the configured symbols are the ones that are updated.
-/

import Peakwork.Proof.Config.Restart

namespace Peakwork.Config.Daemon

open PropertyTree

/-- The configuration of a daemon that has started. -/
def configAfter : EStateM.Result Failure Config Unit → Option Config
  | .ok _ config => some config
  | .error _ _ => none

/-- The configuration of the daemon after some starts on the file and one more. -/
def running : Nat → File → Option Config
  | 0, file => configAfter (construct file)
  | count + 1, file => (leaves file).bind (running count)

/-- The strings of an array that is not empty, or the built-in list. -/
def configuredSymbols (file : File) : List String :=
  match (readTree file).getChild symbolsPath with
  | some child =>
      if child.children ≠ [] ∧ child.children.all (·.1 = "") then child.children.map (·.2.data)
      else updateSymbols
  | none => updateSymbols

/-- The timeout is a text, so there is no array at its key. -/
theorem Settled.getIEXUpdateSymbols {config : Config} (settled : Settled config) :
    getIEXUpdateSymbols.run config = .ok updateSymbols config := by
  obtain ⟨value, small, read⟩ := settled.timeout
  obtain ⟨child, found, text⟩ := Option.map_eq_some_iff.mp read
  have written : child.data ≠ "" := by
    intro empty
    have number := Decimal.castInt_castString value small
    have unread : Decimal.castInt "" = none := by decide
    rw [← text, empty, unread] at number
    cases number
  have valid := Json.verify_walk (Json.verify_below settled.valid) found
  have name : name sectionIEX .iexUpdatePriceSecond = pure timeoutPath := name_registered (by decide)
  rw [Daemon.getIEXUpdateSymbols, name, pure_bind,
    getArray_run config timeoutPath updateSymbols settled.free child found,
    Json.children_of_data valid written]
  rfl

theorem construct_eq_ok {file : File} {config : Config} (started : configAfter (construct file) = some config) :
    Settled config := by
  cases ends : construct file with
  | error failure after =>
      rw [ends] at started
      cases started
  | ok value after =>
      rw [ends] at started
      cases started
      obtain ⟨_, read, first, kept⟩ := Action.ends_of_bind ends
      have free : read.mtx = false := by
        cases file with
        | absent => cases first; rfl
        | unreadable => cases first
        | holds tree => cases first; rfl
      exact (init_settles free kept).1

theorem running_settled {count : Nat} {file : File} {config : Config}
    (started : running count file = some config) : Settled config := by
  induction count generalizing file with
  | zero => exact construct_eq_ok started
  | succ count ih =>
      obtain ⟨after, _, later⟩ := Option.bind_eq_some_iff.mp started
      exact ih later

/-- The symbols fit into a settled tree, since the section has the timeout below it. -/
theorem Settled.withArray_valid {config : Config} (settled : Settled config) (values : List String) :
    Json.verify true (withArray symbolsPath values config.root) = true := by
  rw [withArray_symbols]
  split
  · have below := Json.verify_below settled.valid
    have plain : config.root.data = "" := by
      have own := (Json.verify_iff.mp settled.valid).1
      simpa using own
    rw [Json.verify_addChildAt below (verify_arrayTree values) (by simp), Json.fitsChild, plain]
    obtain ⟨child, found⟩ := settled.timeout_there
    rw [timeoutPath, Section.dotted, getChild_dotted _ plain_iex plain_timeout (by decide)] at found
    obtain ⟨sect, here, there⟩ := Option.bind_eq_some_iff.mp found
    obtain ⟨timeout, inside, _⟩ := Option.bind_eq_some_iff.mp there
    have bare : sect.data = "" := by
      by_contra text
      have none_ := Json.children_of_data (Json.verify_find below here) text
      rw [find, none_] at inside
      cases inside
    simp [here, Json.fitsChild, bare]
  · exact settled.valid

/-- A start on a settled tree succeeds. -/
theorem Settled.starts {tree : PropertyTree} (settled : Settled (opened (.holds tree))) :
    ∃ config, Daemon.init.run (opened (.holds tree)) = .ok () config := by
  obtain ⟨child, found⟩ := settled.timeout_there
  have start := settled.init found
  rw [write_run _ _ _ settled.free, if_pos (settled.withArray_valid _)] at start
  exact ⟨_, start⟩

theorem Settled.construct {tree : PropertyTree} (settled : Settled (opened (.holds tree))) :
    ∃ config, running 0 (.holds tree) = some config := by
  have read : Config.init.run (blank "." "daemon.cfg" (.holds tree)) = .ok () (opened (.holds tree)) := rfl
  obtain ⟨config, ends⟩ := settled.starts
  refine ⟨config, ?_⟩
  rw [running, Daemon.construct, Action.bind_ok read, ends]
  rfl

/-- After all starts that succeed the getter returns the configured symbols exactly when they are the
built-in ones, or when the first start fails. -/
theorem symbols_are_configured_iff (file : File) :
    (∀ count config, running count file = some config →
      getIEXUpdateSymbols.run config = .ok (configuredSymbols file) config) ↔
        ((running 0 file).isSome → configuredSymbols file = updateSymbols) := by
  constructor
  · intro configured started
    obtain ⟨config, first⟩ := Option.isSome_iff_exists.mp started
    have returned := configured 0 config first
    rw [(running_settled first).getIEXUpdateSymbols] at returned
    exact (EStateM.Result.ok.inj returned).1.symm
  · intro builtIn count config started
    have first : (running 0 file).isSome := by
      cases count with
      | zero => exact Option.isSome_of_eq_some started
      | succ count =>
          obtain ⟨after, left, _⟩ := Option.bind_eq_some_iff.mp started
          obtain ⟨config, ends, _⟩ := fileAfter_eq_some left
          rw [running, ends]
          rfl
    rw [(running_settled started).getIEXUpdateSymbols, builtIn first]

/-- A user has replaced the built-in symbols. -/
def chosen : PropertyTree := .node "" [
  ("daemon", .node "" [("log_path", .leaf logFile), ("db_path", .leaf dbFile)]),
  ("grpc_server", .node "" [("interface", .leaf grpcInterface), ("port", .leaf grpcPort)]),
  ("iex_api", .node "" [
    ("url", .leaf iexUrl),
    ("tocken", .leaf iexToken),
    ("update_price_timeout_sec", .leaf "3"),
    ("update_symbols", .node "" [("", .leaf "msft")])])]

theorem chosen_symbols_are_ignored : ∃ config, running 0 (.holds chosen) = some config ∧
    configuredSymbols (.holds chosen) = ["msft"] ∧
      getIEXUpdateSymbols.run config = .ok ["aapl", "fb"] config := by
  have settled : Settled (opened (.holds chosen)) :=
    settled_opened (by decide) (by decide) 3 (by decide) (by decide)
  have array : chosen.getChild symbolsPath = some (.node "" [("", .leaf "msft")]) := by
    rw [symbolsPath, Section.dotted, getChild_dotted chosen plain_iex (by decide) (by decide)]
    rfl
  obtain ⟨config, started⟩ := settled.construct
  refine ⟨config, started, ?_, (running_settled started).getIEXUpdateSymbols⟩
  rw [configuredSymbols, readTree, array]
  decide

end Peakwork.Config.Daemon
