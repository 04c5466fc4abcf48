/-
This file says what a start does with each of the settings.
-/

import Peakwork.Construction.Config.Daemon
import Peakwork.Proof.Config.Calls

namespace Peakwork.Config.Daemon

open PropertyTree

/-- A setting that is a text. -/
structure Setting where
  sect : Section
  keyName : String
  defValue : String

def Setting.path (setting : Setting) : String := setting.sect.dotted setting.keyName

def texts : List Setting := [
  ⟨sectionDaemon, "log_path", logFile⟩,
  ⟨sectionDaemon, "db_path", dbFile⟩,
  ⟨sectionGRPC, "interface", grpcInterface⟩,
  ⟨sectionGRPC, "port", grpcPort⟩,
  ⟨sectionIEX, "url", iexUrl⟩,
  ⟨sectionIEX, "tocken", iexToken⟩]

def timeoutPath : String := sectionIEX.dotted "update_price_timeout_sec"

def symbolsPath : String := sectionIEX.dotted "update_symbols"

/-- A setting is read, with its default, and written back. -/
def keepText (setting : Setting) : Call Unit := do
  writeString setting.path (← getString setting.path setting.defValue)

def keepTimeout : Call Unit := do writeInt timeoutPath (← getInt timeoutPath updateTime)

def keepSymbols : Call Unit := do write symbolsPath (← getArray timeoutPath updateSymbols)

theorem name_registered {sect : Section} {key : EKeys} {path : String}
    (registered : keys.lookup EKeys.number sect key = .ok path) : name sect key = pure path := by
  rw [name, registered]

/-- All names of the settings are registered. -/
theorem names_registered :
    name sectionDaemon .logPath = pure (sectionDaemon.dotted "log_path") ∧
      name sectionDaemon .dbPath = pure (sectionDaemon.dotted "db_path") ∧
      name sectionGRPC .interface = pure (sectionGRPC.dotted "interface") ∧
      name sectionGRPC .port = pure (sectionGRPC.dotted "port") ∧
      name sectionIEX .iexUrl = pure (sectionIEX.dotted "url") ∧
      name sectionIEX .iexTocken = pure (sectionIEX.dotted "tocken") ∧
      name sectionIEX .iexUpdatePriceSecond = pure timeoutPath ∧
      name sectionIEX .iexUpdateSymbols = pure symbolsPath :=
  ⟨name_registered (by decide), name_registered (by decide), name_registered (by decide),
    name_registered (by decide), name_registered (by decide), name_registered (by decide),
    name_registered (by decide), name_registered (by decide)⟩

/-- The start keeps one setting after the other. -/
theorem init_eq : init = (do
    texts.forM keepText
    keepTimeout
    keepSymbols) := by
  simp only [init, getLogPath, getDBPath, getGRPCServerInterface, getGRPCServerPort, getIEXUrl,
    getIEXTocken, getIEXUpdateTimeout, getIEXUpdateSymbols, names_registered, pure_bind, texts, List.forM,
    keepText, keepTimeout, keepSymbols, Setting.path, bind_assoc]

theorem plain_text {setting : Setting} (member : setting ∈ texts) :
    '.' ∉ setting.sect.name.toList ∧ '.' ∉ setting.keyName.toList ∧ setting.keyName ≠ "" := by
  simp only [texts, List.mem_cons, List.not_mem_nil, or_false] at member
  rcases member with rfl | rfl | rfl | rfl | rfl | rfl
  all_goals
    simp only [sectionDaemon, sectionGRPC, sectionIEX]
    decide

/-- The whole path of the symbols is the name of no section. -/
theorem symbolsPath_ne {name : String} (plain : '.' ∉ name.toList) : symbolsPath ≠ name := by
  rintro rfl
  refine plain ?_
  rw [symbolsPath, Section.dotted, String.toList_append, String.toList_append, List.mem_append,
    List.mem_append]
  exact .inl (.inr (by decide))

/-- A call keeps the nodes of the tree, and the entry whose name is the whole path of the symbols. -/
structure Keeps (before after : Config) : Prop where
  within : before.root.Within after.root
  entry : after.root.find symbolsPath = before.root.find symbolsPath

theorem Keeps.trans {first second third : Config} (left : Keeps first second) (right : Keeps second third) :
    Keeps first third :=
  ⟨fun keys there => right.within keys (left.within keys there), right.entry.trans left.entry⟩

theorem keeps_put (config : Config) {first second : String} (value : String)
    (plain : '.' ∉ first.toList) (rest : '.' ∉ second.toList) (long : second ≠ "") :
    Keeps config (config.stored (config.root.put (first ++ "." ++ second) value)) := by
  refine ⟨within_put config.root value _, ?_⟩
  rw [stored, put_dotted config.root value plain rest long]
  exact find_descend_other config.root first symbolsPath _ (symbolsPath_ne plain)

/-- A setting that was written is there. -/
theorem put_there (root : PropertyTree) {first second : String} (value : String)
    (plain : '.' ∉ first.toList) (rest : '.' ∉ second.toList) (long : second ≠ "") :
    ((root.put (first ++ "." ++ second) value).getChild (first ++ "." ++ second)).map PropertyTree.data =
      some value := by
  rw [put_dotted root value plain rest long, getChild_dotted _ plain rest long, walk_putAt_self]
  rfl

/-- A text that is kept is the text that is read. -/
theorem keepText_stores {config after : Config} {setting : Setting} (free : config.mtx = false)
    (ends : (keepText setting).run config = .ok () after) :
    after = config.stored (config.root.put setting.path (config.root.get setting.path setting.defValue)) := by
  rw [keepText, Action.bind_ok (getString_run config _ _ free)] at ends
  exact (writeString_ends config _ _ free ends).2

theorem keepText_ends {config after : Config} {setting : Setting} (free : config.mtx = false)
    (member : setting ∈ texts) (ends : (keepText setting).run config = .ok () after) :
    after.mtx = false ∧ Keeps config after ∧ (after.root.getChild setting.path).isSome := by
  obtain ⟨plain, rest, long⟩ := plain_text member
  rw [keepText_stores free ends]
  refine ⟨free, keeps_put config _ plain rest long, ?_⟩
  rw [← Option.isSome_map (f := PropertyTree.data)]
  exact Option.isSome_of_eq_some (put_there config.root _ plain rest long)

theorem keepTexts_end {settings : List Setting} (subset : ∀ setting ∈ settings, setting ∈ texts)
    {config after : Config} (free : config.mtx = false)
    (ends : (settings.forM keepText).run config = .ok () after) :
    after.mtx = false ∧ Keeps config after ∧
      ∀ setting ∈ settings, (after.root.getChild setting.path).isSome := by
  induction settings generalizing config with
  | nil =>
      cases ends
      exact ⟨free, ⟨fun _ there => there, rfl⟩, fun _ member => absurd member List.not_mem_nil⟩
  | cons setting rest ih =>
      obtain ⟨_, middle, first, others⟩ := Action.ends_of_bind ends
      obtain ⟨unlocked, kept, there⟩ := keepText_ends free (subset setting (by simp)) first
      obtain ⟨closed, later, all⟩ := ih (fun setting member => subset setting (by simp [member]))
        unlocked others
      refine ⟨closed, kept.trans later, fun other member => ?_⟩
      rcases List.mem_cons.mp member with rfl | member
      · exact later.within _ there
      · exact all other member

theorem plain_iex : '.' ∉ sectionIEX.name.toList := by decide

theorem plain_timeout : '.' ∉ "update_price_timeout_sec".toList := by decide

/-- The timeout that is kept is the number that is read. -/
theorem keepTimeout_stores {config after : Config} (free : config.mtx = false)
    (ends : keepTimeout.run config = .ok () after) :
    ∃ value, Decimal.castInt (config.root.get timeoutPath (Decimal.castString updateTime)) = some value ∧
      after = config.stored (config.root.put timeoutPath (Decimal.castString value)) := by
  obtain ⟨value, middle, read, written⟩ := Action.ends_of_bind ends
  rw [getInt_run config _ free] at read
  split at read
  · rename_i number cast
    cases read
    exact ⟨value, cast, (writeString_ends config _ _ free written).2⟩
  · cases read

theorem keepTimeout_ends {config after : Config} (free : config.mtx = false)
    (ends : keepTimeout.run config = .ok () after) :
    after.mtx = false ∧ Keeps config after ∧ ∃ value, Decimal.isInt value = true ∧
      (after.root.getChild timeoutPath).map PropertyTree.data = some (Decimal.castString value) := by
  obtain ⟨value, cast, rfl⟩ := keepTimeout_stores free ends
  exact ⟨free, keeps_put config _ plain_iex plain_timeout (by decide), value, Decimal.isInt_of_castInt cast,
    put_there config.root _ plain_iex plain_timeout (by decide)⟩

/-- The whole path of the symbols is missing, so they are added at their place. -/
theorem withArray_symbols (values : List String) (root : PropertyTree) :
    withArray symbolsPath values root =
      if (root.find symbolsPath).isNone then
        PropertyTree.addChildAt (arrayTree values) [sectionIEX.name, "update_symbols"] root
      else root := by
  rw [withArray, symbolsPath, Section.dotted, addChild_dotted root _ plain_iex (by decide)]

theorem withArray_find (values : List String) (root : PropertyTree) :
    (withArray symbolsPath values root).find symbolsPath = root.find symbolsPath := by
  rw [withArray_symbols]
  split
  · exact find_descend_other root sectionIEX.name symbolsPath _ (symbolsPath_ne plain_iex)
  · rfl

theorem within_withArray (values : List String) (root : PropertyTree) :
    root.Within (withArray symbolsPath values root) := by
  rw [withArray_symbols]
  split
  · exact within_addChildAt (arrayTree values) _ root
  · exact fun _ there => there

theorem withArray_timeout (values : List String) (root : PropertyTree) :
    (withArray symbolsPath values root).getChild timeoutPath = root.getChild timeoutPath := by
  rw [withArray_symbols, timeoutPath, Section.dotted, getChild_dotted _ plain_iex plain_timeout (by decide),
    getChild_dotted _ plain_iex plain_timeout (by decide)]
  split
  · refine walk_addChildAt_other (arrayTree values) _ _ root ⟨?_, ?_⟩
    · decide
    · decide
  · rfl

/-- Every setting but the symbols is in the tree, and the tree is in the file. -/
structure Settled (config : Config) : Prop where
  free : config.mtx = false
  file : config.file = .holds config.root
  valid : Json.verify true config.root = true
  present : ∀ setting ∈ texts, (config.root.getChild setting.path).isSome
  timeout : ∃ value, Decimal.isInt value = true ∧
    (config.root.getChild timeoutPath).map PropertyTree.data = some (Decimal.castString value)

theorem Settled.timeout_there {config : Config} (settled : Settled config) :
    ∃ child, config.root.getChild timeoutPath = some child := by
  obtain ⟨value, _, read⟩ := settled.timeout
  obtain ⟨child, found, _⟩ := Option.map_eq_some_iff.mp read
  exact ⟨child, found⟩

/-- A start that returns settles the configuration. -/
theorem init_settles {config after : Config} (free : config.mtx = false)
    (ends : init.run config = .ok () after) :
    Settled after ∧ after.root.find symbolsPath = config.root.find symbolsPath := by
  rw [init_eq] at ends
  obtain ⟨_, first, ends, others⟩ := Action.ends_of_bind ends
  obtain ⟨freeFirst, keepsFirst, texts⟩ := keepTexts_end (fun _ member => member) free ends
  obtain ⟨_, second, ends, last⟩ := Action.ends_of_bind others
  obtain ⟨freeSecond, keepsSecond, value, small, read⟩ := keepTimeout_ends freeFirst ends
  obtain ⟨child, found, _⟩ := Option.map_eq_some_iff.mp read
  rw [keepSymbols, Action.bind_ok (getArray_run second _ _ freeSecond child found)] at last
  obtain ⟨valid, rfl⟩ := write_ends second _ _ freeSecond last
  refine ⟨⟨freeSecond, rfl, valid, fun setting member => ?_, value, small, ?_⟩, ?_⟩
  · exact within_withArray _ _ _ (keepsSecond.within _ (texts setting member))
  · rw [stored, withArray_timeout, read]
  · rw [stored, withArray_find, keepsSecond.entry, keepsFirst.entry]

theorem Settled.stored {config : Config} (settled : Settled config) :
    config.stored config.root = config := by
  rw [Config.stored, ← settled.file]

theorem Settled.keepText {config : Config} (settled : Settled config) (setting : Setting)
    (member : setting ∈ texts) : (keepText setting).run config = .ok () config := by
  have same := put_unchanged config.root setting.path setting.defValue
    (settled.present setting member)
  rw [Daemon.keepText, Action.bind_ok (getString_run config _ _ settled.free),
    writeString_run config _ _ settled.free, same, if_pos settled.valid, settled.stored]

theorem Settled.keepTimeout {config : Config} (settled : Settled config) :
    keepTimeout.run config = .ok () config := by
  obtain ⟨value, small, read⟩ := settled.timeout
  obtain ⟨child, found⟩ := settled.timeout_there
  have text : config.root.get timeoutPath (Decimal.castString updateTime) = Decimal.castString value := by
    rw [PropertyTree.get, read, Option.getD_some]
  have number : (getInt timeoutPath updateTime).run config = .ok value config := by
    rw [getInt_run config _ settled.free, text, Decimal.castInt_castString value small]
  have same := put_unchanged config.root timeoutPath (Decimal.castString updateTime)
    (Option.isSome_of_eq_some found)
  rw [text] at same
  rw [Daemon.keepTimeout, Action.bind_ok number, writeInt, writeString_run config _ _ settled.free, same,
    if_pos settled.valid, settled.stored]

theorem Settled.keepTexts {config : Config} (settled : Settled config) (settings : List Setting)
    (subset : ∀ setting ∈ settings, setting ∈ texts) :
    (settings.forM Daemon.keepText).run config = .ok () config := by
  induction settings with
  | nil => rfl
  | cons setting rest ih =>
      have first := settled.keepText setting (subset setting (by simp))
      change (Daemon.keepText setting >>= fun _ => rest.forM Daemon.keepText).run config = _
      rw [Action.bind_ok first, ih fun other member => subset other (by simp [member])]

/-- A start on a settled configuration writes nothing new but the symbols. -/
theorem Settled.init {config : Config} (settled : Settled config) {child : PropertyTree}
    (found : config.root.getChild timeoutPath = some child) :
    init.run config = (write symbolsPath (if (child.children.map (·.2.data)).isEmpty then updateSymbols
      else child.children.map (·.2.data))).run config := by
  have loop := settled.keepTexts texts fun _ member => member
  have symbols := getArray_run config timeoutPath updateSymbols settled.free child found
  rw [init_eq, Action.bind_ok loop, Action.bind_ok settled.keepTimeout, keepSymbols,
    Action.bind_ok symbols]

end Peakwork.Config.Daemon
