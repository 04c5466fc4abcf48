/-
This file says that a start touches only its own settings and that it overrides none of them.
-/

import Peakwork.Library.Growth
import Peakwork.Proof.Config.Symbols

namespace Peakwork.Config.Daemon

open PropertyTree

/-- The registered names of a section. -/
def settingNames (sect : String) : List String := (keys.keys.filter (·.sect.name = sect)).map (·.keyName)

def sectionNames : List String := keys.keys.map (·.sect.name)

def settingPaths : List (List String) := keys.keys.map fun item => [item.sect.name, item.keyName]

/-- Only an entry that is a setting of the section may change. -/
def MayChange (sect name : String) (old new : PropertyTree) : Prop := name ∈ settingNames sect ∨ new = old

/-- A section keeps its text and all its entries but the settings. -/
def SectionKept (sect : String) : PropertyTree → PropertyTree → Prop :=
  Grows (MayChange sect) (· ∈ settingNames sect)

/-- Only an entry that is a section may change, and it is kept as a section. -/
def MayChangeSection (name : String) (old new : PropertyTree) : Prop :=
  if name ∈ sectionNames then SectionKept name old new else new = old

/-- The root keeps its text and all its entries but the sections. -/
def RootKept : PropertyTree → PropertyTree → Prop := Grows MayChangeSection (· ∈ sectionNames)

def textGetters : List (Call String) :=
  [getLogPath, getDBPath, getGRPCServerInterface, getGRPCServerPort, getIEXUrl, getIEXTocken]

section Kept

variable {sect name : String} {before middle after : PropertyTree}

theorem sectionKept_refl (sect : String) (tree : PropertyTree) : SectionKept sect tree tree :=
  .refl (fun _ _ => .inr rfl) tree

theorem SectionKept.trans (first : SectionKept sect before middle) (second : SectionKept sect middle after) :
    SectionKept sect before after := by
  apply Grows.trans _ first second
  intro name old middle new left right
  rcases left with touched | rfl
  · exact .inl touched
  · exact right

theorem mayChangeSection_refl (name : String) (tree : PropertyTree) : MayChangeSection name tree tree := by
  unfold MayChangeSection
  split
  · exact sectionKept_refl name tree
  · rfl

theorem rootKept_refl (tree : PropertyTree) : RootKept tree tree := .refl mayChangeSection_refl tree

theorem RootKept.trans (first : RootKept before middle) (second : RootKept middle after) :
    RootKept before after := by
  apply Grows.trans _ first second
  intro name old middle new left right
  unfold MayChangeSection at left right ⊢
  split_ifs at left right ⊢
  · exact left.trans right
  · exact right.trans left

theorem mem_settingNames : name ∈ settingNames sect ↔ [sect, name] ∈ settingPaths := by
  simp only [settingNames, settingPaths, List.mem_map, List.mem_filter, decide_eq_true_eq, List.cons.injEq,
    and_true, and_assoc]

theorem mem_sectionNames : sect ∈ sectionNames ↔ ∃ name, name ∈ settingNames sect := by
  simp only [mem_settingNames, sectionNames, settingPaths, List.mem_map, List.cons.injEq, and_true]
  constructor
  · rintro ⟨item, member, rfl⟩
    exact ⟨item.keyName, item, member, rfl, rfl⟩
  · rintro ⟨name, item, member, rfl, _⟩
    exact ⟨item, member, rfl⟩

theorem rootKept_descend {inner : PropertyTree → PropertyTree} (registered : [sect, name] ∈ settingPaths)
    (kept : ∀ old, SectionKept sect old (inner old)) (tree : PropertyTree) :
    RootKept tree (tree.descend sect inner) := by
  have member : sect ∈ sectionNames := mem_sectionNames.mpr ⟨name, mem_settingNames.mpr registered⟩
  apply grows_descend mayChangeSection_refl member
  intro old
  rw [MayChangeSection, if_pos member]
  exact kept old

/-- A text that is written at a setting changes no other entry. -/
theorem rootKept_putAt (registered : [sect, name] ∈ settingPaths) (value : String) (tree : PropertyTree) :
    RootKept tree (putAt value [sect, name] tree) := by
  have setting := mem_settingNames.mpr registered
  apply rootKept_descend registered
  intro old
  exact grows_descend (fun _ _ => .inr rfl) setting fun _ => .inl setting

theorem rootKept_addChildAt (registered : [sect, name] ∈ settingPaths) (child tree : PropertyTree) :
    RootKept tree (addChildAt child [sect, name] tree) := by
  have setting := mem_settingNames.mpr registered
  apply rootKept_descend registered
  intro old
  exact grows_pushBack (fun _ _ => .inr rfl) ⟨setting, .inl setting⟩

/-- A path that leads to no setting and through none has the same nodes, in the same order. -/
theorem RootKept.nodesAt (kept : RootKept before after) {path : List String}
    (away : ∀ keys ∈ settingPaths, Apart keys path) : nodesAt path after = nodesAt path before := by
  cases path with
  | nil => exact absurd List.nil_prefix (away [sectionDaemon.name, "log_path"] (by decide)).2
  | cons sect rest =>
      by_cases inside : sect ∈ sectionNames
      · obtain ⟨setting, registered⟩ := mem_sectionNames.mp inside
        cases rest with
        | nil =>
            have above : [sect] <+: [sect, setting] := List.prefix_append [sect] [setting]
            exact absurd above (away _ (mem_settingNames.mp registered)).2
        | cons name below =>
            have other : name ∉ settingNames sect := by
              intro member
              exact (away _ (mem_settingNames.mp member)).1 (List.prefix_append [sect, name] below)
            apply Grows.nodesAt kept
            · intro old new changed
              rw [MayChangeSection, if_pos inside] at changed
              apply Grows.nodesAt changed
              · intro old new same
                rw [same.resolve_left other]
              · exact fun added => absurd added other
            · exact fun _ => List.cons_ne_nil name below
      · apply Grows.nodesAt kept
        · intro old new changed
          rw [MayChangeSection, if_neg inside] at changed
          rw [changed]
        · exact fun added => absurd added inside

end Kept

section Values

/-- The timeout is read as a text first. -/
def timeoutSetting : Setting := ⟨sectionIEX, "update_price_timeout_sec", Decimal.castString updateTime⟩

def Setting.keys (setting : Setting) : List String := [setting.sect.name, setting.keyName]

/-- Each text, and the number of the timeout, is read as before. -/
structure ReadsSame (before after : PropertyTree) : Prop where
  texts : ∀ setting ∈ texts, after.get setting.path setting.defValue = before.get setting.path setting.defValue
  timeout : Decimal.castInt (after.get timeoutPath (Decimal.castString updateTime)) =
    Decimal.castInt (before.get timeoutPath (Decimal.castString updateTime))

variable {setting other : Setting} {root middle after : PropertyTree} {value : String}

theorem plain_scalar (member : setting ∈ timeoutSetting :: texts) :
    '.' ∉ setting.sect.name.toList ∧ '.' ∉ setting.keyName.toList ∧ setting.keyName ≠ "" := by
  rcases List.mem_cons.mp member with rfl | text
  · exact ⟨plain_iex, plain_timeout, by decide⟩
  · exact plain_text text

theorem registered_scalar (member : setting ∈ timeoutSetting :: texts) : setting.keys ∈ settingPaths := by
  have all : (timeoutSetting :: texts).map Setting.keys ⊆ settingPaths := by decide
  exact all (List.mem_map_of_mem member)

/-- Two settings at one path are the same one. -/
theorem eq_of_keys (member : setting ∈ timeoutSetting :: texts) (also : other ∈ timeoutSetting :: texts)
    (same : setting.keys = other.keys) : setting = other :=
  List.inj_on_of_nodup_map (by decide) member also same

/-- Two different paths of settings lie apart, since they have the same length. -/
theorem apart_of_ne {keys others : List String} (member : keys ∈ settingPaths) (also : others ∈ settingPaths)
    (different : keys ≠ others) : Apart keys others := by
  obtain ⟨first, _, rfl⟩ := List.mem_map.mp member
  obtain ⟨second, _, rfl⟩ := List.mem_map.mp also
  exact ⟨fun before => different (before.eq_of_length rfl), fun before => different (before.eq_of_length rfl).symm⟩

theorem get_eq (member : setting ∈ timeoutSetting :: texts) (root : PropertyTree) :
    root.get setting.path setting.defValue = ((root.walk setting.keys).map data).getD setting.defValue := by
  obtain ⟨plain, rest, long⟩ := plain_scalar member
  rw [PropertyTree.get, Setting.path, Section.dotted, getChild_dotted root plain rest long]
  rfl

theorem get_put_self (member : setting ∈ timeoutSetting :: texts) :
    (root.put setting.path value).get setting.path setting.defValue = value := by
  obtain ⟨plain, rest, long⟩ := plain_scalar member
  have there := put_there root value plain rest long
  rw [PropertyTree.get, Setting.path, Section.dotted, there, Option.getD_some]

theorem get_put_other (member : setting ∈ timeoutSetting :: texts) (also : other ∈ timeoutSetting :: texts)
    (different : setting.keys ≠ other.keys) :
    (root.put setting.path value).get other.path other.defValue = root.get other.path other.defValue := by
  obtain ⟨plain, rest, long⟩ := plain_scalar member
  have apart := apart_of_ne (registered_scalar member) (registered_scalar also) different
  have kept := walk_putAt_other value setting.keys other.keys root apart.2
  rw [get_eq also, get_eq also, ← kept, Setting.path, Section.dotted, put_dotted root value plain rest long]
  rfl

theorem timeout_ne_text (member : setting ∈ texts) : setting.keys ≠ timeoutSetting.keys := by
  have all : ∀ keys ∈ texts.map Setting.keys, keys ≠ timeoutSetting.keys := by decide
  exact all _ (List.mem_map_of_mem member)

theorem ReadsSame.trans (first : ReadsSame root middle) (second : ReadsSame middle after) : ReadsSame root after :=
  ⟨fun setting member => (second.texts setting member).trans (first.texts setting member),
    second.timeout.trans first.timeout⟩

/-- A text that is written back as it was read changes what no getter reads. -/
theorem readsSame_keepText (member : setting ∈ texts) (root : PropertyTree) :
    ReadsSame root (root.put setting.path (root.get setting.path setting.defValue)) := by
  have inside := List.mem_cons_of_mem timeoutSetting member
  constructor
  · intro other text
    have also := List.mem_cons_of_mem timeoutSetting text
    by_cases same : setting.keys = other.keys
    · rw [← eq_of_keys inside also same]
      exact get_put_self inside
    · exact get_put_other inside also same
  · have kept := @get_put_other setting timeoutSetting root (root.get setting.path setting.defValue) inside
      List.mem_cons_self (timeout_ne_text member)
    exact congrArg Decimal.castInt kept

/-- The number that was read is written as another text perhaps, and it is read again. -/
theorem readsSame_keepTimeout {number : Int}
    (cast : Decimal.castInt (root.get timeoutPath (Decimal.castString updateTime)) = some number) :
    ReadsSame root (root.put timeoutPath (Decimal.castString number)) := by
  have inside : timeoutSetting ∈ timeoutSetting :: texts := List.mem_cons_self
  constructor
  · intro other text
    exact @get_put_other timeoutSetting other root (Decimal.castString number) inside
      (List.mem_cons_of_mem timeoutSetting text) (timeout_ne_text text).symm
  · have written : (root.put timeoutPath (Decimal.castString number)).get timeoutPath
        (Decimal.castString updateTime) = Decimal.castString number :=
      @get_put_self timeoutSetting root (Decimal.castString number) inside
    rw [written, cast, Decimal.castInt_castString number (Decimal.isInt_of_castInt cast)]

theorem readsSame_symbols (values : List String) (root : PropertyTree) :
    ReadsSame root (withArray symbolsPath values root) := by
  have walks (setting : Setting) (member : setting ∈ timeoutSetting :: texts) :
      (withArray symbolsPath values root).get setting.path setting.defValue =
        root.get setting.path setting.defValue := by
    have different : [sectionIEX.name, "update_symbols"] ≠ setting.keys := by
      have all : ∀ keys ∈ (timeoutSetting :: texts).map Setting.keys, [sectionIEX.name, "update_symbols"] ≠ keys := by
        decide
      exact all _ (List.mem_map_of_mem member)
    have apart := apart_of_ne (by decide) (registered_scalar member) different
    rw [get_eq member, get_eq member, withArray_symbols]
    split
    · rw [walk_addChildAt_other (arrayTree values) _ _ root apart]
    · rfl
  exact ⟨fun setting text => walks setting (List.mem_cons_of_mem _ text),
    congrArg Decimal.castInt (walks timeoutSetting List.mem_cons_self)⟩

end Values

/-- A start that returns has not waited for the mutex. -/
theorem free_of_init {config after : Config} (ends : init.run config = .ok () after) : config.mtx = false := by
  by_contra taken
  rw [Bool.not_eq_false] at taken
  rw [init_eq] at ends
  obtain ⟨_, middle, loop, _⟩ := Action.ends_of_bind ends
  obtain ⟨_, _, first, _⟩ := Action.ends_of_bind loop
  obtain ⟨_, _, read, _⟩ := Action.ends_of_bind first
  rw [getString, locked_taken taken] at read
  cases read

theorem keepTexts_keep {settings : List Setting} (subset : ∀ setting ∈ settings, setting ∈ texts)
    {config after : Config} (free : config.mtx = false) (ends : (settings.forM keepText).run config = .ok () after) :
    after.mtx = false ∧ RootKept config.root after.root ∧ ReadsSame config.root after.root := by
  induction settings generalizing config with
  | nil =>
      cases ends
      exact ⟨free, rootKept_refl _, ⟨fun _ _ => rfl, rfl⟩⟩
  | cons setting rest ih =>
      have member := subset setting List.mem_cons_self
      obtain ⟨_, middle, first, others⟩ := Action.ends_of_bind ends
      have stores := keepText_stores free first
      obtain ⟨plain, below, long⟩ := plain_text member
      have kept : RootKept config.root middle.root := by
        rw [stores]
        show RootKept config.root (config.root.put (setting.sect.name ++ "." ++ setting.keyName) _)
        rw [put_dotted config.root _ plain below long]
        exact rootKept_putAt (registered_scalar (List.mem_cons_of_mem _ member)) _ _
      have same : ReadsSame config.root middle.root := by
        rw [stores]
        exact readsSame_keepText member config.root
      have unlocked : middle.mtx = false := by
        rw [stores]
        exact free
      obtain ⟨closed, later, again⟩ :=
        ih (fun other inside => subset other (List.mem_cons_of_mem _ inside)) unlocked others
      exact ⟨closed, kept.trans later, same.trans again⟩

/-- A start keeps everything but the settings, and what their getters read. -/
theorem init_keeps {config after : Config} (ends : init.run config = .ok () after) :
    after.mtx = false ∧ RootKept config.root after.root ∧ ReadsSame config.root after.root := by
  have free := free_of_init ends
  rw [init_eq] at ends
  obtain ⟨_, first, loop, others⟩ := Action.ends_of_bind ends
  obtain ⟨freeFirst, keptFirst, sameFirst⟩ := keepTexts_keep (fun _ member => member) free loop
  obtain ⟨_, second, timeout, last⟩ := Action.ends_of_bind others
  obtain ⟨value, cast, stores⟩ := keepTimeout_stores freeFirst timeout
  have freeSecond : second.mtx = false := by
    rw [stores]
    exact freeFirst
  have keptSecond : RootKept first.root second.root := by
    rw [stores]
    show RootKept first.root (first.root.put (sectionIEX.name ++ "." ++ "update_price_timeout_sec") _)
    rw [put_dotted first.root _ plain_iex plain_timeout (by decide)]
    exact rootKept_putAt (by decide) _ _
  have sameSecond : ReadsSame first.root second.root := by
    rw [stores]
    exact readsSame_keepTimeout cast
  obtain ⟨values, third, read, written⟩ := Action.ends_of_bind last
  have unchanged : third = second := by
    have there := put_there first.root (Decimal.castString value) plain_iex plain_timeout (by decide)
    obtain ⟨child, found, _⟩ := Option.map_eq_some_iff.mp there
    have present : second.root.getChild timeoutPath = some child := by
      rw [stores]
      exact found
    rw [getArray_run second _ _ freeSecond child present] at read
    cases read
    rfl
  rw [unchanged] at written
  obtain ⟨_, rfl⟩ := write_ends second _ _ freeSecond written
  refine ⟨freeSecond, (keptFirst.trans keptSecond).trans ?_, (sameFirst.trans sameSecond).trans ?_⟩
  · show RootKept second.root (withArray symbolsPath values second.root)
    rw [withArray_symbols]
    split
    · exact rootKept_addChildAt (by decide) _ _
    · exact rootKept_refl _
  · exact readsSame_symbols values second.root

/-- The getters of the texts read the settings of the texts. -/
theorem textGetters_eq : textGetters = texts.map fun setting => getString setting.path setting.defValue := by
  simp only [textGetters, getLogPath, getDBPath, getGRPCServerInterface, getGRPCServerPort, getIEXUrl,
    getIEXTocken, names_registered, pure_bind, texts, List.map_cons, List.map_nil, Setting.path]

theorem timeout_run {config : Config} (free : config.mtx = false) {value : Int}
    (cast : Decimal.castInt (config.root.get timeoutPath (Decimal.castString updateTime)) = some value) :
    getIEXUpdateTimeout.run config = .ok value config := by
  have read := getInt_run config timeoutPath free updateTime
  rw [cast] at read
  simp only [getIEXUpdateTimeout, names_registered, pure_bind, read]

/-- A start that returns has read a number. -/
theorem timeout_of_init {config after : Config} (ends : init.run config = .ok () after) :
    ∃ value, Decimal.castInt (config.root.get timeoutPath (Decimal.castString updateTime)) = some value := by
  have free := free_of_init ends
  rw [init_eq] at ends
  obtain ⟨_, first, loop, others⟩ := Action.ends_of_bind ends
  obtain ⟨freeFirst, _, same⟩ := keepTexts_keep (fun _ member => member) free loop
  obtain ⟨_, second, timeout, _⟩ := Action.ends_of_bind others
  obtain ⟨value, cast, _⟩ := keepTimeout_stores freeFirst timeout
  exact ⟨value, same.timeout.symm.trans cast⟩

/-- A start that returns keeps every other entry at its place, and each getter returns what it returned before. -/
theorem start_touches_settings {config after : Config} (ends : init.run config = .ok () after) :
    RootKept config.root after.root ∧
      (∀ path, (∀ keys ∈ settingPaths, Apart keys path) → nodesAt path after.root = nodesAt path config.root) ∧
      (∀ getter ∈ textGetters, ∃ value, getter.run config = .ok value config ∧ getter.run after = .ok value after) ∧
      ∃ value, getIEXUpdateTimeout.run config = .ok value config ∧
        getIEXUpdateTimeout.run after = .ok value after := by
  have free := free_of_init ends
  obtain ⟨closed, kept, same⟩ := init_keeps ends
  refine ⟨kept, fun path away => kept.nodesAt away, fun getter member => ?_, ?_⟩
  · rw [textGetters_eq] at member
    obtain ⟨setting, text, rfl⟩ := List.mem_map.mp member
    refine ⟨_, getString_run config _ _ free, ?_⟩
    rw [getString_run after _ _ closed, same.texts setting text]
  · obtain ⟨value, cast⟩ := timeout_of_init ends
    exact ⟨value, timeout_run free cast, timeout_run closed (same.timeout.trans cast)⟩

/-- The user of this file has an entry of his own and two sections of one name. -/
def annotated : PropertyTree := .node "" (("comment", .leaf "mine") :: chosen.children ++
  [("daemon", .node "" [("log_path", .leaf "/tmp/log.txt")])])

theorem start_touches_settings_example : ∃ after, init.run (opened (.holds annotated)) = .ok () after ∧
    RootKept annotated after.root ∧
      (∀ path, (∀ keys ∈ settingPaths, Apart keys path) → nodesAt path after.root = nodesAt path annotated) ∧
      (∀ getter ∈ textGetters, ∃ value, getter.run (opened (.holds annotated)) =
        .ok value (opened (.holds annotated)) ∧ getter.run after = .ok value after) ∧
      ∃ value, getIEXUpdateTimeout.run (opened (.holds annotated)) = .ok value (opened (.holds annotated)) ∧
        getIEXUpdateTimeout.run after = .ok value after := by
  have settled : Settled (opened (.holds annotated)) :=
    settled_opened (by decide) (by decide) 3 (by decide) (by decide)
  obtain ⟨after, ends⟩ := settled.starts
  exact ⟨after, ends, start_touches_settings ends⟩

end Peakwork.Config.Daemon
