/-
This file follows the contents of the tables through a start.
-/

import Peakwork.Construction.Db.Restarts
import Peakwork.Library.Sql.Commits
import Peakwork.Proof.Db.Upgrade

namespace Peakwork.Db

open Sql

/-- What a table holds for its readers. -/
structure Content where
  columns : List Column
  references : List ForeignKey
  rows : List Row

def contentOf (table : Table) : Content := ⟨table.columns, table.references, table.rows⟩

abbrev Contents := String → Option Content

def contents (catalog : Catalog) : Contents := fun name => (catalog.find name).map contentOf

/-- Each transaction of a start makes, fills or drops one table. -/
inductive StartStep where
  | make (name : String) (table : Table)
  | storeVersion (dbVersion : Nat)
  | drop (name : String)

namespace Contents

variable (held : Contents)

def after : StartStep → Contents
  | .make name table => Function.update held name (some ((held name).getD (contentOf table)))
  | .storeVersion dbVersion =>
      Function.update held "db_version" (some (contentOf (DBVersion.freshTable dbVersion)))
  | .drop name => Function.update held name none

/-- The content of a version table with one row. -/
def versionContent (key : Int) (version : Nat) : Content :=
  ⟨DBVersion.columns, [], [[.integer key, .integer version]]⟩

/-- The version table has one row, with its key and its version; or it has none or is missing. -/
def HasVersion : Option (Int × Nat) → Prop
  | some (key, version) => held "db_version" = some (versionContent key version)
  | none => held "db_version" = none ∨ held "db_version" = some (contentOf DBVersion.emptyTable)

end Contents

/-- An empty version table has not been used before. -/
structure Represents (held : Contents) (catalog : Catalog) : Prop where
  same : contents catalog = held
  unused : ∀ table, catalog.find "db_version" = some table → table.rows = [] → table = DBVersion.emptyTable

open Contents

theorem contents_ensure (catalog : Catalog) (name : String) (table : Table) :
    contents (catalog.ensure name table) = (contents catalog).after (.make name table) := by
  funext other
  by_cases asked : other = name
  · subst asked
    simp only [contents, Contents.after, Catalog.find_ensure, if_true, Function.update_self]
    cases catalog.find other with
    | none => rfl
    | some found => rfl
  · simp [contents, Contents.after, Catalog.find_ensure, asked]

theorem contents_drop (catalog : Catalog) (name : String) :
    contents (catalog.drop name) = (contents catalog).after (.drop name) := by
  funext other
  by_cases asked : other = name
  · simp [contents, Contents.after, Catalog.find_drop, asked]
  · simp [contents, Contents.after, Catalog.find_drop, asked]

theorem contents_replace (catalog : Catalog) (dbVersion : Nat) (here : (catalog.find "db_version").isSome) :
    contents (catalog.replace "db_version" (DBVersion.freshTable dbVersion)) =
      (contents catalog).after (.storeVersion dbVersion) := by
  obtain ⟨table, found⟩ := Option.isSome_iff_exists.mp here
  funext other
  by_cases asked : other = "db_version"
  · simp [contents, Contents.after, Catalog.find_replace, asked, found]
  · simp [contents, Contents.after, Catalog.find_replace, asked]

variable {held : Contents} {catalog : Catalog}

theorem represents_make {name : String} {table : Table}
    (fresh : name = "db_version" → table = DBVersion.emptyTable) (here : Represents held catalog) :
    Represents (held.after (.make name table)) (catalog.ensure name table) where
  same := by rw [contents_ensure, here.same]
  unused := by
    intro other found empty
    rw [Catalog.find_ensure] at found
    cases before : catalog.find "db_version" with
    | some stored =>
        rw [before, Option.some_or] at found
        exact here.unused other (before.trans found) empty
    | none =>
        rw [before, Option.none_or] at found
        split at found
        · rename_i asked
          cases found
          exact fresh asked.symm
        · cases found

theorem represents_drop {name : String} (here : Represents held catalog) :
    Represents (held.after (.drop name)) (catalog.drop name) where
  same := by rw [contents_drop, here.same]
  unused := by
    intro other found empty
    rw [Catalog.find_drop] at found
    split at found
    · cases found
    · exact here.unused other found empty

theorem represents_storeVersion (dbVersion : Nat) (here : Represents held catalog)
    (present : (catalog.find "db_version").isSome) :
    Represents (held.after (.storeVersion dbVersion))
      (catalog.replace "db_version" (DBVersion.freshTable dbVersion)) where
  same := by rw [contents_replace catalog dbVersion present, here.same]
  unused := by
    intro other found empty
    rw [Catalog.find_replace, if_pos rfl] at found
    obtain ⟨table, before⟩ := Option.isSome_iff_exists.mp present
    rw [before] at found
    cases found
    cases empty

/-- The table of a content is found in every file that represents it. -/
theorem Represents.found {content : Content} {name : String} (here : Represents held catalog)
    (content_at : held name = some content) : ∃ table, catalog.find name = some table ∧ contentOf table = content := by
  rw [← here.same] at content_at
  exact Option.map_eq_some_iff.mp content_at

variable (engine : Engine) (dbVersion : Nat)

theorem drop_performs (table : ITable)
    (read : (statementTexts ("DROP TABLE IF EXISTS " ++ table.name)).map parse =
      [Statement.dropTable table.name].map .statement) :
    Performs Contents.after Represents (table.drop engine) [.drop table.name] held :=
  performs_step fun catalog log here => ⟨_, represents_drop here, drop_run engine catalog log table read⟩

namespace DBVersion

/-- The row is stored when there is none. -/
def createSteps : Option (Int × Nat) → List StartStep
  | some _ => [.make "db_version" emptyTable]
  | none => [.make "db_version" emptyTable, .storeVersion dbVersion]

theorem createCommand_performs :
    Performs Contents.after Represents (runTransaction engine createCommand)
      [.make "db_version" emptyTable] held :=
  performs_step fun catalog log here =>
    ⟨_, represents_make (fun _ => rfl) here, create_table_run engine catalog log⟩

theorem create_performs {row : Option (Int × Nat)} (has : held.HasVersion row) :
    Performs Contents.after Represents (create engine dbVersion) (createSteps dbVersion row) held := by
  cases row with
  | some pair =>
      have present : (held.after (.make "db_version" emptyTable)) "db_version" =
          some (versionContent pair.1 pair.2) := by
        rw [Contents.after, Function.update_self, has]
        rfl
      refine performs_bind (createCommand_performs engine) ?_
      have stored (catalog : Catalog) (here : Represents (held.after (.make "db_version" emptyTable)) catalog) :=
        here.found present
      refine performs_ask true (fun catalog log here => ?_) performs_pure
      obtain ⟨table, found, same⟩ := stored catalog here
      rw [show (⟨⟨catalog, false⟩, log⟩ : Connection) = session catalog log from rfl,
        isVersionPresent_run engine catalog log table found]
      have rows : table.rows = [[.integer pair.1, .integer pair.2]] := congrArg Content.rows same
      simp [rows]
  | none =>
      have empty : (held.after (.make "db_version" emptyTable)) "db_version" = some (contentOf emptyTable) := by
        rw [Contents.after, Function.update_self]
        rcases has with missing | unused
        · rw [missing]
          rfl
        · rw [unused]
          rfl
      refine performs_bind (createCommand_performs engine) ?_
      have unused (catalog : Catalog) (here : Represents (held.after (.make "db_version" emptyTable)) catalog) :
          catalog.find "db_version" = some emptyTable := by
        obtain ⟨table, found, same⟩ := here.found empty
        rw [found, here.unused table found (congrArg Content.rows same)]
      refine performs_ask false (fun catalog log here => ?_) ?_
      · rw [show (⟨⟨catalog, false⟩, log⟩ : Connection) = session catalog log from rfl,
          isVersionPresent_run engine catalog log emptyTable (unused catalog here)]
        rfl
      · refine performs_step fun catalog log here => ⟨_, represents_storeVersion dbVersion here ?_,
          insert_run engine catalog log dbVersion (unused catalog here)⟩
        rw [unused catalog here]
        rfl

end DBVersion

theorem Companies.create_performs :
    Performs Contents.after Represents (Companies.create engine) [.make "companies" emptyTable] held := by
  have different : "companies" ≠ "db_version" := by decide
  exact performs_step fun catalog log here =>
    ⟨_, represents_make (fun same => absurd same different) here, create_run engine catalog log⟩

theorem Prices.create_performs :
    Performs Contents.after Represents (Prices.create engine) [.make "prices" emptyTable] held := by
  have different : "prices" ≠ "db_version" := by decide
  exact performs_step fun catalog log here =>
    ⟨_, represents_make (fun same => absurd same different) here, create_run engine catalog log⟩

namespace DBManager

/-- The transactions that make what is missing. -/
def createSteps (row : Option (Int × Nat)) : List StartStep :=
  DBVersion.createSteps dbVersion row ++ [.make "companies" Companies.emptyTable, .make "prices" Prices.emptyTable]

def dropSteps : List StartStep := [.drop "db_version", .drop "companies", .drop "prices"]

/-- The version that a comparison will read, after the row has been made. -/
def readVersion (row : Option (Int × Nat)) : Nat := (row.elim dbVersion Prod.snd) % 2 ^ 32

/-- A start replaces all tables when it reads another version than its own. -/
def startSteps (row : Option (Int × Nat)) : List StartStep :=
  createSteps dbVersion row ++
    if readVersion dbVersion row = dbVersion then [] else dropSteps ++ createSteps dbVersion none

theorem createAndInitAllTables_performs {row : Option (Int × Nat)} (has : held.HasVersion row) :
    Performs Contents.after Represents (createAndInitAllTables engine dbVersion) (createSteps dbVersion row) held := by
  unfold createAndInitAllTables DBVersion.init Companies.init Prices.init
  simp only [pure_bind]
  refine performs_bind (DBVersion.create_performs engine dbVersion has) ?_
  exact performs_bind (Companies.create_performs engine)
    (performs_bind (Prices.create_performs engine) performs_pure)

theorem dropAllTables_performs :
    Performs Contents.after Represents (dropAllTables engine) dropSteps held := by
  unfold dropAllTables
  refine performs_bind (drop_performs engine DBVersion.table DBVersion.read_drop) ?_
  refine performs_bind (drop_performs engine Companies.table Companies.read_drop) ?_
  exact drop_performs engine Prices.table Prices.read_drop

theorem hasVersion_dropped : (dropSteps.foldl Contents.after held).HasVersion none := by
  left
  simp [dropSteps, Contents.after]

theorem dropAndCreateAllTables_performs :
    Performs Contents.after Represents (dropAndCreateAllTables engine dbVersion)
      (dropSteps ++ createSteps dbVersion none) held := by
  unfold dropAndCreateAllTables
  exact performs_bind (dropAllTables_performs engine)
    (createAndInitAllTables_performs engine dbVersion hasVersion_dropped)

theorem hasVersion_created {row : Option (Int × Nat)} (has : held.HasVersion row) :
    ((createSteps dbVersion row).foldl Contents.after held).HasVersion (some (row.getD (1, dbVersion))) := by
  cases row with
  | some pair =>
      have there : held "db_version" = some (versionContent pair.1 pair.2) := has
      simp [createSteps, DBVersion.createSteps, Contents.after, HasVersion, there]
  | none =>
      simp [createSteps, DBVersion.createSteps, Contents.after, HasVersion]
      rfl

theorem represents_holdsVersion {key : Int} {version : Nat} (has : held.HasVersion (some (key, version)))
    (here : Represents held catalog) : HoldsVersion catalog version := by
  obtain ⟨table, found, same⟩ := here.found has
  exact ⟨table, key, found, congrArg Content.columns same, congrArg Content.rows same⟩

/-- The version is read modulo the width of the result. -/
theorem getDBVersion_read {key : Int} {version : Nat} (has : held.HasVersion (some (key, version)))
    (catalog : Catalog) (log : List Catalog) (here : Represents held catalog) :
    (DBVersion.getDBVersion engine).run ⟨⟨catalog, false⟩, log⟩ =
      .ok (version % 2 ^ 32) ⟨⟨catalog, false⟩, log⟩ := by
  obtain ⟨table, found, same⟩ := here.found has
  have read := DBVersion.getDBVersion_run engine catalog log table key version found
    (congrArg Content.columns same) (congrArg Content.rows same)
  have small : Int.toNat ((version : Int) % 2 ^ 32) = version % 2 ^ 32 := by omega
  rw [small] at read
  exact read

/-- Every other version ends in the replacement of all tables: an older one by the handler. -/
theorem upgradeVersion_performs {key : Int} {version : Nat} (has : held.HasVersion (some (key, version))) :
    Performs Contents.after Represents (upgradeVersion engine dbVersion)
      (if version % 2 ^ 32 = dbVersion then [] else dropSteps ++ createSteps dbVersion none) held := by
  unfold upgradeVersion
  refine performs_ask true (fun catalog log here => isExist_run catalog log (represents_holdsVersion has here)) ?_
  rw [if_neg (not_not_intro rfl)]
  have asked := getDBVersion_read engine has
  rcases Nat.lt_trichotomy (version % 2 ^ 32) dbVersion with older | own | newer
  · rw [if_neg older.ne]
    refine performs_catch_error (.sqlite .syntaxError) (fun catalog log here => ?_)
      (dropAndCreateAllTables_performs engine dbVersion)
    rw [Action.bind_ok (asked catalog log here), if_neg (Nat.not_lt.mpr older.le), if_pos older]
    exact DBVersion.updateDBVersion_run engine catalog log dbVersion
  · rw [if_pos own]
    refine performs_catch_ok (performs_ask _ asked ?_)
    rw [own, if_neg (Nat.lt_irrefl dbVersion), if_neg (Nat.lt_irrefl dbVersion)]
    exact performs_pure
  · rw [if_neg newer.ne']
    refine performs_catch_ok (performs_ask _ asked ?_)
    rw [if_pos newer]
    exact dropAndCreateAllTables_performs engine dbVersion

theorem construct_performs {row : Option (Int × Nat)} (has : held.HasVersion row) :
    Performs Contents.after Represents (construct engine dbVersion) (startSteps dbVersion row) held := by
  unfold construct
  refine performs_bind (createAndInitAllTables_performs engine dbVersion has) ?_
  cases row with
  | some pair => exact upgradeVersion_performs engine dbVersion (hasVersion_created dbVersion has)
  | none => exact upgradeVersion_performs engine dbVersion (hasVersion_created dbVersion has)

/-- The contents after some transactions of a start. -/
def contentsAfter (held : Contents) (row : Option (Int × Nat)) (transactions : Nat) : Contents :=
  ((startSteps dbVersion row).take transactions).foldl Contents.after held

/-- The contents that a start leaves when it completes. -/
def contentsCompleted (held : Contents) (row : Option (Int × Nat)) : Contents :=
  (startSteps dbVersion row).foldl Contents.after held

section

variable {row : Option (Int × Nat)} (has : held.HasVersion row) (here : Represents held catalog)
include has here

/-- A start that completes represents all of its steps. -/
theorem completed_represents : ∃ after, completed engine dbVersion catalog = some after ∧
    Represents (contentsCompleted dbVersion held row) after := by
  obtain ⟨commits, final, trace, run⟩ := construct_performs engine dbVersion has catalog [] here
  refine ⟨final, ?_, trace.ends⟩
  unfold completed Connection.opened
  rw [run]

/-- A start that is killed represents its first steps. -/
theorem killed_represents {transactions : Nat} {left : Catalog}
    (kill : killed engine dbVersion catalog transactions = some left) :
    Represents (contentsAfter dbVersion held row transactions) left := by
  obtain ⟨commits, final, trace, run⟩ := construct_performs engine dbVersion has catalog [] here
  unfold killed states Connection.opened at kill
  rw [run] at kill
  simp only [List.append_nil, List.reverse_reverse] at kill
  exact trace.reached kill

end

end DBManager

end Peakwork.Db
