/-
This file says what each step of the start of the database does.
-/

import Peakwork.Proof.Db.Commands

namespace Peakwork.Db

open Sql

/-- No step of the daemon turns the enforcement of foreign keys on. -/
def session (catalog : Catalog) (log : List Catalog) : Connection := ⟨⟨catalog, false⟩, log⟩

@[simp] theorem session_catalog (catalog : Catalog) (log : List Catalog) :
    (session catalog log).database.catalog = catalog := rfl

theorem opened_eq_session (catalog : Catalog) : Connection.opened catalog = session catalog [] := rfl

variable (engine : Engine) (catalog : Catalog) (log : List Catalog)

/-- The rows of a table; a table that does not exist has none. -/
def rowsOf (name : String) : List Row := ((catalog.find name).map (·.rows)).getD []

namespace DBVersion

def emptyTable : Table := { columns := columns }

/-- The table after the first insertion. -/
def freshTable (version : Nat) : Table :=
  { columns := columns, rows := [[.integer 1, .integer version]], lastKey := 1 }

theorem create_table_run : (runTransaction engine createCommand).run (session catalog log) =
    .ok () (session (catalog.ensure "db_version" emptyTable)
      (catalog.ensure "db_version" emptyTable :: log)) := by
  apply transaction_ok ⟨catalog.ensure "db_version" emptyTable, false⟩
  rw [execAll_statements engine read_createCommand]
  rfl

theorem isVersionPresent_run (table : Table) (here : catalog.find "db_version" = some table) :
    (isVersionPresent engine).run (session catalog log) =
      .ok (table.rows ≠ []) (session catalog log) := by
  have result : engine.perform [] false (firstStatement (tokens versionPresentCommand))
      ⟨catalog, false⟩ =
      .ok ([[.integer (if table.rows.any (fun _ => true) then 1 else 0)]], ⟨catalog, false⟩) := by
    rw [engine.perform_statement read_versionPresent]
    simp only [Engine.execute, Catalog.require, here, Engine.keeps]
    rfl
  have asked := query_ok engine (session catalog log) result
  unfold isVersionPresent execAndGet
  simp only [bind_assoc]
  rw [Action.bind_ok asked]
  cases rows : table.rows <;> simp [cell, Engine.getInt, Engine.asInteger]

theorem insert_run (version : Nat) (here : catalog.find "db_version" = some emptyTable) :
    (runTransaction engine (insertCommand version)).run (session catalog log) =
      .ok () (session (catalog.replace "db_version" (freshTable version))
        (catalog.replace "db_version" (freshTable version) :: log)) := by
  apply transaction_ok ⟨catalog.replace "db_version" (freshTable version), false⟩
  have row : engine.madeRow [] emptyTable ["version"] [.number version] =
      [.integer 1, .integer version] := by
    have places : columns.map (givenIndex ["version"]) = [none, some 0] := by decide
    simp only [columns, List.map_cons, List.map_nil, List.cons.injEq, and_true] at places
    simp only [Engine.madeRow, emptyTable, columns, List.map_cons, List.map_nil, places,
      Engine.newValue, operandValue]
    simp [engine.coerce_integer]
  have inserted : engine.insert [] false emptyTable ["version"] [.number version] =
      .ok (freshTable version) := engine.insert_accepted rfl row rfl rfl
  rw [execAll_statements engine (read_insert version)]
  simp only [List.foldlM_cons, List.foldlM_nil, Engine.execute, session, Catalog.require, here]
  change Except.bind (Except.map Prod.snd (Except.bind
    (engine.insert [] false emptyTable ["version"] [.number version]) _)) _ = _
  rw [inserted]
  rfl

/-- The version is read from the only row. -/
theorem getDBVersion_run (table : Table) (key version : Int)
    (here : catalog.find "db_version" = some table) (schema : table.columns = columns)
    (single : table.rows = [[.integer key, .integer version]]) :
    (getDBVersion engine).run (session catalog log) =
      .ok (version % 2 ^ 32).toNat (session catalog log) := by
  have ordered : engine.order (.select "version" "db_version" none) table
      [[.integer key, .integer version]] = [[.integer key, .integer version]] :=
    List.perm_singleton.mp (engine.order_perm _ _ _)
  have place : table.require "version" = .ok 1 := by
    rw [Table.require, Table.position, schema]
    decide
  have result : engine.perform [] false (firstStatement (tokens getCommand)) ⟨catalog, false⟩ =
      .ok ([[.integer version]], ⟨catalog, false⟩) := by
    rw [engine.perform_statement read_get]
    simp only [Engine.execute, Catalog.require, here, Engine.keeps]
    change Except.bind (table.require "version") _ = _
    rw [place]
    simp [Except.bind, bind, pure, Except.pure, single, ordered, cell]
  have asked := query_ok engine (session catalog log) result
  unfold getDBVersion execAndGet
  simp only [bind_assoc]
  rw [Action.bind_ok asked]
  rfl

theorem parse_update (newVersion : Nat) :
    parse [.word "UPDATE", .word "db_versionSET", .word "version", .symbol '=', .number newVersion] =
      .malformed := by
  have refused : mayFollowUpdated (.word "version") = false := by decide
  have plain : sameName "db_versionSET" "OR" = false := by decide
  have legal : Token.illegal ∉
      [.word "UPDATE", .word "db_versionSET", .word "version", .symbol '=', .number newVersion] := by simp
  unfold parse
  rw [if_neg legal]
  exact if_neg (by simp [refused, plain])

/-- The update never happens: its text is refused. -/
theorem updateDBVersion_run (newVersion : Nat) :
    (updateDBVersion engine newVersion).run (session catalog log) =
      .error (.sqlite .syntaxError) (session catalog log) := by
  apply transaction_error
  exact execAll_malformed engine (read_update newVersion) (parse_update newVersion) true _

end DBVersion

/-- A command that drops one table leaves all others. -/
theorem drop_run (table : ITable) (read : (statementTexts ("DROP TABLE IF EXISTS " ++ table.name)).map parse =
      [Statement.dropTable table.name].map .statement) :
    (table.drop engine).run (session catalog log) =
      .ok () (session (catalog.drop table.name) (catalog.drop table.name :: log)) := by
  apply transaction_ok ⟨catalog.drop table.name, false⟩
  rw [execAll_statements engine read]
  simp only [List.foldlM_cons, List.foldlM_nil, Engine.execute, session]
  cases here : catalog.find table.name with
  | none =>
      rw [Catalog.drop_absent _ _ here]
      rfl
  | some dropped =>
      simp only [Database.guard_off]
      rfl

def Companies.emptyTable : Table := { columns := Companies.columns }

theorem Companies.create_run : (Companies.create engine).run (session catalog log) =
    .ok () (session (catalog.ensure "companies" emptyTable)
      (catalog.ensure "companies" emptyTable :: log)) := by
  unfold Companies.create runTransaction
  apply transaction_ok ⟨catalog.ensure "companies" emptyTable, false⟩
  rw [execAll_statements engine Companies.read_createCommand]
  rfl

def Prices.emptyTable : Table := { columns := Prices.columns, references := Prices.references }

/-- The pragma stands inside the transaction, so it has no effect. -/
theorem Prices.create_run : (Prices.create engine).run (session catalog log) =
    .ok () (session (catalog.ensure "prices" emptyTable)
      (catalog.ensure "prices" emptyTable :: log)) := by
  unfold Prices.create runTransaction
  apply transaction_ok ⟨catalog.ensure "prices" emptyTable, false⟩
  rw [execAll_statements engine Prices.read_createCommand]
  rfl

namespace DBManager

/-- The two data tables exist after the creation. -/
def withDataTables : Catalog :=
  Catalog.ensure (catalog.ensure "companies" Companies.emptyTable) "prices" Prices.emptyTable

/-- The three tables are gone after the drop. -/
def withoutTables : Catalog :=
  Catalog.drop (Catalog.drop (catalog.drop "db_version") "companies") "prices"

variable (dbVersion : Nat)

/-- The two creations commit one after the other. -/
def dataLog : List Catalog :=
  withDataTables catalog :: catalog.ensure "companies" Companies.emptyTable :: log

theorem createDataTables_run :
    (do Companies.create engine; Companies.init; Prices.create engine; Prices.init).run
      (session catalog log) = .ok () (session (withDataTables catalog) (dataLog catalog log)) := by
  unfold Companies.init Prices.init
  simp only [pure_bind]
  rw [Action.bind_ok (Companies.create_run engine _ _), Action.bind_ok (Prices.create_run engine _ _)]
  rfl

/-- The creation keeps a version table that has a row. -/
theorem createAndInitAllTables_kept (table : Table) (here : catalog.find "db_version" = some table)
    (rows : table.rows ≠ []) :
    (createAndInitAllTables engine dbVersion).run (session catalog log) =
      .ok () (session (withDataTables catalog) (dataLog catalog (catalog :: log))) := by
  have same := catalog.ensure_present "db_version" DBVersion.emptyTable (by simp [here])
  have created := DBVersion.create_table_run engine catalog log
  rw [same] at created
  have asked := DBVersion.isVersionPresent_run engine catalog (catalog :: log) table here
  simp only [rows, ne_eq, not_false_eq_true, decide_true] at asked
  have version : (DBVersion.create engine dbVersion).run (session catalog log) =
      .ok () (session catalog (catalog :: log)) := by
    unfold DBVersion.create
    rw [Action.bind_ok created, Action.bind_ok asked]
    rfl
  unfold createAndInitAllTables DBVersion.init
  rw [Action.bind_ok version]
  simp only [pure_bind]
  exact createDataTables_run engine catalog (catalog :: log)

/-- The catalog after the version has been written into a new table. -/
def withVersion : Catalog :=
  Catalog.replace (catalog ++ [("db_version", DBVersion.emptyTable)]) "db_version"
    (DBVersion.freshTable dbVersion)

/-- Without a version table the creation writes the version. -/
theorem createAndInitAllTables_fresh (absent : catalog.find "db_version" = none) :
    ∃ after, (createAndInitAllTables engine dbVersion).run (session catalog log) =
      .ok () (session (withDataTables (withVersion catalog dbVersion)) after) := by
  have made : catalog.ensure "db_version" DBVersion.emptyTable =
      catalog ++ [("db_version", DBVersion.emptyTable)] := by
    simp [Catalog.ensure, absent]
  have here : Catalog.find (catalog ++ [("db_version", DBVersion.emptyTable)]) "db_version" =
      some DBVersion.emptyTable := by
    simp [absent]
  have created := DBVersion.create_table_run engine catalog log
  rw [made] at created
  have asked := DBVersion.isVersionPresent_run engine _
    ((catalog ++ [("db_version", DBVersion.emptyTable)]) :: log) _ here
  have inserted := DBVersion.insert_run engine _
    ((catalog ++ [("db_version", DBVersion.emptyTable)]) :: log) dbVersion here
  have version : (DBVersion.create engine dbVersion).run (session catalog log) =
      .ok () (session (withVersion catalog dbVersion) (withVersion catalog dbVersion ::
        (catalog ++ [("db_version", DBVersion.emptyTable)]) :: log)) := by
    unfold DBVersion.create
    rw [Action.bind_ok created, Action.bind_ok asked]
    simp only [DBVersion.emptyTable, ne_eq, not_true_eq_false, decide_false, Bool.false_eq_true,
      not_false_eq_true, if_true]
    exact inserted
  unfold createAndInitAllTables DBVersion.init
  rw [Action.bind_ok version]
  simp only [pure_bind]
  exact ⟨_, createDataTables_run engine _ _⟩

theorem dropAllTables_run : ∃ after, (dropAllTables engine).run (session catalog log) =
    .ok () (session (withoutTables catalog) after) := by
  unfold dropAllTables
  rw [Action.bind_ok (drop_run engine _ _ _ DBVersion.read_drop),
    Action.bind_ok (drop_run engine _ _ _ Companies.read_drop)]
  exact ⟨_, drop_run engine _ _ _ Prices.read_drop⟩

theorem withoutTables_find (name : String) : (withoutTables catalog).find name =
    if name = "db_version" ∨ name = "companies" ∨ name = "prices" then none else catalog.find name := by
  simp only [withoutTables, Catalog.find_drop]
  grind

/-- The catalog after everything has been dropped and created again. -/
def recreated : Catalog := withDataTables (withVersion (withoutTables catalog) dbVersion)

theorem dropAndCreateAllTables_run :
    ∃ after, (dropAndCreateAllTables engine dbVersion).run (session catalog log) =
      .ok () (session (recreated catalog dbVersion) after) := by
  obtain ⟨dropped, run⟩ := dropAllTables_run engine catalog log
  unfold dropAndCreateAllTables
  rw [Action.bind_ok run]
  exact createAndInitAllTables_fresh engine _ _ dbVersion (by simp [withoutTables_find])

/-- A data table that exists keeps its rows, and a new one has none. -/
theorem rowsOf_withDataTables (name : String) : rowsOf (withDataTables catalog) name = rowsOf catalog name := by
  have none_rows (initial : Option Table) (target : String) (table : Table) (empty : table.rows = []) :
      ((initial.or (if name = target then some table else none)).map (·.rows)).getD [] =
        (initial.map (·.rows)).getD [] := by
    cases initial with
    | some found => rfl
    | none => by_cases asked : name = target <;> simp [asked, empty]
  unfold rowsOf withDataTables
  rw [Catalog.find_ensure, none_rows _ _ _ rfl, Catalog.find_ensure, none_rows _ _ _ rfl]

/-- Nothing of the data survives the new creation. -/
theorem rowsOf_recreated (name : String) (data : name = "companies" ∨ name = "prices") :
    rowsOf (recreated catalog dbVersion) name = [] := by
  have gone : (withoutTables catalog).find name = none := by
    rw [withoutTables_find]
    rcases data with rfl | rfl <;> rfl
  have different : name ≠ "db_version" := by
    rcases data with rfl | rfl <;> decide
  unfold recreated
  rw [rowsOf_withDataTables, rowsOf, withVersion, Catalog.find_replace, if_neg different,
    Catalog.find_create, gone, if_neg different]
  rfl

end DBManager

end Peakwork.Db
