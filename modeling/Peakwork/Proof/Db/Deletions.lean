/-
This file decides which deletions remove exactly the rows that they name.
-/

import Peakwork.Proof.Db.Lookup

namespace Peakwork.Db

open Sql

variable (engine : Engine)

inductive DataTable where
  | companies
  | prices
  deriving DecidableEq, Repr

def DataTable.name : DataTable → String
  | .companies => Companies.table.name
  | .prices => Prices.table.name

inductive Deletion where
  | removeAll (table : DataTable)
  | byRowID (id : Int)
  | byCompanyRowID (companyRowId : Int)
  deriving DecidableEq, Repr

namespace Deletion

/-- `RemoveAll` is the same for every table. -/
def action : Deletion → Action Unit
  | .removeAll _ => ITable.removeAll
  | .byRowID id => Companies.removeByRowID engine id
  | .byCompanyRowID companyRowId => Prices.removeAllByCompanyRowID engine companyRowId

/-- The rows of a table that the deletion is about. -/
def names (deletion : Deletion) (table : String) (row : Row) : Bool :=
  match deletion with
  | .removeAll emptied => table = emptied.name
  | .byRowID id => table = "companies" ∧ fieldOf Companies.columns "id" row = .integer id
  | .byCompanyRowID companyRowId =>
      table = "prices" ∧ fieldOf Prices.columns "company_rowid" row = .integer companyRowId

end Deletion

/-- In all three tables the other rows stay, and a second deletion changes nothing. -/
structure RemovesExactly (deletion : Deletion) (connection after : Connection) : Prop where
  returns : (deletion.action engine).run connection = .ok () after
  rows : ∀ table ∈ ["companies", "prices", "db_version"], rowsOf after.database.catalog table =
    (rowsOf connection.database.catalog table).filter fun row => ¬ deletion.names table row
  again : ∃ last, (deletion.action engine).run after = .ok () last ∧ last.database = after.database

/-- A deletion that names its rows is executed; the other one has nothing to do. -/
def Deletion.Executed (connection : Connection) : Deletion → Prop
  | .removeAll table => rowsOf connection.database.catalog table.name = []
  | _ => True

namespace Store

variable (store : Store) (log : List Catalog)

theorem filter_companies (id : Int) : (store.companies.rows.map Company.row).filter
    (fun row => ¬ Deletion.names (.byRowID id) "companies" row) =
      ((store.companies.remove id).rows).map Company.row := by
  rw [List.filter_map]
  apply congrArg (List.map Company.row)
  apply List.filter_congr
  intro company _
  simp [Deletion.names, fieldOf_id]

theorem filter_prices (companyRowId : Int) : (store.prices.rows.map Price.row).filter
    (fun row => ¬ Deletion.names (.byCompanyRowID companyRowId) "prices" row) =
      ((store.prices.removeAll companyRowId).rows).map Price.row := by
  rw [List.filter_map]
  apply congrArg (List.map Price.row)
  apply List.filter_congr
  intro price _
  simp [Deletion.names, fieldOf_companyRowId]

/-- Where no row is named, all rows stay. -/
theorem filter_unnamed {deletion : Deletion} {table : String} (rows : List Row)
    (unnamed : ∀ row, deletion.names table row = false) :
    rows.filter (fun row => ¬ deletion.names table row) = rows := by
  apply List.filter_eq_self.mpr
  intro row _
  simp [unnamed row]

theorem remove_remove (companies : CompanyTable) (id : Int) :
    ((companies.remove id).remove id).table = (companies.remove id).table := by
  simp [CompanyTable.remove, CompanyTable.table, List.filter_filter]

theorem removeAll_removeAll (prices : PriceTable) (companyRowId : Int) :
    ((prices.removeAll companyRowId).removeAll companyRowId).table = (prices.removeAll companyRowId).table := by
  simp [PriceTable.removeAll, PriceTable.table, List.filter_filter]

/-- A company is removed alone. -/
theorem byRowID_exact (id : Int) :
    ∃ after, RemovesExactly engine (.byRowID id) (session store.catalog log) after := by
  obtain ⟨after, first⟩ := Companies.removeByRowID_run engine store log id
  obtain ⟨last, second⟩ := Companies.removeByRowID_run engine
    (store.withCompanies (store.companies.remove id)) after id
  refine ⟨_, first, ?_, _, second, ?_⟩
  · simp only [List.forall_mem_cons, List.not_mem_nil, false_implies, implies_true, and_true]
    refine ⟨(store.filter_companies id).symm, ?_, ?_⟩
    · exact (filter_unnamed _ fun row => by simp [Deletion.names]).symm
    · exact (filter_unnamed _ fun row => by simp [Deletion.names]).symm
  · have same := remove_remove store.companies id
    simp only [session, Store.catalog, Store.withCompanies]
    rw [same]

/-- The prices of one company are removed alone. -/
theorem byCompanyRowID_exact (companyRowId : Int) :
    ∃ after, RemovesExactly engine (.byCompanyRowID companyRowId) (session store.catalog log) after := by
  obtain ⟨after, first⟩ := Prices.removeAllByCompanyRowID_run engine store log companyRowId
  obtain ⟨last, second⟩ := Prices.removeAllByCompanyRowID_run engine
    (store.withPrices (store.prices.removeAll companyRowId)) after companyRowId
  refine ⟨_, first, ?_, _, second, ?_⟩
  · simp only [List.forall_mem_cons, List.not_mem_nil, false_implies, implies_true, and_true]
    refine ⟨?_, (store.filter_prices companyRowId).symm, ?_⟩
    · exact (filter_unnamed _ fun row => by simp [Deletion.names]).symm
    · exact (filter_unnamed _ fun row => by simp [Deletion.names]).symm
  · have same := removeAll_removeAll store.prices companyRowId
    simp only [session, Store.catalog, Store.withPrices]
    rw [same]

/-- The command for all rows is never executed, so it is right only where there are none. -/
theorem removeAll_exact_iff (table : DataTable) :
    (∃ after, RemovesExactly engine (.removeAll table) (session store.catalog log) after) ↔
      rowsOf store.catalog table.name = [] := by
  constructor
  · rintro ⟨after, returns, rows, _⟩
    cases returns
    have own := rows table.name (by cases table <;> decide)
    rw [session_catalog] at own
    rw [own]
    apply List.filter_eq_nil_iff.mpr
    intro row _
    simp [Deletion.names]
  · intro nothing
    refine ⟨_, rfl, fun name _ => ?_, _, rfl, rfl⟩
    rw [session_catalog]
    by_cases same : name = table.name
    · rw [same, nothing]
      rfl
    · exact (filter_unnamed _ fun row => by simp [Deletion.names, same]).symm

theorem removesExactly_iff (deletion : Deletion) :
    (∃ after, RemovesExactly engine deletion (session store.catalog log) after) ↔
      deletion.Executed (session store.catalog log) := by
  cases deletion with
  | removeAll table => exact store.removeAll_exact_iff engine log table
  | byRowID id => exact ⟨fun _ => trivial, fun _ => store.byRowID_exact engine log id⟩
  | byCompanyRowID companyRowId =>
      exact ⟨fun _ => trivial, fun _ => store.byCompanyRowID_exact engine log companyRowId⟩

end Store

/-- In every reachable state a deletion removes exactly what it names, unless it is one of all rows of a table
that has some. -/
theorem removesExactly_run_iff (version : Nat) (attempts : List Attempt) (created : Connection)
    (made : (DBManager.createAndInitAllTables engine version).run (Connection.opened []) = .ok () created)
    (deletion : Deletion) :
    (∃ after, RemovesExactly engine deletion (play (attempt engine) created attempts) after) ↔
      deletion.Executed (play (attempt engine) created attempts) := by
  obtain ⟨store, log, reached⟩ := play_holdsStore engine version attempts created made
  rw [reached]
  exact store.removesExactly_iff engine log deletion

theorem removesExactly_run_iff_example : ∃ created,
    ((∃ after, RemovesExactly Engine.plain (.removeAll .companies)
      (play (attempt Engine.plain) created [⟨.addCompany "AAPL" "Apple Inc." "", false⟩]) after) ↔
      Deletion.Executed (play (attempt Engine.plain) created [⟨.addCompany "AAPL" "Apple Inc." "", false⟩])
        (.removeAll .companies)) := by
  obtain ⟨log, made⟩ := createAndInitAllTables_empty Engine.plain 1
  exact ⟨_, removesExactly_run_iff Engine.plain 1 _ _ made _⟩

/-- A company is still there after all companies have been removed. -/
theorem removeAll_keeps : ¬ ∀ (engine : Engine) (version : Nat) (attempts : List Attempt) (created : Connection),
    (DBManager.createAndInitAllTables engine version).run (Connection.opened []) = .ok () created →
    ∀ deletion, ∃ after, RemovesExactly engine deletion (play (attempt engine) created attempts) after := by
  intro claimed
  obtain ⟨log, made⟩ := createAndInitAllTables_empty Engine.plain 1
  have emptied := claimed Engine.plain 1 [⟨.addCompany "AAPL" "Apple Inc." "", false⟩] _ made (.removeAll .companies)
  obtain ⟨after, run⟩ := attempt_store Engine.plain (Store.empty 1) log ⟨.addCompany "AAPL" "Apple Inc." "", false⟩
  rw [play, List.foldl_cons, List.foldl_nil, run] at emptied
  have nothing := (Store.removeAll_exact_iff Engine.plain _ after .companies).mp emptied
  exact absurd nothing (by decide)

end Peakwork.Db
