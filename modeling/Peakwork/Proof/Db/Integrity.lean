/-
This file decides when the prices keep referring to companies that exist.
-/

import Peakwork.Proof.Db.Calls

namespace Peakwork.Db

open Sql

variable (engine : Engine)

/-- The value of a named column. -/
def fieldOf (columns : List Column) (name : String) (row : Row) : Value :=
  cell row ((columnIndex columns name).getD 0)

/-- Every price refers to a company that exists. -/
def Integrity (catalog : Catalog) : Prop :=
  ∀ price ∈ rowsOf catalog "prices", ∃ company ∈ rowsOf catalog "companies",
    fieldOf Companies.columns "id" company = fieldOf Prices.columns "company_rowid" price

/-- The condition on a call: a new price names a company that exists, and a removed company has no
prices. -/
def Call.RefersRightly (catalog : Catalog) : Call → Prop
  | .addPrice companyRowId price _ => isNaN (Prices.widen price) = true ∨
      ∃ company ∈ rowsOf catalog "companies", fieldOf Companies.columns "id" company = .integer companyRowId
  | .removeCompany rowId => ∀ price ∈ rowsOf catalog "prices",
      fieldOf Prices.columns "company_rowid" price ≠ .integer rowId
  | _ => True

def Attempt.RefersRightly (connection : Connection) (made : Attempt) : Prop :=
  made.refused = true ∨ made.call.RefersRightly connection.database.catalog

/-- The companies that the prices of a store refer to are there. -/
def Store.Integral (store : Store) : Prop :=
  ∀ price ∈ store.prices.rows, ∃ company ∈ store.companies.rows, company.id = price.companyRowId

theorem fieldOf_place {columns : List Column} {name : String} (index : Nat)
    (place : columnIndex columns name = some index) (row : Row) : fieldOf columns name row = cell row index := by
  rw [fieldOf, place, Option.getD_some]

theorem fieldOf_id (company : Company) :
    fieldOf Companies.columns "id" company.row = .integer company.id :=
  fieldOf_place 0 (by decide) company.row

theorem fieldOf_companyRowId (price : Price) :
    fieldOf Prices.columns "company_rowid" price.row = .integer price.companyRowId :=
  fieldOf_place 3 (by decide) price.row

namespace Store

variable (store : Store)

@[simp] theorem rowsOf_companies : rowsOf store.catalog "companies" = store.companies.rows.map Company.row := rfl

@[simp] theorem rowsOf_prices : rowsOf store.catalog "prices" = store.prices.rows.map Price.row := rfl

theorem integrity_iff : Integrity store.catalog ↔ store.Integral := by
  simp only [Integrity, Integral, rowsOf_companies, rowsOf_prices, List.mem_map,
    forall_exists_index, and_imp, forall_apply_eq_imp_iff₂, exists_exists_and_eq_and, fieldOf_id,
    fieldOf_companyRowId, Value.integer.injEq]

/-- Companies may change as long as every key stays. -/
theorem integral_of_ids {companies : CompanyTable} (integral : store.Integral)
    (stays : ∀ company ∈ store.companies.rows, ∃ other ∈ companies.rows, other.id = company.id) :
    (store.withCompanies companies).Integral := by
  intro price member
  obtain ⟨company, there, refers⟩ := integral price member
  obtain ⟨other, still, same⟩ := stays company there
  exact ⟨other, still, same.trans refers⟩

theorem integral_addCompany (integral : store.Integral) (uuid name logo : String) :
    (store.withCompanies (store.companies.add engine uuid name logo)).Integral := by
  apply store.integral_of_ids integral
  intro company member
  refine ⟨company, ?_, rfl⟩
  unfold CompanyTable.add
  split
  · exact List.mem_append_left _ member
  · exact member

theorem integral_setLogo (integral : store.Integral) (rowId : Int) (link : String) :
    (store.withCompanies (store.companies.setLogo rowId link)).Integral := by
  apply store.integral_of_ids integral
  intro company member
  refine ⟨_, List.mem_map_of_mem member, ?_⟩
  split <;> rfl

/-- A removal is right exactly when no price refers to the company. -/
theorem integral_removeCompany_iff (integral : store.Integral) (rowId : Int) :
    (store.withCompanies (store.companies.remove rowId)).Integral ↔
      ∀ price ∈ store.prices.rows, price.companyRowId ≠ rowId := by
  constructor
  · intro after price member refers
    obtain ⟨company, there, same⟩ := after price member
    have kept := (List.mem_filter.mp there).2
    simp only [ne_eq, decide_not, Bool.not_eq_true', decide_eq_false_iff_not] at kept
    exact kept (same.trans refers)
  · intro free price member
    obtain ⟨company, there, same⟩ := integral price member
    refine ⟨company, List.mem_filter.mpr ⟨there, ?_⟩, same⟩
    have apart := free price member
    rw [← same] at apart
    simpa using apart

/-- A new price is right exactly when its company exists. -/
theorem integral_addPrice_iff (integral : store.Integral) (companyRowId : Int) (bits : BitVec 64)
    (timestamp : Int) :
    (store.withPrices (store.prices.add companyRowId bits timestamp)).Integral ↔
      ∃ company ∈ store.companies.rows, company.id = companyRowId := by
  constructor
  · intro after
    exact after ⟨store.prices.lastKey + 1, bits, timestamp, companyRowId⟩ (by
      simp [withPrices, PriceTable.add])
  · intro exists_company price member
    rcases List.mem_append.mp member with old | new
    · exact integral price old
    · rw [List.mem_singleton.mp new]
      exact exists_company

theorem integral_removePrices (integral : store.Integral) (companyRowId : Int) :
    (store.withPrices (store.prices.removeAll companyRowId)).Integral :=
  fun price member => integral price (List.mem_filter.mp member).1

/-- One call keeps the integrity exactly when it refers rightly. -/
theorem integral_onStore_iff (integral : store.Integral) (call : Call) :
    (call.onStore engine store).Integral ↔ call.RefersRightly store.catalog := by
  cases call with
  | addCompany uuid name logo =>
      exact ⟨fun _ => trivial, fun _ => store.integral_addCompany engine integral uuid name logo⟩
  | setLogoByID rowId link =>
      exact ⟨fun _ => trivial, fun _ => store.integral_setLogo integral rowId link⟩
  | removeCompany rowId =>
      simp [Call.onStore, Call.RefersRightly, store.integral_removeCompany_iff integral,
        fieldOf_companyRowId]
  | addPrice companyRowId price timestamp =>
      cases nan : isNaN (Prices.widen price) with
      | true => simp [Call.onStore, Call.RefersRightly, nan, integral]
      | false =>
          simp [Call.onStore, Call.RefersRightly, nan, store.integral_addPrice_iff integral,
            fieldOf_id]
  | removePrices companyRowId =>
      exact ⟨fun _ => trivial, fun _ => store.integral_removePrices integral companyRowId⟩

end Store

/-- One attempt keeps the integrity exactly when it refers rightly. -/
theorem attempt_integrity_iff (connection : Connection) (made : Attempt) (holds : HoldsStore connection)
    (integrity : Integrity connection.database.catalog) :
    Integrity (attempt engine connection made).database.catalog ↔ made.RefersRightly connection := by
  obtain ⟨store, log, rfl⟩ := holds
  have integral := store.integrity_iff.mp integrity
  obtain ⟨after, run⟩ := attempt_store engine store log made
  rw [run]
  change Integrity (store.attempt engine made).catalog ↔ _
  rw [Store.integrity_iff]
  unfold Store.attempt Attempt.RefersRightly
  cases made.refused with
  | true => simpa using integral
  | false => simpa using store.integral_onStore_iff engine integral made.call

/-- A run keeps the integrity in all of its states exactly when each of its calls refers rightly. -/
theorem integrity_run_iff (version : Nat) (attempts : List Attempt) :
    ∃ start, (DBManager.createAndInitAllTables engine version).run (Connection.opened []) = .ok () start ∧
      (StatesHold (attempt engine) (fun connection => Integrity connection.database.catalog) start attempts ↔
        StepsMeet (attempt engine) (fun connection made => made.RefersRightly connection) start attempts) := by
  obtain ⟨log, created⟩ := createAndInitAllTables_empty engine version
  refine ⟨_, created, ?_⟩
  apply statesHold_iff_stepsMeet (attempt_holdsStore engine) (attempt_integrity_iff engine)
  · exact ⟨Store.empty version, log, rfl⟩
  · rw [session_catalog, Store.integrity_iff]
    intro price member
    exact absurd member List.not_mem_nil

/-- A price without a company is accepted. -/
theorem addPrice_breaks_integrity : ¬ ∀ (engine : Engine) (version : Nat) (attempts : List Attempt)
    (start : Connection),
    (DBManager.createAndInitAllTables engine version).run (Connection.opened []) = .ok () start →
      StatesHold (attempt engine) (fun connection => Integrity connection.database.catalog) start
        attempts := by
  intro claimed
  obtain ⟨log, created⟩ := createAndInitAllTables_empty Engine.plain 1
  have holds := claimed Engine.plain 1 [⟨.addPrice 7 0 0, false⟩] _ created
  have last := holds.2
  obtain ⟨after, run⟩ := attempt_store Engine.plain (Store.empty 1) log ⟨.addPrice 7 0 0, false⟩
  rw [StatesHold, run] at last
  obtain ⟨company, member, _⟩ := (Store.integrity_iff _).mp last ⟨1, 0, 0, 7⟩ (by decide)
  exact absurd member List.not_mem_nil

end Peakwork.Db
