/-
This file gives the runs of the writing methods on one connection.
-/

import Peakwork.Library.Run
import Peakwork.Proof.Db.Store

namespace Peakwork.Db

open Sql

inductive Call where
  | addCompany (uuid name logo : String)
  | setLogoByID (rowId : Int) (link : String)
  | removeCompany (rowId : Int)
  | addPrice (companyRowId : Int) (price : BitVec 32) (timestamp : Int)
  | removePrices (companyRowId : Int)
  deriving DecidableEq, Repr

/-- The engine may refuse a call for a reason of its own; its transaction then rolls back. -/
structure Attempt where
  call : Call
  refused : Bool := false
  deriving DecidableEq, Repr

variable (engine : Engine)

def Call.action : Call → Action Unit
  | .addCompany uuid name logo => Companies.add engine uuid name logo
  | .setLogoByID rowId link => Companies.setLogoByID engine rowId link
  | .removeCompany rowId => Companies.removeByRowID engine rowId
  | .addPrice companyRowId price timestamp => Prices.add engine companyRowId price timestamp
  | .removePrices companyRowId => Prices.removeAllByCompanyRowID engine companyRowId

def stateOf {α : Type} : EStateM.Result DbError Connection α → Connection
  | .ok _ connection | .error _ connection => connection

/-- The connection after a call, whether it has succeeded or thrown. -/
def attempt (connection : Connection) (made : Attempt) : Connection :=
  if made.refused then connection else stateOf ((made.call.action engine).run connection)

/-- The effect of a call on the store. -/
def Call.onStore (store : Store) : Call → Store
  | .addCompany uuid name logo => store.withCompanies (store.companies.add engine uuid name logo)
  | .setLogoByID rowId link => store.withCompanies (store.companies.setLogo rowId link)
  | .removeCompany rowId => store.withCompanies (store.companies.remove rowId)
  | .addPrice companyRowId price timestamp =>
      if isNaN (Prices.widen price) then store
      else store.withPrices (store.prices.add companyRowId (engine.storedReal (Prices.widen price)) timestamp)
  | .removePrices companyRowId => store.withPrices (store.prices.removeAll companyRowId)

def Store.attempt (store : Store) (made : Attempt) : Store :=
  if made.refused then store else made.call.onStore engine store

/-- A call on the tables does what it does on the store. -/
theorem Call.run_store (call : Call) (store : Store) (log : List Catalog) :
    ∃ after, stateOf ((call.action engine).run (session store.catalog log)) =
      session (call.onStore engine store).catalog after := by
  cases call with
  | addCompany uuid name logo =>
      obtain ⟨after, run⟩ := Companies.add_run engine store log uuid name logo
      exact ⟨after, congrArg stateOf run⟩
  | setLogoByID rowId link =>
      obtain ⟨after, run⟩ := Companies.setLogoByID_run engine store log rowId link
      exact ⟨after, congrArg stateOf run⟩
  | removeCompany rowId =>
      obtain ⟨after, run⟩ := Companies.removeByRowID_run engine store log rowId
      exact ⟨after, congrArg stateOf run⟩
  | addPrice companyRowId price timestamp =>
      cases nan : isNaN (Prices.widen price) with
      | true =>
          have run := Prices.add_nan_run engine store log companyRowId price timestamp nan
          have same : (Call.addPrice companyRowId price timestamp).onStore engine store = store := by
            simp [Call.onStore, nan]
          exact ⟨log, by rw [same]; exact congrArg stateOf run⟩
      | false =>
          obtain ⟨after, run⟩ := Prices.add_run engine store log companyRowId price timestamp nan
          refine ⟨after, ?_⟩
          simp only [Call.onStore, nan, Bool.false_eq_true, if_false]
          exact congrArg stateOf run
  | removePrices companyRowId =>
      obtain ⟨after, run⟩ := Prices.removeAllByCompanyRowID_run engine store log companyRowId
      exact ⟨after, congrArg stateOf run⟩

theorem attempt_store (store : Store) (log : List Catalog) (made : Attempt) :
    ∃ after, attempt engine (session store.catalog log) made =
      session (store.attempt engine made).catalog after := by
  unfold attempt Store.attempt
  cases made.refused with
  | true => exact ⟨log, rfl⟩
  | false => exact made.call.run_store engine store log

/-- The connection holds a store. -/
def HoldsStore (connection : Connection) : Prop := ∃ store log, connection = session (Store.catalog store) log

theorem attempt_holdsStore (connection : Connection) (made : Attempt) (holds : HoldsStore connection) :
    HoldsStore (attempt engine connection made) := by
  obtain ⟨store, log, rfl⟩ := holds
  obtain ⟨after, run⟩ := attempt_store engine store log made
  exact ⟨_, after, run⟩

end Peakwork.Db
