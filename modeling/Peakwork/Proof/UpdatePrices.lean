/-
This file decides when the update of the prices stores only what was fetched.
-/

import Peakwork.Construction.UpdatePrices
import Peakwork.Proof.Db.Lookup

namespace Peakwork.Controller

open Sql CommonData Db

variable (engine : Engine)

/-- A price together with the symbol of its company. -/
abbrev Attribution := Option Value × Value × Value

/-- Each row of the prices with the symbol of the company that it refers to. -/
def attributions (catalog : Catalog) : List Attribution :=
  (rowsOf catalog "prices").map fun row =>
    (((rowsOf catalog "companies").find? fun company =>
        fieldOf Companies.columns "id" company = fieldOf Prices.columns "company_rowid" row).map
          (fieldOf Companies.columns "uuid"),
      fieldOf Prices.columns "price" row, fieldOf Prices.columns "timestamp" row)

/-- The prices of one answer with the symbol of the answer. -/
def fetchedPrices (info : CompanyInfo) : List Attribution :=
  info.priceList.map fun price =>
    (some (.text info.shortName), .real (engine.storedReal (Prices.widen price.price)), .integer price.dateTimestamp)

/-- The loop over all outcomes of all rounds. -/
def updateAll (fetched : List Fetched) : Action Unit :=
  fetched.forM fun outcome => updateSymbol engine (getCompanyInfo outcome)

/-- Only the answers reach the tables, and each price stays with its company. -/
structure StoresOnlyFetched (start after : Connection) (fetched : List Fetched) : Prop where
  answered : ∀ row ∈ rowsOf after.database.catalog "companies", ∃ info, .answered info ∈ fetched ∧
    fieldOf Companies.columns "uuid" row = .text info.shortName
  failed : ∀ earlier later, fetched = earlier ++ .failed :: later → ∃ before middle,
    (updateAll engine earlier).run start = .ok () before ∧
    (updateSymbol engine (getCompanyInfo .failed)).run before = .ok () middle ∧
    ∀ name, name = "companies" ∨ name = "prices" →
      rowsOf middle.database.catalog name = rowsOf before.database.catalog name
  prices : attributions after.database.catalog =
    fetched.flatMap fun outcome => fetchedPrices engine (getCompanyInfo outcome)

/-- The answer has a symbol that the lookup finds and prices that the table takes. -/
structure SafeInfo (info : CompanyInfo) : Prop where
  symbol : SafeSymbol info.shortName
  numbers : ∀ price ∈ info.priceList, isNaN (Prices.widen price.price) = false

theorem safeInfo_empty : SafeInfo .empty where
  symbol := ⟨by decide, by decide, by decide⟩
  numbers price member := absurd member List.not_mem_nil

/-- Every failure comes after an answer with an empty symbol, whose row hides it. -/
def FailuresCovered (fetched : List Fetched) : Prop :=
  ∀ earlier later, fetched = earlier ++ .failed :: later →
    ∃ info, .answered info ∈ earlier ∧ info.shortName = ""

end Peakwork.Controller

namespace Peakwork.Db

open Sql CommonData

variable (engine : Engine) (store : Store)

namespace CompanyTable

variable (companies : CompanyTable)

def idOf (uuid : String) : Int := ((companies.rows.find? (·.uuid = uuid)).map (·.id)).getD 0

def uuidOf (id : Int) : Option String := (companies.rows.find? (·.id = id)).map (·.uuid)

theorem find_key {α β : Type} [DecidableEq β] {rows : List α} {key : α → β}
    (nodup : (rows.map key).Nodup) {item : α} (member : item ∈ rows) :
    rows.find? (fun other => key other = key item) = some item := by
  rw [← List.head?_filter, filter_key nodup member]
  rfl

theorem idOf_member {company : Company} (member : company ∈ companies.rows) :
    companies.idOf company.uuid = company.id := by
  rw [idOf, find_key companies.uuids member]
  rfl

theorem uuidOf_member {company : Company} (member : company ∈ companies.rows) :
    companies.uuidOf company.id = some company.uuid := by
  rw [uuidOf, find_key companies.ids member]
  rfl

theorem has_add_iff (uuid name logo symbol : String) :
    (companies.add engine uuid name logo).has symbol = true ↔ companies.has symbol = true ∨ symbol = uuid := by
  unfold add
  split
  · simp only [has, append, List.any_append, List.any_cons, List.any_nil, Bool.or_false,
      Bool.or_eq_true, decide_eq_true_eq]
    exact or_congr_right eq_comm
  · rename_i there
    have present : companies.has uuid = true := by simpa using there
    change companies.has symbol = true ↔ _
    constructor
    · exact .inl
    · rintro (already | rfl)
      · exact already
      · exact present

theorem add_present (uuid name logo : String) (there : companies.has uuid = true) :
    (companies.add engine uuid name logo).rows = companies.rows := by
  simp [add, there, skip]

end CompanyTable

namespace PriceTable

variable (prices : PriceTable)

/-- The prices of one answer go into the table one after the other. -/
def addAll (companyRowId : Int) (list : List CommonData.Price) : PriceTable :=
  list.foldl (fun prices price => prices.add companyRowId (engine.storedReal (Prices.widen price.price)) price.dateTimestamp) prices

theorem addAll_append (companyRowId : Int) (first second : List CommonData.Price) :
    prices.addAll engine companyRowId (first ++ second) =
      (prices.addAll engine companyRowId first).addAll engine companyRowId second := List.foldl_append

theorem addAll_rows {α : Type} (view : Int → BitVec 64 → Int → α) (companyRowId : Int)
    (list : List CommonData.Price) :
    (prices.addAll engine companyRowId list).rows.map (fun row => view row.companyRowId row.price row.timestamp) =
      prices.rows.map (fun row => view row.companyRowId row.price row.timestamp) ++
        list.map fun price => view companyRowId (engine.storedReal (Prices.widen price.price)) price.dateTimestamp := by
  induction list generalizing prices with
  | nil => simp [addAll]
  | cons price list ih =>
      have tail := ih (prices.add companyRowId (engine.storedReal (Prices.widen price.price)) price.dateTimestamp)
      change ((prices.add companyRowId _ _).addAll engine companyRowId list).rows.map _ = _
      rw [tail]
      simp [add]

theorem addAll_member (companyRowId : Int) (list : List CommonData.Price) {price : Price}
    (member : price ∈ (prices.addAll engine companyRowId list).rows) :
    price ∈ prices.rows ∨ price.companyRowId = companyRowId := by
  induction list generalizing prices with
  | nil => exact .inl member
  | cons head list ih =>
      rcases ih (prices.add companyRowId (engine.storedReal (Prices.widen head.price)) head.dateTimestamp) member with old | new
      · rcases List.mem_append.mp old with before | added
        · exact .inl before
        · exact .inr (by rw [List.mem_singleton.mp added])
      · exact .inr new

end PriceTable

namespace Store

/-- The effect of one outcome on the store. -/
def updateSymbol (info : CompanyInfo) : Store :=
  let companies := store.companies.add engine info.shortName info.fullName info.logo
  (store.withCompanies companies).withPrices
    (store.prices.addAll engine (companies.idOf info.shortName) info.priceList)

@[simp] theorem updateSymbol_companies (info : CompanyInfo) : (store.updateSymbol engine info).companies =
    store.companies.add engine info.shortName info.fullName info.logo := rfl

/-- The connection shows this store. -/
def IsAt (store : Store) (connection : Connection) : Prop :=
  ∃ log, connection = session store.catalog log

/-- The prices of the store with the symbols of their companies. -/
def attributions : List Controller.Attribution :=
  store.prices.rows.map fun price =>
    ((store.companies.uuidOf price.companyRowId).map .text, .real price.price, .integer price.timestamp)

theorem fieldOf_price (price : Price) :
    fieldOf Prices.columns "price" price.row = .real price.price :=
  fieldOf_place 1 (by decide) price.row

theorem fieldOf_timestamp (price : Price) :
    fieldOf Prices.columns "timestamp" price.row = .integer price.timestamp :=
  fieldOf_place 2 (by decide) price.row

theorem attributions_catalog : Controller.attributions store.catalog = store.attributions := by
  unfold Controller.attributions attributions
  rw [rowsOf_prices, rowsOf_companies, List.map_map]
  apply List.map_congr_left
  intro price _
  simp only [Function.comp_apply, fieldOf_price, fieldOf_timestamp, fieldOf_companyRowId, fieldOf_id,
    Value.integer.injEq, CompanyTable.uuidOf, List.find?_map, Option.map_map, fieldOf_uuid, Function.comp_def]

theorem addAll_run (companyRowId : Int) (list : List CommonData.Price)
    (numbers : ∀ price ∈ list, isNaN (Prices.widen price.price) = false)
    (connection : Connection) (here : store.IsAt connection) :
    ∃ after, (list.forM fun price =>
        Prices.add engine companyRowId price.price price.dateTimestamp).run connection = .ok () after ∧
      (store.withPrices (store.prices.addAll engine companyRowId list)).IsAt after := by
  apply Action.forM_ok (fun prices connection => (store.withPrices prices).IsAt connection) list
  · rintro prices price before member ⟨log, rfl⟩
    obtain ⟨after, run⟩ := Prices.add_run engine (store.withPrices prices) log companyRowId price.price
      price.dateTimestamp (numbers price member)
    exact ⟨_, run, after, rfl⟩
  · exact here

/-- A safe outcome does to the tables what it does to the store. -/
theorem updateSymbol_run {info : CompanyInfo} (safe : Controller.SafeInfo info)
    (connection : Connection) (here : store.IsAt connection) :
    ∃ after, (Controller.updateSymbol engine info).run connection = .ok () after ∧
      (store.updateSymbol engine info).IsAt after := by
  obtain ⟨log, rfl⟩ := here
  obtain ⟨added, insertion⟩ := Companies.add_run engine store log info.shortName info.fullName info.logo
  have there := store.companies.has_add engine info.shortName info.fullName info.logo
  obtain ⟨company, member, same⟩ := (CompanyTable.has_iff _ _).mp there
  have lookup := safe.symbol.getRowID_found engine
    (store.withCompanies (store.companies.add engine info.shortName info.fullName info.logo)) added
    company member same
  have key := CompanyTable.idOf_member _ member
  rw [same] at key
  unfold Controller.updateSymbol
  rw [Action.bind_ok insertion, Action.bind_ok lookup, ← key]
  exact addAll_run engine _ _ info.priceList safe.numbers _ ⟨added, rfl⟩

/-- The store after a list of outcomes. -/
def updateAll (fetched : List Controller.Fetched) : Store :=
  fetched.foldl (fun store outcome => store.updateSymbol engine (Controller.getCompanyInfo outcome)) store

theorem updateAll_run (fetched : List Controller.Fetched)
    (safe : ∀ outcome ∈ fetched, Controller.SafeInfo (Controller.getCompanyInfo outcome))
    (connection : Connection) (here : store.IsAt connection) :
    ∃ after, (Controller.updateAll engine fetched).run connection = .ok () after ∧
      (store.updateAll engine fetched).IsAt after := by
  apply Action.forM_ok IsAt fetched
  · intro store outcome before member here
    exact store.updateSymbol_run engine (safe outcome member) before here
  · exact here

/-- A price keeps its symbol when companies are added behind the ones that are there. -/
theorem attributions_withCompanies (integral : store.Integral) {companies : CompanyTable}
    (grows : store.companies.rows <+: companies.rows) :
    (store.withCompanies companies).attributions = store.attributions := by
  apply List.map_congr_left
  intro price inside
  obtain ⟨owner, owns, refers⟩ := integral price inside
  rw [← refers, withCompanies_companies, CompanyTable.uuidOf_member _ (grows.subset owns),
    CompanyTable.uuidOf_member _ owns]

/-- When both tables grow only at their ends, so do the prices with their symbols. -/
theorem attributions_extends {earlier later : Store} (integral : earlier.Integral)
    (companies : earlier.companies.rows <+: later.companies.rows)
    (prices : earlier.prices.rows <+: later.prices.rows) : earlier.attributions <+: later.attributions := by
  rw [← earlier.attributions_withCompanies integral companies]
  exact prices.map _

/-- The company of an outcome is there for its prices. -/
theorem company_updateSymbol (info : CompanyInfo) :
    ∃ company ∈ (store.updateSymbol engine info).companies.rows, company.uuid = info.shortName ∧
      (store.updateSymbol engine info).companies.idOf info.shortName = company.id := by
  have there := store.companies.has_add engine info.shortName info.fullName info.logo
  obtain ⟨company, member, same⟩ := (CompanyTable.has_iff _ _).mp there
  have key := CompanyTable.idOf_member _ member
  rw [same] at key
  exact ⟨company, member, same, key⟩

/-- The prices of a company that is there leave no price without a company. -/
theorem addAll_integral (integral : store.Integral) {companyRowId : Int}
    (owner : ∃ company ∈ store.companies.rows, company.id = companyRowId) (list : List CommonData.Price) :
    (store.withPrices (store.prices.addAll engine companyRowId list)).Integral := by
  intro price inside
  rcases store.prices.addAll_member engine _ _ inside with old | new
  · exact integral price old
  · rw [new]
    exact owner

theorem updateSymbol_integral (integral : store.Integral) (info : CompanyInfo) :
    (store.updateSymbol engine info).Integral := by
  obtain ⟨company, member, _, key⟩ := store.company_updateSymbol engine info
  exact addAll_integral engine _ (store.integral_addCompany engine integral info.shortName info.fullName info.logo)
    ⟨company, member, key.symm⟩ info.priceList

/-- An outcome adds its prices with its symbol. -/
theorem updateSymbol_attributions (integral : store.Integral) (info : CompanyInfo) :
    (store.updateSymbol engine info).attributions = store.attributions ++ Controller.fetchedPrices engine info := by
  obtain ⟨company, member, same, key⟩ := store.company_updateSymbol engine info
  have grows : store.companies.rows <+: (store.updateSymbol engine info).companies.rows := by
    obtain ⟨added, rows⟩ := store.companies.add_rows engine info.shortName info.fullName info.logo
    rw [updateSymbol_companies, rows]
    exact List.prefix_append _ _
  have whole := store.prices.addAll_rows engine (fun id price timestamp =>
    (((store.updateSymbol engine info).companies.uuidOf id).map Value.text, Value.real price,
      Value.integer timestamp)) company.id info.priceList
  rw [CompanyTable.uuidOf_member _ member, same] at whole
  rw [← store.attributions_withCompanies integral grows, attributions]
  show (store.prices.addAll engine ((store.updateSymbol engine info).companies.idOf info.shortName)
    info.priceList).rows.map _ = _
  rw [key]
  exact whole

theorem has_updateAll (fetched : List Controller.Fetched) (uuid : String) :
    (store.updateAll engine fetched).companies.has uuid = true ↔
      store.companies.has uuid = true ∨ ∃ outcome ∈ fetched, (Controller.getCompanyInfo outcome).shortName = uuid := by
  induction fetched generalizing store with
  | nil => simp [updateAll]
  | cons outcome rest ih =>
      have tail := ih (store.updateSymbol engine (Controller.getCompanyInfo outcome))
      rw [updateSymbol_companies, CompanyTable.has_add_iff, or_assoc, eq_comm (a := uuid)] at tail
      rw [List.exists_mem_cons_iff]
      exact tail

theorem updateAll_integral (integral : store.Integral) (fetched : List Controller.Fetched) :
    (store.updateAll engine fetched).Integral := by
  induction fetched generalizing store with
  | nil => exact integral
  | cons outcome rest ih => exact ih _ (store.updateSymbol_integral engine integral _)

/-- The prices of all outcomes stand behind the ones that were there. -/
theorem updateAll_attributions (integral : store.Integral) (fetched : List Controller.Fetched) :
    (store.updateAll engine fetched).attributions =
      store.attributions ++ fetched.flatMap fun outcome =>
        Controller.fetchedPrices engine (Controller.getCompanyInfo outcome) := by
  induction fetched generalizing store with
  | nil => rw [List.flatMap_nil, List.append_nil, updateAll, List.foldl_nil]
  | cons outcome rest ih =>
      have tail := ih _ (store.updateSymbol_integral engine integral (Controller.getCompanyInfo outcome))
      rw [store.updateSymbol_attributions engine integral, List.append_assoc] at tail
      rw [List.flatMap_cons]
      exact tail

/-- What the store holds after some outcomes. -/
structure Updated (done : List Controller.Fetched) : Prop where
  symbols : ∀ uuid, store.companies.has uuid = true ↔
    ∃ outcome ∈ done, (Controller.getCompanyInfo outcome).shortName = uuid
  integral : store.Integral
  attributed : store.attributions =
    done.flatMap fun outcome => Controller.fetchedPrices engine (Controller.getCompanyInfo outcome)

end Store

end Peakwork.Db

namespace Peakwork.Controller

open Sql CommonData Db

variable (engine : Engine)

/-- The rounds of the loop are one loop over their outcomes. -/
theorem updatePrices_eq (symbols : List String) (rounds : Nat) (fetch : Nat → Nat → String → Fetched) :
    updatePrices engine symbols rounds fetch = updateAll engine (outcomes symbols rounds fetch) := by
  have flat (rounds : List Nat) : (rounds.forM fun round => updateRound engine symbols (fetch round)) =
      updateAll engine (rounds.flatMap fun round =>
        symbols.zipIdx.map fun symbol => fetch round symbol.2 symbol.1) := by
    induction rounds with
    | nil => rfl
    | cons round rest ih =>
        change (updateRound engine symbols (fetch round) >>= fun _ => rest.forM _) = _
        rw [ih]
        simp only [updateAll, updateRound, List.forM_eq_forM, List.flatMap_cons, List.forM_append,
          List.forM_map]
  unfold updatePrices
  split
  · rename_i nothing
    have empty : outcomes symbols rounds fetch = [] := by
      simp [outcomes, List.isEmpty_iff.mp nothing]
    rw [empty]
    rfl
  · exact flat _

theorem empty_updated (version : Nat) (fetched : List Fetched) :
    ((Store.empty version).updateAll engine fetched).Updated engine fetched := by
  have integral : (Store.empty version).Integral := fun price member => absurd member List.not_mem_nil
  constructor
  · intro uuid
    rw [Store.has_updateAll]
    simp [Store.empty, CompanyTable.empty, CompanyTable.has]
  · exact Store.updateAll_integral engine _ integral fetched
  · exact Store.updateAll_attributions engine _ integral fetched

/-- The empty value leaves the rows as they are exactly when the empty symbol is there already. -/
theorem updateSymbol_empty_iff (store : Store) :
    (∀ name, name = "companies" ∨ name = "prices" →
      rowsOf (store.updateSymbol engine .empty).catalog name = rowsOf store.catalog name) ↔
      store.companies.has "" = true := by
  constructor
  · intro same
    by_contra absent
    have fresh : store.companies.has "" = false := by simpa using absent
    have rows := congrArg List.length (same "companies" (.inl rfl))
    simp [CompanyInfo.empty, CompanyTable.add, fresh, CompanyTable.append] at rows
  · rintro there name (rfl | rfl)
    · rw [Store.rowsOf_companies, Store.updateSymbol_companies, Store.rowsOf_companies]
      rw [show CompanyInfo.empty.shortName = "" from rfl, store.companies.add_present engine "" _ _ there]
    · rfl

section Exact

variable {version : Nat} {start : Connection} (here : (Store.empty version).IsAt start)
  (fetched : List Fetched) (safe : ∀ outcome ∈ fetched, SafeInfo (getCompanyInfo outcome))
include here safe

/-- A failure is harmless exactly when an empty symbol came before. -/
theorem failed_harmless_iff (earlier later : List Fetched) (split : fetched = earlier ++ .failed :: later) :
    (∃ before middle, (updateAll engine earlier).run start = .ok () before ∧
      (updateSymbol engine (getCompanyInfo .failed)).run before = .ok () middle ∧
      ∀ name, name = "companies" ∨ name = "prices" →
        rowsOf middle.database.catalog name = rowsOf before.database.catalog name) ↔
      ∃ outcome ∈ earlier, (getCompanyInfo outcome).shortName = "" := by
  have safeEarlier : ∀ outcome ∈ earlier, SafeInfo (getCompanyInfo outcome) := fun outcome member =>
    safe outcome (by rw [split]; exact List.mem_append_left _ member)
  have updated := empty_updated engine version earlier
  obtain ⟨before, run, logBefore, rfl⟩ := Store.updateAll_run engine _ earlier safeEarlier start here
  generalize (Store.empty version).updateAll engine earlier = store at *
  obtain ⟨middle, step, logMiddle, rfl⟩ := store.updateSymbol_run engine safeInfo_empty _ ⟨logBefore, rfl⟩
  rw [← updated.symbols, ← updateSymbol_empty_iff engine]
  constructor
  · rintro ⟨before', middle', ran, stepped, same⟩
    rw [run] at ran
    cases ran
    change (updateSymbol engine .empty).run _ = _ at stepped
    rw [step] at stepped
    cases stepped
    exact same
  · intro same
    exact ⟨_, _, run, step, same⟩

/-- The rounds return, and they store only what was fetched exactly when every failure is covered. -/
theorem storesOnlyFetched_iff : ∃ after, (updateAll engine fetched).run start = .ok () after ∧
    (StoresOnlyFetched engine start after fetched ↔ FailuresCovered fetched) := by
  have updated := empty_updated engine version fetched
  obtain ⟨after, run, log, rfl⟩ := Store.updateAll_run engine _ fetched safe start here
  refine ⟨_, run, ?_⟩
  constructor
  · intro stored earlier later split
    -- the first failure decides
    have last : Fetched.failed ∈ earlier ++ [.failed] := by simp
    obtain ⟨first, second, parts, clean⟩ := List.eq_append_cons_of_mem last
    have whole : fetched = first ++ .failed :: (second ++ later) := by
      rw [split, ← List.cons_append, ← List.append_assoc, ← parts, List.append_assoc,
        List.singleton_append]
    obtain ⟨outcome, among, empty⟩ := (failed_harmless_iff engine here fetched safe first _ whole).mp
      (stored.failed first _ whole)
    have inside : outcome ∈ earlier ++ [.failed] := by
      rw [parts]
      exact List.mem_append_left _ among
    cases outcome with
    | answered info => exact ⟨info, by simpa using inside, empty⟩
    | failed => exact absurd among clean
  · intro covered
    constructor
    · intro row member
      rw [session_catalog, Store.rowsOf_companies] at member
      obtain ⟨company, inside, rfl⟩ := List.mem_map.mp member
      obtain ⟨outcome, among, symbol⟩ := (updated.symbols company.uuid).mp
        ((CompanyTable.has_iff _ _).mpr ⟨company, inside, rfl⟩)
      rw [fieldOf_uuid]
      cases outcome with
      | answered info => exact ⟨info, among, by rw [← symbol]; rfl⟩
      | failed =>
          obtain ⟨earlier, later, split⟩ := List.append_of_mem among
          obtain ⟨info, before, empty⟩ := covered earlier later split
          refine ⟨info, ?_, ?_⟩
          · rw [split]
            exact List.mem_append_left _ before
          · rw [empty, ← symbol]
            rfl
    · intro earlier later split
      apply (failed_harmless_iff engine here fetched safe earlier later split).mpr
      obtain ⟨info, before, empty⟩ := covered earlier later split
      exact ⟨_, before, empty⟩
    · rw [session_catalog, Store.attributions_catalog]
      exact updated.attributed

end Exact

theorem safe_outcomes {fetched : List Fetched}
    (safe : ∀ info, .answered info ∈ fetched → SafeInfo info) :
    ∀ outcome ∈ fetched, SafeInfo (getCompanyInfo outcome) := by
  intro outcome member
  cases outcome with
  | answered info => exact safe info member
  | failed => exact safeInfo_empty

/-- The update of safe answers stores only what was fetched exactly when every failure comes after an
answer with an empty symbol. -/
theorem updatePrices_iff (version : Nat) (symbols : List String) (rounds : Nat)
    (fetch : Nat → Nat → String → Fetched)
    (safe : ∀ info, .answered info ∈ outcomes symbols rounds fetch → SafeInfo info) :
    ∃ start after,
      (DBManager.createAndInitAllTables engine version).run (Connection.opened []) = .ok () start ∧
      (updatePrices engine symbols rounds fetch).run start = .ok () after ∧
      (StoresOnlyFetched engine start after (outcomes symbols rounds fetch) ↔
        FailuresCovered (outcomes symbols rounds fetch)) := by
  obtain ⟨log, created⟩ := createAndInitAllTables_empty engine version
  obtain ⟨after, run, exactly⟩ := storesOnlyFetched_iff engine ⟨log, rfl⟩ _ (safe_outcomes safe)
  refine ⟨_, after, created, ?_, exactly⟩
  rw [updatePrices_eq]
  exact run

def apple : CompanyInfo := ⟨"AAPL", "Apple Inc.", "", [⟨0x43160000#32, 1573765200, "1573765200"⟩]⟩

/-- One company is fetched, and then the service fails. -/
def thenFails (round _place : Nat) (_symbol : String) : Fetched :=
  if round = 0 then .answered apple else .failed

theorem thenFails_outcomes : outcomes ["AAPL"] 2 thenFails = [.answered apple, .failed] := rfl

theorem thenFails_safe : ∀ info, .answered info ∈ outcomes ["AAPL"] 2 thenFails → SafeInfo info := by
  intro info member
  rw [thenFails_outcomes] at member
  simp only [List.mem_cons, Fetched.answered.injEq, reduceCtorEq, List.not_mem_nil, or_false] at member
  subst member
  exact ⟨⟨by decide, by decide, by decide⟩, by decide⟩

theorem updatePrices_iff_example : ∃ start after,
    (DBManager.createAndInitAllTables Engine.plain 1).run (Connection.opened []) = .ok () start ∧
    (updatePrices Engine.plain ["AAPL"] 2 thenFails).run start = .ok () after ∧
    (StoresOnlyFetched Engine.plain start after (outcomes ["AAPL"] 2 thenFails) ↔
      FailuresCovered (outcomes ["AAPL"] 2 thenFails)) :=
  updatePrices_iff Engine.plain 1 ["AAPL"] 2 thenFails thenFails_safe

/-- A failed fetch stores a company without a symbol. -/
theorem failure_stores_company : ¬ ∀ (engine : Engine) (version : Nat) (symbols : List String)
    (rounds : Nat) (fetch : Nat → Nat → String → Fetched) (start after : Connection),
    (DBManager.createAndInitAllTables engine version).run (Connection.opened []) = .ok () start →
    (updatePrices engine symbols rounds fetch).run start = .ok () after →
      StoresOnlyFetched engine start after (outcomes symbols rounds fetch) := by
  intro claimed
  obtain ⟨log, created⟩ := createAndInitAllTables_empty Engine.plain 1
  obtain ⟨after, run, exactly⟩ := storesOnlyFetched_iff Engine.plain ⟨log, rfl⟩ _
    (safe_outcomes thenFails_safe)
  have stored := claimed Engine.plain 1 ["AAPL"] 2 thenFails _ after created
    (by rw [updatePrices_eq]; exact run)
  obtain ⟨info, member, empty⟩ := exactly.mp stored [.answered apple] [] thenFails_outcomes
  rw [List.mem_singleton, Fetched.answered.injEq] at member
  subst member
  exact absurd empty (by decide)

end Peakwork.Controller
