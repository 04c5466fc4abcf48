/-
This file gives the companies and the prices as values that keep their own constraints, and shows
that the tables of the engine refine them.
-/

import Peakwork.Proof.Db.Startup

namespace Peakwork.Db

open Sql

structure Company where
  id : Int
  uuid : String
  name : String
  logo : String
  deriving DecidableEq, Repr

def Company.row (company : Company) : Row :=
  [.integer company.id, .text company.uuid, .text company.name, .text company.logo]

/-- No key is greater than the last one, and no two companies share a key or a symbol. -/
structure CompanyTable where
  rows : List Company
  lastKey : Int
  bounded : ∀ company ∈ rows, company.id ≤ lastKey
  ids : (rows.map (·.id)).Nodup
  uuids : (rows.map (·.uuid)).Nodup

structure Price where
  id : Int
  price : BitVec 64
  timestamp : Int
  companyRowId : Int
  deriving DecidableEq, Repr

def Price.row (price : Price) : Row :=
  [.integer price.id, .real price.price, .integer price.timestamp, .integer price.companyRowId]

structure PriceTable where
  rows : List Price
  lastKey : Int
  bounded : ∀ price ∈ rows, price.id ≤ lastKey

variable (engine : Engine)

namespace CompanyTable

def empty : CompanyTable := ⟨[], 0, by simp, by simp, by simp⟩

variable (companies : CompanyTable)

def table : Table :=
  { columns := Companies.columns, rows := companies.rows.map Company.row, lastKey := companies.lastKey }

def has (uuid : String) : Bool := companies.rows.any (·.uuid = uuid)

theorem has_iff (uuid : String) : companies.has uuid = true ↔ ∃ company ∈ companies.rows, company.uuid = uuid := by
  simp [has]

/-- A new company has the next key. -/
def append (uuid name logo : String) (fresh : companies.has uuid = false) : CompanyTable where
  rows := companies.rows ++ [⟨companies.lastKey + 1, uuid, name, logo⟩]
  lastKey := companies.lastKey + 1
  bounded company member := by
    rcases List.mem_append.mp member with old | new
    · have := companies.bounded company old
      omega
    · rw [List.mem_singleton.mp new]
  ids := by
    rw [List.map_append, List.nodup_append']
    refine ⟨companies.ids, List.nodup_singleton _, ?_⟩
    intro id old new
    obtain ⟨company, member, rfl⟩ := List.mem_map.mp old
    have bound := companies.bounded company member
    simp only [List.map_cons, List.map_nil, List.mem_singleton] at new
    omega
  uuids := by
    rw [List.map_append, List.nodup_append']
    refine ⟨companies.uuids, List.nodup_singleton _, ?_⟩
    intro symbol old new
    obtain ⟨company, member, rfl⟩ := List.mem_map.mp old
    simp only [List.map_cons, List.map_nil, List.mem_singleton] at new
    exact absurd ((companies.has_iff uuid).mpr ⟨company, member, new⟩) (by simp [fresh])

/-- An ignored insertion uses up keys. -/
def skip (keys : Nat) : CompanyTable where
  rows := companies.rows
  lastKey := companies.lastKey + keys
  bounded company member := by
    have := companies.bounded company member
    omega
  ids := companies.ids
  uuids := companies.uuids

/-- A symbol that is there already is ignored. -/
def add (uuid name logo : String) : CompanyTable :=
  if fresh : companies.has uuid = false then companies.append uuid name logo fresh
  else companies.skip (engine.skipped companies.table)

def setLogo (rowId : Int) (link : String) : CompanyTable where
  rows := companies.rows.map fun company =>
    if company.id = rowId then { company with logo := link } else company
  lastKey := companies.lastKey
  bounded company member := by
    obtain ⟨old, before, rfl⟩ := List.mem_map.mp member
    have := companies.bounded old before
    split <;> exact this
  ids := by
    have same : ((fun company : Company => company.id) ∘ fun company =>
        if company.id = rowId then { company with logo := link } else company) = (·.id) := by
      funext company
      simp only [Function.comp_apply]
      split <;> rfl
    rw [List.map_map, same]
    exact companies.ids
  uuids := by
    have same : ((fun company : Company => company.uuid) ∘ fun company =>
        if company.id = rowId then { company with logo := link } else company) = (·.uuid) := by
      funext company
      simp only [Function.comp_apply]
      split <;> rfl
    rw [List.map_map, same]
    exact companies.uuids

def remove (rowId : Int) : CompanyTable where
  rows := companies.rows.filter (·.id ≠ rowId)
  lastKey := companies.lastKey
  bounded company member := companies.bounded company (List.mem_filter.mp member).1
  ids := companies.ids.sublist (List.filter_sublist.map _)
  uuids := companies.uuids.sublist (List.filter_sublist.map _)

end CompanyTable

namespace PriceTable

def empty : PriceTable := ⟨[], 0, by simp⟩

variable (prices : PriceTable)

def table : Table :=
  { columns := Prices.columns, references := Prices.references, rows := prices.rows.map Price.row,
    lastKey := prices.lastKey }

def add (companyRowId : Int) (price : BitVec 64) (timestamp : Int) : PriceTable where
  rows := prices.rows ++ [⟨prices.lastKey + 1, price, timestamp, companyRowId⟩]
  lastKey := prices.lastKey + 1
  bounded price member := by
    rcases List.mem_append.mp member with old | new
    · have := prices.bounded price old
      omega
    · rw [List.mem_singleton.mp new]

def removeAll (companyRowId : Int) : PriceTable where
  rows := prices.rows.filter (·.companyRowId ≠ companyRowId)
  lastKey := prices.lastKey
  bounded price member := prices.bounded price (List.mem_filter.mp member).1

end PriceTable

/-- A row with a new key keeps the keys apart. -/
theorem any_key_false {α : Type} (rows : List α) (key : α → Int) (toRow : α → Row) (lastKey : Int)
    (first : ∀ item, cell (toRow item) 0 = .integer (key item))
    (bounded : ∀ item ∈ rows, key item ≤ lastKey) :
    ((rows.map toRow).any fun other => cell other 0 = .integer (lastKey + 1)) = false := by
  rw [List.any_eq_false]
  intro row member
  obtain ⟨item, inside, rfl⟩ := List.mem_map.mp member
  have bound := bounded item inside
  simp only [first, Value.integer.injEq, decide_eq_true_eq]
  omega

namespace CompanyTable

variable (companies : CompanyTable)

def bindings (uuid name logo : String) : Bindings :=
  [(":uuid", .text uuid), (":name", .text name), (":logo", .text logo)]

theorem madeRow (uuid name logo : String) :
    engine.madeRow (bindings uuid name logo) companies.table ["uuid", "full_name", "logo"]
      [.parameter ":uuid", .parameter ":name", .parameter ":logo"] =
      Company.row ⟨companies.lastKey + 1, uuid, name, logo⟩ := by
  have places : Companies.columns.map (givenIndex ["uuid", "full_name", "logo"]) =
      [none, some 0, some 1, some 2] := by decide
  simp only [Companies.columns, List.map_cons, List.map_nil, List.cons.injEq, and_true] at places
  simp only [Engine.madeRow, table, Companies.columns, List.map_cons, List.map_nil, places,
    Engine.newValue, operandValue, bindings]
  simp [Company.row, List.lookup_cons]

/-- Only a symbol that is there already breaks a constraint. -/
theorem breaksUnique_new (uuid name logo : String) :
    breaksUnique companies.table companies.table.rows
      (Company.row ⟨companies.lastKey + 1, uuid, name, logo⟩) = companies.has uuid := by
  have key := any_key_false companies.rows (·.id) Company.row companies.lastKey (fun _ => rfl)
    companies.bounded
  have symbol : ((companies.rows.map Company.row).any fun other => cell other 1 = .text uuid) =
      companies.has uuid := by
    simp [has, List.any_map, Function.comp_def, Company.row, cell]
  simp only [breaksUnique, table, Companies.columns, List.zipIdx_cons, List.zipIdx_nil, List.any_cons,
    List.any_nil]
  have first : cell (Company.row ⟨companies.lastKey + 1, uuid, name, logo⟩) 0 =
      .integer (companies.lastKey + 1) := rfl
  have second : cell (Company.row ⟨companies.lastKey + 1, uuid, name, logo⟩) 1 = .text uuid := rfl
  simp [first, second, key, symbol]

theorem insert (uuid name logo : String) :
    engine.insert (bindings uuid name logo) true companies.table ["uuid", "full_name", "logo"]
      [.parameter ":uuid", .parameter ":name", .parameter ":logo"] =
      .ok (companies.add engine uuid name logo).table := by
  have known : ["uuid", "full_name", "logo"].find? (fun name => companies.table.position name = none) =
      none := by
    change ["uuid", "full_name", "logo"].find? (fun name => columnIndex Companies.columns name = none) = _
    decide
  have made := madeRow engine companies uuid name logo
  have unique := breaksUnique_new companies uuid name logo
  by_cases fresh : companies.has uuid = false
  · rw [fresh] at unique
    rw [engine.insert_accepted known made rfl unique]
    have next : max companies.table.lastKey (keyOf companies.table
        (Company.row ⟨companies.lastKey + 1, uuid, name, logo⟩)) = companies.lastKey + 1 := by
      change max companies.lastKey (companies.lastKey + 1) = _
      omega
    rw [next]
    simp [add, fresh, append, table]
  · have taken : companies.has uuid = true := by simpa using fresh
    rw [taken] at unique
    rw [engine.insert_ignored known made (.inr unique)]
    simp [add, taken, skip, table]

/-- The filter on the key compares the keys. -/
theorem keeps_id (bound : Bindings) (parameter : String) (rowId : Int)
    (given : bound.lookup parameter = some (.integer rowId)) :
    engine.keeps bound companies.table (some ⟨"id", .parameter parameter⟩) =
      .ok fun row => engine.equal (cell row 0) (.integer rowId) := by
  have place : companies.table.require "id" = .ok 0 :=
    Table.require_ok Companies.columns rfl (by decide)
  apply engine.keeps_integer place rfl
  intro row
  rw [operandValue, given, Option.getD_some]

theorem equal_id (company : Company) (rowId : Int) :
    engine.equal (cell company.row 0) (.integer rowId) = decide (company.id = rowId) := rfl

theorem apart_of_nodup {α β : Type} {rows : List α} {key : α → β} (nodup : (rows.map key).Nodup)
    {first second : Nat} (different : first ≠ second) {left right : α}
    (here : rows[first]? = some left) (there : rows[second]? = some right) : key left ≠ key right := by
  intro same
  have inside : first < (rows.map key).length := by
    rw [List.length_map]
    exact (List.getElem?_eq_some_iff.mp here).1
  apply different
  rw [← List.getElem?_inj inside nodup]
  rw [List.getElem?_map, List.getElem?_map, here, there, Option.map_some, Option.map_some, same]

/-- The rows of a company table break none of its constraints. -/
theorem rows_consistent :
    companies.table.rows.any (breaksNotNull companies.table) = false ∧
      companies.table.rows.zipIdx.any
        (fun pair => breaksUnique companies.table (companies.table.rows.eraseIdx pair.2) pair.1) = false := by
  constructor
  · rw [List.any_eq_false]
    intro row member
    obtain ⟨company, _, rfl⟩ := List.mem_map.mp member
    simp [breaksNotNull, table, Companies.columns, Company.row]
  · rw [List.any_eq_false]
    rintro ⟨row, index⟩ member
    have found : (companies.rows.map Company.row)[index]? = some row :=
      List.mem_zipIdx_iff_getElem?.mp member
    rw [List.getElem?_map, Option.map_eq_some_iff] at found
    obtain ⟨company, here, rfl⟩ := found
    have apart : ∀ other ∈ companies.table.rows.eraseIdx index,
        cell other 0 ≠ cell company.row 0 ∧ cell other 1 ≠ cell company.row 1 := by
      intro row erased
      obtain ⟨place, different, found⟩ := List.mem_eraseIdx_iff_getElem?.mp erased
      change (companies.rows.map Company.row)[place]? = some row at found
      rw [List.getElem?_map, Option.map_eq_some_iff] at found
      obtain ⟨other, there, rfl⟩ := found
      exact ⟨fun same => apart_of_nodup companies.ids different there here (Value.integer.inj same),
        fun same => apart_of_nodup companies.uuids different there here (Value.text.inj same)⟩
    have keys : ((companies.table.rows.eraseIdx index).any fun other =>
        cell other 0 = cell company.row 0) = false := by
      rw [List.any_eq_false]
      intro other erased
      simpa using (apart other erased).1
    have symbols : ((companies.table.rows.eraseIdx index).any fun other =>
        cell other 1 = cell company.row 1) = false := by
      rw [List.any_eq_false]
      intro other erased
      simpa using (apart other erased).2
    have columns : companies.table.columns.zipIdx = Companies.columns.zipIdx := rfl
    simp only [breaksUnique, columns, Companies.columns, List.zipIdx_cons, List.zipIdx_nil,
      List.any_cons, List.any_nil, keys, symbols]
    simp

/-- The update of a logo changes the rows of one key. -/
theorem change (rowId : Int) (link : String) :
    engine.change [(":newValue", .text link), (":searchValue", .integer rowId)] companies.table
      "logo" (.parameter ":newValue") (some ⟨"id", .parameter ":searchValue"⟩) =
      .ok (companies.setLogo rowId link).table := by
  have place : companies.table.require "logo" = .ok 3 :=
    Table.require_ok Companies.columns rfl (by decide)
  have rows : (companies.table.rows.map fun row =>
      if engine.equal (cell row 0) (.integer rowId) then row.set 3 (.text link) else row) =
      (companies.setLogo rowId link).table.rows := by
    simp only [table, setLogo, List.map_map]
    apply List.map_congr_left
    intro company _
    simp only [Function.comp_apply, equal_id, decide_eq_true_eq]
    split <;> rfl
  have consistent := rows_consistent (companies.setLogo rowId link)
  apply engine.change_ok place (companies.keeps_id engine _ _ rowId rfl) _ consistent.1 consistent.2
  have stored (row : Row) : engine.coerce ((companies.table.columns[3]?.map (·.affinity)).getD .text)
      (operandValue [(":newValue", .text link), (":searchValue", .integer rowId)] companies.table row
        (.parameter ":newValue")).2 = .text link := engine.coerce_text link
  simp only [stored]
  exact rows

/-- The deletion removes the rows of one key. -/
theorem delete (rowId : Int) : { companies.table with
    rows := companies.table.rows.filter fun row =>
      ¬ engine.equal (cell row 0) (.integer rowId) = true } = (companies.remove rowId).table := by
  simp only [table, remove, List.filter_map]
  congr 2
  apply List.filter_congr
  intro company _
  simp [equal_id]

end CompanyTable

namespace PriceTable

variable (prices : PriceTable)

def bindings (companyRowId : Int) (price : BitVec 32) (timestamp : Int) : Bindings :=
  [(":rowid", .integer companyRowId), (":price", bindReal (Prices.widen price)),
    (":time", .integer timestamp)]

theorem known : ["company_rowid", "price", "timestamp"].find?
    (fun name => prices.table.position name = none) = none := by
  change ["company_rowid", "price", "timestamp"].find?
    (fun name => columnIndex Prices.columns name = none) = _
  decide

theorem madeRow (companyRowId : Int) (price : BitVec 32) (timestamp : Int) :
    engine.madeRow (bindings companyRowId price timestamp) prices.table
      ["company_rowid", "price", "timestamp"]
      [.parameter ":rowid", .parameter ":price", .parameter ":time"] =
      [.integer (prices.lastKey + 1), engine.coerce .real (bindReal (Prices.widen price)),
        .integer timestamp, .integer companyRowId] := by
  have places : Prices.columns.map (givenIndex ["company_rowid", "price", "timestamp"]) =
      [none, some 1, some 2, some 0] := by decide
  simp only [Prices.columns, List.map_cons, List.map_nil, List.cons.injEq, and_true] at places
  simp only [Engine.madeRow, table, Prices.columns, List.map_cons, List.map_nil, places,
    Engine.newValue, operandValue, bindings]
  simp [List.lookup_cons, engine.coerce_integer]

theorem insert (companyRowId : Int) (price : BitVec 32) (timestamp : Int)
    (number : isNaN (Prices.widen price) = false) :
    engine.insert (bindings companyRowId price timestamp) false prices.table
      ["company_rowid", "price", "timestamp"]
      [.parameter ":rowid", .parameter ":price", .parameter ":time"] =
      .ok (prices.add companyRowId (engine.storedReal (Prices.widen price)) timestamp).table := by
  have key := any_key_false prices.rows (·.id) Price.row prices.lastKey (fun _ => rfl) prices.bounded
  have made := madeRow engine prices companyRowId price timestamp
  simp only [bindReal, number, Bool.false_eq_true, if_false, Engine.coerce_real] at made
  have unique : breaksUnique prices.table prices.table.rows [.integer (prices.lastKey + 1),
      .real (engine.storedReal (Prices.widen price)), .integer timestamp, .integer companyRowId] = false := by
    have columns : prices.table.columns.zipIdx = Prices.columns.zipIdx := rfl
    have rows : prices.table.rows = prices.rows.map Price.row := rfl
    have first (rest : Row) : cell (.integer (prices.lastKey + 1) :: rest) 0 =
        .integer (prices.lastKey + 1) := rfl
    simp only [breaksUnique, columns, Prices.columns, List.zipIdx_cons, List.zipIdx_nil,
      List.any_cons, List.any_nil, first, rows, key]
    simp
  rw [engine.insert_accepted prices.known made rfl unique]
  have next : max prices.table.lastKey (keyOf prices.table [.integer (prices.lastKey + 1),
      .real (engine.storedReal (Prices.widen price)), .integer timestamp, .integer companyRowId]) =
      prices.lastKey + 1 := by
    change max prices.lastKey (prices.lastKey + 1) = _
    omega
  rw [next]
  simp [add, table, Price.row]

/-- A price that is not a number is stored as NULL, and the table refuses it. -/
theorem insert_nan (companyRowId : Int) (price : BitVec 32) (timestamp : Int)
    (nan : isNaN (Prices.widen price) = true) :
    engine.insert (bindings companyRowId price timestamp) false prices.table
      ["company_rowid", "price", "timestamp"]
      [.parameter ":rowid", .parameter ":price", .parameter ":time"] = .error .constraint := by
  have made := madeRow engine prices companyRowId price timestamp
  simp only [bindReal, nan, if_true, engine.coerce_fits .real .null rfl] at made
  exact engine.insert_refused prices.known made (.inl rfl)

/-- The filter on the company compares the keys of the companies. -/
theorem keeps_companyRowId (bound : Bindings) (parameter : String) (companyRowId : Int)
    (given : bound.lookup parameter = some (.integer companyRowId)) :
    engine.keeps bound prices.table (some ⟨"company_rowid", .parameter parameter⟩) =
      .ok fun row => engine.equal (cell row 3) (.integer companyRowId) := by
  have place : prices.table.require "company_rowid" = .ok 3 :=
    Table.require_ok Prices.columns rfl (by decide)
  apply engine.keeps_integer place rfl
  intro row
  rw [operandValue, given, Option.getD_some]

theorem delete (companyRowId : Int) : { prices.table with
    rows := prices.table.rows.filter fun row =>
      ¬ engine.equal (cell row 3) (.integer companyRowId) = true } =
    (prices.removeAll companyRowId).table := by
  have same (price : Price) : engine.equal (cell price.row 3) (.integer companyRowId) =
      decide (price.companyRowId = companyRowId) := rfl
  simp only [table, removeAll, List.filter_map]
  congr 2
  apply List.filter_congr
  intro price _
  simp [same]

end PriceTable

/-- The file of the daemon holds one version and the two data tables. -/
structure Store where
  version : Nat
  companies : CompanyTable
  prices : PriceTable

namespace Store

def empty (version : Nat) : Store := ⟨version, .empty, .empty⟩

variable (store : Store)

def catalog : Catalog :=
  [("db_version", DBVersion.freshTable store.version), ("companies", store.companies.table),
    ("prices", store.prices.table)]

theorem find_companies : store.catalog.find "companies" = some store.companies.table := rfl

theorem find_prices : store.catalog.find "prices" = some store.prices.table := rfl

end Store

variable (store : Store) (log : List Catalog)

/-- The start on an empty file gives the empty store. -/
theorem createAndInitAllTables_empty (version : Nat) :
    ∃ log, (DBManager.createAndInitAllTables engine version).run (Connection.opened []) =
      .ok () (session (Store.empty version).catalog log) := by
  obtain ⟨log, run⟩ := DBManager.createAndInitAllTables_fresh engine [] [] version rfl
  exact ⟨log, run⟩

section Methods

variable {engine}

/-- A prepared statement runs in a transaction of its own. -/
theorem runStatement_ok {cmd : String} {bound : Bindings} {statement : Statement}
    {catalog after : Catalog} {rows : List Row} (log : List Catalog)
    (read : parse (firstStatement (tokens cmd)) = .statement statement)
    (done : engine.execute bound true statement ⟨catalog, false⟩ = .ok (rows, ⟨after, false⟩)) :
    (runStatement engine cmd bound).run (session catalog log) =
      .ok () (session after (after :: log)) := by
  apply transaction_ok ⟨after, false⟩
  change Except.map Prod.snd (engine.perform bound true _ ⟨catalog, false⟩) = _
  rw [engine.perform_statement read, done]
  rfl

theorem runStatement_error {cmd : String} {bound : Bindings} {statement : Statement}
    {catalog : Catalog} {error : SqlError} (log : List Catalog)
    (read : parse (firstStatement (tokens cmd)) = .statement statement)
    (failed : engine.execute bound true statement ⟨catalog, false⟩ = .error error) :
    (runStatement engine cmd bound).run (session catalog log) =
      .error (.sqlite error) (session catalog log) := by
  apply transaction_error
  change Except.map Prod.snd (engine.perform bound true _ ⟨catalog, false⟩) = _
  rw [engine.perform_statement read, failed]
  rfl

end Methods

/-- The store after each of the methods. -/
def Store.withCompanies (companies : CompanyTable) : Store := { store with companies }

def Store.withPrices (prices : PriceTable) : Store := { store with prices }

@[simp] theorem Store.withCompanies_companies (companies : CompanyTable) :
    (store.withCompanies companies).companies = companies := rfl

theorem Companies.add_commits (uuid name logo : String) :
    (Companies.add engine uuid name logo).run (session store.catalog log) =
      .ok () (session (store.withCompanies (store.companies.add engine uuid name logo)).catalog
        ((store.withCompanies (store.companies.add engine uuid name logo)).catalog :: log)) :=
  runStatement_ok log Companies.read_addCommand
    (engine.execute_insert true store.find_companies (store.companies.insert engine uuid name logo))

theorem Companies.add_run (uuid name logo : String) :
    ∃ after, (Companies.add engine uuid name logo).run (session store.catalog log) =
      .ok () (session (store.withCompanies (store.companies.add engine uuid name logo)).catalog after) :=
  ⟨_, Companies.add_commits engine store log uuid name logo⟩

theorem Companies.setLogoByID_run (rowId : Int) (link : String) :
    ∃ after, (Companies.setLogoByID engine rowId link).run (session store.catalog log) =
      .ok () (session (store.withCompanies (store.companies.setLogo rowId link)).catalog after) :=
  ⟨_, runStatement_ok log Companies.read_setLogo
    (engine.execute_update true store.find_companies (store.companies.change engine rowId link))⟩

theorem Companies.removeByRowID_run (rowId : Int) :
    ∃ after, (Companies.removeByRowID engine rowId).run (session store.catalog log) =
      .ok () (session (store.withCompanies (store.companies.remove rowId)).catalog after) := by
  have executed := engine.execute_delete true store.find_companies
    (store.companies.keeps_id engine [(":searchValue", .integer rowId)] ":searchValue" rowId rfl)
  rw [store.companies.delete engine rowId] at executed
  exact ⟨_, runStatement_ok log Companies.read_removeRows executed⟩

theorem Prices.add_commits (companyRowId : Int) (price : BitVec 32) (timestamp : Int)
    (number : isNaN (Prices.widen price) = false) :
    (Prices.add engine companyRowId price timestamp).run (session store.catalog log) =
      .ok () (session (store.withPrices
        (store.prices.add companyRowId (engine.storedReal (Prices.widen price)) timestamp)).catalog
        ((store.withPrices
          (store.prices.add companyRowId (engine.storedReal (Prices.widen price)) timestamp)).catalog :: log)) :=
  runStatement_ok log Prices.read_addCommand
    (engine.execute_insert true store.find_prices
      (store.prices.insert engine companyRowId price timestamp number))

theorem Prices.add_run (companyRowId : Int) (price : BitVec 32) (timestamp : Int)
    (number : isNaN (Prices.widen price) = false) :
    ∃ after, (Prices.add engine companyRowId price timestamp).run (session store.catalog log) =
      .ok () (session (store.withPrices
        (store.prices.add companyRowId (engine.storedReal (Prices.widen price)) timestamp)).catalog after) :=
  ⟨_, Prices.add_commits engine store log companyRowId price timestamp number⟩

theorem Prices.add_nan_run (companyRowId : Int) (price : BitVec 32) (timestamp : Int)
    (nan : isNaN (Prices.widen price) = true) :
    (Prices.add engine companyRowId price timestamp).run (session store.catalog log) =
      .error (.sqlite .constraint) (session store.catalog log) :=
  runStatement_error log Prices.read_addCommand
    (engine.execute_insert_error true store.find_prices
      (store.prices.insert_nan engine companyRowId price timestamp nan))

theorem Prices.removeAllByCompanyRowID_run (companyRowId : Int) :
    ∃ after, (Prices.removeAllByCompanyRowID engine companyRowId).run (session store.catalog log) =
      .ok () (session (store.withPrices (store.prices.removeAll companyRowId)).catalog after) := by
  have executed := engine.execute_delete true store.find_prices
    (store.prices.keeps_companyRowId engine
      [(":searchValue", .integer companyRowId)] ":searchValue" companyRowId rfl)
  rw [store.prices.delete engine companyRowId] at executed
  exact ⟨_, runStatement_ok log Prices.read_removeRows executed⟩

end Peakwork.Db
