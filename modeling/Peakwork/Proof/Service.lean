/-
This file proves that the file of the database keeps the history of all processes of the service.
-/

import Peakwork.Construction.Service
import Peakwork.Library.Sql.Journal
import Peakwork.Proof.Db.Upgrade
import Peakwork.Proof.Logos

namespace Peakwork.Db

open Sql

/-- The first start makes the tables in turn. -/
inductive Stage where
  | nothing
  | unversioned
  | versioned
  | withCompanies
  | made (companies : CompanyTable) (prices : PriceTable)

namespace Stage

variable (version : Nat)

def catalog : Stage → Catalog
  | .nothing => []
  | .unversioned => [("db_version", DBVersion.emptyTable)]
  | .versioned => [("db_version", DBVersion.freshTable version)]
  | .withCompanies => [("db_version", DBVersion.freshTable version), ("companies", Companies.emptyTable)]
  | .made companies prices => (Store.mk version companies prices).catalog

/-- The tables after a start. -/
def store : Stage → Store
  | .made companies prices => ⟨version, companies, prices⟩
  | _ => .empty version

def tableMade : Stage → Stage
  | .nothing => .unversioned
  | stage => stage

def versionMade : Stage → Stage
  | .nothing | .unversioned => .versioned
  | stage => stage

def companiesMade : Stage → Stage
  | .nothing | .unversioned | .versioned => .withCompanies
  | stage => stage

def pricesMade : Stage → Stage
  | .made companies prices => .made companies prices
  | _ => .made .empty .empty

end Stage

/-- The rows of both data tables stay at their places. -/
def Extends (before after : Catalog) : Prop :=
  ∀ name, name = "companies" ∨ name = "prices" → rowsOf before name <+: rowsOf after name

theorem Extends.refl (catalog : Catalog) : Extends catalog catalog := fun _ _ => List.prefix_refl _

theorem Extends.trans (first second third : Catalog) (one : Extends first second) (other : Extends second third) :
    Extends first third := fun name data => (one name data).trans (other name data)

/-- The file of a service; while all symbols are safe each price has its company. -/
def ServiceFile (version : Nat) (safe : Prop) (catalog : Catalog) : Prop :=
  ∃ stage : Stage, catalog = stage.catalog version ∧ (safe → (stage.store version).Integral)

section Start

variable (engine : Engine) (version : Nat) {safe : Prop} (stage : Stage) (integral : safe → (stage.store version).Integral)

theorem rows_stage (name : String) (data : name = "companies" ∨ name = "prices") :
    rowsOf (stage.catalog version) name = rowsOf (stage.store version).catalog name := by
  rcases data with rfl | rfl <;> cases stage <;> rfl

theorem store_tableMade : stage.tableMade.store version = stage.store version := by cases stage <;> rfl

theorem store_versionMade : stage.versionMade.store version = stage.store version := by cases stage <;> rfl

theorem store_companiesMade : stage.companiesMade.store version = stage.store version := by cases stage <;> rfl

theorem store_pricesMade : stage.pricesMade.store version = stage.store version := by cases stage <;> rfl

theorem ensure_version : (stage.catalog version).ensure "db_version" DBVersion.emptyTable = stage.tableMade.catalog version := by
  cases stage <;> rfl

theorem ensure_companies : (stage.versionMade.catalog version).ensure "companies" Companies.emptyTable =
    stage.companiesMade.catalog version := by
  cases stage <;> rfl

theorem ensure_prices : (stage.companiesMade.catalog version).ensure "prices" Prices.emptyTable =
    stage.pricesMade.catalog version := by
  cases stage <;> rfl

theorem extends_store {earlier later : Stage} (same : later.store version = earlier.store version) :
    Extends (earlier.catalog version) (later.catalog version) := by
  intro name data
  rw [rows_stage version earlier name data, rows_stage version later name data, same]

include integral

theorem good_store {later : Stage} (same : later.store version = stage.store version) :
    ServiceFile version safe (later.catalog version) :=
  ⟨later, rfl, fun safe => by rw [same]; exact integral safe⟩

/-- One transaction leads from a stage to a later one. -/
theorem stage_commit {earlier later : Stage} {action : Action Unit} (before : earlier.store version = stage.store version)
    (after : later.store version = stage.store version)
    (committed : ∀ log, action.run (session (earlier.catalog version) log) =
      .ok () (session (later.catalog version) (later.catalog version :: log))) :
    Writes (ServiceFile version safe) Extends (¬ safe) action (earlier.catalog version)
      fun _ made => made = later.catalog version :=
  writes_commit (good_store version stage integral before) _ (good_store version stage integral after)
    (extends_store version (after.trans before.symm)) committed rfl

/-- The version is written when it is missing. -/
theorem versionCreate_writes : Writes (ServiceFile version safe) Extends (¬ safe) (DBVersion.create engine version)
    (stage.catalog version) fun _ after => after = stage.versionMade.catalog version := by
  have good := good_store version stage integral (store_tableMade version stage)
  have table : Writes (ServiceFile version safe) Extends (¬ safe) (runTransaction engine DBVersion.createCommand)
      (stage.catalog version) fun _ middle => middle = stage.tableMade.catalog version := by
    apply stage_commit version stage integral rfl (store_tableMade version stage)
    intro log
    rw [← ensure_version]
    exact DBVersion.create_table_run engine _ log
  have present : ∃ found, (stage.tableMade.catalog version).find "db_version" = some found ∧
      (found.rows ≠ [] ∧ stage.tableMade = stage.versionMade ∨
        found = DBVersion.emptyTable ∧ (stage.tableMade.catalog version).replace "db_version" (DBVersion.freshTable version) =
          stage.versionMade.catalog version) := by
    cases stage with
    | nothing | unversioned => exact ⟨_, rfl, .inr ⟨rfl, rfl⟩⟩
    | versioned | withCompanies => exact ⟨_, rfl, .inl ⟨List.cons_ne_nil _ _, rfl⟩⟩
    | made companies prices => exact ⟨_, rfl, .inl ⟨List.cons_ne_nil _ _, rfl⟩⟩
  unfold DBVersion.create
  apply writes_bind table
  rintro _ _ rfl
  obtain ⟨found, here, outcome⟩ := present
  apply writes_bind (writes_known good _ fun log => DBVersion.isVersionPresent_run engine _ log found here)
  rintro _ _ ⟨rfl, rfl⟩
  rcases outcome with ⟨filled, same⟩ | ⟨rfl, written⟩
  · rw [if_neg (by simp [filled]), same]
    exact writes_pure (good_store version stage integral (store_versionMade version stage)) rfl
  · rw [if_pos (by decide)]
    apply stage_commit version stage integral (store_tableMade version stage) (store_versionMade version stage)
    intro log
    rw [← written]
    exact DBVersion.insert_run engine _ log version here

/-- The tables of the data are made when they are missing. -/
theorem createAndInitAllTables_writes : Writes (ServiceFile version safe) Extends (¬ safe)
    (DBManager.createAndInitAllTables engine version) (stage.catalog version)
    fun _ after => after = stage.pricesMade.catalog version := by
  have companies : Writes (ServiceFile version safe) Extends (¬ safe) (Companies.create engine)
      (stage.versionMade.catalog version) fun _ middle => middle = stage.companiesMade.catalog version := by
    apply stage_commit version stage integral (store_versionMade version stage) (store_companiesMade version stage)
    intro log
    rw [← ensure_companies]
    exact Companies.create_run engine _ log
  have prices : Writes (ServiceFile version safe) Extends (¬ safe) (Prices.create engine)
      (stage.companiesMade.catalog version) fun _ after => after = stage.pricesMade.catalog version := by
    apply stage_commit version stage integral (store_companiesMade version stage) (store_pricesMade version stage)
    intro log
    rw [← ensure_prices]
    exact Prices.create_run engine _ log
  unfold DBManager.createAndInitAllTables DBVersion.init Companies.init Prices.init
  simp only [pure_bind]
  apply writes_bind (versionCreate_writes engine version stage integral)
  rintro _ _ rfl
  apply writes_bind companies
  rintro _ _ rfl
  apply writes_bind prices
  rintro _ _ rfl
  exact writes_pure (good_store version stage integral (store_pricesMade version stage)) rfl

/-- A start of the same version keeps the store of the file, and it does not throw. -/
theorem construct_writes (small : version < 2 ^ 32) : Writes (ServiceFile version safe) Extends (¬ safe)
    (DBManager.construct engine version) (stage.catalog version)
    fun _ after => after = (stage.store version).catalog := by
  have made : stage.pricesMade.catalog version = (stage.store version).catalog := by cases stage <;> rfl
  have good := good_store version stage integral (store_pricesMade version stage)
  unfold DBManager.construct
  apply writes_bind (createAndInitAllTables_writes engine version stage integral)
  rintro _ _ rfl
  rw [made] at good ⊢
  have holds : DBManager.HoldsVersion (stage.store version).catalog version := by
    cases stage <;> exact ⟨_, 1, rfl, rfl, rfl⟩
  exact writes_ask good () (fun log => DBManager.upgradeVersion_own engine _ log version holds small) rfl

end Start

section Update

variable (engine : Engine) {safe : Prop} (store : Store) (integral : safe → store.Integral)

/-- A store whose rows stay at their places gives a file that extends the earlier one. -/
theorem extends_rows {earlier later : Store} (companies : earlier.companies.rows <+: later.companies.rows)
    (prices : earlier.prices.rows <+: later.prices.rows) : Extends earlier.catalog later.catalog := by
  rintro name (rfl | rfl)
  · rw [Store.rowsOf_companies, Store.rowsOf_companies]
    exact companies.map Company.row
  · rw [Store.rowsOf_prices, Store.rowsOf_prices]
    exact prices.map Price.row

include integral

theorem serviceFile_store : ServiceFile store.version safe store.catalog :=
  ⟨.made store.companies store.prices, rfl, integral⟩

theorem Companies.add_writes (uuid name logo : String) :
    Writes (ServiceFile store.version safe) Extends (¬ safe) (Companies.add engine uuid name logo) store.catalog
      fun _ after => after = (store.withCompanies (store.companies.add engine uuid name logo)).catalog := by
  obtain ⟨added, rows⟩ := store.companies.add_rows engine uuid name logo
  have grows : Extends store.catalog (store.withCompanies (store.companies.add engine uuid name logo)).catalog := by
    apply extends_rows
    · rw [Store.withCompanies_companies, rows]
      exact List.prefix_append _ _
    · exact List.prefix_refl _
  have made := serviceFile_store (store.withCompanies (store.companies.add engine uuid name logo))
    fun held => store.integral_addCompany engine (integral held) uuid name logo
  exact writes_commit (serviceFile_store store integral) _ made grows
    (fun log => Companies.add_commits engine store log uuid name logo) rfl

/-- The lookup of a symbol writes nothing, whatever the symbol spells. -/
theorem Companies.getRowID_writes {uuid : String} (symbol : safe → SafeSymbol uuid)
    (there : store.companies.has uuid = true) :
    Writes (ServiceFile store.version safe) Extends (¬ safe) (Companies.getRowID engine uuid) store.catalog
      fun id after => after = store.catalog ∧ (safe → id = store.companies.idOf uuid) := by
  have good := serviceFile_store store integral
  by_cases careful : safe
  · obtain ⟨company, member, same⟩ := (store.companies.has_iff uuid).mp there
    apply writes_ask good company.id
    · intro log
      exact (symbol careful).getRowID_found engine store log company member same
    · rw [← same, store.companies.idOf_member member]
      exact ⟨rfl, fun _ => rfl⟩
  · apply writes_unchanged good careful (Companies.getRowID_unchanged engine uuid)
    intro id
    exact ⟨rfl, fun held => absurd held careful⟩

/-- A price that is stored stands behind the others; only a price that is not a number throws. -/
theorem Prices.add_writes (companyRowId : Int) (price : CommonData.Price)
    (number : safe → isNaN (Prices.widen price.price) = false)
    (owner : safe → ∃ company ∈ store.companies.rows, company.id = companyRowId) :
    Writes (ServiceFile store.version safe) Extends (¬ safe)
      (Prices.add engine companyRowId price.price price.dateTimestamp) store.catalog fun _ after =>
        after = (store.withPrices (store.prices.addAll engine companyRowId [price])).catalog := by
  have good := serviceFile_store store integral
  cases nan : isNaN (Prices.widen price.price) with
  | true =>
      have careless : ¬ safe := fun held => absurd (number held) (by rw [nan]; decide)
      exact writes_throw good careless _ fun log =>
        Prices.add_nan_run engine store log companyRowId price.price price.dateTimestamp nan
  | false =>
      have grows : Extends store.catalog
          (store.withPrices (store.prices.addAll engine companyRowId [price])).catalog :=
        extends_rows (List.prefix_refl _) (List.prefix_append _ _)
      have made := serviceFile_store (store.withPrices (store.prices.addAll engine companyRowId [price]))
        fun held => Store.addAll_integral engine store (integral held) (owner held) [price]
      exact writes_commit good _ made grows
        (fun log => Prices.add_commits engine store log companyRowId price.price price.dateTimestamp nan) rfl

theorem addAll_writes (companyRowId : Int) (list : List CommonData.Price)
    (numbers : safe → ∀ price ∈ list, isNaN (Prices.widen price.price) = false)
    (owner : safe → ∃ company ∈ store.companies.rows, company.id = companyRowId) :
    Writes (ServiceFile store.version safe) Extends (¬ safe)
      (list.forM fun price => Prices.add engine companyRowId price.price price.dateTimestamp) store.catalog
      fun _ after => after = (store.withPrices (store.prices.addAll engine companyRowId list)).catalog := by
  have made (done : List CommonData.Price) (held : safe) :
      (store.withPrices (store.prices.addAll engine companyRowId done)).Integral :=
    Store.addAll_integral engine store (integral held) (owner held) done
  have good (done : List CommonData.Price) (catalog : Catalog)
      (here : catalog = (store.withPrices (store.prices.addAll engine companyRowId done)).catalog) :
      ServiceFile store.version safe catalog := by
    rw [here]
    exact serviceFile_store (store.withPrices (store.prices.addAll engine companyRowId done)) (made done)
  have step (done : List CommonData.Price) (price : CommonData.Price) (catalog : Catalog) (member : price ∈ list)
      (here : catalog = (store.withPrices (store.prices.addAll engine companyRowId done)).catalog) :
      Writes (ServiceFile store.version safe) Extends (¬ safe)
        (Prices.add engine companyRowId price.price price.dateTimestamp) catalog fun _ after =>
          after = (store.withPrices (store.prices.addAll engine companyRowId (done ++ [price]))).catalog := by
    rw [here, PriceTable.addAll_append]
    exact Prices.add_writes engine _ (made done) companyRowId price (fun held => numbers held price member) owner
  exact writes_forM good list step [] rfl

/-- An outcome with a safe symbol does to the file what it does to the store. -/
theorem updateSymbol_writes (info : CommonData.CompanyInfo) (careful : safe → Controller.SafeInfo info) :
    Writes (ServiceFile store.version safe) Extends (¬ safe) (Controller.updateSymbol engine info) store.catalog
      fun _ after => ∃ later : Store, after = later.catalog ∧ later.version = store.version ∧
        (safe → later = store.updateSymbol engine info) := by
  have integralAdded (held : safe) := store.integral_addCompany engine (integral held) info.shortName info.fullName info.logo
  have there := store.companies.has_add engine info.shortName info.fullName info.logo
  unfold Controller.updateSymbol
  apply writes_bind (Companies.add_writes engine store integral info.shortName info.fullName info.logo)
  rintro _ _ rfl
  apply writes_bind (Companies.getRowID_writes engine _ integralAdded (fun held => (careful held).symbol) there)
  rintro companyRowId _ ⟨rfl, found⟩
  have owner (held : safe) : ∃ company ∈ (store.companies.add engine info.shortName info.fullName info.logo).rows,
      company.id = companyRowId := by
    obtain ⟨company, member, _, key⟩ := store.company_updateSymbol engine info
    exact ⟨company, member, key.symm.trans (found held).symm⟩
  apply writes_mono (addAll_writes engine _ integralAdded companyRowId info.priceList
    (fun held => (careful held).numbers) owner)
  rintro _ _ rfl
  refine ⟨_, rfl, rfl, fun held => ?_⟩
  rw [found held]
  rfl

/-- The file of a store after some outcomes, as far as they are safe. -/
def Reaches (fetched : List Controller.Fetched) (safe : Prop) (catalog : Catalog) : Prop :=
  ∃ later : Store, catalog = later.catalog ∧ later.version = store.version ∧
    (safe → later = store.updateAll engine fetched)

theorem updateAll_writes (fetched : List Controller.Fetched)
    (careful : safe → ∀ outcome ∈ fetched, Controller.SafeInfo (Controller.getCompanyInfo outcome)) :
    Writes (ServiceFile store.version safe) Extends (¬ safe) (Controller.updateAll engine fetched) store.catalog
      fun _ after => Reaches engine store fetched safe after := by
  have integralLater {later : Store} {done : List Controller.Fetched}
      (same : safe → later = store.updateAll engine done) (held : safe) : later.Integral := by
    rw [same held]
    exact store.updateAll_integral engine (integral held) done
  have good (done : List Controller.Fetched) (catalog : Catalog) (reached : Reaches engine store done safe catalog) :
      ServiceFile store.version safe catalog := by
    obtain ⟨later, rfl, version, same⟩ := reached
    rw [← version]
    exact serviceFile_store later (integralLater same)
  have step (done : List Controller.Fetched) (outcome : Controller.Fetched) (catalog : Catalog)
      (member : outcome ∈ fetched) (reached : Reaches engine store done safe catalog) :
      Writes (ServiceFile store.version safe) Extends (¬ safe)
        (Controller.updateSymbol engine (Controller.getCompanyInfo outcome)) catalog
        fun _ after => Reaches engine store (done ++ [outcome]) safe after := by
    obtain ⟨later, rfl, version, same⟩ := reached
    have updated := updateSymbol_writes engine later (integralLater same) (Controller.getCompanyInfo outcome)
      fun held => careful held outcome member
    rw [version] at updated
    apply writes_mono updated
    rintro _ _ ⟨final, rfl, kept, updates⟩
    refine ⟨final, rfl, kept, fun held => ?_⟩
    rw [updates held, same held, Store.updateAll, Store.updateAll, List.foldl_append]
    rfl
  exact writes_forM good fetched step [] ⟨store, rfl, rfl, fun _ => rfl⟩

end Update

theorem Company.row_injective : Function.Injective Company.row := by
  intro first second same
  cases first
  cases second
  simpa [Company.row] using same

theorem Price.row_injective : Function.Injective Price.row := by
  intro first second same
  cases first
  cases second
  simpa [Price.row] using same

theorem attributions_stage (version : Nat) (stage : Stage) :
    Controller.attributions (stage.catalog version) = (stage.store version).attributions := by
  rw [← Store.attributions_catalog, Controller.attributions, Controller.attributions,
    rows_stage version stage "companies" (.inl rfl), rows_stage version stage "prices" (.inr rfl)]

/-- A file that grows from a good one keeps the symbols of its prices. -/
theorem attributions_grow {version : Nat} {safe : Prop} (held : safe) {before after : Catalog}
    (first : ServiceFile version safe before) (last : ServiceFile version safe after) (grows : Extends before after) :
    Controller.attributions before <+: Controller.attributions after := by
  obtain ⟨earlier, rfl, integral⟩ := first
  obtain ⟨later, rfl, _⟩ := last
  have companies := grows "companies" (.inl rfl)
  have prices := grows "prices" (.inr rfl)
  rw [rows_stage version earlier _ (.inl rfl), rows_stage version later _ (.inl rfl), Store.rowsOf_companies,
    Store.rowsOf_companies, List.prefix_map_iff_of_injective Company.row_injective] at companies
  rw [rows_stage version earlier _ (.inr rfl), rows_stage version later _ (.inr rfl), Store.rowsOf_prices,
    Store.rowsOf_prices, List.prefix_map_iff_of_injective Price.row_injective] at prices
  rw [attributions_stage, attributions_stage]
  exact Store.attributions_extends (integral held) companies prices

end Peakwork.Db

namespace Peakwork.Controller

open Sql Db

/-- Every answer that the process gets is safe. -/
def Process.Safe (process : Process) : Prop := ∀ info, .answered info ∈ process.fetched → SafeInfo info

variable (engine : Engine)

/-- The prices that a process fetches with their symbols. -/
def Process.fetchedPrices (process : Process) : List Attribution :=
  process.fetched.flatMap fun outcome => Controller.fetchedPrices engine (getCompanyInfo outcome)

/-- A killed process loses only its last prices, any other none. -/
structure Process.Keeps (process : Process) (kept : List Attribution) : Prop where
  first : kept <+: process.fetchedPrices engine
  whole : process.killedAfter = none → kept = process.fetchedPrices engine

/-- A process leaves one of its files, and the last one when it is not killed. -/
theorem leaves_mem {version : Nat} {catalog final : Catalog} {commits : List Catalog} {process : Process}
    (files : process.files engine version catalog = catalog :: commits)
    (last : (catalog :: commits).getLast? = some final) :
    process.leaves engine version catalog ∈ catalog :: commits ∧
      (process.killedAfter = none → process.leaves engine version catalog = final) := by
  unfold Process.leaves
  rw [files]
  cases killed : process.killedAfter with
  | none =>
      have whole : (catalog :: commits).getLastD catalog = final := by
        rw [List.getLastD_eq_getLast?, last, Option.getD_some]
      show (catalog :: commits).getLastD catalog ∈ _ ∧ (_ → (catalog :: commits).getLastD catalog = final)
      rw [whole]
      exact ⟨List.mem_of_getLast? last, fun _ => rfl⟩
  | some transactions =>
      constructor
      · show ((catalog :: commits).take (transactions + 1)).getLastD catalog ∈ _
        rw [List.take_succ_cons, List.getLastD_cons]
        rcases List.mem_cons.mp List.getLastD_mem_cons with start | later
        · rw [start]
          exact List.mem_cons_self
        · exact List.mem_cons_of_mem _ (List.mem_of_mem_take later)
      · intro never
        cases never

section Processes

variable (version : Nat) (small : version < 2 ^ 32) {safe : Prop}
include small

/-- One process opens the file and updates the prices. -/
theorem run_writes (stage : Stage) (integral : safe → (stage.store version).Integral) (process : Process)
    (careful : safe → process.Safe) :
    Writes (ServiceFile version safe) Extends (¬ safe) (process.run engine version) (stage.catalog version)
      fun _ after => Reaches engine (stage.store version) process.fetched safe after := by
  have same : (stage.store version).version = version := by cases stage <;> rfl
  unfold Process.run
  apply writes_bind (construct_writes engine version stage integral small)
  rintro _ _ rfl
  rw [updatePrices_eq]
  have updates := updateAll_writes engine (stage.store version) integral process.fetched
    fun held => safe_outcomes (careful held)
  rw [same] at updates
  exact updates

/-- The files of a process are its journal. -/
theorem files_journal {catalog : Catalog} (good : ServiceFile version safe catalog) (process : Process)
    (careful : safe → process.Safe) :
    ∃ commits final, process.files engine version catalog = catalog :: commits ∧
      Journal (ServiceFile version safe) Extends catalog commits final ∧
      (safe → attributions final = attributions catalog ++ process.fetchedPrices engine) := by
  obtain ⟨stage, rfl, integral⟩ := good
  obtain ⟨commits, final, journal, outcome⟩ := run_writes engine version small stage integral process careful []
  refine ⟨commits, final, ?_, journal, ?_⟩
  · rw [List.append_nil] at outcome
    unfold Process.files Connection.opened
    rcases outcome with ⟨_, done, _⟩ | ⟨_, _, failed⟩
    · simp only [done, List.reverse_reverse]
    · simp only [failed, List.reverse_reverse]
  · intro held
    rcases outcome with ⟨_, _, later, rfl, _, updated⟩ | ⟨careless, _⟩
    · rw [attributions_stage, Store.attributions_catalog, updated held,
        Store.updateAll_attributions engine _ (integral held)]
      rfl
    · exact absurd held careless

/-- What one process leaves grows from what it finds. -/
theorem leaves_grows {catalog : Catalog} (good : ServiceFile version safe catalog) (process : Process)
    (careful : safe → process.Safe) :
    ServiceFile version safe (process.leaves engine version catalog) ∧
      Extends catalog (process.leaves engine version catalog) ∧
      (safe → ∃ kept, process.Keeps engine kept ∧
        attributions (process.leaves engine version catalog) = attributions catalog ++ kept) := by
  obtain ⟨commits, final, files, journal, fetched⟩ := files_journal engine version small good process careful
  obtain ⟨member, whole⟩ := leaves_mem engine files journal.last
  obtain ⟨left, grows, before⟩ := journal.between Extends.refl Extends.trans member
  refine ⟨left, grows, fun held => ?_⟩
  obtain ⟨last, _, _⟩ := journal.between Extends.refl Extends.trans
    (List.mem_of_getLast? journal.last)
  obtain ⟨kept, added⟩ := attributions_grow held good left grows
  have inside := attributions_grow held left last before
  rw [fetched held, ← added, List.prefix_append_right_inj] at inside
  refine ⟨kept, ⟨inside, fun never => ?_⟩, added.symm⟩
  rw [whole never, fetched held] at added
  exact List.append_cancel_left added

/-- What a service leaves grows from what it finds. -/
theorem serve_grows {catalog : Catalog} (good : ServiceFile version safe catalog) (processes : List Process)
    (careful : safe → ∀ process ∈ processes, process.Safe) :
    ServiceFile version safe (serve engine version processes catalog) ∧
      Extends catalog (serve engine version processes catalog) ∧
      (safe → ∃ kept, List.Forall₂ (Process.Keeps engine) processes kept ∧
        attributions (serve engine version processes catalog) = attributions catalog ++ kept.flatten) := by
  induction processes generalizing catalog with
  | nil => exact ⟨good, Extends.refl catalog, fun _ => ⟨[], .nil, (List.append_nil _).symm⟩⟩
  | cons process rest ih =>
      obtain ⟨left, grows, one⟩ := leaves_grows engine version small good process
        fun held => careful held process List.mem_cons_self
      obtain ⟨final, all, others⟩ := ih left fun held other member => careful held other (List.mem_cons_of_mem _ member)
      refine ⟨final, Extends.trans _ _ _ grows all, fun held => ?_⟩
      obtain ⟨kept, first, added⟩ := one held
      obtain ⟨parts, last, behind⟩ := others held
      refine ⟨kept :: parts, .cons first last, ?_⟩
      rw [List.flatten_cons, ← List.append_assoc, ← added]
      exact behind

end Processes

theorem serviceFile_nothing (version : Nat) (safe : Prop) : ServiceFile version safe [] :=
  ⟨.nothing, rfl, fun _ _ member => absurd member List.not_mem_nil⟩

theorem keeps_all {processes : List Process} {kept : List (List Attribution)}
    (parts : List.Forall₂ (Process.Keeps engine) processes kept)
    (alive : ∀ process ∈ processes, process.killedAfter = none) :
    kept = processes.map (Process.fetchedPrices engine) := by
  induction parts with
  | nil => rfl
  | cons first _ ih =>
      rw [List.map_cons, first.whole (alive _ List.mem_cons_self),
        ih fun process member => alive process (List.mem_cons_of_mem _ member)]

/-- Processes that are not killed leave all prices that they fetch. -/
theorem serve_undisturbed (version : Nat) (small : version < 2 ^ 32) (processes : List Process)
    (careful : ∀ process ∈ processes, process.Safe) (alive : ∀ process ∈ processes, process.killedAfter = none) :
    attributions (serve engine version processes []) = processes.flatMap (Process.fetchedPrices engine) := by
  obtain ⟨_, _, history⟩ := serve_grows engine version small (serviceFile_nothing version True) processes
    fun _ => careful
  obtain ⟨kept, parts, whole⟩ := history trivial
  rw [whole, keeps_all engine parts alive, List.flatMap_def]
  rfl

/-- The service answers with AAPL. -/
def alwaysApple (_round _place : Nat) (_symbol : String) : Fetched := .answered apple

/-- The first process is killed when it has stored the company and before it stores the price. -/
def killedEarly : Process := ⟨["AAPL"], 2, alwaysApple, some 5⟩

def undisturbed : Process := ⟨["AAPL"], 1, alwaysApple, none⟩

theorem safe_alwaysApple {process : Process} (always : process.fetch = alwaysApple) : process.Safe := by
  intro info member
  unfold Process.fetched outcomes at member
  obtain ⟨_, _, inside⟩ := List.mem_flatMap.mp member
  obtain ⟨_, _, same⟩ := List.mem_map.mp inside
  rw [always, alwaysApple, Fetched.answered.injEq] at same
  subst same
  exact ⟨⟨by decide, by decide, by decide⟩, by decide⟩

/-- No process of the service takes a row away, however the processes end and whatever they are answered. -/
theorem rows_survive (version : Nat) (small : version < 2 ^ 32) (earlier later : List Process) :
    Extends (serve engine version earlier []) (serve engine version (earlier ++ later) []) := by
  have careless (processes : List Process) : False → ∀ process ∈ processes, process.Safe := fun none_ => none_.elim
  obtain ⟨left, _, _⟩ := serve_grows engine version small (serviceFile_nothing version False) earlier (careless earlier)
  obtain ⟨_, grows, _⟩ := serve_grows engine version small left later (careless later)
  rw [serve, serve, List.foldl_append]
  exact grows

/-- There are prices in the file before the second process. -/
theorem rows_survive_example :
    attributions (serve Engine.plain 1 [undisturbed] []) = undisturbed.fetchedPrices Engine.plain ∧
      undisturbed.fetchedPrices Engine.plain ≠ [] ∧
      Extends (serve Engine.plain 1 [undisturbed] []) (serve Engine.plain 1 ([undisturbed] ++ [killedEarly]) []) := by
  refine ⟨?_, by decide, rows_survive Engine.plain 1 (by decide) [undisturbed] [killedEarly]⟩
  rw [serve_undisturbed Engine.plain 1 (by decide) [undisturbed], List.flatMap_singleton]
  · exact List.forall_mem_singleton.mpr (safe_alwaysApple rfl)
  · exact List.forall_mem_singleton.mpr rfl

/-- The prices in the file are those of all processes in turn, less the last ones of the killed processes. -/
theorem history_attributed (version : Nat) (small : version < 2 ^ 32) (processes : List Process)
    (careful : ∀ process ∈ processes, process.Safe) :
    ∃ kept, List.Forall₂ (Process.Keeps engine) processes kept ∧
      attributions (serve engine version processes []) = kept.flatten := by
  obtain ⟨_, _, history⟩ := serve_grows engine version small (serviceFile_nothing version True) processes
    fun _ => careful
  exact history trivial

theorem history_attributed_example :
    ∃ kept, List.Forall₂ (Process.Keeps Engine.plain) [killedEarly, undisturbed] kept ∧
      attributions (serve Engine.plain 1 [killedEarly, undisturbed] []) = kept.flatten := by
  apply history_attributed Engine.plain 1 (by decide)
  rw [List.forall_mem_cons, List.forall_mem_singleton]
  exact ⟨safe_alwaysApple rfl, safe_alwaysApple rfl⟩

end Peakwork.Controller
