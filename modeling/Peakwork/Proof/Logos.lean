/-
This file decides when a logo that was fetched is the one that is stored.
-/

import Peakwork.Proof.UpdatePrices

namespace Peakwork.Db

open Sql

variable (engine : Engine) (store : Store) (log : List Catalog)

/-- The lookup of a symbol changes nothing, whatever the symbol spells. -/
theorem Companies.getRowID_unchanged (uuid : String) (connection : Connection) :
    (∃ id, (Companies.getRowID engine uuid).run connection = .ok id connection) ∨
      ∃ error, (Companies.getRowID engine uuid).run connection = .error error connection := by
  have spelled : ∃ rest, firstStatement (tokens (Companies.getRowIDCommand uuid)) = .word "SELECT" :: rest := by
    rw [Companies.tokens_getRowID]
    exact ⟨_, rfl⟩
  obtain ⟨rest, spelled⟩ := spelled
  unfold Companies.getRowID
  rcases execAndGet_select engine spelled connection with ⟨value, done⟩ | ⟨error, failed⟩
  · rw [Action.bind_ok done]
    exact .inl ⟨_, rfl⟩
  · rw [Action.bind_error failed]
    exact .inr ⟨error, rfl⟩

theorem Companies.getRowID_ends {uuid : String} {id : Int} {connection after : Connection}
    (done : (Companies.getRowID engine uuid).run connection = .ok id after) : after = connection := by
  rcases Companies.getRowID_unchanged engine uuid connection with ⟨found, unchanged⟩ | ⟨error, failed⟩
  · rw [unchanged] at done
    cases done
    rfl
  · rw [failed] at done
    cases done

/-- A loop over prices that returns has changed only the prices. -/
theorem Store.addPrices_ends (companyRowId : Int) (list : List CommonData.Price) {after : Connection}
    (done : (list.forM fun price =>
      Prices.add engine companyRowId price.price price.dateTimestamp).run (session store.catalog log) =
        .ok () after) :
    ∃ prices log, after = session (store.withPrices prices).catalog log := by
  induction list generalizing store log with
  | nil =>
      cases done
      exact ⟨store.prices, log, rfl⟩
  | cons price rest ih =>
      obtain ⟨_, middle, first, others⟩ := Action.ends_of_bind done
      cases nan : isNaN (Prices.widen price.price) with
      | true =>
          rw [Prices.add_nan_run engine store log companyRowId price.price price.dateTimestamp nan] at first
          cases first
      | false =>
          obtain ⟨added, run⟩ := Prices.add_run engine store log companyRowId price.price price.dateTimestamp nan
          rw [run] at first
          cases first
          obtain ⟨prices, log, reached⟩ := ih _ _ others
          exact ⟨prices, log, reached⟩

/-- An update of one symbol that returns has added its company. -/
theorem Store.updateSymbol_ends {info : CommonData.CompanyInfo} {after : Connection}
    (done : (Controller.updateSymbol engine info).run (session store.catalog log) = .ok () after) :
    ∃ final log, after = session (Store.catalog final) log ∧
      final.companies = store.companies.add engine info.shortName info.fullName info.logo := by
  obtain ⟨added, insertion⟩ := Companies.add_run engine store log info.shortName info.fullName info.logo
  unfold Controller.updateSymbol at done
  rw [Action.bind_ok insertion] at done
  obtain ⟨id, middle, lookup, others⟩ := Action.ends_of_bind done
  rw [Companies.getRowID_ends engine lookup] at others
  obtain ⟨prices, log, reached⟩ := Store.addPrices_ends engine _ added id info.priceList others
  exact ⟨_, log, reached, rfl⟩

namespace CompanyTable

variable (companies : CompanyTable)

/-- The companies after some outcomes. -/
def addAll (fetched : List Controller.Fetched) : CompanyTable :=
  fetched.foldl (fun companies outcome =>
    let info := Controller.getCompanyInfo outcome
    companies.add engine info.shortName info.fullName info.logo) companies

def logoOf (uuid : String) : Option String := (companies.rows.find? (·.uuid = uuid)).map (·.logo)

/-- Only a new symbol brings its logo along. -/
theorem logoOf_add (uuid name logo symbol : String) : (companies.add engine uuid name logo).logoOf symbol =
    (companies.logoOf symbol).or (if uuid = symbol then some logo else none) := by
  unfold add
  split
  · rename_i fresh
    simp only [logoOf, append, List.find?_append, Option.map_or]
    congr 1
    by_cases same : uuid = symbol
    · simp [same]
    · simp [same]
  · rename_i there
    show companies.logoOf symbol = _
    by_cases same : uuid = symbol
    · subst same
      have present : companies.has uuid = true := by simpa using there
      have found : (companies.rows.find? (·.uuid = uuid)).isSome = true := by
        rw [List.find?_isSome]
        simpa [has] using present
      rw [Option.or_of_isSome]
      rw [logoOf, Option.isSome_map]
      exact found
    · rw [if_neg same, Option.or_none]

/-- The first logo of a symbol stays. -/
theorem logoOf_addAll (fetched : List Controller.Fetched) (symbol : String) :
    (companies.addAll engine fetched).logoOf symbol = (companies.logoOf symbol).or
      (((fetched.map Controller.getCompanyInfo).find? (·.shortName = symbol)).map (·.logo)) := by
  induction fetched generalizing companies with
  | nil => rw [List.map_nil, List.find?_nil, Option.map_none, Option.or_none, addAll, List.foldl_nil]
  | cons outcome rest ih =>
      have step : companies.addAll engine (outcome :: rest) = (companies.add engine
        (Controller.getCompanyInfo outcome).shortName (Controller.getCompanyInfo outcome).fullName
        (Controller.getCompanyInfo outcome).logo).addAll engine rest := rfl
      rw [step, ih, logoOf_add, Option.or_assoc]
      congr 1
      by_cases same : (Controller.getCompanyInfo outcome).shortName = symbol
      · simp [same]
      · simp [same]

end CompanyTable

/-- Rounds that return have added the companies of their outcomes. -/
theorem Store.updateAll_ends (fetched : List Controller.Fetched) {after : Connection}
    (done : (Controller.updateAll engine fetched).run (session store.catalog log) = .ok () after) :
    ∃ final log, after = session (Store.catalog final) log ∧
      final.companies = store.companies.addAll engine fetched := by
  induction fetched generalizing store log with
  | nil =>
      cases done
      exact ⟨store, log, rfl, rfl⟩
  | cons outcome rest ih =>
      obtain ⟨_, middle, first, others⟩ := Action.ends_of_bind done
      obtain ⟨next, log, rfl, companies⟩ := store.updateSymbol_ends engine _ first
      obtain ⟨final, log, reached, all⟩ := ih next log others
      rw [companies] at all
      exact ⟨final, log, reached, all⟩

end Peakwork.Db

namespace Peakwork.Controller

open Sql CommonData Db

variable (engine : Engine)

/-- The row of the symbol shows a logo. -/
def ShowsLogo (connection : Connection) (symbol : String) : Prop :=
  ∃ row ∈ rowsOf connection.database.catalog "companies", fieldOf Companies.columns "uuid" row = .text symbol ∧
    ∃ id, fieldOf Companies.columns "id" row = .integer id ∧
      ∃ link, link ≠ "" ∧ (Companies.getLogoByRowID engine id).run connection = .ok link connection

/-- A logo that some round has fetched is shown after that round and after all later ones. -/
def LogosStay (start : Connection) (symbols : List String) (rounds : Nat)
    (fetch : Nat → Nat → String → Fetched) : Prop :=
  ∀ count ≤ rounds, ∀ after, (updatePrices engine symbols count fetch).run start = .ok () after →
    ∀ info, .answered info ∈ outcomes symbols count fetch → info.logo ≠ "" → ShowsLogo engine after info.shortName

/-- The logo that a symbol has at first, in the table or among the outcomes. -/
def firstLogo (start : Connection) (fetched : List Fetched) (symbol : String) : Option Value :=
  (((rowsOf start.database.catalog "companies").find? fun row =>
      fieldOf Companies.columns "uuid" row = .text symbol).map (fieldOf Companies.columns "logo")).or
    (((fetched.map getCompanyInfo).find? (·.shortName = symbol)).map fun info => .text info.logo)

/-- No symbol whose logo is fetched later came first without one. -/
def FirstLogosThere (start : Connection) (fetched : List Fetched) : Prop :=
  ∀ info, .answered info ∈ fetched → info.logo ≠ "" → firstLogo start fetched info.shortName ≠ some (.text "")

section Store

variable (store : Store) (log : List Catalog)

theorem fieldOf_logo (company : Company) :
    fieldOf Companies.columns "logo" company.row = .text company.logo :=
  fieldOf_place 3 (by decide) company.row

theorem getLogoByRowID_run (company : Company) (member : company ∈ store.companies.rows) :
    (Companies.getLogoByRowID engine company.id).run (session store.catalog log) =
      .ok company.logo (session store.catalog log) :=
  Companies.getField_run engine store log .logo company member

theorem showsLogo_iff (symbol : String) : ShowsLogo engine (session store.catalog log) symbol ↔
    ∃ link, link ≠ "" ∧ store.companies.logoOf symbol = some link := by
  constructor
  · rintro ⟨row, inside, named, id, key, link, full, read⟩
    rw [session_catalog, Store.rowsOf_companies] at inside
    obtain ⟨company, member, rfl⟩ := List.mem_map.mp inside
    rw [fieldOf_uuid] at named
    rw [fieldOf_id] at key
    obtain rfl := Value.text.inj named
    obtain rfl := Value.integer.inj key
    rw [getLogoByRowID_run engine store log company member] at read
    cases read
    refine ⟨company.logo, full, ?_⟩
    rw [CompanyTable.logoOf, CompanyTable.find_key store.companies.uuids member]
    rfl
  · rintro ⟨link, full, found⟩
    obtain ⟨company, first, rfl⟩ := Option.map_eq_some_iff.mp found
    have member := List.mem_of_find?_eq_some first
    have same : company.uuid = symbol := by simpa using List.find?_some first
    refine ⟨company.row, ?_, ?_, company.id, fieldOf_id company, company.logo, full,
      getLogoByRowID_run engine store log company member⟩
    · rw [session_catalog, Store.rowsOf_companies]
      exact List.mem_map_of_mem member
    · rw [fieldOf_uuid, same]

theorem firstLogo_store (fetched : List Fetched) (symbol : String) :
    firstLogo (session store.catalog log) fetched symbol =
      ((store.companies.addAll engine fetched).logoOf symbol).map .text := by
  have symbols : (fun row => decide (fieldOf Companies.columns "uuid" row = .text symbol)) ∘ Company.row =
      fun company => decide (company.uuid = symbol) := by
    funext company
    simp [fieldOf_uuid]
  have logos : fieldOf Companies.columns "logo" ∘ Company.row = Value.text ∘ (·.logo) := by
    funext company
    exact fieldOf_logo company
  rw [firstLogo, CompanyTable.logoOf_addAll, session_catalog, Store.rowsOf_companies, List.find?_map, symbols,
    Option.map_map, logos, Option.map_or, CompanyTable.logoOf, Option.map_map, Option.map_map]
  rfl

theorem answered_found {fetched : List Fetched} {info : CompanyInfo} (member : .answered info ∈ fetched) :
    ((fetched.map getCompanyInfo).find? (·.shortName = info.shortName)).isSome = true := by
  rw [List.find?_isSome]
  exact ⟨info, List.mem_map_of_mem member, by simp⟩

/-- More outcomes do not change which logo of a symbol is the first. -/
theorem firstLogo_append (start : Connection) {earlier : List Fetched} (later : List Fetched) {info : CompanyInfo}
    (member : .answered info ∈ earlier) :
    firstLogo start (earlier ++ later) info.shortName = firstLogo start earlier info.shortName := by
  unfold firstLogo
  rw [List.map_append, List.find?_append, Option.or_of_isSome (answered_found member)]

theorem outcomes_prefix (symbols : List String) (fetch : Nat → Nat → String → Fetched) {count rounds : Nat}
    (fewer : count ≤ rounds) : ∃ later, outcomes symbols rounds fetch = outcomes symbols count fetch ++ later := by
  obtain ⟨more, rfl⟩ := Nat.exists_eq_add_of_le fewer
  rw [outcomes, List.range_add, List.flatMap_append]
  exact ⟨_, rfl⟩

variable {store log}

/-- After rounds that return, a fetched logo is shown exactly when the first one is not empty. -/
theorem showsLogo_updatePrices {symbols : List String} {count : Nat} {fetch : Nat → Nat → String → Fetched}
    {after : Connection} (done : (updatePrices engine symbols count fetch).run (session store.catalog log) = .ok () after)
    {info : CompanyInfo} (member : .answered info ∈ outcomes symbols count fetch) :
    ShowsLogo engine after info.shortName ↔
      firstLogo (session store.catalog log) (outcomes symbols count fetch) info.shortName ≠ some (.text "") := by
  rw [updatePrices_eq] at done
  obtain ⟨final, last, rfl, companies⟩ := store.updateAll_ends engine log _ done
  have there : ((store.companies.addAll engine (outcomes symbols count fetch)).logoOf info.shortName).isSome := by
    rw [CompanyTable.logoOf_addAll, Option.isSome_or, Option.isSome_map, answered_found member, Bool.or_true]
  obtain ⟨link, found⟩ := Option.isSome_iff_exists.mp there
  rw [showsLogo_iff, companies, firstLogo_store engine, found]
  simp

/-- Fetched logos stay exactly when no symbol came first without its logo. -/
theorem logosStay_store_iff {symbols : List String} {rounds : Nat} {fetch : Nat → Nat → String → Fetched}
    {after : Connection}
    (done : (updatePrices engine symbols rounds fetch).run (session store.catalog log) = .ok () after) :
    LogosStay engine (session store.catalog log) symbols rounds fetch ↔
      FirstLogosThere (session store.catalog log) (outcomes symbols rounds fetch) := by
  constructor
  · intro stay info member full
    exact (showsLogo_updatePrices engine done member).mp (stay rounds le_rfl after done info member full)
  · intro there count fewer middle returned info member full
    apply (showsLogo_updatePrices engine returned member).mpr
    obtain ⟨later, more⟩ := outcomes_prefix symbols fetch fewer
    have whole := there info (by rw [more]; exact List.mem_append_left _ member) full
    rw [more] at whole
    rwa [firstLogo_append _ later member] at whole

end Store

/-- In all rounds on a reachable database, a logo that is fetched stays exactly when its symbol did not come
first without one. -/
theorem logosStay_iff (version : Nat) (attempts : List Attempt) (created : Connection)
    (made : (DBManager.createAndInitAllTables engine version).run (Connection.opened []) = .ok () created)
    (symbols : List String) (rounds : Nat) (fetch : Nat → Nat → String → Fetched) (after : Connection)
    (done : (updatePrices engine symbols rounds fetch).run (play (attempt engine) created attempts) = .ok () after) :
    LogosStay engine (play (attempt engine) created attempts) symbols rounds fetch ↔
      FirstLogosThere (play (attempt engine) created attempts) (outcomes symbols rounds fetch) := by
  obtain ⟨store, log, reached⟩ := play_holdsStore engine version attempts created made
  rw [reached] at done ⊢
  exact logosStay_store_iff engine done

def logoLink : String := "https://storage.googleapis.com/iex/api/logos/AAPL.png"

/-- The request for the logo fails in the first round only. -/
def logoLater (round _place : Nat) (_symbol : String) : Fetched :=
  .answered { apple with logo := if round = 0 then "" else logoLink }

theorem logoLater_outcomes : outcomes ["AAPL"] 2 logoLater =
    [.answered { apple with logo := "" }, .answered { apple with logo := logoLink }] := rfl

theorem logoLater_runs : ∃ created after,
    (DBManager.createAndInitAllTables Engine.plain 1).run (Connection.opened []) = .ok () created ∧
      (∃ log, created = session (Store.empty 1).catalog log) ∧
      (updatePrices Engine.plain ["AAPL"] 2 logoLater).run created = .ok () after := by
  obtain ⟨log, created⟩ := createAndInitAllTables_empty Engine.plain 1
  have safe : ∀ outcome ∈ outcomes ["AAPL"] 2 logoLater, SafeInfo (getCompanyInfo outcome) := by
    intro outcome member
    rw [logoLater_outcomes] at member
    have symbol : SafeSymbol "AAPL" := ⟨by decide, by decide, by decide⟩
    have numbers : ∀ price ∈ apple.priceList, isNaN (Prices.widen price.price) = false := by decide
    rcases List.mem_cons.mp member with rfl | second
    · exact ⟨symbol, numbers⟩
    · rw [List.mem_singleton.mp second]
      exact ⟨symbol, numbers⟩
  obtain ⟨after, run, _⟩ := Store.updateAll_run Engine.plain (Store.empty 1) _ safe _ ⟨log, rfl⟩
  exact ⟨_, after, created, ⟨log, rfl⟩, by rw [updatePrices_eq]; exact run⟩

theorem logosStay_iff_example : ∃ created,
    (LogosStay Engine.plain (play (attempt Engine.plain) created []) ["AAPL"] 2 logoLater ↔
      FirstLogosThere (play (attempt Engine.plain) created []) (outcomes ["AAPL"] 2 logoLater)) := by
  obtain ⟨created, after, made, _, done⟩ := logoLater_runs
  exact ⟨created, logosStay_iff Engine.plain 1 [] created made ["AAPL"] 2 logoLater after done⟩

/-- The logo that is fetched in the second round is never stored. -/
theorem logo_lost : ¬ ∀ (engine : Engine) (version : Nat) (start after : Connection) (symbols : List String)
    (rounds : Nat) (fetch : Nat → Nat → String → Fetched),
    (DBManager.createAndInitAllTables engine version).run (Connection.opened []) = .ok () start →
    (updatePrices engine symbols rounds fetch).run start = .ok () after →
      LogosStay engine start symbols rounds fetch := by
  intro claimed
  obtain ⟨created, after, made, ⟨log, rfl⟩, done⟩ := logoLater_runs
  have stay := claimed Engine.plain 1 _ after ["AAPL"] 2 logoLater made done
  have there := (logosStay_store_iff Engine.plain done).mp stay
  rw [logoLater_outcomes] at there
  exact there { apple with logo := logoLink } (by simp) (by decide) rfl

end Peakwork.Controller
