/-
This file shows that the companies are a map from their keys.
-/

import Peakwork.Library.Registry
import Peakwork.Proof.Db.Lookup

namespace Peakwork.Db

open Sql

/-- What is kept of a company under its key. -/
@[ext]
structure Entry where
  uuid : String
  name : String
  logo : String
  deriving DecidableEq, Repr

inductive CompanyCall where
  | add (uuid name logo : String)
  | setLogoByID (rowId : Int) (link : String)
  | removeByRowID (rowId : Int)
  deriving DecidableEq, Repr

namespace CompanyCall

def call : CompanyCall → Call
  | .add uuid name logo => .addCompany uuid name logo
  | .setLogoByID rowId link => .setLogoByID rowId link
  | .removeByRowID rowId => .removeCompany rowId

/-- The link that a call sets for a row. -/
def linkFor (rowId : Int) : CompanyCall → Option String
  | .setLogoByID id link => if id = rowId then some link else none
  | _ => none

end CompanyCall

/-- The last link that is set for a row, or the logo that it had. -/
def lastLogo (rowId : Int) (logo : String) (later : List CompanyCall) : String :=
  ((later.filterMap (CompanyCall.linkFor rowId)).getLast?).getD logo

variable (engine : Engine)

def afterCall (connection : Connection) (call : CompanyCall) : Connection :=
  stateOf ((call.call.action engine).run connection)

/-- All methods find the entry under the key. -/
structure Shows (connection : Connection) (rowId : Int) (entry : Entry) : Prop where
  present : (Companies.isIDPresent engine rowId).run connection = .ok true connection
  uuid : (Companies.getUUIDByRowID engine rowId).run connection = .ok entry.uuid connection
  name : (Companies.getNameByRowID engine rowId).run connection = .ok entry.name connection
  logo : (Companies.getLogoByRowID engine rowId).run connection = .ok entry.logo connection

def noResults : DbError := .logicError "There is no one results"

/-- No method finds anything under the key. -/
structure Missing (connection : Connection) (rowId : Int) : Prop where
  absent : (Companies.isIDPresent engine rowId).run connection = .ok false connection
  uuid : (Companies.getUUIDByRowID engine rowId).run connection = .error noResults connection
  name : (Companies.getNameByRowID engine rowId).run connection = .error noResults connection
  logo : (Companies.getLogoByRowID engine rowId).run connection = .error noResults connection

theorem Shows.not_missing {connection : Connection} {rowId : Int} {entry : Entry} (shows : Shows engine connection rowId entry) :
    ¬ Missing engine connection rowId := by
  intro missing
  have present := shows.present
  rw [missing.absent] at present
  cases present

/-- An addition of the run has made the row, and the entry is what the addition and the later calls give. -/
def MadeBy (start : Connection) (calls : List CompanyCall) (rowId : Int) (entry : Entry) : Prop :=
  ∃ earlier uuid name logo later, calls = earlier ++ .add uuid name logo :: later ∧
    Missing engine (play (afterCall engine) start earlier) rowId ∧
    Shows engine (play (afterCall engine) start (earlier ++ [.add uuid name logo])) rowId ⟨uuid, name, logo⟩ ∧
    entry = ⟨uuid, name, lastLogo rowId logo later⟩

/-- An addition of a symbol that no row shows puts a row under a new key, and another one changes nothing. -/
structure AddsOnce (before : Connection) (uuid name logo : String) : Prop where
  adds : (∀ rowId entry, Shows engine before rowId entry → entry.uuid ≠ uuid) →
    ∃ rowId, Missing engine before rowId ∧
      Shows engine (afterCall engine before (.add uuid name logo)) rowId ⟨uuid, name, logo⟩ ∧
      ∀ other entry, other ≠ rowId →
        (Shows engine (afterCall engine before (.add uuid name logo)) other entry ↔ Shows engine before other entry)
  ignores : ∀ rowId entry, Shows engine before rowId entry → entry.uuid = uuid →
    ∀ other shown, Shows engine (afterCall engine before (.add uuid name logo)) other shown ↔ Shows engine before other shown

/-- After the calls, the methods by key see a map that gives no key twice. -/
structure RefinesMap (start : Connection) (calls : List CompanyCall) : Prop where
  rows : ∀ rowId, (∃ entry, MadeBy engine start calls rowId entry ∧
      Shows engine (play (afterCall engine) start calls) rowId entry) ∨
    Missing engine (play (afterCall engine) start calls) rowId
  additions : ∀ uuid name logo, AddsOnce engine (play (afterCall engine) start calls) uuid name logo
  follows : ∀ earlier later rowId entry, calls = earlier ++ later →
    Shows engine (play (afterCall engine) start earlier) rowId entry →
      if .removeByRowID rowId ∈ later then Missing engine (play (afterCall engine) start calls) rowId
      else Shows engine (play (afterCall engine) start calls) rowId
        { entry with logo := lastLogo rowId entry.logo later }
  errors : ∀ field rowId error after,
    (Companies.table.getFieldValue engine (Companies.fields field) (Companies.fields .id) rowId).run
      (play (afterCall engine) start calls) = .error error after → error = noResults
  uuids : ((rowsOf (play (afterCall engine) start calls).database.catalog "companies").map
    (fieldOf Companies.columns "uuid")).Nodup

section Reads

variable (store : Store) (log : List Catalog) (rowId : Int)

theorem CompanyTable.keeps_number (companies : CompanyTable) :
    engine.keeps [] companies.table (some ⟨"id", .number rowId⟩) =
      .ok fun row => engine.equal (cell row 0) (.integer rowId) := by
  have place : companies.table.require "id" = .ok 0 := Table.require_ok Companies.columns rfl (by decide)
  exact engine.keeps_integer place rfl fun _ => rfl

theorem Companies.isIDPresent_run : (Companies.isIDPresent engine rowId).run (session store.catalog log) =
    .ok (store.companies.rows.any (·.id = rowId)) (session store.catalog log) := by
  have executed := engine.execute_selectExists false store.find_companies
    (store.companies.keeps_number engine rowId)
  rw [← engine.perform_statement (Companies.read_idPresent rowId)] at executed
  have asked := query_ok engine (session store.catalog log) executed
  have filter : (store.companies.table.rows.any fun row => engine.equal (cell row 0) (.integer rowId)) =
      store.companies.rows.any (·.id = rowId) := by
    show (store.companies.rows.map Company.row).any _ = _
    rw [List.any_map]
    rfl
  rw [filter] at asked
  unfold Companies.isIDPresent execAndGet
  simp only [bind_assoc]
  rw [Action.bind_ok asked]
  cases store.companies.rows.any (·.id = rowId) with
  | true => rfl
  | false => rfl

/-- A key without a row gives no result. -/
theorem Companies.getField_missing (field : Companies.Field)
    (missing : ∀ company ∈ store.companies.rows, company.id ≠ rowId) :
    (Companies.table.getFieldValue engine (Companies.fields field) (Companies.fields .id) rowId).run
      (session store.catalog log) = .error noResults (session store.catalog log) := by
  have none_ : store.companies.table.rows.filter (fun row => engine.equal (cell row 0) (.integer rowId)) = [] := by
    show (store.companies.rows.map Company.row).filter _ = _
    rw [List.filter_map, List.map_eq_nil_iff, List.filter_eq_nil_iff]
    intro company member
    simpa [CompanyTable.equal_id] using missing company member
  have asked := Companies.askField_run engine store log field rowId none_ (by decide)
  unfold ITable.getFieldValue
  rw [Action.bind_ok asked]
  rfl

end Reads

namespace CompanyTable

variable (companies : CompanyTable)

def entry (rowId : Int) : Option Entry :=
  (companies.rows.find? (·.id = rowId)).map fun company => ⟨company.uuid, company.name, company.logo⟩

def step : CompanyCall → CompanyTable
  | .add uuid name logo => companies.add engine uuid name logo
  | .setLogoByID rowId link => companies.setLogo rowId link
  | .removeByRowID rowId => companies.remove rowId

/-- No key above the last one has been in use. -/
def registry : Registry CompanyTable CompanyCall Int Entry where
  look := entry
  given companies rowId := rowId ≤ companies.lastKey
  made
    | .add uuid name logo => some ⟨uuid, name, logo⟩
    | _ => none
  change rowId entry
    | .add _ _ _ => some entry
    | .setLogoByID id link => some (if id = rowId then { entry with logo := link } else entry)
    | .removeByRowID id => if id = rowId then none else some entry

theorem exists_of_entry {rowId : Int} {entry : Entry} (found : companies.entry rowId = some entry) :
    ∃ company ∈ companies.rows, company.id = rowId ∧ entry = ⟨company.uuid, company.name, company.logo⟩ := by
  obtain ⟨company, first, rfl⟩ := Option.map_eq_some_iff.mp found
  exact ⟨company, List.mem_of_find?_eq_some first, by simpa using List.find?_some first, rfl⟩

theorem entry_eq_none_iff (rowId : Int) :
    companies.entry rowId = none ↔ ∀ company ∈ companies.rows, company.id ≠ rowId := by
  rw [entry, Option.map_eq_none_iff, List.find?_eq_none]
  simp

/-- The key of a row has its entry. -/
theorem entry_of_mem {company : Company} (member : company ∈ companies.rows) :
    companies.entry company.id = some ⟨company.uuid, company.name, company.logo⟩ := by
  cases found : companies.entry company.id with
  | none => exact absurd rfl ((companies.entry_eq_none_iff company.id).mp found company member)
  | some entry =>
      obtain ⟨other, among, key, rfl⟩ := companies.exists_of_entry found
      rw [List.inj_on_of_nodup_map companies.ids among member key]

theorem has_iff_entry (uuid : String) :
    companies.has uuid = true ↔ ∃ rowId entry, companies.entry rowId = some entry ∧ entry.uuid = uuid := by
  rw [has_iff]
  constructor
  · rintro ⟨company, member, same⟩
    exact ⟨company.id, _, companies.entry_of_mem member, same⟩
  · rintro ⟨rowId, entry, found, same⟩
    obtain ⟨company, member, _, rfl⟩ := companies.exists_of_entry found
    exact ⟨company, member, same⟩

theorem entry_next : companies.entry (companies.lastKey + 1) = none := by
  rw [entry_eq_none_iff]
  intro company member
  have bound := companies.bounded company member
  omega

/-- An addition makes at most the entry of the next key. -/
theorem entry_add (uuid name logo : String) (rowId : Int) : (companies.add engine uuid name logo).entry rowId =
    (companies.entry rowId).or
      (if companies.has uuid = false ∧ companies.lastKey + 1 = rowId then some ⟨uuid, name, logo⟩ else none) := by
  unfold add
  split
  · rename_i fresh
    simp only [entry, append, List.find?_append, Option.map_or, fresh, true_and]
    congr 1
    by_cases same : companies.lastKey + 1 = rowId
    · simp [same]
    · simp [same]
  · rename_i there
    rw [if_neg (fun both => there both.1), Option.or_none]
    rfl

theorem entry_setLogo (id : Int) (link : String) (rowId : Int) : (companies.setLogo id link).entry rowId =
    (companies.entry rowId).map fun entry => if id = rowId then { entry with logo := link } else entry := by
  have keys : ((fun company : Company => decide (company.id = rowId)) ∘ fun company =>
      if company.id = id then { company with logo := link } else company) = fun company => decide (company.id = rowId) := by
    funext company
    simp only [Function.comp_apply]
    split <;> rfl
  simp only [entry, setLogo, List.find?_map, keys, Option.map_map]
  apply Option.map_congr
  intro company found
  have key : company.id = rowId := by simpa using List.find?_some found
  subst key
  by_cases same : company.id = id
  · simp [same]
  · simp [same, Ne.symm same]

theorem entry_remove (id rowId : Int) : (companies.remove id).entry rowId =
    if id = rowId then none else companies.entry rowId := by
  by_cases same : id = rowId
  · rw [if_pos same, entry_eq_none_iff]
    intro company member
    have kept := (List.mem_filter.mp member).2
    rw [← same]
    simpa using kept
  · rw [if_neg same]
    simp only [entry, remove, List.find?_filter]
    congr 2
    funext company
    by_cases key : company.id = rowId
    · simp [key, Ne.symm same]
    · simp [key]

/-- The table gives each key once, whatever keys the ignored insertions use up. -/
theorem registry_givesOnce : registry.GivesOnce (step engine) where
  changes companies call rowId entry found := by
    show (companies.step engine call).entry rowId = _
    have here : companies.entry rowId = some entry := found
    cases call with
    | add uuid name logo =>
        rw [step, entry_add, here]
        rfl
    | setLogoByID id link =>
        rw [step, entry_setLogo, here]
        rfl
    | removeByRowID id =>
        rw [step, entry_remove, here]
        rfl
  fresh companies call rowId entry free found := by
    have before : companies.entry rowId = none := free
    have after : (companies.step engine call).entry rowId = some entry := found
    cases call with
    | add uuid name logo =>
        rw [step, entry_add, before, Option.none_or] at after
        split at after
        · rename_i new
          refine ⟨fun given => ?_, after⟩
          have bound : rowId ≤ companies.lastKey := given
          omega
        · cases after
    | setLogoByID id link =>
        rw [step, entry_setLogo, before] at after
        cases after
    | removeByRowID id =>
        rw [step, entry_remove, before, ite_self] at after
        cases after
  uses companies rowId entry found := by
    obtain ⟨company, member, key, _⟩ := companies.exists_of_entry found
    rw [← key]
    exact companies.bounded company member
  remembers companies call rowId given := by
    have bound : rowId ≤ companies.lastKey := given
    show rowId ≤ (companies.step engine call).lastKey
    cases call with
    | add uuid name logo =>
        rw [step, add]
        split
        · show rowId ≤ companies.lastKey + 1
          omega
        · show rowId ≤ companies.lastKey + engine.skipped companies.table
          omega
    | setLogoByID id link => exact bound
    | removeByRowID id => exact bound

theorem lastLogo_cons (rowId : Int) (logo : String) (call : CompanyCall) (rest : List CompanyCall) :
    lastLogo rowId logo (call :: rest) = lastLogo rowId ((call.linkFor rowId).getD logo) rest := by
  unfold lastLogo
  cases link : call.linkFor rowId with
  | none => rw [List.filterMap_cons_none link, Option.getD_none]
  | some text =>
      rw [List.filterMap_cons_some link, Option.getD_some, List.getLast?_cons, Option.getD_some]

/-- An entry keeps its symbol and its name, and its last logo, until its row is removed. -/
theorem foldlM_change (rowId : Int) (entry : Entry) (later : List CompanyCall) :
    later.foldlM (registry.change rowId) entry = if .removeByRowID rowId ∈ later then none
      else some { entry with logo := lastLogo rowId entry.logo later } := by
  induction later generalizing entry with
  | nil => rfl
  | cons call rest ih =>
      rw [List.foldlM_cons, lastLogo_cons]
      cases call with
      | add uuid name logo =>
          show rest.foldlM (registry.change rowId) entry = _
          rw [ih]
          simp [CompanyCall.linkFor]
      | setLogoByID id link =>
          show rest.foldlM (registry.change rowId) _ = _
          rw [ih]
          by_cases same : id = rowId
          · simp [CompanyCall.linkFor, same]
          · simp [CompanyCall.linkFor, same]
      | removeByRowID id =>
          by_cases same : id = rowId
          · subst same
            simp [registry]
          · have step : registry.change rowId entry (.removeByRowID id) = some entry := if_neg same
            rw [step]
            show rest.foldlM (registry.change rowId) entry = _
            rw [ih]
            simp [CompanyCall.linkFor, Ne.symm same]

end CompanyTable

namespace Store

variable (store : Store) (log : List Catalog)

theorem shows_of_entry {rowId : Int} {entry : Entry} (found : store.companies.entry rowId = some entry) :
    Shows engine (session store.catalog log) rowId entry := by
  obtain ⟨company, member, rfl, rfl⟩ := store.companies.exists_of_entry found
  have present : store.companies.rows.any (·.id = company.id) = true :=
    List.any_eq_true.mpr ⟨company, member, decide_eq_true rfl⟩
  constructor
  · rw [Companies.isIDPresent_run, present]
  · exact Companies.getField_run engine store log .uuid company member
  · exact Companies.getField_run engine store log .name company member
  · exact Companies.getField_run engine store log .logo company member

theorem missing_of_entry {rowId : Int} (free : store.companies.entry rowId = none) :
    Missing engine (session store.catalog log) rowId := by
  have apart := (store.companies.entry_eq_none_iff rowId).mp free
  have absent : store.companies.rows.any (·.id = rowId) = false := by
    rw [List.any_eq_false]
    intro company member
    simpa using apart company member
  constructor
  · rw [Companies.isIDPresent_run, absent]
  · exact Companies.getField_missing engine store log rowId .uuid apart
  · exact Companies.getField_missing engine store log rowId .name apart
  · exact Companies.getField_missing engine store log rowId .logo apart

/-- What is shown under a key is its entry. -/
theorem entry_of_shows {rowId : Int} {entry : Entry} (shows : Shows engine (session store.catalog log) rowId entry) :
    store.companies.entry rowId = some entry := by
  cases found : store.companies.entry rowId with
  | none =>
      exact absurd (store.missing_of_entry engine log found) shows.not_missing
  | some other =>
      have same := store.shows_of_entry engine log found
      have uuid := shows.uuid
      have name := shows.name
      have logo := shows.logo
      rw [same.uuid] at uuid
      rw [same.name] at name
      rw [same.logo] at logo
      injection uuid with uuid
      injection name with name
      injection logo with logo
      exact congrArg some (Entry.ext uuid name logo)

theorem shows_iff (rowId : Int) (entry : Entry) :
    Shows engine (session store.catalog log) rowId entry ↔ store.companies.entry rowId = some entry :=
  ⟨entry_of_shows engine store log, shows_of_entry engine store log⟩

theorem afterCall_store (call : CompanyCall) : ∃ after, Db.afterCall engine (session store.catalog log) call =
    session (store.withCompanies (store.companies.step engine call)).catalog after := by
  obtain ⟨after, step⟩ := call.call.run_store engine store log
  refine ⟨after, ?_⟩
  rw [Db.afterCall, step]
  cases call with
  | add uuid name logo => rfl
  | setLogoByID rowId link => rfl
  | removeByRowID rowId => rfl

/-- The calls do to the tables what they do to the companies. -/
theorem play_afterCall (calls : List CompanyCall) :
    ∃ after, play (Db.afterCall engine) (session store.catalog log) calls =
      session (store.withCompanies (play (CompanyTable.step engine) store.companies calls)).catalog after := by
  induction calls generalizing store log with
  | nil => exact ⟨log, rfl⟩
  | cons call rest ih =>
      obtain ⟨middle, here⟩ := store.afterCall_store engine log call
      obtain ⟨after, run⟩ := ih (store.withCompanies (store.companies.step engine call)) middle
      refine ⟨after, ?_⟩
      rw [play_cons, here, run]
      rfl

/-- The table has a symbol exactly when one of its rows shows it. -/
theorem has_iff_shows (uuid : String) : store.companies.has uuid = true ↔
    ∃ rowId entry, Shows engine (session store.catalog log) rowId entry ∧ entry.uuid = uuid := by
  simp only [shows_iff]
  exact store.companies.has_iff_entry uuid

theorem addsOnce (uuid name logo : String) : AddsOnce engine (session store.catalog log) uuid name logo := by
  obtain ⟨after, added⟩ := store.afterCall_store engine log (.add uuid name logo)
  have look (rowId : Int) (entry : Entry) :
      Shows engine (Db.afterCall engine (session store.catalog log) (.add uuid name logo)) rowId entry ↔
        (store.companies.entry rowId).or (if store.companies.has uuid = false ∧ store.companies.lastKey + 1 = rowId
          then some ⟨uuid, name, logo⟩ else none) = some entry := by
    rw [added, shows_iff, withCompanies_companies, CompanyTable.step, CompanyTable.entry_add]
  constructor
  · intro unknown
    have new : store.companies.has uuid = false := by
      rw [Bool.eq_false_iff]
      intro known
      obtain ⟨rowId, entry, shows, same⟩ := (store.has_iff_shows engine log uuid).mp known
      exact unknown rowId entry shows same
    have free := store.companies.entry_next
    refine ⟨store.companies.lastKey + 1, missing_of_entry engine store log free, ?_, ?_⟩
    · rw [look, free, Option.none_or, if_pos ⟨new, rfl⟩]
    · intro other entry apart
      rw [look, shows_iff, if_neg fun both => apart both.2.symm, Option.or_none]
  · intro rowId entry shows same other shown
    have known : store.companies.has uuid = true := (store.has_iff_shows engine log uuid).mpr ⟨rowId, entry, shows, same⟩
    rw [look, shows_iff, if_neg fun both => absurd (known.symm.trans both.1) (by decide), Option.or_none]

/-- Only a key without a row makes a method by key throw. -/
theorem getField_error (field : Companies.Field) (rowId : Int) {error : DbError} {after : Connection}
    (failed : (Companies.table.getFieldValue engine (Companies.fields field) (Companies.fields .id) rowId).run
      (session store.catalog log) = .error error after) : error = noResults := by
  by_cases taken : ∃ company ∈ store.companies.rows, company.id = rowId
  · obtain ⟨company, member, rfl⟩ := taken
    rw [Companies.getField_run engine store log field company member] at failed
    cases failed
  · have apart : ∀ company ∈ store.companies.rows, company.id ≠ rowId := by
      intro company member key
      exact taken ⟨company, member, key⟩
    rw [Companies.getField_missing engine store log rowId field apart] at failed
    cases failed
    rfl

theorem uuids_nodup : ((rowsOf store.catalog "companies").map (fieldOf Companies.columns "uuid")).Nodup := by
  rw [rowsOf_companies, List.map_map, fieldOf_uuid_row, ← List.map_map]
  apply store.companies.uuids.map
  intro first second same
  exact Value.text.inj same

/-- A table that starts without companies is a map after every run. -/
theorem refinesMap (nobody : ∀ rowId, store.companies.entry rowId = none) (calls : List CompanyCall) :
    RefinesMap engine (session store.catalog log) calls := by
  have once := CompanyTable.registry_givesOnce engine
  obtain ⟨last, final⟩ := store.play_afterCall engine log calls
  constructor
  · intro rowId
    rw [final]
    cases found : (play (CompanyTable.step engine) store.companies calls).entry rowId with
    | none => exact .inr (missing_of_entry engine _ last found)
    | some entry =>
        left
        refine ⟨entry, ?_, shows_of_entry engine _ last found⟩
        obtain ⟨earlier, event, later, first, split, before, made, after, changes⟩ :=
          once.origin calls (nobody rowId) found
        obtain ⟨beforeLog, reachedBefore⟩ := store.play_afterCall engine log earlier
        obtain ⟨afterLog, reachedAfter⟩ := store.play_afterCall engine log (earlier ++ [event])
        rw [CompanyTable.foldlM_change] at changes
        cases event with
        | add uuid name logo =>
            have first_ : (⟨uuid, name, logo⟩ : Entry) = first := Option.some.inj made
            subst first_
            refine ⟨earlier, uuid, name, logo, later, split, ?_, ?_, ?_⟩
            · rw [reachedBefore]
              exact missing_of_entry engine _ beforeLog before
            · rw [reachedAfter]
              exact shows_of_entry engine _ afterLog after
            · split at changes
              · cases changes
              · exact (Option.some.inj changes).symm
        | setLogoByID id link => cases made
        | removeByRowID id => cases made
  · intro uuid name logo
    rw [final]
    exact addsOnce engine _ last uuid name logo
  · intro earlier later rowId entry split shows
    obtain ⟨middleLog, reached⟩ := store.play_afterCall engine log earlier
    rw [reached] at shows
    have here := entry_of_shows engine _ middleLog shows
    have there := once.follows later here
    rw [Store.withCompanies_companies, ← play_append, ← split, CompanyTable.foldlM_change] at there
    rw [final]
    split_ifs with removed
    · rw [if_pos removed] at there
      exact missing_of_entry engine _ last there
    · rw [if_neg removed] at there
      exact shows_of_entry engine _ last there
  · intro field rowId error after failed
    rw [final] at failed
    exact getField_error engine _ last field rowId failed
  · rw [final]
    exact uuids_nodup _

end Store

/-- After every run on a new database the companies are a map from their keys, which are never given twice. -/
theorem companies_refineMap (version : Nat) : ∃ start,
    (DBManager.createAndInitAllTables engine version).run (Connection.opened []) = .ok () start ∧
      ∀ calls, RefinesMap engine start calls := by
  obtain ⟨log, created⟩ := createAndInitAllTables_empty engine version
  exact ⟨_, created, Store.refinesMap engine (Store.empty version) log fun _ => rfl⟩

/-- On a new database a company gets a row, and a second addition of its symbol changes nothing. -/
theorem companies_refineMap_example : ∃ start,
    (DBManager.createAndInitAllTables Engine.plain 1).run (Connection.opened []) = .ok () start ∧
      ∃ rowId, Missing Engine.plain start rowId ∧
        Shows Engine.plain (play (afterCall Engine.plain) start [.add "AAPL" "Apple" "logo"]) rowId ⟨"AAPL", "Apple", "logo"⟩ ∧
        Shows Engine.plain (play (afterCall Engine.plain) start [.add "AAPL" "Apple" "logo", .add "AAPL" "Other" ""]) rowId
          ⟨"AAPL", "Apple", "logo"⟩ := by
  obtain ⟨start, created, refines⟩ := companies_refineMap Engine.plain 1
  have nobody (rowId : Int) (entry : Entry) (shows : Shows Engine.plain start rowId entry) : entry.uuid ≠ "AAPL" := by
    rcases (refines []).rows rowId with ⟨_, ⟨earlier, _, _, _, later, split, _⟩, _⟩ | missing
    · exact absurd (congrArg List.length split) (by simp)
    · exact absurd missing shows.not_missing
  obtain ⟨rowId, missing, first, _⟩ := ((refines []).additions "AAPL" "Apple" "logo").adds nobody
  exact ⟨start, created, rowId, missing, first,
    (((refines [.add "AAPL" "Apple" "logo"]).additions "AAPL" "Other" "").ignores rowId _ first rfl rowId _).mpr first⟩

end Peakwork.Db
