/-
This file decides for which symbols the lookups agree with the insertions.
-/

import Peakwork.Proof.Db.Integrity

namespace Peakwork.Db

open Sql

variable (engine : Engine) (store : Store) (log : List Catalog)

/-- The rows whose symbol is equal to the asked one byte for byte. -/
def rowsWithUUID (catalog : Catalog) (uuid : String) : List Row :=
  (rowsOf catalog "companies").filter fun row => fieldOf Companies.columns "uuid" row = .text uuid

/-- Both lookups of a symbol find exactly what an insertion has stored. -/
structure LookupsAgree (uuid : String) (connection : Connection) : Prop where
  present : (Companies.isUUIDPresent engine uuid).run connection =
    .ok (rowsWithUUID connection.database.catalog uuid ≠ []) connection
  found : ∀ row ∈ rowsWithUUID connection.database.catalog uuid, ∃ id,
    fieldOf Companies.columns "id" row = .integer id ∧
      (Companies.getRowID engine uuid).run connection = .ok id connection
  missing : rowsWithUUID connection.database.catalog uuid = [] →
    ∃ error, (Companies.getRowID engine uuid).run connection = .error error connection
  roundTrip : ∀ name logo, ∃ after, (Companies.add engine uuid name logo).run connection = .ok () after ∧
    (Companies.isUUIDPresent engine uuid).run after = .ok true after ∧
    ∃ id, (Companies.getRowID engine uuid).run after = .ok id after ∧
      (Companies.getUUIDByRowID engine id).run after = .ok uuid after

/-- The symbol is read as a text and ends where it should. -/
structure SafeSymbol (uuid : String) : Prop where
  noQuote : '"' ∉ uuid.toList
  noZero : '\x00' ∉ uuid.toList
  noColumn : ∀ name ∈ ["id", "uuid", "full_name", "logo", "rowid", "oid", "_rowid_"],
    sameName uuid name = false

namespace Companies

theorem columnIndex_none_iff (uuid : String) : columnIndex columns uuid = none ↔
    ∀ name ∈ ["id", "uuid", "full_name", "logo", "rowid", "oid", "_rowid_"],
      sameName uuid name = false := by
  have swap (name : String) : sameName name uuid = sameName uuid name := by
    simp [sameName, eq_comm]
  have own : (columns.findIdx? fun column => sameName column.name uuid) = none ↔
      ∀ name ∈ ["id", "uuid", "full_name", "logo"], sameName uuid name = false := by
    simp [List.findIdx?_eq_none_iff, columns, swap]
  have keyColumn : columns.findIdx? (·.rowKey) = some 0 := by decide
  unfold columnIndex
  rw [keyColumn]
  cases found : columns.findIdx? fun column => sameName column.name uuid with
  | some index =>
      rw [found] at own
      simp only [reduceCtorEq, false_iff] at own ⊢
      intro all
      exact own fun name member => all name (by simp at member ⊢; tauto)
  | none =>
      have free := own.mp found
      simp only [keyNames] at free ⊢
      simp at free ⊢
      simp [free]
end Companies

/-- A key picks one item of a list whose keys are distinct. -/
theorem filter_key {α β : Type} [DecidableEq β] {rows : List α} {key : α → β}
    (nodup : (rows.map key).Nodup) {item : α} (member : item ∈ rows) :
    rows.filter (fun other => key other = key item) = [item] := by
  have one (other : α) : other ∈ rows.filter (fun other => key other = key item) ↔ other ∈ [item] := by
    rw [List.mem_filter, decide_eq_true_eq, List.mem_singleton]
    constructor
    · rintro ⟨inside, same⟩
      exact List.inj_on_of_nodup_map nodup inside member same
    · rintro rfl
      exact ⟨member, rfl⟩
  exact List.perm_singleton.mp ((List.perm_ext_iff_of_nodup ((List.Nodup.of_map _ nodup).filter _)
    (List.nodup_singleton _)).mpr one)

namespace CompanyTable

variable (companies : CompanyTable)

/-- The rows that the spliced filter keeps. -/
def matching (text : String) (row : Row) : Bool :=
  engine.compare (columnValue companies.table row 1) (operandValue [] companies.table row (.quoted text))

theorem keeps_uuid (text : String) :
    engine.keeps [] companies.table (some ⟨"uuid", .quoted text⟩) = .ok (companies.matching engine text) :=
  have place : companies.table.require "uuid" = .ok 1 :=
    Table.require_ok Companies.columns rfl (by decide)
  engine.keeps_ok place

/-- A text that names no column is compared with the symbols. -/
theorem matching_text (text : String) (plain : columnIndex Companies.columns text = none)
    (company : Company) : companies.matching engine text company.row = decide (company.uuid = text) := by
  have none_ : companies.table.position text = none := plain
  have affinity : columnValue companies.table company.row 1 = (some .text, .text company.uuid) := rfl
  simp [matching, operandValue, none_, affinity, Engine.compare, Engine.isNumeric, Engine.equal]

end CompanyTable

/-- The query by symbol gives the first row that the filter keeps. -/
theorem Companies.getRowID_run {uuid text : String}
    (read : parse (firstStatement (tokens (Companies.getRowIDCommand uuid))) =
      .statement (.select "id" "companies" (some ⟨"uuid", .quoted text⟩))) :
    (Companies.getRowID engine uuid).run (session store.catalog log) =
      match engine.order (.select "id" "companies" (some ⟨"uuid", .quoted text⟩)) store.companies.table
        (store.companies.table.rows.filter (store.companies.matching engine text)) with
      | [] => .error (.sqlite .noRow) (session store.catalog log)
      | row :: _ => .ok (engine.getInt64 (cell row 0)) (session store.catalog log) := by
  have place : store.companies.table.require "id" = .ok 0 :=
    Table.require_ok Companies.columns rfl (by decide)
  have executed := engine.execute_select false store.find_companies
    (store.companies.keeps_uuid engine text) place
  rw [← engine.perform_statement read] at executed
  have asked := query_ok engine (session store.catalog log) executed
  unfold Companies.getRowID execAndGet
  simp only [bind_assoc]
  rw [Action.bind_ok asked]
  cases engine.order (.select "id" "companies" (some ⟨"uuid", .quoted text⟩)) store.companies.table
    (store.companies.table.rows.filter (store.companies.matching engine text)) with
  | nil => rfl
  | cons row rest => rfl

theorem Companies.isUUIDPresent_run {uuid text : String}
    (read : parse (firstStatement (tokens (Companies.table.cellPresentCommand (Companies.fields .uuid) uuid))) =
      .statement (.selectExists "companies" (some ⟨"uuid", .quoted text⟩))) :
    (Companies.isUUIDPresent engine uuid).run (session store.catalog log) =
      .ok (store.companies.table.rows.any (store.companies.matching engine text))
        (session store.catalog log) := by
  have executed := engine.execute_selectExists false store.find_companies
    (store.companies.keeps_uuid engine text)
  rw [← engine.perform_statement read] at executed
  have asked := query_ok engine (session store.catalog log) executed
  unfold Companies.isUUIDPresent ITable.isCellPresent execAndGet
  simp only [bind_assoc]
  rw [Action.bind_ok asked]
  cases store.companies.table.rows.any (store.companies.matching engine text) <;> rfl

/-- The place of a field in a row. -/
def Companies.Field.index : Companies.Field → Nat
  | .id => 0
  | .uuid => 1
  | .name => 2
  | .logo => 3

theorem Companies.require_field (companies : CompanyTable) (field : Companies.Field) :
    companies.table.require (Companies.fields field) = .ok field.index := by
  cases field with
  | id => exact Table.require_ok Companies.columns rfl (by decide)
  | uuid => exact Table.require_ok Companies.columns rfl (by decide)
  | name => exact Table.require_ok Companies.columns rfl (by decide)
  | logo => exact Table.require_ok Companies.columns rfl (by decide)

/-- No field of a company is NULL. -/
theorem Company.filled (company : Company) (field : Companies.Field) : cell company.row field.index ≠ .null := by
  cases field with
  | id => simp [Companies.Field.index, Company.row, cell]
  | uuid => simp [Companies.Field.index, Company.row, cell]
  | name => simp [Companies.Field.index, Company.row, cell]
  | logo => simp [Companies.Field.index, Company.row, cell]

/-- The query by key gives the field of the row with that key, if there is one. -/
theorem Companies.askField_run (field : Companies.Field) (rowId : Int) {rows : List Row}
    (kept : store.companies.table.rows.filter (fun row => engine.equal (cell row 0) (.integer rowId)) = rows)
    (short : rows.length ≤ 1) :
    (query engine (Companies.table.getFieldCommand (Companies.fields field) (Companies.fields .id))
      [(":compareValue", .integer rowId)]).run (session store.catalog log) =
      .ok (rows.map fun row => [cell row field.index]) (session store.catalog log) := by
  have executed := engine.execute_select false store.find_companies
    (store.companies.keeps_id engine [(":compareValue", .integer rowId)] ":compareValue" rowId rfl)
    (Companies.require_field store.companies field)
  have ordered (statement : Statement) (table : Table) : engine.order statement table rows = rows := by
    cases rows with
    | nil => exact List.perm_nil.mp (engine.order_perm _ _ _)
    | cons row others =>
        have alone : others = [] := List.length_eq_zero_iff.mp (by simpa using short)
        rw [alone]
        exact List.perm_singleton.mp (engine.order_perm _ _ _)
  rw [kept, ordered, ← engine.perform_statement (Companies.read_getField field)] at executed
  exact query_ok engine (session store.catalog log) executed

/-- The query by key gives the fields of the company with that key. -/
theorem Companies.getField_run (field : Companies.Field) (company : Company)
    (member : company ∈ store.companies.rows) :
    (Companies.table.getFieldValue engine (Companies.fields field) (Companies.fields .id) company.id).run
      (session store.catalog log) =
      .ok (engine.asText (cell company.row field.index)) (session store.catalog log) := by
  have only : store.companies.table.rows.filter
      (fun row => engine.equal (cell row 0) (.integer company.id)) = [company.row] := by
    change (store.companies.rows.map Company.row).filter _ = _
    rw [List.filter_map]
    exact congrArg (List.map Company.row) (filter_key store.companies.ids member)
  have asked := Companies.askField_run engine store log field company.id only le_rfl
  unfold ITable.getFieldValue
  rw [Action.bind_ok asked]
  change EStateM.run (if cell company.row field.index = .null then _ else _) _ = _
  rw [if_neg (company.filled field)]
  rfl

section Safe

variable {uuid : String} (safe : SafeSymbol uuid)
include safe

theorem SafeSymbol.plain : columnIndex Companies.columns uuid = none :=
  (Companies.columnIndex_none_iff uuid).mpr safe.noColumn

theorem SafeSymbol.hasNoZero : hasNoZero uuid = true := by
  simp only [Sql.hasNoZero, List.all_eq_true, decide_eq_true_eq]
  rintro c member rfl
  exact safe.noZero member

/-- The spliced filter keeps the rows of a safe symbol. -/
theorem SafeSymbol.filter (companies : CompanyTable) :
    companies.table.rows.filter (companies.matching engine uuid) =
      (companies.rows.filter (·.uuid = uuid)).map Company.row := by
  change (companies.rows.map Company.row).filter _ = _
  rw [List.filter_map]
  congr 1
  apply List.filter_congr
  intro company _
  exact companies.matching_text engine uuid safe.plain company

theorem SafeSymbol.isUUIDPresent_run :
    (Companies.isUUIDPresent engine uuid).run (session store.catalog log) =
      .ok (store.companies.has uuid) (session store.catalog log) := by
  rw [Companies.isUUIDPresent_run engine store log
    (Companies.read_uuidPresent uuid safe.noQuote safe.hasNoZero)]
  congr 1
  change (store.companies.rows.map Company.row).any _ = _
  rw [List.any_map]
  congr 1
  funext company
  exact store.companies.matching_text engine uuid safe.plain company

theorem SafeSymbol.getRowID_found (company : Company) (member : company ∈ store.companies.rows)
    (same : company.uuid = uuid) :
    (Companies.getRowID engine uuid).run (session store.catalog log) =
      .ok company.id (session store.catalog log) := by
  rw [Companies.getRowID_run engine store log
    (Companies.read_getRowID uuid safe.noQuote safe.hasNoZero), safe.filter engine]
  subst same
  rw [filter_key store.companies.uuids member, List.map_singleton,
    List.perm_singleton.mp (engine.order_perm _ _ _)]
  rfl

theorem SafeSymbol.getRowID_missing (missing : store.companies.has uuid = false) :
    (Companies.getRowID engine uuid).run (session store.catalog log) =
      .error (.sqlite .noRow) (session store.catalog log) := by
  have nothing : store.companies.rows.filter (·.uuid = uuid) = [] := by
    rw [List.filter_eq_nil_iff]
    simpa [CompanyTable.has] using missing
  rw [Companies.getRowID_run engine store log
    (Companies.read_getRowID uuid safe.noQuote safe.hasNoZero), safe.filter engine, nothing,
    List.map_nil, List.perm_nil.mp (engine.order_perm _ _ _)]

end Safe

theorem fieldOf_uuid (company : Company) :
    fieldOf Companies.columns "uuid" company.row = .text company.uuid :=
  fieldOf_place 1 (by decide) company.row

theorem fieldOf_uuid_row : fieldOf Companies.columns "uuid" ∘ Company.row = Value.text ∘ (·.uuid) := by
  funext company
  exact fieldOf_uuid company

theorem rowsWithUUID_store (uuid : String) : rowsWithUUID store.catalog uuid =
    (store.companies.rows.filter (·.uuid = uuid)).map Company.row := by
  unfold rowsWithUUID
  rw [Store.rowsOf_companies, List.filter_map]
  congr 1
  apply List.filter_congr
  intro company _
  simp [fieldOf_uuid]

theorem CompanyTable.has_add (companies : CompanyTable) (uuid name logo : String) :
    (companies.add engine uuid name logo).has uuid = true := by
  unfold add
  split
  · simp [has, append]
  · rename_i there
    change companies.has uuid = true
    simpa using there

/-- The lookups of a safe symbol agree in every store. -/
theorem SafeSymbol.lookupsAgree {uuid : String} (safe : SafeSymbol uuid) :
    LookupsAgree engine uuid (session store.catalog log) where
  present := by
    rw [safe.isUUIDPresent_run engine, session_catalog, rowsWithUUID_store]
    congr 1
    simp [CompanyTable.has, List.any_eq]
  found row member := by
    rw [session_catalog, rowsWithUUID_store] at member
    obtain ⟨company, inside, rfl⟩ := List.mem_map.mp member
    obtain ⟨there, same⟩ := List.mem_filter.mp inside
    exact ⟨company.id, fieldOf_id company,
      safe.getRowID_found engine store log company there (by simpa using same)⟩
  missing nothing := by
    rw [session_catalog, rowsWithUUID_store, List.map_eq_nil_iff, List.filter_eq_nil_iff] at nothing
    exact ⟨_, safe.getRowID_missing engine store log (by simpa [CompanyTable.has] using nothing)⟩
  roundTrip name logo := by
    obtain ⟨after, added⟩ := Companies.add_run engine store log uuid name logo
    have there := store.companies.has_add engine uuid name logo
    have present := safe.isUUIDPresent_run engine
      (store.withCompanies (store.companies.add engine uuid name logo)) after
    rw [Store.withCompanies_companies, there] at present
    obtain ⟨company, member, same⟩ := (CompanyTable.has_iff _ uuid).mp there
    refine ⟨_, added, present, company.id, safe.getRowID_found engine _ after company member same, ?_⟩
    have read := Companies.getField_run engine
      (store.withCompanies (store.companies.add engine uuid name logo)) after .uuid company member
    have symbol : cell company.row Companies.Field.uuid.index = .text uuid := congrArg Value.text same
    rw [symbol] at read
    exact read

namespace Companies

/-- These tokens come before the spliced symbol. -/
def lookupTokens : List Token :=
  [.word "SELECT", .word "id", .word "FROM", .word "companies", .word "WHERE", .word "uuid", .symbol '=']

theorem tokens_getRowID (uuid : String) : tokens (getRowIDCommand uuid) =
    lookupTokens ++ scan (.quoted []) (cText (uuid ++ "\" ")) := by
  unfold tokens getRowIDCommand
  rw [String.append_assoc, scan_cText_append _ ("SELECT " ++ fields .id ++ " " ++
    "FROM " ++ table.name ++ " " ++ "WHERE " ++ fields .uuid ++ " = \"") _ (by decide)]
  rfl

/-- A symbol that is not safe does not come back as itself. -/
theorem tokens_hostile (uuid : String) (hostile : ¬ SafeSymbol uuid) :
    tokens (getRowIDCommand uuid) = lookupTokens ++ [.illegal] ∨
      ∃ text rest, tokens (getRowIDCommand uuid) = lookupTokens ++ .quoted text :: rest ∧
        (text ≠ uuid ∨ columnIndex columns text ≠ none) := by
  rw [tokens_getRowID]
  by_cases zero : '\x00' ∈ uuid.toList
  · have cut := cText_zero uuid "\" " zero
    rcases scan_quoted_bound [] (cText (uuid ++ "\" ")) with bad | ⟨content, rest, read, bound⟩
    · exact .inl (by rw [bad])
    · refine .inr ⟨_, rest, by rw [read], .inl ?_⟩
      rintro rfl
      simp only [String.toList_ofList, List.length_nil] at cut bound
      omega
  · have noZero : hasNoZero uuid = true := by
      simp only [hasNoZero, List.all_eq_true, decide_eq_true_eq]
      rintro c member rfl
      exact zero member
    have whole : cText (uuid ++ "\" ") = uuid.toList ++ ['"', ' '] := by
      rw [cText_append _ _ noZero, cText_plain _ (by decide)]
      rfl
    rw [whole]
    by_cases quote : '"' ∈ uuid.toList
    · rcases scan_quoted_shorter [] uuid.toList with bad | ⟨content, rest, read, _, strict⟩
      · exact .inl (by rw [bad])
      · refine .inr ⟨_, rest, by rw [read], .inl ?_⟩
        have shorter := strict quote
        rintro rfl
        simp at shorter
    · have column : columnIndex columns uuid ≠ none := fun plain =>
        hostile ⟨quote, zero, (columnIndex_none_iff uuid).mp plain⟩
      refine .inr ⟨uuid, [], ?_, .inr column⟩
      rw [scan_append, scanPart_quoted [] uuid.toList quote]
      simp [scan, next, after, begin, isBlank, finish]

/-- Behind the spliced symbol nothing may follow. -/
theorem parse_lookup (text : String) (rest : List Token) :
    parse (firstStatement (lookupTokens ++ .quoted text :: rest)) =
        .statement (.select "id" "companies" (some ⟨"uuid", .quoted text⟩)) ∨
      parse (firstStatement (lookupTokens ++ .quoted text :: rest)) = .malformed ∨
      parse (firstStatement (lookupTokens ++ .quoted text :: rest)) = .outside := by
  have first : firstStatement (lookupTokens ++ .quoted text :: rest) =
      lookupTokens ++ .quoted text :: firstStatement rest := rfl
  rw [first]
  by_cases illegal : .illegal ∈ firstStatement rest
  · right; left
    unfold parse
    exact if_pos (by simp [illegal])
  · cases more : firstStatement rest with
    | nil => left; rfl
    | cons token tokens =>
        right; right
        rw [more] at illegal
        have legal : Token.illegal ∉ lookupTokens ++ .quoted text :: token :: tokens := by
          simp [lookupTokens, illegal]
        unfold parse
        rw [if_neg legal]
        rfl

/-- A text that is no statement of the fragment throws in the plain engine. -/
theorem getRowID_refused (uuid : String)
    (read : parse (firstStatement (tokens (getRowIDCommand uuid))) = .malformed ∨
      parse (firstStatement (tokens (getRowIDCommand uuid))) = .outside) :
    (getRowID Engine.plain uuid).run (session store.catalog log) =
      .error (.sqlite .syntaxError) (session store.catalog log) := by
  have refused : Engine.plain.perform [] false (firstStatement (tokens (getRowIDCommand uuid)))
      (session store.catalog log).database = .error .syntaxError := by
    rcases read with read | read
    · simp only [Engine.perform, read]
    · simp only [Engine.perform, read]
      rfl
  have asked := query_error Engine.plain (session store.catalog log) refused
  unfold getRowID execAndGet
  simp only [bind_assoc]
  exact Action.bind_error asked

end Companies

/-- The company 1 has the symbol `1`, and the symbol, the name and the logo are equal. -/
def evenCompany : Company := ⟨1, "1", "1", "1"⟩

theorem columnIndex_lt (text : String) (index : Nat)
    (place : columnIndex Companies.columns text = some index) : index < 4 := by
  unfold columnIndex at place
  split at place
  · rename_i found here
    cases place
    exact (List.findIdx?_eq_some_iff_findIdx_eq.mp here).1
  · split at place
    · rw [show Companies.columns.findIdx? (·.rowKey) = some 0 from by decide] at place
      cases place
      decide
    · cases place

/-- Every spliced column name keeps this company. -/
theorem CompanyTable.matching_evenCompany (companies : CompanyTable) (text : String)
    (column : columnIndex Companies.columns text ≠ none) :
    companies.matching Engine.plain text evenCompany.row = true := by
  obtain ⟨index, place⟩ := Option.ne_none_iff_exists'.mp column
  have small := columnIndex_lt text index place
  have position : companies.table.position text = some index := place
  simp only [matching, operandValue, position]
  have places : index = 0 ∨ index = 1 ∨ index = 2 ∨ index = 3 := by omega
  rcases places with rfl | rfl | rfl | rfl
  · rfl
  · rfl
  · rfl
  · rfl

/-- The lookup answers with the key of the first company that the filter keeps. -/
theorem Companies.getRowID_first {uuid text : String} {id : Int} {after : Connection}
    (read : parse (firstStatement (tokens (Companies.getRowIDCommand uuid))) =
      .statement (.select "id" "companies" (some ⟨"uuid", .quoted text⟩)))
    (lookup : (Companies.getRowID Engine.plain uuid).run (session store.catalog log) = .ok id after) :
    ∃ company others, store.companies.rows.filter (fun company =>
      store.companies.matching Engine.plain text company.row) = company :: others ∧ company.id = id := by
  rw [Companies.getRowID_run Engine.plain store log read] at lookup
  change (match (store.companies.rows.map Company.row).filter _ with | [] => _ | row :: _ => _) = _ at lookup
  rw [List.filter_map] at lookup
  cases kept : store.companies.rows.filter (fun company =>
      store.companies.matching Engine.plain text company.row) with
  | nil =>
      rw [show store.companies.rows.filter (store.companies.matching Engine.plain text ∘ Company.row) = []
        from kept] at lookup
      cases lookup
  | cons company others =>
      rw [show store.companies.rows.filter (store.companies.matching Engine.plain text ∘ Company.row) =
        company :: others from kept] at lookup
      cases lookup
      exact ⟨company, others, rfl, rfl⟩

theorem CompanyTable.add_rows (companies : CompanyTable) (uuid name logo : String) :
    ∃ added, (companies.add engine uuid name logo).rows = companies.rows ++ added := by
  unfold add
  split
  · exact ⟨_, rfl⟩
  · exact ⟨[], (List.append_nil _).symm⟩

/-- A symbol that is not safe is not found again. -/
theorem hostile_disagrees (uuid : String) (hostile : ¬ SafeSymbol uuid) (rest : List Company)
    (first : store.companies.rows = evenCompany :: rest) :
    ¬ LookupsAgree Engine.plain uuid (session store.catalog log) := by
  intro agree
  obtain ⟨_, added, _, id, lookup, back⟩ := agree.roundTrip "" ""
  obtain ⟨after, run⟩ := Companies.add_run Engine.plain store log uuid "" ""
  rw [run] at added
  cases added
  obtain ⟨new, rows⟩ := store.companies.add_rows Engine.plain uuid "" ""
  generalize store.companies.add Engine.plain uuid "" "" = companies at *
  have back_uuid (company : Company) (member : company ∈ companies.rows) (key : company.id = id) :
      company.uuid = uuid := by
    have field := Companies.getField_run Engine.plain (store.withCompanies companies) after .uuid company member
    rw [key] at field
    have same := field.symm.trans back
    cases same
    rfl
  have refused (read : parse (firstStatement (tokens (Companies.getRowIDCommand uuid))) = .malformed ∨
      parse (firstStatement (tokens (Companies.getRowIDCommand uuid))) = .outside) : False := by
    rw [Companies.getRowID_refused _ _ uuid read] at lookup
    cases lookup
  rcases Companies.tokens_hostile uuid hostile with spelled | ⟨text, more, spelled, wrong⟩
  · exact refused (.inl (by rw [spelled]; rfl))
  · rcases Companies.parse_lookup text more with read | read | read <;> rw [← spelled] at read
    · obtain ⟨company, others, kept, key⟩ :=
        Companies.getRowID_first (store.withCompanies companies) after read lookup
      simp only [Store.withCompanies_companies] at kept
      have member : company ∈ companies.rows ∧ companies.matching Engine.plain text company.row = true := by
        have head : company ∈ companies.rows.filter fun company =>
            companies.matching Engine.plain text company.row := by
          rw [kept]
          exact List.mem_cons_self
        simpa using head
      have same := back_uuid company member.1 key
      by_cases column : columnIndex Companies.columns text = none
      · rw [companies.matching_text Engine.plain text column, decide_eq_true_eq] at member
        rcases wrong with different | names
        · exact different (member.2.symm.trans same)
        · exact names column
      · have even : company = evenCompany := by
          simp only [rows, first, List.cons_append, List.filter_cons,
            companies.matching_evenCompany text column, if_true] at kept
          exact (List.cons.inj kept).1.symm
        rw [even] at same
        apply hostile
        rw [← same]
        exact ⟨by decide, by decide, by decide⟩
    · exact refused (.inl read)
    · exact refused (.inr read)

theorem play_holdsStore (version : Nat) (attempts : List Attempt) (start : Connection)
    (created : (DBManager.createAndInitAllTables engine version).run (Connection.opened []) = .ok () start) :
    HoldsStore (play (attempt engine) start attempts) := by
  apply play_invariant (attempt_holdsStore engine)
  obtain ⟨log, run⟩ := createAndInitAllTables_empty engine version
  rw [run] at created
  cases created
  exact ⟨_, log, rfl⟩

/-- A symbol that is not safe disagrees as soon as there is one company. -/
theorem safe_of_agree {uuid : String}
    (agree : ∀ (engine : Engine) (version : Nat) (attempts : List Attempt) (start : Connection),
      (DBManager.createAndInitAllTables engine version).run (Connection.opened []) = .ok () start →
        LookupsAgree engine uuid (play (attempt engine) start attempts)) : SafeSymbol uuid := by
  by_contra hostile
  obtain ⟨log, created⟩ := createAndInitAllTables_empty Engine.plain 1
  have one := agree Engine.plain 1 [⟨.addCompany "1" "1" "1", false⟩] _ created
  obtain ⟨after, run⟩ := attempt_store Engine.plain (Store.empty 1) log ⟨.addCompany "1" "1" "1", false⟩
  rw [play, List.foldl_cons, List.foldl_nil, run] at one
  exact hostile_disagrees _ after uuid hostile [] (by decide) one

/-- The lookups of a symbol agree in all reachable states exactly when the symbol is safe. -/
theorem lookupsAgree_iff (uuid : String) :
    (∀ (engine : Engine) (version : Nat) (attempts : List Attempt) (start : Connection),
      (DBManager.createAndInitAllTables engine version).run (Connection.opened []) = .ok () start →
        LookupsAgree engine uuid (play (attempt engine) start attempts)) ↔ SafeSymbol uuid := by
  constructor
  · exact safe_of_agree
  · intro safe engine version attempts start created
    obtain ⟨store, log, reached⟩ := play_holdsStore engine version attempts start created
    rw [reached]
    exact safe.lookupsAgree engine store log

/-- The symbol `ID` is inserted and not found. -/
theorem lookups_disagree_on_column : ¬ ∀ (engine : Engine) (version : Nat) (attempts : List Attempt)
    (start : Connection),
    (DBManager.createAndInitAllTables engine version).run (Connection.opened []) = .ok () start →
      LookupsAgree engine "ID" (play (attempt engine) start attempts) := by
  intro agree
  have safe := safe_of_agree agree
  have column : sameName "ID" "id" = true := by decide
  rw [safe.noColumn "id" (by decide)] at column
  cases column

end Peakwork.Db
