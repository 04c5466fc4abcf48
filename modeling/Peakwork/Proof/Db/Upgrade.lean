/-
This file decides what the data of an older version becomes.
-/

import Peakwork.Proof.Db.Startup

namespace Peakwork.Db.DBManager

open Sql

variable (engine : Engine) (catalog : Catalog) (log : List Catalog) (dbVersion : Nat)

/-- The version table holds one row. -/
def HoldsVersion (catalog : Catalog) (version : Nat) : Prop :=
  ∃ table key, catalog.find "db_version" = some table ∧ table.columns = DBVersion.columns ∧
    table.rows = [[.integer key, .integer version]]

/-- Every row of the two data tables is still there. -/
def KeepsRows (before after : Catalog) : Prop :=
  ∀ name, name = "companies" ∨ name = "prices" →
    ∀ row ∈ rowsOf before name, row ∈ rowsOf after name

theorem holdsVersion_withDataTables {version : Nat} (holds : HoldsVersion catalog version) :
    HoldsVersion (withDataTables catalog) version := by
  obtain ⟨table, key, here, schema, single⟩ := holds
  refine ⟨table, key, ?_, schema, single⟩
  simp [withDataTables, Catalog.find_ensure, here]

/-- The stored version is the one that the comparison reads. -/
theorem readsVersion {version : Nat} (holds : HoldsVersion catalog version)
    (small : version < 2 ^ 32) :
    (DBVersion.getDBVersion engine).run (session catalog log) =
      .ok version (session catalog log) := by
  obtain ⟨table, key, here, schema, single⟩ := holds
  rw [DBVersion.getDBVersion_run engine catalog log table key version here schema single]
  congr 1
  omega

theorem isExist_run {version : Nat} (holds : HoldsVersion catalog version) :
    DBVersion.table.isExist.run (session catalog log) = .ok true (session catalog log) := by
  obtain ⟨table, _, here, _⟩ := holds
  simp [ITable.isExist, tableExists, EStateM.run, session, DBVersion.table, here]

/-- The own version changes nothing. -/
theorem upgradeVersion_own (holds : HoldsVersion catalog dbVersion) (small : dbVersion < 2 ^ 32) :
    (upgradeVersion engine dbVersion).run (session catalog log) = .ok () (session catalog log) := by
  unfold upgradeVersion
  rw [Action.bind_ok (isExist_run catalog log holds)]
  simp only [not_true_eq_false, if_false]
  apply Action.catch_ok
  rw [Action.bind_ok (readsVersion engine catalog log holds small)]
  simp only [lt_irrefl, if_false]
  rfl

/-- The update of an older version throws, and the handler creates all tables again. -/
theorem upgradeVersion_older {version : Nat} (holds : HoldsVersion catalog version)
    (older : version < dbVersion) (small : dbVersion < 2 ^ 32) :
    ∃ after, (upgradeVersion engine dbVersion).run (session catalog log) =
      .ok () (session (recreated catalog dbVersion) after) := by
  have thrown : (do
      let value ← DBVersion.getDBVersion engine
      if dbVersion < value then dropAndCreateAllTables engine dbVersion
      else if dbVersion > value then upgrade engine dbVersion value : Action Unit).run
        (session catalog log) = .error (.sqlite .syntaxError) (session catalog log) := by
    rw [Action.bind_ok (readsVersion engine catalog log holds (by omega))]
    rw [if_neg (by omega), if_pos older]
    exact DBVersion.updateDBVersion_run engine catalog log dbVersion
  unfold upgradeVersion
  rw [Action.bind_ok (isExist_run catalog log holds)]
  simp only [not_true_eq_false, if_false]
  obtain ⟨after, run⟩ := dropAndCreateAllTables_run engine catalog log dbVersion
  exact ⟨after, (Action.catch_error thrown).trans run⟩

theorem construct_own (holds : HoldsVersion catalog dbVersion) (small : dbVersion < 2 ^ 32) :
    ∃ after, (construct engine dbVersion).run (Connection.opened catalog) =
      .ok () (session (withDataTables catalog) after) := by
  obtain ⟨table, key, here, _, single⟩ := id holds
  unfold construct
  rw [opened_eq_session, Action.bind_ok (createAndInitAllTables_kept engine catalog [] dbVersion table
    here (by simp [single]))]
  exact ⟨_, upgradeVersion_own engine _ _ dbVersion (holdsVersion_withDataTables catalog holds) small⟩

theorem construct_older {version : Nat} (holds : HoldsVersion catalog version)
    (older : version < dbVersion) (small : dbVersion < 2 ^ 32) :
    ∃ after, (construct engine dbVersion).run (Connection.opened catalog) =
      .ok () (session (recreated (withDataTables catalog) dbVersion) after) := by
  obtain ⟨table, key, here, _, single⟩ := id holds
  unfold construct
  rw [opened_eq_session, Action.bind_ok (createAndInitAllTables_kept engine catalog [] dbVersion table
    here (by simp [single]))]
  exact upgradeVersion_older engine _ _ dbVersion (holdsVersion_withDataTables catalog holds) older small

/-- A start keeps the data exactly when the version is its own or there is no data to lose. -/
theorem construct_keepsRows_iff (version : Nat) (holds : HoldsVersion catalog version)
    (notNewer : version ≤ dbVersion) (small : dbVersion < 2 ^ 32) :
    (∃ after, (construct engine dbVersion).run (Connection.opened catalog) = .ok () after ∧
      KeepsRows catalog after.database.catalog) ↔
      version = dbVersion ∨ (rowsOf catalog "companies" = [] ∧ rowsOf catalog "prices" = []) := by
  rcases Nat.eq_or_lt_of_le notNewer with same | older
  · subst same
    obtain ⟨log, run⟩ := construct_own engine catalog version holds small
    refine ⟨fun _ => .inl rfl, fun _ => ⟨_, run, ?_⟩⟩
    intro name _ row member
    exact (rowsOf_withDataTables catalog name).symm ▸ member
  · obtain ⟨log, run⟩ := construct_older engine catalog dbVersion holds older small
    have lost (name : String) (data : name = "companies" ∨ name = "prices") :=
      rowsOf_recreated (withDataTables catalog) dbVersion name data
    constructor
    · rintro ⟨after, result, keeps⟩
      rw [run] at result
      cases result
      right
      constructor
      · exact List.eq_nil_iff_forall_not_mem.mpr fun row member => by
          have kept := keeps "companies" (.inl rfl) row member
          rw [session, lost "companies" (.inl rfl)] at kept
          exact absurd kept List.not_mem_nil
      · exact List.eq_nil_iff_forall_not_mem.mpr fun row member => by
          have kept := keeps "prices" (.inr rfl) row member
          rw [session, lost "prices" (.inr rfl)] at kept
          exact absurd kept List.not_mem_nil
    · rintro (same | ⟨noCompanies, noPrices⟩)
      · exact absurd same (Nat.ne_of_lt older)
      · refine ⟨_, run, ?_⟩
        rintro name (rfl | rfl) row member
        · rw [noCompanies] at member
          exact absurd member List.not_mem_nil
        · rw [noPrices] at member
          exact absurd member List.not_mem_nil

/-- A file of version 1 with one company. -/
def olderFile : Catalog :=
  [("db_version", DBVersion.freshTable 1),
    ("companies", { columns := Companies.columns,
                    rows := [[.integer 1, .text "AAPL", .text "Apple Inc.", .text ""]],
                    lastKey := 1 })]

theorem olderFile_holdsVersion : HoldsVersion olderFile 1 :=
  ⟨DBVersion.freshTable 1, 1, by decide, rfl, rfl⟩

/-- The binary of version 2 loses the company. -/
theorem upgrade_loses_company : ¬ ∀ (engine : Engine) (catalog : Catalog) (version dbVersion : Nat),
    HoldsVersion catalog version → version ≤ dbVersion → dbVersion < 2 ^ 32 →
      ∃ after, (construct engine dbVersion).run (Connection.opened catalog) = .ok () after ∧
        KeepsRows catalog after.database.catalog := by
  intro claimed
  obtain ⟨after, result, keeps⟩ :=
    claimed Engine.plain olderFile 1 2 olderFile_holdsVersion (by decide) (by decide)
  obtain ⟨log, run⟩ := construct_older Engine.plain olderFile 2 olderFile_holdsVersion
    (by decide) (by decide)
  rw [run] at result
  cases result
  have kept := keeps "companies" (.inl rfl)
    [.integer 1, .text "AAPL", .text "Apple Inc.", .text ""] (by decide)
  rw [session, rowsOf_recreated _ _ _ (.inl rfl)] at kept
  exact absurd kept List.not_mem_nil

theorem construct_keepsRows_iff_example :
    (∃ after, (construct Engine.plain 2).run (Connection.opened olderFile) = .ok () after ∧
      KeepsRows olderFile after.database.catalog) ↔
      1 = 2 ∨ (rowsOf olderFile "companies" = [] ∧ rowsOf olderFile "prices" = []) :=
  construct_keepsRows_iff Engine.plain olderFile 2 1 olderFile_holdsVersion (by decide) (by decide)

end Peakwork.Db.DBManager
