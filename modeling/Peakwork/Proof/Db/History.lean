/-
This file follows the version of the database over many starts and the work between them.
-/

import Peakwork.Proof.Db.Crash

namespace Peakwork.Db.DBManager

open Sql Contents

variable (engine : Engine)

/-- The version table is missing or empty, or has one row with a version that can be read back. -/
def Booked (catalog : Catalog) : Prop :=
  ∃ row, Represents (contents catalog) catalog ∧ (contents catalog).HasVersion row ∧
    ∀ pair, row = some pair → pair.2 < 2 ^ 32

def TablesExist (catalog : Catalog) : Prop :=
  ∀ name, name = "db_version" ∨ name = "companies" ∨ name = "prices" → (catalog.find name).isSome

theorem booked_empty : Booked [] := by
  refine ⟨none, ⟨rfl, ?_⟩, .inl rfl, ?_⟩
  · intro table found
    cases found
  · intro pair same
    cases same

/-- The file of a represented content is booked when its row can be read back. -/
theorem booked_of {held : Contents} {catalog : Catalog} {row : Option (Int × Nat)}
    (here : Represents held catalog) (has : held.HasVersion row) (small : ∀ pair, row = some pair → pair.2 < 2 ^ 32) :
    Booked catalog := by
  obtain ⟨rfl, unused⟩ := here
  exact ⟨row, ⟨rfl, unused⟩, has, small⟩

variable {dbVersion : Nat} {catalog : Catalog}

theorem booked_killed (small : dbVersion < 2 ^ 32) (booked : Booked catalog) {transactions : Nat} {left : Catalog}
    (kill : killed engine dbVersion catalog transactions = some left) : Booked left := by
  obtain ⟨row, here, has, bound⟩ := booked
  obtain ⟨found, has', from_⟩ := contentsAfter_version dbVersion has transactions
  apply booked_of (killed_represents engine dbVersion has here kill) has'
  intro pair same
  subst same
  have pairs : pair = row.getD (1, dbVersion) ∨ pair = (1, dbVersion) := from_
  rcases pairs with kept | new
  · cases row with
    | none =>
        subst kept
        exact small
    | some before =>
        subst kept
        exact bound _ rfl
  · subst new
    exact small

theorem rowsOf_contents (catalog : Catalog) (name : String) :
    rowsOf catalog name = ((contents catalog name).map Content.rows).getD [] := by
  unfold rowsOf contents
  rw [Option.map_map]
  rfl

/-- A completed start leaves the three tables and its own version; from its own version it keeps the rest. -/
theorem contentsCompleted_settled (dbVersion : Nat) {held : Contents} {row : Option (Int × Nat)} (has : held.HasVersion row)
    (small : ∀ pair, row = some pair → pair.2 < 2 ^ 32) :
    ∃ key base, contentsCompleted dbVersion held row = settled (key, dbVersion) base ∧
      (∀ pair, row = some pair → pair.2 = dbVersion → base = held) := by
  rw [contentsCompleted_eq dbVersion has]
  split
  · rename_i own
    cases row with
    | none => exact ⟨1, held, rfl, fun _ _ _ => rfl⟩
    | some pair =>
        have same : pair.2 = dbVersion := by
          rw [← own]
          exact (Nat.mod_eq_of_lt (small pair rfl)).symm
        subst same
        exact ⟨pair.1, held, rfl, fun _ _ _ => rfl⟩
  · rename_i differs
    refine ⟨1, dropped held, rfl, ?_⟩
    intro pair same own
    subst same
    exact absurd ((Nat.mod_eq_of_lt (small pair rfl)).trans own) differs

theorem tablesExist_settled {pair : Int × Nat} {base : Contents} (same : contents catalog = settled pair base) :
    TablesExist catalog := by
  intro name table
  have mapped : (contents catalog name).isSome := by
    rw [same]
    rcases table with rfl | rfl | rfl
    · rfl
    · rfl
    · rfl
  rw [contents, Option.isSome_map] at mapped
  exact mapped

/-- The stored version of a booked file is that of its row. -/
theorem holdsVersion_row {version : Nat} {row : Option (Int × Nat)} (has : (contents catalog).HasVersion row)
    (holds : HoldsVersion catalog version) : ∃ key, row = some (key, version) := by
  obtain ⟨table, key, found, -, single⟩ := holds
  have here : contents catalog "db_version" = some (contentOf table) := by
    rw [contents, found, Option.map_some]
  cases row with
  | none =>
      exfalso
      rcases has with missing | empty
      · rw [here] at missing
        cases missing
      · rw [here] at empty
        have rows := congrArg Content.rows (Option.some.inj empty)
        change table.rows = [] at rows
        rw [single] at rows
        cases rows
  | some pair =>
      have rows := congrArg Content.rows (Option.some.inj (here.symm.trans has))
      change table.rows = [[.integer pair.1, .integer pair.2]] at rows
      rw [single] at rows
      injection rows with rows
      injection rows with keys versions
      injection versions with versions
      injection versions with versions
      exact ⟨pair.1, by rw [Int.ofNat_inj.mp versions]⟩

/-- The rows of a data table are those of its content when nothing was replaced. -/
theorem rowsOf_settled {after : Catalog} {pair : Int × Nat} (same : contents after = settled pair (contents catalog)) :
    rowsOf after "companies" = rowsOf catalog "companies" ∧ rowsOf after "prices" = rowsOf catalog "prices" := by
  rw [rowsOf_contents, rowsOf_contents, rowsOf_contents, rowsOf_contents, same]
  constructor
  · simp only [settled]
    cases contents catalog "companies" with
    | none => rfl
    | some content => rfl
  · simp only [settled]
    cases contents catalog "prices" with
    | none => rfl
    | some content => rfl

theorem booked_completed (small : dbVersion < 2 ^ 32) (booked : Booked catalog) :
    ∃ after, completed engine dbVersion catalog = some after ∧ Booked after ∧ TablesExist after ∧
      HoldsVersion after dbVersion ∧
      (HoldsVersion catalog dbVersion →
        rowsOf after "companies" = rowsOf catalog "companies" ∧ rowsOf after "prices" = rowsOf catalog "prices") := by
  obtain ⟨row, here, has, bound⟩ := booked
  obtain ⟨after, done, there⟩ := completed_represents engine dbVersion has here
  obtain ⟨key, base, same, kept⟩ := contentsCompleted_settled dbVersion has bound
  rw [same] at there
  have version : (settled (key, dbVersion) base).HasVersion (some (key, dbVersion)) := rfl
  refine ⟨after, done, ?_, tablesExist_settled there.same, represents_holdsVersion version there, ?_⟩
  · apply booked_of there version
    intro pair stored
    cases stored
    exact small
  · intro own
    obtain ⟨stored, found⟩ := holdsVersion_row has own
    have unchanged := kept _ found rfl
    exact rowsOf_settled (unchanged ▸ there.same)

theorem booked_leaves {start : Start} (small : start.dbVersion < 2 ^ 32) (booked : Booked catalog) {left : Catalog}
    (leaves : start.leaves engine catalog = some left) : Booked left := by
  unfold Start.leaves at leaves
  cases kill : start.killedAfter with
  | some transactions =>
      rw [kill] at leaves
      exact booked_killed engine small booked leaves
  | none =>
      rw [kill] at leaves
      obtain ⟨after, done, booked, -⟩ := booked_completed engine small booked
      cases done.symm.trans leaves
      exact booked

theorem find_work (companies prices : Table) (name : String) (other : name ≠ "companies" ∧ name ≠ "prices") :
    ((catalog.replace "companies" companies).replace "prices" prices).find name = catalog.find name := by
  rw [Catalog.find_replace, if_neg other.2, Catalog.find_replace, if_neg other.1]

/-- A file stays booked when its version table stays. -/
theorem booked_same {after : Catalog} (booked : Booked catalog) (same : after.find "db_version" = catalog.find "db_version") :
    Booked after := by
  obtain ⟨row, here, has, bound⟩ := booked
  have table : contents after "db_version" = contents catalog "db_version" := congrArg (Option.map contentOf) same
  refine ⟨row, ⟨rfl, fun other found => here.unused other (same.symm.trans found)⟩, ?_, bound⟩
  cases row with
  | none => exact has.imp table.trans table.trans
  | some pair => exact table.trans has

theorem booked_phase {phase : Phase} (small : ∀ start, phase = .start start → start.dbVersion < 2 ^ 32)
    (booked : Booked catalog) {left : Catalog} (leaves : phase.leaves engine catalog = some left) : Booked left := by
  cases phase with
  | start start => exact booked_leaves engine (small start rfl) booked leaves
  | work companies prices =>
      cases leaves
      exact booked_same booked (find_work companies prices "db_version" (by decide))

theorem booked_history {phases : List Phase} (small : ∀ start, .start start ∈ phases → start.dbVersion < 2 ^ 32)
    {before : Catalog} (booked : Booked before) (reached : history engine phases before = some catalog) :
    Booked catalog := by
  induction phases generalizing before with
  | nil =>
      cases reached
      exact booked
  | cons phase rest ih =>
      unfold history at reached
      rw [List.foldlM_cons] at reached
      obtain ⟨middle, leaves, followed⟩ := Option.bind_eq_some_iff.mp reached
      have first := booked_phase engine (fun start same => small start (same ▸ List.mem_cons_self)) booked leaves
      exact ih (fun other member => small other (List.mem_cons_of_mem phase member)) first followed

theorem booked_atMostOne (booked : Booked catalog) : (rowsOf catalog "db_version").length ≤ 1 := by
  obtain ⟨row, -, has, -⟩ := booked
  rw [rowsOf_contents]
  cases row with
  | some pair =>
      have here : contents catalog "db_version" = some (versionContent pair.1 pair.2) := has
      rw [here]
      exact le_rfl
  | none =>
      rcases has with missing | empty
      · rw [missing]
        exact Nat.zero_le 1
      · rw [empty]
        exact Nat.zero_le 1

/-- In every history from an empty file, with any rows in the data tables between its starts, the version table
has at most one row. Every start of a next binary that completes leaves the three tables and one row with its version,
and keeps the data when the version was its own. -/
theorem history_keepsVersion (phases : List Phase) (small : ∀ start, .start start ∈ phases → start.dbVersion < 2 ^ 32)
    (catalog : Catalog) (reached : history engine phases [] = some catalog) :
    (rowsOf catalog "db_version").length ≤ 1 ∧
      ∀ dbVersion, dbVersion < 2 ^ 32 → ∃ after, completed engine dbVersion catalog = some after ∧
        TablesExist after ∧ HoldsVersion after dbVersion ∧
        (HoldsVersion catalog dbVersion →
          rowsOf after "companies" = rowsOf catalog "companies" ∧
            rowsOf after "prices" = rowsOf catalog "prices") := by
  have booked := booked_history engine small booked_empty reached
  refine ⟨booked_atMostOne booked, ?_⟩
  intro dbVersion own
  obtain ⟨after, done, -, rest⟩ := booked_completed engine own booked
  exact ⟨after, done, rest⟩

/-- A company and one of its prices. -/
def filledCompanies : Table :=
  { Companies.emptyTable with rows := [[.integer 1, .text "AAPL", .text "Apple", .text "logo"]], lastKey := 1 }

def filledPrices : Table :=
  { Prices.emptyTable with rows := [[.integer 1, .integer 1, .integer 100, .real 5]], lastKey := 1 }

/-- A witness file gets its tables from one start and rows before the next one. -/
theorem history_keepsVersion_example : ∃ catalog,
    history Engine.plain [.start ⟨1, none⟩, .work filledCompanies filledPrices] [] = some catalog ∧
      ∃ after, completed Engine.plain 1 catalog = some after ∧ HoldsVersion after 1 ∧
        rowsOf after "companies" = filledCompanies.rows ∧ rowsOf after "prices" = filledPrices.rows := by
  obtain ⟨made, done, tables, version, -⟩ := (history_keepsVersion Engine.plain [] (by simp) [] rfl).2 1 (by decide)
  have reached : history Engine.plain [.start ⟨1, none⟩, .work filledCompanies filledPrices] [] =
      some ((made.replace "companies" filledCompanies).replace "prices" filledPrices) := by
    unfold history
    rw [List.foldlM_cons]
    exact Option.bind_eq_some_iff.mpr ⟨made, done, rfl⟩
  obtain ⟨after, again, -, own, same⟩ := (history_keepsVersion Engine.plain _ (by simp) _ reached).2 1 (by decide)
  obtain ⟨table, key, found, columns, rows⟩ := version
  obtain ⟨companies, prices⟩ := same ⟨table, key, (find_work _ _ _ (by decide)).trans found, columns, rows⟩
  obtain ⟨oldCompanies, companiesFound⟩ := Option.isSome_iff_exists.mp (tables "companies" (by decide))
  obtain ⟨oldPrices, pricesFound⟩ := Option.isSome_iff_exists.mp (tables "prices" (by decide))
  refine ⟨_, reached, after, again, own, companies.trans ?_, prices.trans ?_⟩
  · rw [rowsOf, Catalog.find_replace, if_neg (by decide), Catalog.find_replace, if_pos rfl, companiesFound]
    rfl
  · rw [rowsOf, Catalog.find_replace, if_pos rfl, Catalog.find_replace, if_neg (by decide), pricesFound]
    rfl

end Peakwork.Db.DBManager
