/-
This file decides what a killed start leaves for the next one.
-/

import Peakwork.Proof.Db.Contents

namespace Peakwork.Db

open Sql Contents

namespace Contents

/-- All three tables exist and the version table has the given row. -/
def settled (pair : Int × Nat) (held : Contents) : Contents := fun name =>
  if name = "db_version" then some (versionContent pair.1 pair.2)
  else if name = "companies" then some ((held name).getD (contentOf Companies.emptyTable))
  else if name = "prices" then some ((held name).getD (contentOf Prices.emptyTable))
  else held name

def dropped (held : Contents) : Contents := fun name =>
  if name = "db_version" ∨ name = "companies" ∨ name = "prices" then none else held name

def isOther (name : String) : Prop := name ≠ "db_version" ∧ name ≠ "companies" ∧ name ≠ "prices"

variable {held other : Contents} {pair : Int × Nat}

theorem settled_eq_iff (others : ∀ name, isOther name → held name = other name) :
    settled pair held = settled pair other ↔
      (held "companies").getD (contentOf Companies.emptyTable) =
          (other "companies").getD (contentOf Companies.emptyTable) ∧
        (held "prices").getD (contentOf Prices.emptyTable) =
          (other "prices").getD (contentOf Prices.emptyTable) := by
  constructor
  · intro same
    constructor
    · simpa [settled] using congrFun same "companies"
    · simpa [settled] using congrFun same "prices"
  · intro same
    funext name
    unfold settled
    by_cases version : name = "db_version"
    · rw [if_pos version, if_pos version]
    · by_cases companies : name = "companies"
      · simp [companies, same.1]
      · by_cases prices : name = "prices"
        · simp [prices, same.2]
        · simp only [version, companies, prices, if_false]
          exact others name ⟨version, companies, prices⟩

theorem others_eq (same : settled pair held = settled pair other) (name : String) (table : isOther name) :
    held name = other name := by
  have here := congrFun same name
  simpa [settled, table.1, table.2.1, table.2.2] using here

theorem others_settled (name : String) (table : isOther name) : settled pair held name = held name := by
  simp [settled, table.1, table.2.1, table.2.2]

theorem others_dropped (name : String) (table : isOther name) : dropped held name = held name := by
  simp [dropped, table.1, table.2.1, table.2.2]

theorem dropped_eq (others : ∀ name, isOther name → held name = other name) : dropped held = dropped other := by
  funext name
  unfold dropped
  by_cases table : name = "db_version" ∨ name = "companies" ∨ name = "prices"
  · rw [if_pos table, if_pos table]
  · rw [if_neg table, if_neg table]
    push Not at table
    exact others name table

end Contents

namespace DBManager

variable (dbVersion : Nat) {held : Contents} {row : Option (Int × Nat)}

theorem foldl_dropSteps : dropSteps.foldl Contents.after held = dropped held := by
  funext name
  simp only [dropSteps, List.foldl_cons, List.foldl_nil, Contents.after, Function.update_apply, dropped]
  grind

/-- Everything that is missing has been made. -/
theorem foldl_createSteps (has : held.HasVersion row) :
    (createSteps dbVersion row).foldl Contents.after held = settled (row.getD (1, dbVersion)) held := by
  funext name
  cases row with
  | some pair =>
      have there : held "db_version" = some (versionContent pair.1 pair.2) := has
      simp only [createSteps, DBVersion.createSteps, List.cons_append, List.nil_append, List.foldl_cons,
        List.foldl_nil, Contents.after, Function.update_apply, settled]
      grind
  | none =>
      simp only [createSteps, DBVersion.createSteps, List.cons_append, List.nil_append, List.foldl_cons,
        List.foldl_nil, Contents.after, Function.update_apply, settled]
      have fresh : contentOf (DBVersion.freshTable dbVersion) = versionContent 1 dbVersion := rfl
      grind

/-- The contents are on the way to those with the given row. -/
def Grows (pair : Int × Nat) (held grown : Contents) : Prop :=
  ∃ row, grown.HasVersion row ∧ row.getD (1, dbVersion) = pair ∧ settled pair grown = settled pair held

theorem grows_self (has : held.HasVersion row) : Grows dbVersion (row.getD (1, dbVersion)) held held :=
  ⟨row, has, rfl, rfl⟩

/-- A table that is made, or the row that is stored, takes nothing away. -/
theorem settled_make {pair : Int × Nat} {name : String} {table : Table}
    (made : (name, table) = ("db_version", DBVersion.emptyTable) ∨
      (name, table) = ("companies", Companies.emptyTable) ∨ (name, table) = ("prices", Prices.emptyTable)) :
    settled pair (held.after (.make name table)) = settled pair held := by
  funext other
  unfold settled Contents.after
  simp only [Function.update_apply]
  rcases made with same | same | same
  all_goals
    cases same
    grind

theorem hasVersion_make {name : String} {table : Table} (different : "db_version" ≠ name)
    (has : held.HasVersion row) : (held.after (.make name table)).HasVersion row := by
  have same : (held.after (.make name table)) "db_version" = held "db_version" := by
    simp [Contents.after, different]
  cases row with
  | some pair => exact same.trans has
  | none =>
      rcases has with missing | empty
      · exact .inl (same.trans missing)
      · exact .inr (same.trans empty)

theorem hasVersion_makeVersion (has : held.HasVersion row) :
    (held.after (.make "db_version" DBVersion.emptyTable)).HasVersion row := by
  cases row with
  | some pair =>
      have there : held "db_version" = some (versionContent pair.1 pair.2) := has
      simp [Contents.after, HasVersion, there]
  | none =>
      right
      rcases has with missing | empty
      · simp [Contents.after, missing]
      · simp [Contents.after, empty]

/-- A step of the creation keeps what the creation leads to. -/
theorem grows_make {pair : Int × Nat} {grown : Contents} {name : String} {table : Table}
    (made : (name, table) = ("db_version", DBVersion.emptyTable) ∨
      (name, table) = ("companies", Companies.emptyTable) ∨ (name, table) = ("prices", Prices.emptyTable))
    (grows : Grows dbVersion pair held grown) :
    Grows dbVersion pair held (grown.after (.make name table)) := by
  obtain ⟨row, has, own, same⟩ := grows
  refine ⟨row, ?_, own, (settled_make made).trans same⟩
  rcases made with asked | asked | asked
  · cases asked
    exact hasVersion_makeVersion has
  · cases asked
    exact hasVersion_make (by decide) has
  · cases asked
    exact hasVersion_make (by decide) has

theorem grows_storeVersion {grown : Contents} (grows : Grows dbVersion (1, dbVersion) held grown) :
    Grows dbVersion (1, dbVersion) held (grown.after (.storeVersion dbVersion)) := by
  obtain ⟨row, has, own, same⟩ := grows
  refine ⟨some (1, dbVersion), ?_, rfl, ?_⟩
  · simp [Contents.after, HasVersion]
    rfl
  · rw [← same]
    funext name
    unfold settled Contents.after
    simp only [Function.update_apply]
    grind

/-- Wherever the creation is stopped, it can be continued. -/
theorem grows_take (has : held.HasVersion row) (count : Nat) :
    Grows dbVersion (row.getD (1, dbVersion)) held
      (((createSteps dbVersion row).take count).foldl Contents.after held) := by
  have start := grows_self dbVersion has
  have version := grows_make dbVersion (.inl rfl) start
  cases row with
  | some pair =>
      have companies := grows_make dbVersion (.inr (.inl rfl)) version
      have prices := grows_make dbVersion (.inr (.inr rfl)) companies
      rcases count with _ | _ | _ | rest
      · exact start
      · exact version
      · exact companies
      · rw [List.take_of_length_le (by simp [createSteps, DBVersion.createSteps])]
        exact prices
  | none =>
      have stored := grows_storeVersion dbVersion version
      have companies := grows_make dbVersion (.inr (.inl rfl)) stored
      have prices := grows_make dbVersion (.inr (.inr rfl)) companies
      rcases count with _ | _ | _ | _ | rest
      · exact start
      · exact version
      · exact stored
      · exact companies
      · rw [List.take_of_length_le (by simp [createSteps, DBVersion.createSteps])]
        exact prices

theorem readVersion_eq (row : Option (Int × Nat)) :
    readVersion dbVersion row = (row.getD (1, dbVersion)).2 % 2 ^ 32 := by
  cases row <;> rfl

/-- What a start leaves depends on the version that it reads. -/
theorem contentsCompleted_eq (has : held.HasVersion row) :
    contentsCompleted dbVersion held row =
      if readVersion dbVersion row = dbVersion then settled (row.getD (1, dbVersion)) held
      else settled (1, dbVersion) (dropped held) := by
  unfold contentsCompleted startSteps
  rw [List.foldl_append, foldl_createSteps dbVersion has]
  split
  · rfl
  · rw [List.foldl_append, foldl_createSteps dbVersion hasVersion_dropped, foldl_dropSteps]
    congr 1
    exact dropped_eq others_settled

/-- What the drops have left of the data. -/
def remains (full : Contents) : Nat → Contents
  | 0 => full
  | 1 => full.after (.drop "companies")
  | _ => dropped full

theorem settled_dropVersion {pair : Int × Nat} :
    settled pair (held.after (.drop "db_version")) = settled pair held := by
  funext name
  unfold settled Contents.after
  simp only [Function.update_apply]
  grind

/-- After the drop of the version table the next start finds its own version or none. -/
theorem grows_replaced (full : Contents) (count : Nat) :
    ∃ row, (((dropSteps ++ createSteps dbVersion none).take (count + 1)).foldl Contents.after full).HasVersion row ∧
      row.getD (1, dbVersion) = (1, dbVersion) ∧
      settled (1, dbVersion) (((dropSteps ++ createSteps dbVersion none).take (count + 1)).foldl Contents.after full) =
        settled (1, dbVersion) (remains full count) := by
  match count with
  | 0 => exact ⟨none, .inl rfl, rfl, settled_dropVersion⟩
  | 1 =>
      refine ⟨none, .inl rfl, rfl, ?_⟩
      have swapped : (full.after (.drop "db_version")).after (.drop "companies") =
          (full.after (.drop "companies")).after (.drop "db_version") := by
        have different : "db_version" ≠ "companies" := by decide
        simp only [Contents.after]
        rw [Function.update_comm different]
      exact (congrArg (settled (1, dbVersion)) swapped).trans settled_dropVersion
  | rest + 2 =>
      have split : (dropSteps ++ createSteps dbVersion none).take (rest + 2 + 1) =
          dropSteps ++ (createSteps dbVersion none).take rest := rfl
      rw [split, List.foldl_append, foldl_dropSteps]
      exact grows_take dbVersion (foldl_dropSteps ▸ hasVersion_dropped) rest

/-- The data that a start replaces and that a kill after some transactions leaves in the file. -/
def KillIsHarmless (held : Contents) (row : Option (Int × Nat)) (transactions : Nat) : Prop :=
  ∀ pair, row = some pair → pair.2 % 2 ^ 32 ≠ dbVersion → dbVersion < 2 ^ 32 →
    (transactions = 4 → (held "companies").getD (contentOf Companies.emptyTable) = contentOf Companies.emptyTable ∧
      (held "prices").getD (contentOf Prices.emptyTable) = contentOf Prices.emptyTable) ∧
    (transactions = 5 → (held "prices").getD (contentOf Prices.emptyTable) = contentOf Prices.emptyTable)

/-- A kill during the creation leaves a part of it. -/
theorem contentsAfter_early {transactions : Nat} (early : transactions ≤ (createSteps dbVersion row).length) :
    contentsAfter dbVersion held row transactions =
      ((createSteps dbVersion row).take transactions).foldl Contents.after held := by
  rw [contentsAfter, startSteps, List.take_append_of_le_length early]

/-- A start that reads its own version does nothing after the creation. -/
theorem contentsAfter_own (own : readVersion dbVersion row = dbVersion) {transactions : Nat}
    (late : (createSteps dbVersion row).length < transactions) :
    contentsAfter dbVersion held row transactions =
      contentsAfter dbVersion held row (createSteps dbVersion row).length := by
  unfold contentsAfter startSteps
  rw [if_pos own, List.append_nil, List.take_length, List.take_of_length_le late.le]

/-- A kill during the replacement leaves a part of it. -/
theorem contentsAfter_late (has : held.HasVersion row) (differs : readVersion dbVersion row ≠ dbVersion) (count : Nat) :
    contentsAfter dbVersion held row ((createSteps dbVersion row).length + (count + 1)) =
      ((dropSteps ++ createSteps dbVersion none).take (count + 1)).foldl Contents.after
        (settled (row.getD (1, dbVersion)) held) := by
  rw [contentsAfter, startSteps, if_neg differs, List.take_length_add_append, List.foldl_append,
    foldl_createSteps dbVersion has]

/-- A kill during the creation is made good by the next start. -/
theorem restarted_early (has : held.HasVersion row) {transactions : Nat}
    (early : transactions ≤ (createSteps dbVersion row).length) :
    ∃ found, (contentsAfter dbVersion held row transactions).HasVersion found ∧
      contentsCompleted dbVersion (contentsAfter dbVersion held row transactions) found =
        contentsCompleted dbVersion held row := by
  obtain ⟨found, has', own, same⟩ := grows_take dbVersion has transactions
  rw [contentsAfter_early dbVersion early]
  refine ⟨found, has', ?_⟩
  rw [contentsCompleted_eq dbVersion has', contentsCompleted_eq dbVersion has, readVersion_eq, readVersion_eq,
    own, same]
  congr 2
  exact dropped_eq (others_eq same)

/-- A kill during the replacement is made good when its data are empty or no start finds its own version. -/
theorem restarted_late (has : held.HasVersion row) (differs : readVersion dbVersion row ≠ dbVersion) (count : Nat) :
    ∃ found, (contentsAfter dbVersion held row ((createSteps dbVersion row).length + (count + 1))).HasVersion found ∧
      (contentsCompleted dbVersion
          (contentsAfter dbVersion held row ((createSteps dbVersion row).length + (count + 1))) found =
        contentsCompleted dbVersion held row ↔
      (dbVersion % 2 ^ 32 = dbVersion →
        settled (1, dbVersion) (remains (settled (row.getD (1, dbVersion)) held) count) =
          settled (1, dbVersion) (dropped held))) := by
  obtain ⟨found, has', own, same⟩ := grows_replaced dbVersion (settled (row.getD (1, dbVersion)) held) count
  rw [contentsAfter_late dbVersion has differs]
  refine ⟨found, has', ?_⟩
  rw [contentsCompleted_eq dbVersion has', contentsCompleted_eq dbVersion has, if_neg differs, readVersion_eq, own]
  by_cases readable : dbVersion % 2 ^ 32 = dbVersion
  · rw [if_pos readable, same]
    exact ⟨fun equal _ => equal, fun equal => equal readable⟩
  · rw [if_neg readable]
    refine iff_of_true ?_ fun impossible => absurd impossible readable
    congr 1
    apply dropped_eq
    intro name other
    rw [others_eq same name other]
    match count with
    | 0 => exact others_settled name other
    | 1 =>
        have different : name ≠ "companies" := other.2.1
        simp [remains, Contents.after, different, others_settled name other]
    | rest + 2 => exact (others_dropped name other).trans (others_settled name other)

/-- Wherever a start is killed, the version table has the row that it had, the new one or none. -/
theorem contentsAfter_version (has : held.HasVersion row) (transactions : Nat) :
    ∃ found, (contentsAfter dbVersion held row transactions).HasVersion found ∧
      (found.getD (1, dbVersion) = row.getD (1, dbVersion) ∨ found.getD (1, dbVersion) = (1, dbVersion)) := by
  have early {count : Nat} (inside : count ≤ (createSteps dbVersion row).length) :
      ∃ found, (contentsAfter dbVersion held row count).HasVersion found ∧
        (found.getD (1, dbVersion) = row.getD (1, dbVersion) ∨ found.getD (1, dbVersion) = (1, dbVersion)) := by
    obtain ⟨found, has', own, -⟩ := grows_take dbVersion has count
    rw [contentsAfter_early dbVersion inside]
    exact ⟨found, has', .inl own⟩
  rcases Nat.lt_or_ge (createSteps dbVersion row).length transactions with late | inside
  · by_cases own : readVersion dbVersion row = dbVersion
    · rw [contentsAfter_own dbVersion own late]
      exact early le_rfl
    · obtain ⟨count, rfl⟩ := Nat.exists_eq_add_of_lt late
      obtain ⟨found, has', new, -⟩ := grows_replaced dbVersion (settled (row.getD (1, dbVersion)) held) count
      have steps := contentsAfter_late dbVersion has own count
      rw [← Nat.add_assoc] at steps
      rw [steps]
      exact ⟨found, has', .inr new⟩
  · exact early inside

/-- The drops that are missing are of tables without data. -/
theorem remains_settled_iff (pair : Int × Nat) (held : Contents) (count : Nat) :
    settled (1, dbVersion) (remains (settled pair held) count) = settled (1, dbVersion) (dropped held) ↔
      (count = 0 →
        (held "companies").getD (contentOf Companies.emptyTable) = contentOf Companies.emptyTable ∧
          (held "prices").getD (contentOf Prices.emptyTable) = contentOf Prices.emptyTable) ∧
      (count = 1 → (held "prices").getD (contentOf Prices.emptyTable) = contentOf Prices.emptyTable) := by
  match count with
  | 0 =>
      have others (name : String) (other : isOther name) : settled pair held name = dropped held name :=
        (others_settled name other).trans (others_dropped name other).symm
      rw [remains, settled_eq_iff others]
      simp [settled, dropped]
  | 1 =>
      have others (name : String) (other : isOther name) :
          ((settled pair held).after (.drop "companies")) name = dropped held name := by
        have different : name ≠ "companies" := other.2.1
        simp [Contents.after, different, others_settled name other, others_dropped name other]
      rw [remains, settled_eq_iff others]
      simp [settled, dropped, Contents.after]
  | rest + 2 =>
      have gone : remains (settled pair held) (rest + 2) = dropped (settled pair held) := rfl
      rw [gone, dropped_eq others_settled]
      refine iff_of_true rfl ⟨fun zero => ?_, fun one => ?_⟩
      · omega
      · omega

/-- A kill is made good by the next start exactly when it leaves no data that should be gone. -/
theorem restarted_iff (has : held.HasVersion row) (transactions : Nat) :
    ∃ found, (contentsAfter dbVersion held row transactions).HasVersion found ∧
      (contentsCompleted dbVersion (contentsAfter dbVersion held row transactions) found =
          contentsCompleted dbVersion held row ↔
        KillIsHarmless dbVersion held row transactions) := by
  rcases Nat.lt_or_ge (createSteps dbVersion row).length transactions with late | early
  · by_cases own : readVersion dbVersion row = dbVersion
    · rw [contentsAfter_own dbVersion own late]
      obtain ⟨found, has', same⟩ := restarted_early dbVersion has le_rfl
      refine ⟨found, has', iff_of_true same ?_⟩
      intro pair stored differs
      subst stored
      exact absurd own differs
    · obtain ⟨count, rfl⟩ := Nat.exists_eq_add_of_lt late
      obtain ⟨found, has', late⟩ := restarted_late dbVersion has own count
      refine ⟨found, has', late.trans ?_⟩
      cases row with
      | none =>
          refine iff_of_true (fun readable => absurd readable own) ?_
          intro pair stored
          cases stored
      | some pair =>
          rw [remains_settled_iff]
          have differs : pair.2 % 2 ^ 32 ≠ dbVersion := own
          have length : (createSteps dbVersion (some pair)).length = 3 := rfl
          unfold KillIsHarmless
          rw [length]
          constructor
          · intro harmless other stored _ small
            have kept := harmless (Nat.mod_eq_of_lt small)
            refine ⟨fun four => kept.1 (by omega), fun five => kept.2 (by omega)⟩
          · intro harmless readable
            have small : dbVersion < 2 ^ 32 := by omega
            have kept := harmless pair rfl differs small
            refine ⟨fun zero => kept.1 (by omega), fun one => kept.2 (by omega)⟩
  · obtain ⟨found, has', same⟩ := restarted_early dbVersion has early
    refine ⟨found, has', iff_of_true same ?_⟩
    intro pair stored _ _
    subst stored
    have length : (createSteps dbVersion (some pair)).length = 3 := rfl
    constructor
    · intro four
      omega
    · intro five
      omega

end DBManager

/-- A file of the daemon; its version table may be missing or empty. -/
structure DaemonFile (catalog : Catalog) (row : Option (Int × Nat)) : Prop where
  version : (contents catalog).HasVersion row
  unused : ∀ table, catalog.find "db_version" = some table → table.rows = [] → table = DBVersion.emptyTable
  companies : ∀ table, catalog.find "companies" = some table →
    table.columns = Companies.columns ∧ table.references = []
  prices : ∀ table, catalog.find "prices" = some table →
    table.columns = Prices.columns ∧ table.references = Prices.references

/-- A table with its own columns is like the empty one when it has no rows. -/
theorem content_empty_iff {catalog : Catalog} {name : String} {empty : Table} (new : empty.rows = [])
    (schema : ∀ table, catalog.find name = some table →
      table.columns = empty.columns ∧ table.references = empty.references) :
    (contents catalog name).getD (contentOf empty) = contentOf empty ↔ rowsOf catalog name = [] := by
  unfold contents rowsOf
  cases found : catalog.find name with
  | none => simp
  | some table =>
      obtain ⟨columns, references⟩ := schema table found
      simp [contentOf, columns, references, new]

namespace DBManager

variable (engine : Engine) (dbVersion : Nat)

/-- The next start leaves the tables, rows and version of a start that is not killed. -/
def SurvivesCrash (catalog left : Catalog) : Prop :=
  ∃ restarted uninterrupted, completed engine dbVersion left = some restarted ∧
    completed engine dbVersion catalog = some uninterrupted ∧ contents restarted = contents uninterrupted

/-- Every number of transactions up to the last one is a point where a start can be killed. -/
theorem killed_exists {catalog : Catalog} {row : Option (Int × Nat)} (file : DaemonFile catalog row)
    {transactions : Nat} (inside : transactions ≤ (startSteps dbVersion row).length) :
    ∃ left, killed engine dbVersion catalog transactions = some left := by
  obtain ⟨commits, final, trace, run⟩ :=
    construct_performs engine dbVersion file.version catalog [] ⟨rfl, file.unused⟩
  unfold killed states Connection.opened
  rw [run]
  simp only [List.append_nil, List.reverse_reverse]
  have bound : transactions < (catalog :: commits).length := by
    rw [List.length_cons, trace.length_commits]
    omega
  exact ⟨_, List.getElem?_eq_getElem bound⟩

theorem survivesCrash_harmless {catalog : Catalog} {row : Option (Int × Nat)} (file : DaemonFile catalog row)
    {transactions : Nat} {left : Catalog} (kill : killed engine dbVersion catalog transactions = some left) :
    SurvivesCrash engine dbVersion catalog left ↔
      KillIsHarmless dbVersion (contents catalog) row transactions := by
  have here : Represents (contents catalog) catalog := ⟨rfl, file.unused⟩
  have killed := killed_represents engine dbVersion file.version here kill
  obtain ⟨found, has, restarted⟩ := restarted_iff dbVersion file.version transactions
  obtain ⟨first, firstRun, firstHeld⟩ := completed_represents engine dbVersion has killed
  obtain ⟨second, secondRun, secondHeld⟩ := completed_represents engine dbVersion file.version here
  rw [← restarted, ← firstHeld.same, ← secondHeld.same]
  constructor
  · intro survives
    obtain ⟨other, whole, otherRun, wholeRun, same⟩ := survives
    cases firstRun.symm.trans otherRun
    cases secondRun.symm.trans wholeRun
    exact same
  · intro same
    exact ⟨first, second, firstRun, secondRun, same⟩

/-- A start survives a crash exactly when the stored version is its own, or when the kill does not fall
between the drop of the version and the drop of data that are there. -/
theorem survivesCrash_iff {catalog : Catalog} {row : Option (Int × Nat)} (file : DaemonFile catalog row)
    {transactions : Nat} {left : Catalog} (kill : killed engine dbVersion catalog transactions = some left) :
    SurvivesCrash engine dbVersion catalog left ↔
      ∀ key version, row = some (key, version) → version % 2 ^ 32 ≠ dbVersion → dbVersion < 2 ^ 32 →
        (transactions = 4 → rowsOf catalog "companies" = [] ∧ rowsOf catalog "prices" = []) ∧
        (transactions = 5 → rowsOf catalog "prices" = []) := by
  rw [survivesCrash_harmless engine dbVersion file kill]
  unfold KillIsHarmless
  rw [content_empty_iff rfl file.companies, content_empty_iff rfl file.prices]
  exact Prod.forall

/-- A file of version 2 with one company. -/
def newerFile : Catalog :=
  [("db_version", DBVersion.freshTable 2),
    ("companies", { columns := Companies.columns,
                    rows := [[.integer 1, .text "AAPL", .text "Apple Inc.", .text ""]],
                    lastKey := 1 }),
    ("prices", Prices.emptyTable)]

theorem newerFile_isDaemonFile : DaemonFile newerFile (some (1, 2)) where
  version := rfl
  unused := by
    intro table found empty
    cases found
    cases empty
  companies := by
    intro table found
    cases found
    exact ⟨rfl, rfl⟩
  prices := by
    intro table found
    cases found
    exact ⟨rfl, rfl⟩

/-- The binary of version 1 keeps the company when it is killed after its fourth transaction. -/
theorem killed_start_keeps_company : ∃ left,
    killed Engine.plain 1 newerFile 4 = some left ∧ ¬ SurvivesCrash Engine.plain 1 newerFile left := by
  obtain ⟨left, kill⟩ := killed_exists Engine.plain 1 newerFile_isDaemonFile (by decide : 4 ≤ _)
  refine ⟨left, kill, fun survives => ?_⟩
  have harmless := (survivesCrash_harmless Engine.plain 1 newerFile_isDaemonFile kill).mp survives
  have empty := (harmless (1, 2) rfl (by decide) (by decide)).1 rfl
  exact absurd (congrArg Content.rows empty.1) (by decide)

theorem survivesCrash_iff_example : ∃ left, killed Engine.plain 1 newerFile 4 = some left ∧
    (SurvivesCrash Engine.plain 1 newerFile left ↔
      ∀ (key : Int) (version : Nat), some (1, 2) = some (key, version) → version % 2 ^ 32 ≠ 1 → 1 < 2 ^ 32 →
        (4 = 4 → rowsOf newerFile "companies" = [] ∧ rowsOf newerFile "prices" = []) ∧
        (4 = 5 → rowsOf newerFile "prices" = [])) := by
  obtain ⟨left, kill⟩ := killed_exists Engine.plain 1 newerFile_isDaemonFile (by decide : 4 ≤ _)
  exact ⟨left, kill, survivesCrash_iff Engine.plain 1 newerFile_isDaemonFile kill⟩

end DBManager

end Peakwork.Db
