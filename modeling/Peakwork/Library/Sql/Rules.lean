/-
This file gives the rules by which proofs about tables use the engine.
-/

import Peakwork.Library.Action
import Peakwork.Library.Sql.Connection

namespace Peakwork.Sql

namespace Catalog

variable (catalog : Catalog) (name other : String) (table : Table)

theorem find_cons (entry : String × Table) :
    Catalog.find (entry :: catalog) name = if name = entry.1 then some entry.2 else catalog.find name := by
  rcases entry with ⟨key, value⟩
  by_cases same : name = key
  · simp [find, same]
  · simp [find, List.lookup_cons, beq_false_of_ne same, same]

@[simp] theorem find_create : Catalog.find (catalog ++ [(name, table)]) other =
    (catalog.find other).or (if other = name then some table else none) := by
  have single : Catalog.find [(name, table)] other = if other = name then some table else none :=
    find_cons [] other (name, table)
  rw [← single, find, List.lookup_append]
  rfl

theorem find_replace : (catalog.replace name table).find other =
    if other = name then (catalog.find name).map fun _ => table else catalog.find other := by
  induction catalog with
  | nil => simp [find, replace]
  | cons entry rest ih =>
      have split : replace (entry :: rest) name table =
          (if entry.1 = name then (name, table) else entry) :: replace rest name table := rfl
      rw [split, find_cons, find_cons, find_cons, ih]
      by_cases here : entry.1 = name
      · by_cases asked : other = name <;> simp [here, asked]
      · by_cases asked : other = name
        · have different : name ≠ entry.1 := Ne.symm here
          simp [here, asked, different]
        · simp [here, asked]

theorem find_ensure : (catalog.ensure name table).find other =
    (catalog.find other).or (if other = name then some table else none) := by
  unfold ensure
  split
  · rename_i here
    by_cases asked : other = name
    · rw [asked, Option.or_of_isSome here]
    · simp [asked]
  · exact find_create catalog name other table

theorem ensure_present (here : (catalog.find name).isSome) : catalog.ensure name table = catalog := by
  simp [ensure, here]

theorem find_drop : (catalog.drop name).find other =
    if other = name then none else catalog.find other := by
  induction catalog with
  | nil => simp [find, drop]
  | cons entry rest ih =>
      have split : drop (entry :: rest) name =
          if entry.1 = name then drop rest name else entry :: drop rest name := by
        by_cases here : entry.1 = name <;> simp [drop, here]
      rw [split, find_cons]
      by_cases here : entry.1 = name
      · rw [if_pos here, ih]
        grind
      · rw [if_neg here, find_cons, ih]
        grind

theorem drop_absent (absent : catalog.find name = none) : catalog.drop name = catalog := by
  apply List.filter_eq_self.mpr
  intro entry member
  have different : name ≠ entry.1 := by
    simpa using List.lookup_eq_none_iff.mp absent entry member
  simpa using different.symm

end Catalog

variable (engine : Engine)

@[simp] theorem Database.guard_off (catalog after : Catalog) :
    Database.guard ⟨catalog, false⟩ after = .ok () := by
  simp [Database.guard]

@[simp] theorem Engine.coerce_text (text : String) : engine.coerce .text (.text text) = .text text :=
  engine.coerce_fits .text (.text text) rfl

theorem Engine.coerce_integer (value : Int) : engine.coerce .integer (.integer value) = .integer value :=
  engine.coerce_fits .integer (.integer value) rfl

@[simp] theorem Engine.coerce_real (bits : BitVec 64) :
    engine.coerce .real (.real bits) = .real (engine.storedReal bits) := by
  unfold storedReal
  by_cases zero : bits = negativeZero
  · rw [zero, engine.coerce_negativeZero]
    cases engine.keepsSign with
    | true => rfl
    | false => rfl
  · rw [if_neg fun both => zero both.1]
    exact engine.coerce_fits .real (.real bits) (decide_eq_true zero)

theorem Engine.perform_statement {read : List Token} {statement : Statement}
    (parsed : parse read = .statement statement) (bound : Bindings) (inTransaction : Bool)
    (database : Database) :
    engine.perform bound inTransaction read database =
      engine.execute bound inTransaction statement database := by
  simp only [Engine.perform, parsed]

/-- A text runs as the statements that it spells. -/
theorem execAll_statements {text : String} {statements : List Statement}
    (parsed : (statementTexts text).map parse = statements.map .statement) (inTransaction : Bool) (database : Database) :
    execAll engine inTransaction text database =
      statements.foldlM (fun database statement =>
        (engine.execute [] inTransaction statement database).map Prod.snd) database := by
  unfold execAll
  generalize statementTexts text = reads at parsed
  induction reads generalizing statements database with
  | nil =>
      have empty : statements = [] := by simpa using parsed.symm
      rw [empty]
      rfl
  | cons read reads ih =>
      cases statements with
      | nil => simp at parsed
      | cons statement statements =>
          simp only [List.map_cons, List.cons.injEq] at parsed
          simp only [List.foldlM_cons, engine.perform_statement parsed.1]
          congr 1
          funext after
          exact ih after parsed.2

/-- A text that starts with a malformed statement changes nothing. -/
theorem execAll_malformed {text : String} {read : List Token} {rest : List (List Token)}
    (reads : statementTexts text = read :: rest)
    (parsed : parse read = .malformed) (inTransaction : Bool) (database : Database) :
    execAll engine inTransaction text database = .error .syntaxError := by
  unfold execAll
  rw [reads, List.foldlM_cons]
  simp only [Engine.perform, parsed]
  rfl

/-- A row that keeps the constraints is appended. -/
theorem Engine.insert_accepted {bound : Bindings} {ignore : Bool} {table : Table}
    {columns : List String} {values : List Operand} {row : Row}
    (known : columns.find? (fun name => table.position name = none) = none)
    (made : engine.madeRow bound table columns values = row)
    (notNull : breaksNotNull table row = false) (unique : breaksUnique table table.rows row = false) :
    engine.insert bound ignore table columns values =
      .ok { table with rows := table.rows ++ [row], lastKey := max table.lastKey (keyOf table row) } := by
  simp [Engine.insert, known, made, notNull, unique]

/-- A row that breaks a constraint is refused. -/
theorem Engine.insert_refused {bound : Bindings} {table : Table}
    {columns : List String} {values : List Operand} {row : Row}
    (known : columns.find? (fun name => table.position name = none) = none)
    (made : engine.madeRow bound table columns values = row)
    (broken : breaksNotNull table row = true ∨ breaksUnique table table.rows row = true) :
    engine.insert bound false table columns values = .error .constraint := by
  simp [Engine.insert, known, made, broken]

/-- A statement that ignores the conflict only uses up keys. -/
theorem Engine.insert_ignored {bound : Bindings} {table : Table}
    {columns : List String} {values : List Operand} {row : Row}
    (known : columns.find? (fun name => table.position name = none) = none)
    (made : engine.madeRow bound table columns values = row)
    (broken : breaksNotNull table row = true ∨ breaksUnique table table.rows row = true) :
    engine.insert bound true table columns values =
      .ok { table with lastKey := table.lastKey + engine.skipped table } := by
  simp [Engine.insert, known, made, broken]

/-- The schema decides where a column stands. -/
theorem Table.require_ok {table : Table} (columns : List Column) {name : String} {index : Nat}
    (schema : table.columns = columns) (place : columnIndex columns name = some index) :
    table.require name = .ok index := by
  simp [Table.require, Table.position, schema, place]

theorem Engine.keeps_ok {bound : Bindings} {table : Table} {filter : Filter} {index : Nat}
    (place : table.require filter.column = .ok index) :
    engine.keeps bound table (some filter) = .ok fun row =>
      engine.compare (columnValue table row index) (operandValue bound table row filter.value) := by
  change Except.bind (table.require filter.column) _ = _
  rw [place]
  rfl

/-- A bound integer is compared with a column of integers as it is. -/
theorem Engine.compare_integer (value : Value) (number : Int) :
    engine.compare (some .integer, value) (none, .integer number) =
      engine.equal value (.integer number) := by
  simp [Engine.compare, Engine.isNumeric, engine.coerce_integer]

/-- A filter of a column of integers with an integer compares the cells with it. -/
theorem Engine.keeps_integer {bound : Bindings} {table : Table} {filter : Filter} {index : Nat} {number : Int}
    (place : table.require filter.column = .ok index)
    (integral : table.columns[index]?.map (·.affinity) = some .integer)
    (value : ∀ row, operandValue bound table row filter.value = (none, .integer number)) :
    engine.keeps bound table (some filter) = .ok fun row => engine.equal (cell row index) (.integer number) := by
  rw [engine.keeps_ok place]
  congr 1
  funext row
  rw [value, columnValue, integral]
  exact engine.compare_integer _ _

/-- An update that keeps the constraints is accepted. -/
theorem Engine.change_ok {bound : Bindings} {table : Table} {column : String} {value : Operand}
    {filter : Option Filter} {index : Nat} {keep : Row → Bool} {rows : List Row}
    (place : table.require column = .ok index) (kept : engine.keeps bound table filter = .ok keep)
    (changed : (table.rows.map fun row => if keep row then
      row.set index (engine.coerce ((table.columns[index]?.map (·.affinity)).getD .text)
        (operandValue bound table row value).2) else row) = rows)
    (notNull : rows.any (breaksNotNull table) = false)
    (unique : rows.zipIdx.any (fun pair => breaksUnique table (rows.eraseIdx pair.2) pair.1) = false) :
    engine.change bound table column value filter = .ok { table with rows } := by
  unfold Engine.change
  simp only [place, kept, bind, Except.bind, changed, notNull, unique]
  rfl

section Execute

variable {bound : Bindings} (inTransaction : Bool) {catalog : Catalog} {name : String}
  {table : Table} (here : catalog.find name = some table)
include here

theorem Engine.execute_insert {ignore : Bool} {columns : List String} {values : List Operand}
    {after : Table} (inserted : engine.insert bound ignore table columns values = .ok after) :
    engine.execute bound inTransaction (.insert ignore name columns values) ⟨catalog, false⟩ =
      .ok ([], ⟨catalog.replace name after, false⟩) := by
  simp only [Engine.execute, Catalog.require, here]
  change Except.bind (engine.insert bound ignore table columns values) _ = _
  rw [inserted]
  rfl

theorem Engine.execute_insert_error {ignore : Bool} {columns : List String} {values : List Operand}
    {error : SqlError} (failed : engine.insert bound ignore table columns values = .error error) :
    engine.execute bound inTransaction (.insert ignore name columns values) ⟨catalog, false⟩ =
      .error error := by
  simp only [Engine.execute, Catalog.require, here]
  change Except.bind (engine.insert bound ignore table columns values) _ = _
  rw [failed]
  rfl

theorem Engine.execute_update {column : String} {value : Operand} {filter : Option Filter}
    {after : Table} (changed : engine.change bound table column value filter = .ok after) :
    engine.execute bound inTransaction (.update name column value filter) ⟨catalog, false⟩ =
      .ok ([], ⟨catalog.replace name after, false⟩) := by
  simp only [Engine.execute, Catalog.require, here]
  change Except.bind (engine.change bound table column value filter) _ = _
  rw [changed]
  rfl

variable {filter : Option Filter} {keep : Row → Bool}
  (kept : engine.keeps bound table filter = .ok keep)
include kept

theorem Engine.execute_delete :
    engine.execute bound inTransaction (.delete name filter) ⟨catalog, false⟩ =
      .ok ([], ⟨catalog.replace name
        { table with rows := table.rows.filter fun row => ¬ keep row }, false⟩) := by
  simp only [Engine.execute, Catalog.require, here]
  change Except.bind (engine.keeps bound table filter) _ = _
  rw [kept]
  rfl

theorem Engine.execute_select {column : String} {index : Nat}
    (place : table.require column = .ok index) :
    engine.execute bound inTransaction (.select column name filter) ⟨catalog, false⟩ =
      .ok ((engine.order (.select column name filter) table (table.rows.filter keep)).map
        fun row => [cell row index], ⟨catalog, false⟩) := by
  simp only [Engine.execute, Catalog.require, here]
  change Except.bind (table.require column) _ = _
  rw [place]
  change Except.bind (engine.keeps bound table filter) _ = _
  rw [kept]
  rfl

theorem Engine.execute_selectExists :
    engine.execute bound inTransaction (.selectExists name filter) ⟨catalog, false⟩ =
      .ok ([[.integer (if table.rows.any keep then 1 else 0)]], ⟨catalog, false⟩) := by
  simp only [Engine.execute, Catalog.require, here]
  change Except.bind (engine.keeps bound table filter) _ = _
  rw [kept]
  rfl

end Execute

theorem transaction_ok {body : Database → Except SqlError Database} {connection : Connection}
    (database : Database) (done : body connection.database = .ok database) :
    (transaction body).run connection =
      .ok () ⟨database, database.catalog :: connection.committed⟩ := by
  simp only [EStateM.run, transaction, done]

theorem transaction_error {body : Database → Except SqlError Database} {connection : Connection}
    {error : SqlError} (failed : body connection.database = .error error) :
    (transaction body).run connection = .error (.sqlite error) connection := by
  simp only [EStateM.run, transaction, failed]

theorem query_ok {text : String} {bound : Bindings} (connection : Connection) {rows : List Row}
    (done : engine.perform bound false (firstStatement (tokens text)) connection.database =
      .ok (rows, connection.database)) :
    (query engine text bound).run connection = .ok rows connection := by
  simp only [EStateM.run, query, done]

theorem query_error {text : String} {bound : Bindings} (connection : Connection) {error : SqlError}
    (failed : engine.perform bound false (firstStatement (tokens text)) connection.database =
      .error error) :
    (query engine text bound).run connection = .error (.sqlite error) connection := by
  simp only [EStateM.run, query, failed]

/-- These statements only read. -/
def Statement.Reads : Statement → Prop
  | .select _ _ _ => True
  | .selectExists _ _ => True
  | _ => False

theorem orOutside_statement {read : Option Statement} {statement : Statement}
    (same : orOutside read = .statement statement) : read = some statement := by
  cases read with
  | none => cases same
  | some other => rw [Parsed.statement.inj same]

/-- A statement of the fragment that starts like a query is a query. -/
theorem parse_select {rest : List Token} {statement : Statement}
    (read : parse (.word "SELECT" :: rest) = .statement statement) : statement.Reads := by
  unfold parse at read
  split at read
  · cases read
  · split at read
    -- the first word rules out all other statements
    case h_9 =>
        obtain ⟨filtered, _, made⟩ := Option.bind_eq_some_iff.mp (orOutside_statement read)
        split at made
        · rw [← Option.some.inj made]
          trivial
        · cases made
    case h_10 =>
        obtain ⟨filter, _, made⟩ := Option.map_eq_some_iff.mp (orOutside_statement read)
        rw [← made]
        trivial
    case h_11 => cases read
    all_goals
      rename_i spelled
      have words := (List.cons.inj spelled).1
      exact absurd words (by decide)

section Reading

variable {bound : Bindings} {inTransaction : Bool} {database after : Database} {rows : List Row}

theorem Engine.execute_reads {statement : Statement} (reads : statement.Reads)
    (done : engine.execute bound inTransaction statement database = .ok (rows, after)) : after = database := by
  cases statement with
  | select column name filter =>
      simp only [Engine.execute, bind, Except.bind, pure, Except.pure] at done
      split at done
      · cases done
      · split at done
        · cases done
        · split at done
          · cases done
          · cases done
            rfl
  | selectExists name filter =>
      simp only [Engine.execute, bind, Except.bind, pure, Except.pure] at done
      split at done
      · cases done
      · split at done
        · cases done
        · cases done
          rfl
  | foreignKeys _ | createTable _ _ _ | dropTable _ | insert _ _ _ _ | update _ _ _ _ | delete _ _ => exact reads.elim

/-- A query leaves the database as it is, inside and outside of the fragment. -/
theorem Engine.perform_select {rest : List Token}
    (done : engine.perform bound inTransaction (.word "SELECT" :: rest) database = .ok (rows, after)) :
    after = database := by
  unfold Engine.perform at done
  split at done
  · rename_i statement read
    exact engine.execute_reads (parse_select read) done
  · cases done
  · cases outcome : engine.outside (.word "SELECT" :: rest) database.catalog with
    | error error =>
        rw [outcome] at done
        cases done
    | ok result =>
        have kept := engine.outside_select rest database.catalog result outcome
        rw [outcome] at done
        cases done
        rw [kept]

end Reading

theorem query_select {text : String} {bound : Bindings} {rest : List Token} {connection after : Connection}
    {rows : List Row} (spelled : firstStatement (tokens text) = .word "SELECT" :: rest)
    (done : (query engine text bound).run connection = .ok rows after) : after = connection := by
  simp only [EStateM.run, query, spelled] at done
  split at done
  · rename_i asked
    cases done
    rw [engine.perform_select asked]
  · cases done

theorem query_thrown {text : String} {bound : Bindings} {connection after : Connection} {error : DbError}
    (thrown : (query engine text bound).run connection = .error error after) : after = connection := by
  simp only [EStateM.run, query] at thrown
  split at thrown
  · cases thrown
  · cases thrown
    rfl

/-- A question leaves the connection as it was, also when it throws. -/
theorem execAndGet_select {text : String} {rest : List Token}
    (spelled : firstStatement (tokens text) = .word "SELECT" :: rest) (connection : Connection) :
    (∃ value, (execAndGet engine text).run connection = .ok value connection) ∨
      ∃ error, (execAndGet engine text).run connection = .error error connection := by
  unfold execAndGet
  cases asked : (query engine text []).run connection with
  | ok rows after =>
      rw [Action.bind_ok asked, query_select engine spelled asked]
      cases rows with
      | nil => exact .inr ⟨_, rfl⟩
      | cons row others => exact .inl ⟨_, rfl⟩
  | error error after =>
      rw [Action.bind_error asked, query_thrown engine asked]
      exact .inr ⟨error, rfl⟩

end Peakwork.Sql
