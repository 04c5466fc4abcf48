/-
This file gives the statements of the fragment their meaning on tables.
-/

import Peakwork.Library.Sql.Syntax

namespace Peakwork.Sql

/-- A real number is given by the bits of its double. -/
inductive Value where
  | null
  | integer (value : Int)
  | real (bits : BitVec 64)
  | text (value : String)
  deriving DecidableEq, Repr

def negativeZero : BitVec 64 := 0x8000000000000000

/-- A value of the column's own class is stored as it is, but a zero may lose its sign. -/
def Value.fits : Value → Affinity → Bool
  | .null, _ | .integer _, .integer | .text _, .text => true
  | .real bits, .real => bits ≠ negativeZero
  | _, _ => false

/-- A row has one value for each column of its table. -/
abbrev Row := List Value

structure Table where
  columns : List Column
  references : List ForeignKey := []
  rows : List Row := []
  lastKey : Int := 0
  deriving DecidableEq, Repr

abbrev Catalog := List (String × Table)

def Catalog.find (catalog : Catalog) (name : String) : Option Table := catalog.lookup name

def Catalog.replace (catalog : Catalog) (name : String) (table : Table) : Catalog :=
  catalog.map fun entry => if entry.1 = name then (name, table) else entry

/-- A table that exists already stays as it is. -/
def Catalog.ensure (catalog : Catalog) (name : String) (table : Table) : Catalog :=
  if (catalog.find name).isSome then catalog else catalog ++ [(name, table)]

def Catalog.drop (catalog : Catalog) (name : String) : Catalog :=
  catalog.filter fun entry => entry.1 ≠ name

/-- The enforcement of foreign keys belongs to the connection and not to the file. -/
structure Database where
  catalog : Catalog
  foreignKeys : Bool
  deriving DecidableEq, Repr

inductive SqlError where
  | syntaxError
  | noSuchTable (name : String)
  | noSuchColumn (name : String)
  | constraint
  | noRow
  | other (code : Nat)
  deriving DecidableEq, Repr

/-- These names denote the row key of every table. -/
def keyNames : List String := ["rowid", "oid", "_rowid_"]

/-- A name denotes a column whatever the case of its letters. -/
def columnIndex (columns : List Column) (name : String) : Option Nat :=
  match columns.findIdx? fun column => sameName column.name name with
  | some index => some index
  | none => if keyNames.any (sameName name) then columns.findIdx? (·.rowKey) else none

def Table.position (table : Table) (name : String) : Option Nat := columnIndex table.columns name

def cell (row : Row) (index : Nat) : Value := row[index]?.getD .null

/-- A text that starts like a name is not a number. -/
def startsLikeName (text : String) : Bool := text.toList.head?.any isWordStart

/-- The fields are the choices that the documentation of SQL leaves to the engine,
with what it documents about them. -/
structure Engine where
  /-- the order in which a query visits its rows -/
  order : Statement → Table → List Row → List Row
  order_perm : ∀ statement table rows, (order statement table rows).Perm rows
  /-- the conversion of a value of another class -/
  coerce : Affinity → Value → Value
  coerce_fits : ∀ affinity value, value.fits affinity → coerce affinity value = value
  keepsSign : Bool
  coerce_negativeZero : coerce .real (.real negativeZero) = .real (if keepsSign then negativeZero else 0)
  coerce_name : ∀ text, startsLikeName text → coerce .integer (.text text) = .text text
  /-- the comparison of values of two classes -/
  mixed : Value → Value → Bool
  mixed_text_integer : ∀ text value, mixed (.text text) (.integer value) = false
  /-- the keys that an ignored insertion uses up -/
  skipped : Table → Nat
  /-- the conversions of a result that is not of the asked class -/
  castInteger : Value → Int
  castText : Value → String
  /-- what lies outside of the fragment; a query leaves the tables as they are -/
  outside : List Token → Catalog → Except SqlError (List Row × Catalog)
  outside_select : ∀ rest catalog result,
    outside (.word "SELECT" :: rest) catalog = .ok result → result.2 = catalog

namespace Engine

/-- A text of digits denotes a number. -/
def plainCoerce (affinity : Affinity) (value : Value) : Value :=
  if value.fits affinity then value else
  match affinity, value with
  | .integer, .text text | .real, .text text =>
      if text ≠ "" ∧ text.toList.all Char.isDigit then
        .integer (Nat.ofDigitChars 10 text.toList 0)
      else value
  | .text, .integer number => .text (toString number)
  | _, _ => value

theorem plainCoerce_name (text : String) (name : startsLikeName text) :
    plainCoerce .integer (.text text) = .text text := by
  have notDigits : ¬ (text.toList.all Char.isDigit = true) := by
    intro digits
    unfold startsLikeName at name
    cases chars : text.toList with
    | nil => simp [chars] at name
    | cons c rest =>
        have digit : c.isDigit := by
          rw [chars] at digits
          exact (List.all_eq_true.mp digits) c (by simp)
        have start : isWordStart c := by simpa [chars] using name
        rw [not_isWordStart c digit] at start
        exact absurd start (by decide)
  simp [plainCoerce, Value.fits, notDigits]

/-- An engine that scans in the order of the rows and refuses what is outside of the fragment. -/
def plain : Engine where
  order _ _ rows := rows
  order_perm _ _ _ := List.Perm.refl _
  coerce := plainCoerce
  coerce_fits affinity value fits := by simp [plainCoerce, fits]
  keepsSign := true
  coerce_negativeZero := rfl
  coerce_name := plainCoerce_name
  mixed _ _ := false
  mixed_text_integer _ _ := rfl
  skipped _ := 1
  castInteger _ := 0
  castText _ := ""
  outside _ _ := .error .syntaxError
  outside_select _ _ _ same := by cases same

end Engine

variable (engine : Engine)

namespace Engine

/-- The bits that a column of reals keeps. -/
def storedReal (bits : BitVec 64) : BitVec 64 :=
  if bits = negativeZero ∧ ¬ engine.keepsSign then 0 else bits

def equal : Value → Value → Bool
  | .null, _ | _, .null => false
  | .integer first, .integer second => first = second
  | .text first, .text second => first = second
  | first, second => engine.mixed first second

def isNumeric (affinity : Option Affinity) : Bool :=
  affinity = some .integer ∨ affinity = some .real

/-- A side without numeric affinity is converted when the other side has it. -/
def compare (left right : Option Affinity × Value) : Bool :=
  if isNumeric left.1 ∧ ¬ isNumeric right.1 then
    engine.equal left.2 (engine.coerce .integer right.2)
  else if isNumeric right.1 ∧ ¬ isNumeric left.1 then
    engine.equal (engine.coerce .integer left.2) right.2
  else if left.1 = some .text ∧ right.1 = none then
    engine.equal left.2 (engine.coerce .text right.2)
  else engine.equal left.2 right.2

end Engine

/-- The bound parameters of a statement. -/
abbrev Bindings := List (String × Value)

def columnValue (table : Table) (row : Row) (index : Nat) : Option Affinity × Value :=
  (table.columns[index]?.map (·.affinity), cell row index)

/-- A quoted token is a column first and a text only when no column has its name. -/
def operandValue (bound : Bindings) (table : Table) (row : Row) :
    Operand → Option Affinity × Value
  | .number value => (none, .integer value)
  | .parameter name => (none, (bound.lookup name).getD .null)
  | .quoted text =>
      match table.position text with
      | some index => columnValue table row index
      | none => (none, .text text)

def Catalog.require (catalog : Catalog) (name : String) : Except SqlError Table :=
  match catalog.find name with
  | some table => .ok table
  | none => .error (.noSuchTable name)

def Table.require (table : Table) (name : String) : Except SqlError Nat :=
  match table.position name with
  | some index => .ok index
  | none => .error (.noSuchColumn name)

/-- The rows that a filter keeps. -/
def Engine.keeps (bound : Bindings) (table : Table) :
    Option Filter → Except SqlError (Row → Bool)
  | none => .ok fun _ => true
  | some filter => do
      let index ← table.require filter.column
      return fun row =>
        engine.compare (columnValue table row index) (operandValue bound table row filter.value)

/-- The rows of one table that break a foreign key. -/
def Catalog.danglingRows (catalog : Catalog) (table : Table) : List Row :=
  table.rows.filter fun row => table.references.any fun key =>
    let value := cell row ((table.position key.column).getD 0)
    value ≠ .null ∧ ¬ (catalog.find key.parent).any fun parent =>
      parent.rows.any fun other => cell other ((parent.position key.parentColumn).getD 0) = value

def Catalog.dangling (catalog : Catalog) : List (String × Row) :=
  catalog.flatMap fun entry => (catalog.danglingRows entry.2).map (entry.1, ·)

/-- An enforced foreign key refuses a statement that leaves a new dangling row. -/
def Database.guard (database : Database) (after : Catalog) : Except SqlError Unit :=
  if database.foreignKeys ∧ after.dangling.any (· ∉ database.catalog.dangling) then
    .error .constraint
  else .ok ()

def Database.update (database : Database) (after : Catalog) :
    Except SqlError (List Row × Database) := do
  database.guard after
  return ([], { database with catalog := after })

def breaksNotNull (table : Table) (row : Row) : Bool :=
  (table.columns.zip row).any fun pair => pair.1.notNull ∧ pair.2 = .null

def breaksUnique (table : Table) (others : List Row) (row : Row) : Bool :=
  table.columns.zipIdx.any fun pair => (pair.1.unique ∨ pair.1.rowKey) ∧ cell row pair.2 ≠ .null ∧
    others.any fun other => cell other pair.2 = cell row pair.2

/-- The place of a column among the names that a statement lists. -/
def givenIndex (names : List String) (column : Column) : Option Nat :=
  names.findIdx? fun name => sameName name column.name

/-- A key that the statement does not give is greater than every earlier one. -/
def Engine.newValue (bound : Bindings) (table : Table) (values : List Operand) (column : Column) :
    Option Nat → Value
  | some index =>
      match values[index]? with
      | some operand => engine.coerce column.affinity (operandValue bound table [] operand).2
      | none => .null
  | none => if column.rowKey then .integer (table.lastKey + 1) else .null

def keyOf (table : Table) (row : Row) : Int :=
  match cell row ((table.columns.findIdx? (·.rowKey)).getD 0) with
  | .integer key => key
  | _ => 0

def Engine.madeRow (bound : Bindings) (table : Table) (columns : List String)
    (values : List Operand) : Row :=
  table.columns.map fun column =>
    engine.newValue bound table values column (givenIndex columns column)

def Engine.insert (bound : Bindings) (ignore : Bool) (table : Table) (columns : List String)
    (values : List Operand) : Except SqlError Table :=
  match columns.find? fun name => table.position name = none with
  | some name => .error (.noSuchColumn name)
  | none =>
      let row := engine.madeRow bound table columns values
      if breaksNotNull table row ∨ breaksUnique table table.rows row then
        if ignore then .ok { table with lastKey := table.lastKey + engine.skipped table }
        else .error .constraint
      else
        .ok { table with rows := table.rows ++ [row], lastKey := max table.lastKey (keyOf table row) }

/-- The changed rows must keep the constraints of the table. -/
def Engine.change (bound : Bindings) (table : Table) (column : String) (value : Operand)
    (filter : Option Filter) : Except SqlError Table := do
  let index ← table.require column
  let keep ← engine.keeps bound table filter
  let affinity := (table.columns[index]?.map (·.affinity)).getD .text
  let rows := table.rows.map fun row =>
    if keep row then row.set index (engine.coerce affinity (operandValue bound table row value).2) else row
  if rows.any (breaksNotNull table) ∨
      rows.zipIdx.any (fun pair => breaksUnique table (rows.eraseIdx pair.2) pair.1) then
    throw .constraint
  else return { table with rows }

/-- One statement gives the rows of its result and the database after it. -/
def Engine.execute (bound : Bindings) (inTransaction : Bool) (statement : Statement)
    (database : Database) : Except SqlError (List Row × Database) :=
  match statement with
  | .foreignKeys enabled =>
      -- the pragma has no effect inside a transaction
      .ok ([], if inTransaction then database else { database with foreignKeys := enabled })
  | .createTable name columns references =>
      .ok ([], { database with catalog := database.catalog.ensure name { columns, references } })
  | .dropTable name =>
      match database.catalog.find name with
      | none => .ok ([], database)
      | some table => do
          database.guard (database.catalog.replace name { table with rows := [] })
          return ([], { database with catalog := database.catalog.drop name })
  | .insert ignore name columns values => do
      let table ← database.catalog.require name
      let table ← engine.insert bound ignore table columns values
      database.update (database.catalog.replace name table)
  | .update name column value filter => do
      let table ← database.catalog.require name
      let table ← engine.change bound table column value filter
      database.update (database.catalog.replace name table)
  | .delete name filter => do
      let table ← database.catalog.require name
      let keep ← engine.keeps bound table filter
      database.update (database.catalog.replace name
        { table with rows := table.rows.filter fun row => ¬ keep row })
  | .select column name filter => do
      let table ← database.catalog.require name
      let index ← table.require column
      let keep ← engine.keeps bound table filter
      let rows := engine.order statement table (table.rows.filter keep)
      return (rows.map fun row => [cell row index], database)
  | .selectExists name filter => do
      let table ← database.catalog.require name
      let keep ← engine.keeps bound table filter
      return ([[.integer (if table.rows.any keep then 1 else 0)]], database)

/-- The text of one statement is read and then executed. -/
def Engine.perform (bound : Bindings) (inTransaction : Bool) (read : List Token)
    (database : Database) : Except SqlError (List Row × Database) :=
  match parse read with
  | .statement statement => engine.execute bound inTransaction statement database
  | .malformed => .error .syntaxError
  | .outside => (engine.outside read database.catalog).map fun result =>
      (result.1, { database with catalog := result.2 })

end Peakwork.Sql
