/-
This file gives the statements of the fragment and reads them from tokens.
-/

import Peakwork.Library.Sql.Token

namespace Peakwork.Sql

/-- A declared column type sets the affinity of the column. -/
inductive Affinity where
  | integer
  | real
  | text
  deriving DecidableEq, Repr

/-- A row key is `INTEGER PRIMARY KEY AUTOINCREMENT`. -/
structure Column where
  name : String
  affinity : Affinity
  notNull : Bool := false
  unique : Bool := false
  rowKey : Bool := false
  deriving DecidableEq, Repr

structure ForeignKey where
  column : String
  parent : String
  parentColumn : String
  deriving DecidableEq, Repr

/-- A quoted operand is a column when it names one and a text when it does not. -/
inductive Operand where
  | number (value : Int)
  | parameter (name : String)
  | quoted (text : String)
  deriving DecidableEq, Repr

/-- The filter `WHERE column = value`. -/
structure Filter where
  column : String
  value : Operand
  deriving DecidableEq, Repr

inductive Statement where
  | foreignKeys (enabled : Bool)
  | createTable (name : String) (columns : List Column) (references : List ForeignKey)
  | dropTable (name : String)
  | insert (ignore : Bool) (table : String) (columns : List String) (values : List Operand)
  | update (table column : String) (value : Operand) (filter : Option Filter)
  | delete (table : String) (filter : Option Filter)
  | select (column table : String) (filter : Option Filter)
  | selectExists (table : String) (filter : Option Filter)
  deriving DecidableEq, Repr

/-- A text is a statement of the fragment, or no statement at all, or outside of the fragment. -/
inductive Parsed where
  | statement (value : Statement)
  | malformed
  | outside
  deriving DecidableEq, Repr

def readOperand : List Token → Option (Operand × List Token)
  | .number value :: rest => some (.number value, rest)
  | .symbol '-' :: .number value :: rest => some (.number (-value), rest)
  | .parameter name :: rest => some (.parameter name, rest)
  | .quoted text :: rest => some (.quoted text, rest)
  | _ => none

/-- The filter is optional. -/
def readFilter : List Token → Option (Option Filter × List Token)
  | .word "WHERE" :: .word column :: .symbol '=' :: rest =>
      (readOperand rest).map fun read => (some ⟨column, read.1⟩, read.2)
  | rest => some (none, rest)

/-- The filter closes the statement. -/
def readLastFilter (rest : List Token) : Option (Option Filter) :=
  match readFilter rest with
  | some (filter, []) => some filter
  | _ => none

/-- The names stand between parentheses; the opening one is already read. -/
def readNames : List Token → Option (List String × List Token)
  | .word name :: .symbol ',' :: rest => (readNames rest).map fun read => (name :: read.1, read.2)
  | .word name :: .symbol ')' :: rest => some ([name], rest)
  | _ => none

def readOperands : List Token → Option (List Operand)
  | [.number value, .symbol ')'] => some [.number value]
  | [.parameter name, .symbol ')'] => some [.parameter name]
  | .number value :: .symbol ',' :: rest => (readOperands rest).map (.number value :: ·)
  | .parameter name :: .symbol ',' :: rest => (readOperands rest).map (.parameter name :: ·)
  | _ => none

def readAffinity : String → Option Affinity
  | "INTEGER" | "INT" => some .integer
  | "REAL" => some .real
  | "TEXT" => some .text
  | _ => none

def readConstraints (column : Column) : List Token → Option Column
  | [] => some column
  | .word "PRIMARY" :: .word "KEY" :: .word "AUTOINCREMENT" :: rest =>
      readConstraints { column with rowKey := true } rest
  | .word "NOT" :: .word "NULL" :: rest => readConstraints { column with notNull := true } rest
  | .word "UNIQUE" :: rest => readConstraints { column with unique := true } rest
  | _ => none

/-- A table body is a list of items; each item is a column or a foreign key. -/
def readItem : List Token → Option (Column ⊕ ForeignKey)
  | [.word "FOREIGN", .word "KEY", .symbol '(', .word column, .symbol ')', .word "REFERENCES",
      .word parent, .symbol '(', .word parentColumn, .symbol ')'] =>
      some (.inr ⟨column, parent, parentColumn⟩)
  | .word name :: .word declared :: rest =>
      (readAffinity declared).bind fun affinity =>
        (readConstraints { name, affinity } rest).map Sum.inl
  | _ => none

def readBody (body : List Token) : Option (List Column × List ForeignKey) :=
  if body.getLast? = some (.symbol ')') then
    ((body.dropLast.splitOn (.symbol ',')).mapM readItem).map fun items =>
      (items.filterMap Sum.getLeft?, items.filterMap Sum.getRight?)
  else none

def orOutside : Option Statement → Parsed
  | some statement => .statement statement
  | none => .outside

/-- The case of letters does not matter in names and keywords. -/
def sameName (first second : String) : Bool :=
  first.toList.map Char.toLower = second.toList.map Char.toLower

/-- The grammar of an update allows only these tokens after the name of the table. -/
def mayFollowUpdated : Token → Bool
  | .word text => ["SET", "AS", "INDEXED", "NOT"].any (sameName text)
  | .outside => true
  | _ => false

/-- One statement is read; an illegal token spoils it wherever it stands. -/
def parse (read : List Token) : Parsed :=
  if .illegal ∈ read then .malformed else
  match read with
  | [.word "PRAGMA", .word "foreign_keys", .symbol '=', .word "on"] =>
      .statement (.foreignKeys true)
  | .word "CREATE" :: .word "TABLE" :: .word "IF" :: .word "NOT" :: .word "EXISTS" ::
      .word name :: .symbol '(' :: body =>
      orOutside ((readBody body).map fun read => .createTable name read.1 read.2)
  | [.word "DROP", .word "TABLE", .word "IF", .word "EXISTS", .word name] =>
      .statement (.dropTable name)
  | .word "INSERT" :: .word "OR" :: .word "IGNORE" :: .word "INTO" :: .word table ::
      .symbol '(' :: rest => orOutside (readInsert true table rest)
  | .word "INSERT" :: .word "INTO" :: .word table :: .symbol '(' :: rest =>
      orOutside (readInsert false table rest)
  | .word "UPDATE" :: .word table :: .word "SET" :: .word column :: .symbol '=' :: rest =>
      orOutside do
        let (value, rest) ← readOperand rest
        let filter ← readLastFilter rest
        some (.update table column value filter)
  | .word "UPDATE" :: .word table :: token :: _ =>
      if sameName table "OR" ∨ mayFollowUpdated token then .outside else .malformed
  | .word "DELETE" :: .word "FROM" :: .word table :: rest =>
      orOutside ((readLastFilter rest).map (.delete table))
  | .word "SELECT" :: .word "EXISTS" :: .symbol '(' :: .word "SELECT" :: .number 1 ::
      .word "FROM" :: .word table :: rest =>
      orOutside do
        match ← readFilter rest with
        | (filter, [.word "LIMIT", .number 1, .symbol ')']) => some (.selectExists table filter)
        | _ => none
  | .word "SELECT" :: .word column :: .word "FROM" :: .word table :: rest =>
      orOutside ((readLastFilter rest).map (.select column table))
  | _ => .outside
where
  readInsert (ignore : Bool) (table : String) (rest : List Token) : Option Statement := do
    let (columns, rest) ← readNames rest
    match rest with
    | .word "VALUES" :: .symbol '(' :: rest =>
        (readOperands rest).map (.insert ignore table columns)
    | _ => none

/-- The statements of a text, as tokens. -/
def statementTexts (text : String) : List (List Token) :=
  ((tokens text).splitOn (.symbol ';')).filter (· ≠ [])

/-- A semicolon ends a statement. -/
def firstStatement (read : List Token) : List Token := read.takeWhile (· ≠ .symbol ';')

end Peakwork.Sql
