/-
This file gives the calls of the client library on one open connection.
-/

import Peakwork.Library.Sql.Engine

namespace Peakwork.Sql

/-- These are the standard exceptions that a method of a table can throw. -/
inductive DbError where
  | sqlite (error : SqlError)
  | outOfRange (message : String)
  | logicError (message : String)
  deriving DecidableEq, Repr

/-- `committed` lists what the commits have left in the file, the last one first. -/
structure Connection where
  database : Database
  committed : List Catalog
  deriving DecidableEq, Repr

/-- A new connection does not enforce foreign keys. -/
def Connection.opened (catalog : Catalog) : Connection := ⟨⟨catalog, false⟩, []⟩

/-- An action keeps its effects when it throws. -/
abbrev Action := EStateM DbError Connection

variable (engine : Engine)

/-- The statements of one text run in order up to the first error. -/
def execAll (inTransaction : Bool) (text : String) (database : Database) :
    Except SqlError Database :=
  (statementTexts text).foldlM
    (fun database read => (engine.perform [] inTransaction read database).map Prod.snd) database

/-- A transaction commits the result of its body or rolls back. -/
def transaction (body : Database → Except SqlError Database) : Action Unit := fun connection =>
  match body connection.database with
  | .ok database => .ok () ⟨database, database.catalog :: connection.committed⟩
  | .error error => .error (.sqlite error) connection

/-- Only the first statement of a prepared text is read. -/
def query (text : String) (bound : Bindings) : Action (List Row) := fun connection =>
  match engine.perform bound false (firstStatement (tokens text)) connection.database with
  | .ok (rows, database) => .ok rows { connection with database }
  | .error error => .error (.sqlite error) connection

/-- The first column of the first row is asked for even when there is no row. -/
def execAndGet (text : String) : Action Value := do
  match ← query engine text [] with
  | [] => throw (.sqlite .noRow)
  | row :: _ => return cell row 0

def tableExists (name : String) : Action Bool := fun connection =>
  .ok (connection.database.catalog.find name).isSome connection

def Engine.asInteger : Value → Int
  | .integer value => value
  | .null => 0
  | value => engine.castInteger value

def Engine.asText : Value → String
  | .text value => value
  | .null => ""
  | value => engine.castText value

/-- A stored integer has 64 bits; the narrower conversions wrap. -/
def Engine.getInt64 (value : Value) : Int := engine.asInteger value

def Engine.getInt (value : Value) : Int := (engine.asInteger value).bmod (2 ^ 32)

def Engine.getUInt (value : Value) : Nat := ((engine.asInteger value) % 2 ^ 32).toNat

/-- A double is not a number when its exponent is full and its fraction is not zero. -/
def isNaN (bits : BitVec 64) : Bool :=
  bits.extractLsb' 52 11 = BitVec.allOnes 11 ∧ bits.extractLsb' 0 52 ≠ 0

/-- A bound double that is not a number becomes NULL. -/
def bindReal (bits : BitVec 64) : Value := if isNaN bits then .null else .real bits

end Peakwork.Sql
