/-
This file gives the operations that every table shares.
-/

import Peakwork.Library.Sql.Connection

namespace Peakwork.Db

open Sql

structure ITable where
  name : String
  deriving DecidableEq, Repr

variable (engine : Engine)

/-- `ITable::RunTransaction` with a text. -/
def runTransaction (cmd : String) : Action Unit := transaction (execAll engine true cmd)

/-- `ITable::RunTransaction` with a prepared statement. -/
def runStatement (cmd : String) (bound : Bindings) : Action Unit :=
  transaction fun database =>
    (engine.perform bound true (firstStatement (tokens cmd)) database).map Prod.snd

namespace ITable

variable (table : ITable)

def isExist : Action Bool := tableExists table.name

def drop : Action Unit := runTransaction engine ("DROP TABLE IF EXISTS " ++ table.name)

/-- The source builds this command and does not execute it. -/
def removeAllCommand : String := "DELETE FROM " ++ table.name

def removeAll : Action Unit := pure ()

def cellPresentCommand (filedName compareValue : String) : String :=
  "SELECT EXISTS(SELECT 1 FROM " ++ table.name ++ " " ++
    "WHERE " ++ filedName ++ " = \"" ++ compareValue ++ "\" " ++ "LIMIT 1)"

def isCellPresent (filedName compareValue : String) : Action Bool := do
  let value ← execAndGet engine (table.cellPresentCommand filedName compareValue)
  return engine.getInt value ≠ 0

def getFieldCommand (fieldName filterFieldName : String) : String :=
  "SELECT " ++ fieldName ++ " FROM " ++ table.name ++ " " ++
    "WHERE " ++ filterFieldName ++ " = :compareValue"

/-- The second step checks that the first row is the only one. -/
def getFieldValue (fieldName filterFieldName : String) (value : Int) : Action String := do
  match ← query engine (table.getFieldCommand fieldName filterFieldName)
      [(":compareValue", .integer value)] with
  | [] => throw (.logicError "There is no one results")
  | row :: rest =>
      if cell row 0 = .null then throw (.outOfRange "Asked results is NULL")
      match rest with
      | [] => return engine.asText (cell row 0)
      | _ :: _ => throw (.logicError ("There are more than one results for field=" ++
          filterFieldName ++ " and value=" ++ toString value))

def updateFieldCommand (fieldName searchFieldName : String) : String :=
  "UPDATE " ++ table.name ++ " SET " ++ fieldName ++ " = :newValue " ++
    "WHERE " ++ searchFieldName ++ " = :searchValue"

def updateField (fieldName newValue searchFieldName : String) (searchValue : Int) : Action Unit :=
  runStatement engine (table.updateFieldCommand fieldName searchFieldName)
    [(":newValue", .text newValue), (":searchValue", .integer searchValue)]

def removeRowsCommand (searchFieldName : String) : String :=
  "DELETE FROM " ++ table.name ++ " " ++ "WHERE " ++ searchFieldName ++ " = :searchValue"

def removeRows (searchFieldName : String) (searchValue : Int) : Action Unit :=
  runStatement engine (table.removeRowsCommand searchFieldName)
    [(":searchValue", .integer searchValue)]

end ITable

end Peakwork.Db
