/-
This file gives the table of the database version.
-/

import Peakwork.Construction.Db.ITable

namespace Peakwork.Db.DBVersion

open Sql

def table : ITable := ⟨"db_version"⟩

inductive Field where
  | id
  | version
  deriving DecidableEq, Repr

def fields : Field → String
  | .id => "id"
  | .version => "version"

variable (engine : Engine)

def createCommand : String :=
  "CREATE TABLE IF NOT EXISTS " ++ table.name ++ " (" ++
    fields .id ++ " INTEGER PRIMARY KEY AUTOINCREMENT, " ++
    fields .version ++ " INT NOT NULL" ++
    ")"

def versionPresentCommand : String :=
  "SELECT EXISTS(SELECT 1 FROM " ++ table.name ++ " LIMIT 1)"

def isVersionPresent : Action Bool := do
  let value ← execAndGet engine versionPresentCommand
  return engine.getInt value ≠ 0

def insertCommand (version : Nat) : String :=
  "INSERT INTO " ++ table.name ++
    " (" ++ fields .version ++ ")" ++
    "VALUES (" ++ toString version ++ ")"

def create (version : Nat) : Action Unit := do
  runTransaction engine createCommand
  if ¬ (← isVersionPresent engine) then
    runTransaction engine (insertCommand version)

def init : Action Unit := pure ()

def getCommand : String := "SELECT " ++ fields .version ++ " FROM " ++ table.name

def getDBVersion : Action Nat := do
  let value ← execAndGet engine getCommand
  return engine.getUInt value

/-- The text has no blank between the name of the table and `SET`. -/
def updateCommand (newVersion : Nat) : String :=
  "UPDATE " ++ table.name ++ "SET " ++ fields .version ++ " = " ++ toString newVersion

def updateDBVersion (newVersion : Nat) : Action Unit :=
  runTransaction engine (updateCommand newVersion)

end Peakwork.Db.DBVersion
