/-
This file gives the start of the database.
-/

import Peakwork.Construction.Db.DBVersion
import Peakwork.Construction.Db.Prices

namespace Peakwork.Db.DBManager

open Sql

variable (engine : Engine) (dbVersion : Nat)

def createAndInitAllTables : Action Unit := do
  DBVersion.create engine dbVersion
  DBVersion.init
  Companies.create engine
  Companies.init
  Prices.create engine
  Prices.init

def dropAllTables : Action Unit := do
  DBVersion.table.drop engine
  Companies.table.drop engine
  Prices.table.drop engine

def dropAndCreateAllTables : Action Unit := do
  dropAllTables engine
  createAndInitAllTables engine dbVersion

/-- The previous version is not used. -/
def upgrade (_prevVersion : Nat) : Action Unit := DBVersion.updateDBVersion engine dbVersion

/-- Every exception of the comparison ends in the new creation of all tables. -/
def upgradeVersion : Action Unit := do
  if ¬ (← DBVersion.table.isExist) then
    dropAndCreateAllTables engine dbVersion
  else
    try
      let value ← DBVersion.getDBVersion engine
      if dbVersion < value then
        dropAndCreateAllTables engine dbVersion
      else if dbVersion > value then
        upgrade engine dbVersion value
    catch _ =>
      dropAndCreateAllTables engine dbVersion

/-- The constructor `DBManager::DBManager` on the opened file. -/
def construct : Action Unit := do
  createAndInitAllTables engine dbVersion
  upgradeVersion engine dbVersion

end Peakwork.Db.DBManager
