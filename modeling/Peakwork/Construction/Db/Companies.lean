/-
This file gives the table of the companies.
-/

import Peakwork.Construction.Db.ITable

namespace Peakwork.Db.Companies

open Sql

def table : ITable := ⟨"companies"⟩

inductive Field where
  | id
  | uuid
  | name
  | logo
  deriving DecidableEq, Repr

def fields : Field → String
  | .id => "id"
  | .uuid => "uuid"
  | .name => "full_name"
  | .logo => "logo"

variable (engine : Engine)

def createCommand : String :=
  "CREATE TABLE IF NOT EXISTS " ++ table.name ++
    "(" ++ fields .id ++ " INTEGER PRIMARY KEY AUTOINCREMENT," ++
    fields .uuid ++ " TEXT NOT NULL UNIQUE, " ++
    fields .name ++ " TEXT NOT NULL, " ++
    fields .logo ++ " TEXT " ++
    ")"

def create : Action Unit := runTransaction engine createCommand

def init : Action Unit := pure ()

def addCommand : String :=
  "INSERT OR IGNORE INTO " ++ table.name ++ " " ++
    "(" ++ fields .uuid ++
    ", " ++ fields .name ++
    ", " ++ fields .logo ++
    ") " ++
    " VALUES (:uuid, :name, :logo)"

def add (uuid name logo : String) : Action Unit :=
  runStatement engine addCommand
    [(":uuid", .text uuid), (":name", .text name), (":logo", .text logo)]

/-- The symbol is spliced into the text of the query. -/
def getRowIDCommand (uuid : String) : String :=
  "SELECT " ++ fields .id ++ " " ++
    "FROM " ++ table.name ++ " " ++
    "WHERE " ++ fields .uuid ++ " = \"" ++ uuid ++ "\" "

def getRowID (uuid : String) : Action Int := do
  let value ← execAndGet engine (getRowIDCommand uuid)
  return engine.getInt64 value

def getUUIDByRowID (rowId : Int) : Action String :=
  table.getFieldValue engine (fields .uuid) (fields .id) rowId

def getNameByRowID (rowId : Int) : Action String :=
  table.getFieldValue engine (fields .name) (fields .id) rowId

def getLogoByRowID (rowId : Int) : Action String :=
  table.getFieldValue engine (fields .logo) (fields .id) rowId

def setLogoByID (rowId : Int) (link : String) : Action Unit :=
  table.updateField engine (fields .logo) link (fields .id) rowId

def isUUIDPresent (uuid : String) : Action Bool :=
  table.isCellPresent engine (fields .uuid) uuid

def idPresentCommand (rowId : Int) : String :=
  "SELECT EXISTS(SELECT 1 FROM " ++ table.name ++ " " ++
    "WHERE " ++ fields .id ++ " = " ++ toString rowId ++ " " ++
    "LIMIT 1)"

def isIDPresent (rowId : Int) : Action Bool := do
  let value ← execAndGet engine (idPresentCommand rowId)
  return engine.getInt value ≠ 0

def removeByRowID (rowId : Int) : Action Unit :=
  table.removeRows engine (fields .id) rowId

end Peakwork.Db.Companies
