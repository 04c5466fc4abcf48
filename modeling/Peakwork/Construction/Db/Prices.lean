/-
This file gives the table of the prices.
-/

import Peakwork.Construction.Db.Companies

namespace Peakwork.Db.Prices

open Sql

def table : ITable := ⟨"prices"⟩

inductive Field where
  | id
  | companyRowId
  | price
  | timestamp
  deriving DecidableEq, Repr

def fields : Field → String
  | .id => "id"
  | .companyRowId => "company_rowid"
  | .price => "price"
  | .timestamp => "timestamp"

/-- The conversion of a `float` to a `double` is exact. -/
def widen (single : BitVec 32) : BitVec 64 :=
  let sign := single.extractLsb' 31 1
  let exponent := (single.extractLsb' 23 8).toNat
  let fraction := (single.extractLsb' 0 23).toNat
  let join (exponent fraction : Nat) : BitVec 64 :=
    sign ++ (BitVec.ofNat 11 exponent ++ BitVec.ofNat 52 fraction)
  if exponent = 255 then join 2047 (fraction * 2 ^ 29)
  else if exponent ≠ 0 then join (exponent + 896) (fraction * 2 ^ 29)
  else if fraction = 0 then join 0 0
  else
    -- a subnormal single is a normal double
    let high := fraction.log2
    join (high + 874) ((fraction - 2 ^ high) * 2 ^ (52 - high))

variable (engine : Engine)

def createCommand : String :=
  "PRAGMA foreign_keys=on; CREATE TABLE IF NOT EXISTS " ++ table.name ++
    "(" ++ fields .id ++ " INTEGER PRIMARY KEY AUTOINCREMENT, " ++
    fields .price ++ " REAL NOT NULL, " ++
    fields .timestamp ++ " INT NOT NULL, " ++
    fields .companyRowId ++ " INTEGER NOT NULL, " ++
    "FOREIGN KEY(" ++ fields .companyRowId ++ ") REFERENCES " ++ Companies.table.name ++
      "(" ++ Companies.fields .id ++ ")" ++
    ")"

def create : Action Unit := runTransaction engine createCommand

def init : Action Unit := pure ()

def addCommand : String :=
  "INSERT INTO " ++ table.name ++ " (" ++
    fields .companyRowId ++ ", " ++
    fields .price ++ ", " ++
    fields .timestamp ++
    ") VALUES (:rowid, :price, :time)"

def add (companyRowId : Int) (price : BitVec 32) (timestamp : Int) : Action Unit :=
  runStatement engine addCommand
    [(":rowid", .integer companyRowId), (":price", bindReal (widen price)),
      (":time", .integer timestamp)]

def removeAllByCompanyRowID (companyRowId : Int) : Action Unit :=
  table.removeRows engine (fields .companyRowId) companyRowId

end Peakwork.Db.Prices
