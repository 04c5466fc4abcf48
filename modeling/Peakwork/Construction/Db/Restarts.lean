/-
This file gives what the starts of several binaries leave in one file.
-/

import Peakwork.Construction.Db.DBManager

namespace Peakwork.Db.DBManager

open Sql

variable (engine : Engine)

/-- The file before the first transaction of a start and after each of them. -/
def states (dbVersion : Nat) (catalog : Catalog) : List Catalog :=
  match (construct engine dbVersion).run (Connection.opened catalog) with
  | .ok _ connection => catalog :: connection.committed.reverse
  | .error _ connection => catalog :: connection.committed.reverse

/-- A start is killed after some of its transactions; nothing else is undone. -/
def killed (dbVersion : Nat) (catalog : Catalog) (transactions : Nat) : Option Catalog :=
  (states engine dbVersion catalog)[transactions]?

/-- A start that throws does not complete. -/
def completed (dbVersion : Nat) (catalog : Catalog) : Option Catalog :=
  match (construct engine dbVersion).run (Connection.opened catalog) with
  | .ok _ connection => some connection.database.catalog
  | .error _ _ => none

/-- A start of a binary, and after how many transactions it is killed. -/
structure Start where
  dbVersion : Nat
  killedAfter : Option Nat
  deriving DecidableEq, Repr

def Start.leaves (start : Start) (catalog : Catalog) : Option Catalog :=
  match start.killedAfter with
  | some transactions => killed engine start.dbVersion catalog transactions
  | none => completed engine start.dbVersion catalog

/-- Between two starts the service may have left anything in its data tables. -/
inductive Phase where
  | start (start : Start)
  | work (companies prices : Table)
  deriving DecidableEq, Repr

def Phase.leaves : Phase → Catalog → Option Catalog
  | .start own, catalog => own.leaves engine catalog
  | .work companies prices, catalog => some ((catalog.replace "companies" companies).replace "prices" prices)

/-- The phases follow each other on one file. -/
def history (phases : List Phase) (catalog : Catalog) : Option Catalog :=
  phases.foldlM (fun catalog phase => phase.leaves engine catalog) catalog

end Peakwork.Db.DBManager
