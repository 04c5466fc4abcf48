/-
This file gives what the processes of a service leave in the file of the database.
-/

import Peakwork.Construction.UpdatePrices

namespace Peakwork.Controller

open Sql

variable (engine : Engine) (dbVersion : Nat)

/-- A process opens the database and updates the prices; it may be killed after some of its transactions. -/
structure Process where
  symbols : List String
  rounds : Nat
  fetch : Nat → Nat → String → Fetched
  killedAfter : Option Nat

/-- The outcomes of all rounds of a process. -/
def Process.fetched (process : Process) : List Fetched := outcomes process.symbols process.rounds process.fetch

def Process.run (process : Process) : Action Unit := do
  Db.DBManager.construct engine dbVersion
  updatePrices engine process.symbols process.rounds process.fetch

/-- The file at the start and after each transaction; an exception ends the process as well. -/
def Process.files (process : Process) (catalog : Catalog) : List Catalog :=
  match (process.run engine dbVersion).run (Connection.opened catalog) with
  | .ok _ connection => catalog :: connection.committed.reverse
  | .error _ connection => catalog :: connection.committed.reverse

def Process.leaves (catalog : Catalog) (process : Process) : Catalog :=
  let files := process.files engine dbVersion catalog
  match process.killedAfter with
  | some transactions => (files.take (transactions + 1)).getLastD catalog
  | none => files.getLastD catalog

/-- The processes follow each other on one file. -/
def serve (processes : List Process) (catalog : Catalog) : Catalog := processes.foldl (Process.leaves engine dbVersion) catalog

end Peakwork.Controller
