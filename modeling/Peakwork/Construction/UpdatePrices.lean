/-
This file gives the loop of `Controller::UpdatePrices` on the tables.
-/

import Peakwork.Construction.CommonData
import Peakwork.Construction.Db.DBManager

namespace Peakwork.Controller

open Sql CommonData

/-- The outcome of the requests behind one `GetCompanyInfo`. -/
inductive Fetched where
  | answered (info : CompanyInfo)
  | failed
  deriving DecidableEq, Repr

/-- The client turns an `HTTPException` into the empty value. -/
def getCompanyInfo : Fetched → CompanyInfo
  | .answered info => info
  | .failed => .empty

variable (engine : Engine)

/-- The body of the loop over the symbols. -/
def updateSymbol (info : CompanyInfo) : Action Unit := do
  Db.Companies.add engine info.shortName info.fullName info.logo
  let rowId ← Db.Companies.getRowID engine info.shortName
  info.priceList.forM fun price => Db.Prices.add engine rowId price.price price.dateTimestamp

def updateRound (symbols : List String) (fetch : Nat → String → Fetched) : Action Unit :=
  symbols.zipIdx.forM fun symbol => updateSymbol engine (getCompanyInfo (fetch symbol.2 symbol.1))

/-- The loop runs until the stop flag is seen; `rounds` counts the rounds before. -/
def updatePrices (symbols : List String) (rounds : Nat) (fetch : Nat → Nat → String → Fetched) :
    Action Unit :=
  if symbols.isEmpty then pure () else
    (List.range rounds).forM fun round => updateRound engine symbols (fetch round)

/-- The outcomes in the order in which the loop meets them. -/
def outcomes (symbols : List String) (rounds : Nat) (fetch : Nat → Nat → String → Fetched) :
    List Fetched :=
  (List.range rounds).flatMap fun round => symbols.zipIdx.map fun symbol => fetch round symbol.2 symbol.1

end Peakwork.Controller
