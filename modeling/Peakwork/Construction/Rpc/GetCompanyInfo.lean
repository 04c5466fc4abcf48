/-
This file gives the answer of the service to one request.
-/

import Peakwork.Construction.CommonData
import Peakwork.Library.Json

namespace Peakwork.Rpc

open CommonData

structure TimeFrame where
  timeFrame : String
  date : String
  deriving DecidableEq, Repr

/-- A time limit that the client does not give has empty texts. -/
structure GetCompanyRequest where
  company : List String
  timeLimit : TimeFrame := ⟨"", ""⟩
  deriving DecidableEq, Repr

inductive Status where
  | ok
  | cancelled
  deriving DecidableEq, Repr

/-- A handler answers for the companies and the time limit, or it throws. -/
abbrev Handler := List String → String → String → Except String (List CompanyInfo)

variable (printPrice : BitVec 32 → String)

def pricesTree (priceList : List Price) : PropertyTree :=
  priceList.foldl
    (fun prices price => prices.pushBack "" (PropertyTree.empty.put "" (printPrice price.price))) .empty

def companyTree (info : CompanyInfo) : PropertyTree :=
  ((PropertyTree.empty.put "name" info.fullName).put "logo" info.logo).addChild "prices"
    (pricesTree printPrice info.priceList)

def jsonResult (companiesInfo : List CompanyInfo) : PropertyTree :=
  companiesInfo.foldl (fun result info => result.pushBack "" (companyTree printPrice info)) .empty

/-- An exception of the handler or of the writer cancels the call. -/
def getCompanyInfo (handler : Handler) (request : GetCompanyRequest) : Status × Option String :=
  match handler request.company request.timeLimit.timeFrame request.timeLimit.date with
  | .error _ => (.cancelled, none)
  | .ok companiesInfo =>
      match Json.write (jsonResult printPrice companiesInfo) with
      | some data => (.ok, some data)
      | none => (.cancelled, none)

end Peakwork.Rpc
