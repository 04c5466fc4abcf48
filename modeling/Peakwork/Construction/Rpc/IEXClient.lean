/-
This file gives the client of the remote service.
-/

import Peakwork.Construction.CommonData
import Peakwork.Construction.CommonUtils.HTTPTransaction
import Peakwork.Library.PropertyTree

namespace Peakwork.Rpc

open CommonData CommonUtils

/-- This is what the client uses of the libraries; a value that cannot be converted is `none`. -/
structure Libraries where
  curlEasyStrerror : CurlCode → String
  readJson : List Char → Option PropertyTree
  toFloat : String → Option (BitVec 32)
  toInt64 : String → Option Int

/-- The settings that the client reads, and what happens behind each URL. -/
structure IEXClient where
  iexUrl : String
  iexTocken : String
  exchange : String → HTTPTransaction.Exchange

namespace IEXClient

variable (libraries : Libraries) (client : IEXClient)

def createUrl (companySymbol type : String) : String :=
  client.iexUrl ++ "/stable/stock/" ++ companySymbol ++ "/" ++ type ++ "?token=" ++ client.iexTocken

def performGet (url : String) : Except Thrown (List Char) :=
  HTTPTransaction.performGet libraries.curlEasyStrerror url (client.exchange url)

def readTree (info : List Char) : Except Thrown PropertyTree :=
  match libraries.readJson info with
  | some tree => .ok tree
  | none => .error .jsonParser

/-- A missing node and a text that cannot be converted throw. -/
def getValue {α : Type} (convert : String → Option α) (tree : PropertyTree) (path : String) :
    Except Thrown α :=
  match tree.getChild path with
  | some child =>
      match convert child.data with
      | some value => .ok value
      | none => .error .badData
  | none => .error .badPath

def parseCompanyInfo (info : List Char) : Except Thrown CompanyInfo := do
  let pt ← readTree libraries info
  let fullName ← getValue some pt "companyName"
  let shortName ← getValue some pt "symbol"
  let price ← getValue libraries.toFloat pt "latestPrice"
  let timestamp ← getValue libraries.toInt64 pt "latestUpdate"
  let date ← getValue some pt "latestUpdate"
  return { shortName, fullName, logo := "", priceList := [⟨price, timestamp, date⟩] }

def parseLogo (info : List Char) : Except Thrown String := do
  let pt ← readTree libraries info
  getValue some pt "url"

/-- A handler for `HTTPException` lets every other exception through. -/
def catchHTTP {α : Type} (fallback : α) : Except Thrown α → Except Thrown α
  | .ok value => .ok value
  | .error thrown => if thrown.isHTTP then .ok fallback else .error thrown

def getCompanyLogoLink (shortName : String) : Except Thrown String :=
  catchHTTP "" do
    let data ← client.performGet libraries (client.createUrl shortName "logo")
    parseLogo libraries data

/-- The three overloads differ in the end of their URL only. -/
def getCompanyInfoOf (shortName type : String) : Except Thrown CompanyInfo :=
  catchHTTP .empty do
    let data ← client.performGet libraries (client.createUrl shortName type)
    let info ← parseCompanyInfo libraries data
    let logo ← client.getCompanyLogoLink libraries shortName
    return { info with logo }

def getCompanyInfo (shortName : String) : Except Thrown CompanyInfo :=
  client.getCompanyInfoOf libraries shortName "quote"

def getCompanyInfoFor (shortName timeFrame : String) : Except Thrown CompanyInfo :=
  client.getCompanyInfoOf libraries shortName ("chart/" ++ timeFrame)

def getCompanyInfoAt (shortName timeFrame date : String) : Except Thrown CompanyInfo :=
  client.getCompanyInfoOf libraries shortName ("chart/" ++ timeFrame ++ "/" ++ date)

end IEXClient

end Peakwork.Rpc
