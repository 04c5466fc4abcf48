/-
This file decides when a client gets the information of every company.
-/

import Peakwork.Construction.Rpc.GetCompanyInfo

namespace Peakwork.Rpc

open CommonData Json

/-- What a client should learn about one company. -/
structure Answer where
  name : String
  logo : String
  prices : List String
  deriving DecidableEq, Repr

variable (policy : Policy) (printPrice : BitVec 32 → String)

def answerOf (info : CompanyInfo) : Answer :=
  ⟨info.fullName, info.logo, info.priceList.map fun price => printPrice price.price⟩

def decodeText : Value → Option String
  | .string text => some text
  | _ => none

def decodePrices : Value → Option (List String)
  | .array items => items.mapM decodeText
  | _ => none

def decodeCompany : Value → Option Answer
  | .object members => do
      let name ← (members.lookup "name").bind decodeText
      let logo ← (members.lookup "logo").bind decodeText
      let prices ← (members.lookup "prices").bind decodePrices
      return ⟨name, logo, prices⟩
  | _ => none

/-- The companies may stand in an array or in an object, whatever its keys are. -/
def decode : Value → Option (List Answer)
  | .array items => items.mapM decodeCompany
  | .object members => (members.map (·.2)).mapM decodeCompany
  | .string _ => none

/-- The answer arrives, and the client reads each company in the order of the request. -/
def LosesNothing (handler : Handler) (request : GetCompanyRequest) (companiesInfo : List CompanyInfo) :
    Prop :=
  ∃ data value, getCompanyInfo printPrice handler request = (.ok, some data) ∧
    read policy data = some value ∧ decode value = some (companiesInfo.map (answerOf printPrice))

theorem pricesTree_eq (priceList : List Price) : pricesTree printPrice priceList =
    .node "" (priceList.map fun price => ("", .leaf (printPrice price.price))) :=
  PropertyTree.foldl_pushBack (fun price : Price => PropertyTree.leaf (printPrice price.price)) ""
    priceList .empty

theorem companyTree_eq (info : CompanyInfo) : companyTree printPrice info =
    .node "" [("name", .leaf info.fullName), ("logo", .leaf info.logo),
      ("prices", .node "" (info.priceList.map fun price => ("", .leaf (printPrice price.price))))] := by
  rw [companyTree, pricesTree_eq]
  rfl

theorem jsonResult_eq (companiesInfo : List CompanyInfo) : jsonResult printPrice companiesInfo =
    .node "" (companiesInfo.map fun info => ("", companyTree printPrice info)) :=
  PropertyTree.foldl_pushBack (companyTree printPrice) "" companiesInfo .empty

/-- The prices of a company are an array unless there are none. -/
def pricesValue (priceList : List Price) : Value :=
  if priceList = [] then .string "" else .array (priceList.map fun price => .string (printPrice price.price))

def companyValue (info : CompanyInfo) : Value :=
  .object [("name", .string info.fullName), ("logo", .string info.logo),
    ("prices", pricesValue printPrice info.priceList)]

theorem shape_pricesTree (priceList : List Price) :
    shape policy false (pricesTree printPrice priceList) = pricesValue printPrice priceList := by
  rw [pricesTree_eq, shape, shapeItems_eq]
  cases priceList with
  | nil => rfl
  | cons price rest => simp [pricesValue, Function.comp_def]

theorem shape_companyTree (info : CompanyInfo) :
    shape policy false (companyTree printPrice info) = companyValue printPrice info := by
  have prices := shape_pricesTree policy printPrice info.priceList
  rw [pricesTree_eq] at prices
  rw [companyTree_eq, shape, shapeMembers_eq]
  simp only [List.map_cons, List.map_nil, prices, shape_leaf]
  cases policy <;> rfl

/-- The root is an object in which every company has the empty key. -/
theorem shape_jsonResult (companiesInfo : List CompanyInfo) :
    shape policy true (jsonResult printPrice companiesInfo) =
      .object (policy.keep (companiesInfo.map fun info => ("", companyValue printPrice info))) := by
  rw [jsonResult_eq, shape, shapeMembers_eq]
  simp [Function.comp_def, shape_companyTree]

/-- The writer accepts every answer. -/
theorem verify_jsonResult (companiesInfo : List CompanyInfo) :
    verify true (jsonResult printPrice companiesInfo) = true := by
  have prices (priceList : List Price) : verify false (.node "" (priceList.map fun price =>
      ("", PropertyTree.leaf (printPrice price.price)))) = true := by
    simp [verify, verifyAll_eq]
  have company (info : CompanyInfo) : verify false (companyTree printPrice info) = true := by
    rw [companyTree_eq, verify]
    simp only [verifyAll, verify_leaf, prices]
    rfl
  rw [jsonResult_eq, verify, verifyAll_eq]
  simp [company]

theorem mapM_some {α β : Type} (items : List α) (read : α → Option β) (result : α → β)
    (each : ∀ item ∈ items, read item = some (result item)) : items.mapM read = some (items.map result) := by
  induction items with
  | nil => rfl
  | cons item rest ih =>
      rw [List.mapM_cons, each item (by simp), ih fun item member => each item (by simp [member])]
      rfl

/-- A company is decoded exactly when it has prices. -/
theorem decodeCompany_value (info : CompanyInfo) : decodeCompany (companyValue printPrice info) =
    if info.priceList = [] then none else some (answerOf printPrice info) := by
  have prices : decodePrices (pricesValue printPrice info.priceList) =
      if info.priceList = [] then none else some (info.priceList.map fun price => printPrice price.price) := by
    unfold pricesValue
    split
    · rfl
    · rw [decodePrices, List.mapM_map]
      exact mapM_some _ _ _ fun price _ => rfl
  have members : decodeCompany (companyValue printPrice info) =
      (decodePrices (pricesValue printPrice info.priceList)).bind fun prices =>
        some ⟨info.fullName, info.logo, prices⟩ := rfl
  rw [members, prices]
  split <;> rfl

theorem keep_single (members : List (String × Value)) (one : members.length ≤ 1) :
    policy.keep members = members := by
  match members, one with
  | [], _ => cases policy <;> rfl
  | [member], _ => cases policy <;> rfl

/-- Of several members with one key only one is kept. -/
theorem keep_same_key (key : String) (members : List (String × Value))
    (same : ∀ member ∈ members, member.1 = key) : (policy.keep members).length ≤ 1 := by
  have grow (next : List (String × Value) → String × Value → List (String × Value))
      (small : ∀ kept member, member.1 = key → kept.length ≤ 1 → (∀ other ∈ kept, other.1 = key) →
        (next kept member).length ≤ 1 ∧ ∀ other ∈ next kept member, other.1 = key)
      (kept : List (String × Value)) (one : kept.length ≤ 1) (sameKept : ∀ other ∈ kept, other.1 = key) :
      (members.foldl next kept).length ≤ 1 := by
    induction members generalizing kept with
    | nil => exact one
    | cons member rest ih =>
        obtain ⟨one', same'⟩ := small kept member (same member (by simp)) one sameKept
        exact ih (fun other inside => same other (by simp [inside])) _ one' same'
  cases policy with
  | first =>
      apply grow keepFirst _ [] (by simp) (by simp)
      intro kept member own one sameKept
      match kept, one with
      | [], _ => simp [keepFirst, own]
      | [other], _ =>
          have taken : other.1 = member.1 := (sameKept other (by simp)).trans own.symm
          simpa [keepFirst, taken] using own
  | last =>
      apply grow keepLast _ [] (by simp) (by simp)
      intro kept member own one sameKept
      have gone : dropKey member.1 kept = [] := by
        rw [dropKey, List.filter_eq_nil_iff]
        intro other inside
        simp [sameKept other inside, own]
      rw [keepLast, gone]
      simpa using own

theorem decode_length {members : List (String × Value)} {answers : List Answer}
    (decoded : decode (.object members) = some answers) : answers.length = members.length := by
  have count (values : List Value) (answers : List Answer)
      (decoded : values.mapM decodeCompany = some answers) : answers.length = values.length := by
    induction values generalizing answers with
    | nil =>
        cases decoded
        rfl
    | cons value rest ih =>
        rw [List.mapM_cons] at decoded
        cases first : decodeCompany value with
        | none => simp [first] at decoded
        | some answer =>
            cases later : rest.mapM decodeCompany with
            | none => simp [first, later] at decoded
            | some others =>
                simp only [first, later] at decoded
                cases decoded
                simp [ih others later]
  simpa using count _ answers decoded

/-- The client decodes the object that was written. -/
theorem losesNothing_iff_decode (handler : Handler) (request : GetCompanyRequest)
    (companiesInfo : List CompanyInfo)
    (handled : handler request.company request.timeLimit.timeFrame request.timeLimit.date =
      .ok companiesInfo) :
    LosesNothing policy printPrice handler request companiesInfo ↔
      decode (.object (policy.keep (companiesInfo.map fun info => ("", companyValue printPrice info)))) =
        some (companiesInfo.map (answerOf printPrice)) := by
  have written : write (jsonResult printPrice companiesInfo) =
      some (String.ofList (writeNode true (jsonResult printPrice companiesInfo))) := by
    simp [write, verify_jsonResult]
  have answered : getCompanyInfo printPrice handler request =
      (.ok, some (String.ofList (writeNode true (jsonResult printPrice companiesInfo)))) := by
    simp [getCompanyInfo, handled, written]
  have back := read_write policy _ _ written
  rw [shape_jsonResult] at back
  constructor
  · rintro ⟨data, value, sent, received, decoded⟩
    rw [answered] at sent
    cases sent
    rw [back] at received
    cases received
    exact decoded
  · intro decoded
    exact ⟨_, _, answered, back, decoded⟩

/-- The answer loses nothing exactly when it is about at most one company, and that company has
prices. -/
theorem losesNothing_iff (handler : Handler) (request : GetCompanyRequest) (companiesInfo : List CompanyInfo)
    (handled : handler request.company request.timeLimit.timeFrame request.timeLimit.date =
      .ok companiesInfo) :
    LosesNothing policy printPrice handler request companiesInfo ↔
      companiesInfo.length ≤ 1 ∧ ∀ info ∈ companiesInfo, info.priceList ≠ [] := by
  rw [losesNothing_iff_decode policy printPrice handler request companiesInfo handled]
  by_cases one : companiesInfo.length ≤ 1
  · rw [keep_single policy _ (by rw [List.length_map]; exact one)]
    match companiesInfo, one with
    | [], _ => exact ⟨fun _ => ⟨by simp, by simp⟩, fun _ => rfl⟩
    | [info], _ =>
        have single : decode (.object [("", companyValue printPrice info)]) =
            (decodeCompany (companyValue printPrice info)).map fun answer => [answer] := by
          change [companyValue printPrice info].mapM decodeCompany = _
          rw [List.mapM_cons, List.mapM_nil]
          cases decodeCompany (companyValue printPrice info) <;> rfl
        rw [List.map_singleton, single, decodeCompany_value]
        by_cases empty : info.priceList = [] <;> simp [empty]
  · constructor
    · intro decoded
      have count := decode_length decoded
      have few := keep_same_key policy "" (companiesInfo.map fun info => ("", companyValue printPrice info))
        (by simp)
      rw [List.length_map] at count
      omega
    · rintro ⟨small, _⟩
      exact absurd small one

def priced (name : String) : CompanyInfo := ⟨name, name, "", [⟨0x43160000#32, 1573765200, "1573765200"⟩]⟩

theorem losesNothing_iff_example :
    LosesNothing .last (fun _ => "150") (fun _ _ _ => .ok [priced "AAPL"]) ⟨["AAPL"], ⟨"", ""⟩⟩ [priced "AAPL"] ↔
      [priced "AAPL"].length ≤ 1 ∧ ∀ info ∈ [priced "AAPL"], info.priceList ≠ [] :=
  losesNothing_iff .last (fun _ => "150") (fun _ _ _ => .ok [priced "AAPL"]) ⟨["AAPL"], ⟨"", ""⟩⟩
    [priced "AAPL"] rfl

/-- Of two companies the client gets one. -/
theorem answer_loses_company : ¬ ∀ (policy : Policy) (printPrice : BitVec 32 → String) (handler : Handler)
    (request : GetCompanyRequest) (companiesInfo : List CompanyInfo),
    handler request.company request.timeLimit.timeFrame request.timeLimit.date = .ok companiesInfo →
      LosesNothing policy printPrice handler request companiesInfo := by
  intro claimed
  have lossless := claimed .last (fun _ => "150") (fun _ _ _ => .ok [priced "AAPL", priced "FB"])
    ⟨["AAPL", "FB"], ⟨"", ""⟩⟩ [priced "AAPL", priced "FB"] rfl
  rw [losesNothing_iff_decode _ _ _ _ _ rfl] at lossless
  exact absurd (decode_length lossless) (by decide)

end Peakwork.Rpc
