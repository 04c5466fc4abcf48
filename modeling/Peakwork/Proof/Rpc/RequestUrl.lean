/-
This file decides which requests are told apart by their URLs.
-/

import Peakwork.Construction.Rpc.HTTPCompanyInfo
import Peakwork.Library.Url
import Peakwork.Proof.Rpc.IEXClient

namespace Peakwork.Rpc

open CommonData CommonUtils

/-- What a client asks for; the name of the company is not empty. -/
structure InfoRequest where
  company : String
  timeFrame : String
  date : String
  named : company ≠ ""

namespace InfoRequest

variable (request : InfoRequest)

/-- The segments of the endpoint that answers the request. -/
def endpoint : List String :=
  if request.timeFrame.isEmpty && request.date.isEmpty then ["quote"]
  else if request.date.isEmpty then ["chart", request.timeFrame]
  else ["chart", request.timeFrame, request.date]

/-- The segments of the whole path. -/
def target : List String := ["stable", "stock", request.company] ++ request.endpoint

/-- No text of the request cuts a path, and a date comes with a time frame. -/
structure Clean : Prop where
  company : Url.Plain request.company.toList
  timeFrame : Url.Plain request.timeFrame.toList
  date : Url.Plain request.date.toList
  framed : request.timeFrame = "" → request.date = ""

end InfoRequest

namespace IEXClient

variable (libraries : Libraries) (client : IEXClient)

/-- The URL that the choice of the service leads to. -/
def requestUrl (request : InfoRequest) : String :=
  if request.timeFrame.isEmpty && request.date.isEmpty then client.createUrl request.company "quote"
  else if request.date.isEmpty then client.createUrl request.company ("chart/" ++ request.timeFrame)
  else client.createUrl request.company ("chart/" ++ request.timeFrame ++ "/" ++ request.date)

/-- The service asks for this URL first. -/
theorem getHTTPCompanyInfo_requests (request : InfoRequest) :
    RPCService.getHTTPCompanyInfo libraries client request.company request.timeFrame request.date =
      catchHTTP .empty (client.performGet libraries (client.requestUrl request) >>=
        client.withLogo libraries request.company) := by
  unfold RPCService.getHTTPCompanyInfo requestUrl
  split
  · rfl
  · split
    · rfl
    · rfl

/-- What stands behind the base. -/
def behindBase (request : InfoRequest) : List Char :=
  (client.requestUrl request).toList.drop client.iexUrl.toList.length

/-- The URL has the segments of the request, none of them empty, and then the token. -/
structure Identifies (request : InfoRequest) : Prop where
  segments : Url.segments (client.behindBase request) = request.target.map String.toList
  named : ∀ piece ∈ request.target, piece ≠ ""
  query : Url.behindPath (client.behindBase request) = ("?token=" ++ client.iexTocken).toList

/-- Two requests with one URL are one request, and each has its own segments. -/
structure IdentifyRequests (first second : InfoRequest) : Prop where
  injective : client.requestUrl first = client.requestUrl second → first = second
  first : client.Identifies first
  second : client.Identifies second

theorem createUrl_behindBase (company type : String) :
    (client.createUrl company type).toList.drop client.iexUrl.toList.length =
      Url.joined (["stable", "stock", company].map String.toList) ++ '/' :: type.toList ++
        '?' :: ("token=" ++ client.iexTocken).toList := by
  have path : "/stable/stock/".toList = Url.joined [['s', 't', 'a', 'b', 'l', 'e'], ['s', 't', 'o', 'c', 'k']] ++ ['/'] := by
    decide
  have stable : "stable".toList = ['s', 't', 'a', 'b', 'l', 'e'] := by decide
  have stock : "stock".toList = ['s', 't', 'o', 'c', 'k'] := by decide
  have slash : "/".toList = ['/'] := by decide
  have query : "?token=".toList = '?' :: "token=".toList := by decide
  unfold createUrl
  simp only [String.toList_append, List.append_assoc, List.drop_left, path, slash, query, List.map_cons, List.map_nil,
    stable, stock]
  simp [Url.joined]

/-- The URL is the joined path of the request with the token. -/
theorem behindBase_eq (request : InfoRequest) : client.behindBase request =
    Url.joined (request.target.map String.toList) ++ '?' :: ("token=" ++ client.iexTocken).toList := by
  have slash : "/".toList = ['/'] := by decide
  have chart : "chart/".toList = "chart".toList ++ ['/'] := by decide
  unfold behindBase requestUrl InfoRequest.target InfoRequest.endpoint
  split
  · rw [createUrl_behindBase, List.map_append]
    simp [Url.joined]
  · split
    · rw [createUrl_behindBase, List.map_append, String.toList_append, chart]
      simp [Url.joined]
    · rw [createUrl_behindBase, List.map_append, String.toList_append, String.toList_append, String.toList_append, chart,
        slash]
      simp [Url.joined]

end IEXClient

namespace InfoRequest

variable {request : InfoRequest}

theorem plain_empty : Url.Plain "".toList := by
  intro c inside
  rw [String.toList_empty] at inside
  cases inside

/-- A segment is a word of the service or a text of the request. -/
theorem mem_target {piece : String} (member : piece ∈ request.target) : piece ∈ ["stable", "stock", "quote", "chart"] ∨
    piece = request.company ∨ piece = request.timeFrame ∨ piece = request.date := by
  rcases List.mem_append.mp member with front | back
  · simp only [List.mem_cons, List.not_mem_nil, or_false] at front ⊢
    tauto
  · unfold endpoint at back
    split_ifs at back
    all_goals
      simp only [List.mem_cons, List.not_mem_nil, or_false] at back ⊢
      tauto

theorem plain_target (clean : request.Clean) : ∀ piece ∈ request.target.map String.toList, Url.Plain piece := by
  intro piece member
  obtain ⟨text, inside, rfl⟩ := List.mem_map.mp member
  rcases mem_target inside with word | rfl | rfl | rfl
  · have words : (["stable", "stock", "quote", "chart"].all fun word =>
        word.toList.all fun c => c ≠ '/' ∧ Url.endsPath c = false) = true := by decide
    have all := List.all_eq_true.mp words text word
    intro c inside
    simpa using List.all_eq_true.mp all c inside
  · exact clean.company
  · exact clean.timeFrame
  · exact clean.date

/-- A segment is empty exactly when a date comes without a time frame. -/
theorem named_iff : (∀ piece ∈ request.target, piece ≠ "") ↔ (request.timeFrame = "" → request.date = "") := by
  have company := request.named
  unfold target endpoint
  by_cases frame : request.timeFrame = ""
  · by_cases date : request.date = ""
    · simp [frame, date, company]
    · simp [frame, date]
  · by_cases date : request.date = ""
    · simp [frame, date, company]
    · simp [frame, date, company]

theorem company_mem (request : InfoRequest) : request.company ∈ request.target := by
  simp [target]

/-- A text of the request is empty or a segment. -/
theorem timeFrame_mem (request : InfoRequest) : request.timeFrame = "" ∨ request.timeFrame ∈ request.target := by
  unfold target endpoint
  by_cases frame : request.timeFrame = ""
  · exact .inl frame
  · right
    split
    · simp_all
    · split
      · simp
      · simp

theorem date_mem (request : InfoRequest) : request.date = "" ∨ request.date ∈ request.target := by
  unfold target endpoint
  by_cases date : request.date = ""
  · exact .inl date
  · right
    simp [date]

/-- The segments tell requests apart. -/
theorem eq_of_target {first second : InfoRequest} (same : first.target = second.target) : first = second := by
  obtain ⟨company, timeFrame, date, named⟩ := first
  obtain ⟨otherCompany, otherTimeFrame, otherDate, otherNamed⟩ := second
  have rest := List.append_inj same rfl
  obtain ⟨front, back⟩ := rest
  simp only [List.cons.injEq, and_true, true_and] at front
  subst front
  have parts : timeFrame = otherTimeFrame ∧ date = otherDate := by
    unfold endpoint at back
    by_cases day : date = ""
    · by_cases otherDay : otherDate = ""
      · by_cases frame : timeFrame = "" <;> by_cases otherFrame : otherTimeFrame = "" <;> simp_all
      · by_cases frame : timeFrame = "" <;> simp_all
    · by_cases otherDay : otherDate = ""
      · by_cases otherFrame : otherTimeFrame = "" <;> simp_all
      · simp_all
  obtain ⟨rfl, rfl⟩ := parts
  rfl

end InfoRequest

namespace IEXClient

variable (client : IEXClient)

/-- A URL identifies its request exactly when the request is clean. -/
theorem identifies_iff (request : InfoRequest) : client.Identifies request ↔ request.Clean := by
  have query : ("?token=" ++ client.iexTocken).toList = '?' :: ("token=" ++ client.iexTocken).toList := by
    rw [String.toList_append, String.toList_append, ← List.cons_append]
    congr 1
  constructor
  · intro identifies
    have plain {text : String} (member : text ∈ request.target) : Url.Plain text.toList := by
      apply Url.plain_of_mem_segments
      rw [identifies.segments]
      exact List.mem_map_of_mem member
    have plainOrEmpty {text : String} (member : text = "" ∨ text ∈ request.target) : Url.Plain text.toList := by
      rcases member with rfl | inside
      · exact InfoRequest.plain_empty
      · exact plain inside
    exact ⟨plain request.company_mem, plainOrEmpty request.timeFrame_mem, plainOrEmpty request.date_mem,
      InfoRequest.named_iff.mp identifies.named⟩
  · intro clean
    obtain ⟨segments, behind⟩ := Url.cut_joined (InfoRequest.plain_target clean) ("token=" ++ client.iexTocken).toList
    rw [← client.behindBase_eq] at segments behind
    exact ⟨segments, InfoRequest.named_iff.mpr clean.framed, behind.trans query.symm⟩

/-- Two requests are identified by their URLs exactly when both are clean. -/
theorem identifyRequests_iff (first second : InfoRequest) :
    client.IdentifyRequests first second ↔ first.Clean ∧ second.Clean := by
  constructor
  · intro identify
    exact ⟨(client.identifies_iff first).mp identify.first, (client.identifies_iff second).mp identify.second⟩
  · rintro ⟨firstClean, secondClean⟩
    have left := (client.identifies_iff first).mpr firstClean
    have right := (client.identifies_iff second).mpr secondClean
    refine ⟨fun same => ?_, left, right⟩
    have texts : client.behindBase first = client.behindBase second := by
      unfold behindBase
      rw [same]
    have targets := left.segments
    rw [texts, right.segments] at targets
    exact InfoRequest.eq_of_target (List.map_injective_iff.mpr (fun _ _ => String.toList_inj.mp) targets.symm)

def chartOfQuote : InfoRequest := ⟨"aapl", "quote", "", by decide⟩

def quoteOfChart : InfoRequest := ⟨"aapl/chart", "", "", by decide⟩

/-- A slash in the name of the company leads to the chart of another one. -/
theorem slash_redirects :
    ¬ unreachableClient.IdentifyRequests chartOfQuote quoteOfChart := by
  intro identify
  have same := identify.injective (by decide)
  exact absurd (congrArg InfoRequest.company same) (by decide)

end IEXClient

end Peakwork.Rpc
