/-
This file decides when the client turns the failures of its requests into values.
-/

import Peakwork.Construction.Rpc.IEXClient
import Peakwork.Proof.CommonUtils.PerformGet

namespace Peakwork.Rpc.IEXClient

open CommonData CommonUtils HTTPTransaction

variable (libraries : Libraries) (client : IEXClient)

/-- The handlers for `HTTPException` do not catch what the value throws. -/
def Uncaught {α : Type} (value : Except Thrown α) : Prop :=
  ∀ thrown, value = .error thrown → thrown.isHTTP = false

theorem uncaught_bind {α β : Type} {first : Except Thrown α} {next : α → Except Thrown β}
    (left : Uncaught first) (right : ∀ value, Uncaught (next value)) : Uncaught (first >>= next) := by
  intro thrown ends
  cases first with
  | ok value => exact right value thrown ends
  | error other =>
      cases ends
      exact left _ rfl

theorem uncaught_readTree (info : List Char) : Uncaught (readTree libraries info) := by
  intro thrown ends
  unfold readTree at ends
  split at ends
  · cases ends
  · cases ends
    rfl

theorem uncaught_getValue {α : Type} (convert : String → Option α) (tree : PropertyTree) (path : String) :
    Uncaught (getValue convert tree path) := by
  intro thrown ends
  unfold getValue at ends
  split at ends
  · split at ends
    · cases ends
    · cases ends
      rfl
  · cases ends
    rfl

theorem uncaught_parseCompanyInfo (info : List Char) : Uncaught (parseCompanyInfo libraries info) := by
  unfold parseCompanyInfo
  refine uncaught_bind (uncaught_readTree libraries info) fun pt => ?_
  refine uncaught_bind (uncaught_getValue _ pt _) fun fullName => ?_
  refine uncaught_bind (uncaught_getValue _ pt _) fun shortName => ?_
  refine uncaught_bind (uncaught_getValue _ pt _) fun price => ?_
  refine uncaught_bind (uncaught_getValue _ pt _) fun timestamp => ?_
  refine uncaught_bind (uncaught_getValue _ pt _) fun date => ?_
  intro thrown ends
  cases ends

theorem uncaught_parseLogo (info : List Char) : Uncaught (parseLogo libraries info) := by
  unfold parseLogo
  exact uncaught_bind (uncaught_readTree libraries info) fun pt => uncaught_getValue _ pt _

/-- The tree has a text at the path, and it can be converted. -/
def HasField {α : Type} (convert : String → Option α) (tree : PropertyTree) (path : String) : Prop :=
  ∃ child, tree.getChild path = some child ∧ (convert child.data).isSome

/-- The body has the fields of a quote. -/
def IsQuote (info : List Char) : Prop :=
  ∃ pt, libraries.readJson info = some pt ∧
    HasField some pt "companyName" ∧ HasField some pt "symbol" ∧
    HasField libraries.toFloat pt "latestPrice" ∧ HasField libraries.toInt64 pt "latestUpdate"

/-- The body has the link of a logo. -/
def IsLogo (info : List Char) : Prop :=
  ∃ pt, libraries.readJson info = some pt ∧ HasField some pt "url"

/-- The value is no exception. -/
def Returns {α : Type} (value : Except Thrown α) : Prop := ∃ result, value = .ok result

theorem returns_bind {α β : Type} {first : Except Thrown α} {next : α → Except Thrown β} :
    Returns (first >>= next) ↔ ∃ value, first = .ok value ∧ Returns (next value) := by
  cases first with
  | ok value =>
      constructor
      · intro returns
        exact ⟨value, rfl, returns⟩
      · rintro ⟨other, same, returns⟩
        cases same
        exact returns
  | error thrown =>
      constructor
      · intro returns
        obtain ⟨result, ends⟩ := returns
        cases ends
      · rintro ⟨other, same, -⟩
        cases same

theorem readTree_ok {info : List Char} {tree : PropertyTree} :
    readTree libraries info = .ok tree ↔ libraries.readJson info = some tree := by
  unfold readTree
  cases libraries.readJson info with
  | none => simp
  | some other => simp

theorem returns_getValue {α : Type} {convert : String → Option α} {tree : PropertyTree} {path : String} :
    Returns (getValue convert tree path) ↔ HasField convert tree path := by
  unfold getValue HasField Returns
  cases tree.getChild path with
  | none => simp
  | some child =>
      cases converted : convert child.data with
      | none => simp [converted]
      | some value => simp [converted]

/-- A field that is read and then used by nothing that fails. -/
theorem returns_getValue_bind {α β : Type} {convert : String → Option α} {tree : PropertyTree} {path : String}
    {next : α → Except Thrown β} {rest : Prop} (same : ∀ value, Returns (next value) ↔ rest) :
    Returns (getValue convert tree path >>= next) ↔ HasField convert tree path ∧ rest := by
  rw [returns_bind, ← returns_getValue]
  constructor
  · rintro ⟨value, ends, returns⟩
    exact ⟨⟨value, ends⟩, (same value).mp returns⟩
  · rintro ⟨⟨value, ends⟩, holds⟩
    exact ⟨value, ends, (same value).mpr holds⟩

theorem returns_parseCompanyInfo (info : List Char) :
    Returns (parseCompanyInfo libraries info) ↔ IsQuote libraries info := by
  unfold parseCompanyInfo
  rw [returns_bind]
  refine exists_congr fun pt => and_congr (readTree_ok libraries) ?_
  refine returns_getValue_bind fun fullName => ?_
  refine returns_getValue_bind fun shortName => ?_
  refine returns_getValue_bind fun price => ?_
  rw [← returns_getValue, returns_bind]
  refine exists_congr fun timestamp => and_iff_left_of_imp fun ends => ?_
  -- the date is the text of the node whose number has been read
  obtain ⟨child, found, -⟩ := returns_getValue.mp ⟨timestamp, ends⟩
  exact (returns_getValue_bind fun date => iff_of_true ⟨_, rfl⟩ trivial).mpr ⟨⟨child, found, rfl⟩, trivial⟩

theorem returns_parseLogo (info : List Char) :
    Returns (parseLogo libraries info) ↔ IsLogo libraries info := by
  unfold parseLogo
  rw [returns_bind]
  exact exists_congr fun pt => and_congr (readTree_ok libraries) returns_getValue

/-- The value that an exchange brings, when it has an answer that can be parsed. -/
def brought {α : Type} (parse : List Char → Except Thrown α) (exchange : Exchange) : Option α :=
  exchange.answer.bind fun body => (parse body).toOption

/-- The value that failures are turned into. -/
def expected (first second : Exchange) : CompanyInfo :=
  match brought (parseCompanyInfo libraries) first with
  | some info => { info with logo := (brought (parseLogo libraries) second).getD "" }
  | none => .empty

/-- The exchange ends in no error of the network or of a certificate, and its answer can be read. -/
def Harmless (readable : List Char → Prop) (exchange : Exchange) : Prop :=
  exchange.escapes = false ∧ ∀ body, exchange.answer = some body → readable body

/-- A request that is parsed and guarded by a handler gives its value or its fallback exactly when
the exchange is harmless; nothing else is given. -/
theorem catchHTTP_request {α : Type} (url : String) (parse : List Char → Except Thrown α)
    (uncaught : ∀ body, Uncaught (parse body)) (fallback : α) :
    (Harmless (fun body => Returns (parse body)) (client.exchange url) ∧
      catchHTTP fallback (client.performGet libraries url >>= parse) =
        .ok ((brought parse (client.exchange url)).getD fallback)) ∨
      (¬ Harmless (fun body => Returns (parse body)) (client.exchange url) ∧
        ∃ thrown, catchHTTP fallback (client.performGet libraries url >>= parse) = .error thrown ∧
          thrown.isHTTP = false) := by
  cases answer : (client.exchange url).answer with
  | some body =>
      obtain ⟨returned, inside⟩ := performGet_answer libraries.curlEasyStrerror url answer
      rw [show client.performGet libraries url = .ok body from returned, brought, answer]
      change (_ ∧ catchHTTP fallback (parse body) = _) ∨ (_ ∧ ∃ thrown, catchHTTP fallback (parse body) = _ ∧ _)
      cases parsed : parse body with
      | ok value =>
          refine .inl ⟨⟨inside, fun other same => ⟨value, ?_⟩⟩, ?_⟩
          · cases answer.symm.trans same
            exact parsed
          · rw [Option.bind_some, parsed]
            rfl
      | error thrown =>
          have escaped := uncaught body thrown parsed
          refine .inr ⟨fun harmless => ?_, thrown, ?_, escaped⟩
          · obtain ⟨value, same⟩ := harmless.2 body answer
            rw [parsed] at same
            cases same
          · rw [catchHTTP, escaped]
            rfl
  | none =>
      obtain ⟨thrown, failed, kind⟩ := performGet_throws libraries.curlEasyStrerror url answer
      rw [show client.performGet libraries url = .error thrown from failed, brought, answer]
      change (_ ∧ catchHTTP fallback (.error thrown) = _) ∨
        (_ ∧ ∃ other, catchHTTP fallback (.error thrown) = _ ∧ _)
      rw [catchHTTP, kind]
      cases escapes : (client.exchange url).escapes with
      | false =>
          refine .inl ⟨⟨escapes, fun body same => ?_⟩, rfl⟩
          rw [answer] at same
          cases same
      | true =>
          refine .inr ⟨fun harmless => ?_, thrown, rfl, ?_⟩
          · have inside := harmless.1
            rw [escapes] at inside
            cases inside
          · rw [kind, escapes]
            rfl

theorem getCompanyLogoLink_ends (shortName : String) :
    (Harmless (IsLogo libraries) (client.exchange (client.createUrl shortName "logo")) ∧
      client.getCompanyLogoLink libraries shortName =
        .ok ((brought (parseLogo libraries) (client.exchange (client.createUrl shortName "logo"))).getD "")) ∨
      (¬ Harmless (IsLogo libraries) (client.exchange (client.createUrl shortName "logo")) ∧
        ∃ thrown, client.getCompanyLogoLink libraries shortName = .error thrown ∧ thrown.isHTTP = false) := by
  have readable : (fun body => Returns (parseLogo libraries body)) = IsLogo libraries :=
    funext fun body => propext (returns_parseLogo libraries body)
  rw [← readable]
  exact catchHTTP_request libraries client _ _ (uncaught_parseLogo libraries) ""

theorem uncaught_getCompanyLogoLink (shortName : String) :
    Uncaught (client.getCompanyLogoLink libraries shortName) := by
  intro thrown ends
  rcases getCompanyLogoLink_ends libraries client shortName with ⟨-, returned⟩ | ⟨-, other, failed, kind⟩
  · rw [returned] at ends
    cases ends
  · rw [failed] at ends
    cases ends
    exact kind

/-- What is done with the body of the first request. -/
def withLogo (shortName : String) (body : List Char) : Except Thrown CompanyInfo := do
  let info ← parseCompanyInfo libraries body
  let logo ← client.getCompanyLogoLink libraries shortName
  return { info with logo }

theorem uncaught_withLogo (shortName : String) (body : List Char) :
    Uncaught (client.withLogo libraries shortName body) := by
  refine uncaught_bind (uncaught_parseCompanyInfo libraries body) fun info => ?_
  refine uncaught_bind (uncaught_getCompanyLogoLink libraries client shortName) fun logo => ?_
  intro thrown ends
  cases ends

/-- The exchanges of one call: that of the logo counts when the first one brings a body. -/
def HarmlessCall (first second : Exchange) : Prop :=
  Harmless (IsQuote libraries) first ∧ (first.answer.isSome → Harmless (IsLogo libraries) second)

/-- What the first body leads to depends on its fields and on the logo. -/
theorem returns_withLogo (shortName : String) (body : List Char) :
    Returns (client.withLogo libraries shortName body) ↔
      IsQuote libraries body ∧
        Harmless (IsLogo libraries) (client.exchange (client.createUrl shortName "logo")) := by
  unfold withLogo
  rw [returns_bind, ← returns_parseCompanyInfo]
  rcases getCompanyLogoLink_ends libraries client shortName with
    ⟨harmless, returned⟩ | ⟨harmful, thrown, failed, -⟩
  · rw [returned]
    constructor
    · rintro ⟨info, parsed, -⟩
      exact ⟨⟨info, parsed⟩, harmless⟩
    · rintro ⟨⟨info, parsed⟩, -⟩
      exact ⟨info, parsed, ⟨_, rfl⟩⟩
  · rw [failed]
    constructor
    · rintro ⟨info, parsed, result, ends⟩
      cases ends
    · rintro ⟨-, harmless⟩
      exact absurd harmless harmful

theorem harmlessCall_iff (shortName : String) (first : Exchange) :
    HarmlessCall libraries first (client.exchange (client.createUrl shortName "logo")) ↔
      Harmless (fun body => Returns (client.withLogo libraries shortName body)) first := by
  have fields : (fun body => Returns (client.withLogo libraries shortName body)) = fun body =>
      IsQuote libraries body ∧
        Harmless (IsLogo libraries) (client.exchange (client.createUrl shortName "logo")) :=
    funext fun body => propext (returns_withLogo libraries client shortName body)
  rw [fields, HarmlessCall, Harmless, Harmless, and_assoc]
  refine and_congr_right fun inside => ?_
  constructor
  · intro harmless body answer
    exact ⟨harmless.1 body answer, harmless.2 (answer ▸ rfl)⟩
  · intro harmless
    refine ⟨fun body answer => (harmless body answer).1, fun present => ?_⟩
    obtain ⟨body, answer⟩ := Option.isSome_iff_exists.mp present
    exact (harmless body answer).2

/-- The value that harmless exchanges bring is the expected one. -/
theorem brought_withLogo (shortName : String) (first : Exchange)
    (harmless : Harmless (fun body => Returns (client.withLogo libraries shortName body)) first) :
    (brought (client.withLogo libraries shortName) first).getD .empty =
      expected libraries first (client.exchange (client.createUrl shortName "logo")) := by
  unfold expected brought
  cases answer : first.answer with
  | none => rfl
  | some body =>
      have returns := (returns_withLogo libraries client shortName body).mp (harmless.2 body answer)
      obtain ⟨info, parsed⟩ := (returns_parseCompanyInfo libraries body).mpr returns.1
      rw [Option.bind_some, Option.bind_some, parsed]
      rcases getCompanyLogoLink_ends libraries client shortName with
        ⟨-, returned⟩ | ⟨harmful, -⟩
      · unfold withLogo
        rw [parsed, returned]
        rfl
      · exact absurd returns.2 harmful

/-- A call returns the value that failures are turned into exactly when its exchanges are harmless. -/
theorem getCompanyInfoOf_returns_iff (shortName type : String) :
    client.getCompanyInfoOf libraries shortName type =
        .ok (expected libraries (client.exchange (client.createUrl shortName type))
          (client.exchange (client.createUrl shortName "logo"))) ↔
      HarmlessCall libraries (client.exchange (client.createUrl shortName type))
        (client.exchange (client.createUrl shortName "logo")) := by
  have call := catchHTTP_request libraries client (client.createUrl shortName type)
    (client.withLogo libraries shortName) (uncaught_withLogo libraries client shortName) .empty
  have unfolded : client.getCompanyInfoOf libraries shortName type =
      catchHTTP .empty (client.performGet libraries (client.createUrl shortName type) >>=
        client.withLogo libraries shortName) := rfl
  rw [unfolded, harmlessCall_iff]
  rcases call with ⟨harmless, returned⟩ | ⟨harmful, thrown, failed, -⟩
  · rw [returned, brought_withLogo libraries client shortName _ harmless]
    exact iff_of_true rfl harmless
  · rw [failed]
    exact iff_of_false nofun harmful

/-- The three overloads return the value that failures are turned into exactly when the exchanges
behind their URLs are harmless. -/
theorem getCompanyInfo_returns_iff (shortName timeFrame date : String) :
    let quote := client.exchange (client.createUrl shortName "quote")
    let chart := client.exchange (client.createUrl shortName ("chart/" ++ timeFrame))
    let dated := client.exchange (client.createUrl shortName ("chart/" ++ timeFrame ++ "/" ++ date))
    let logo := client.exchange (client.createUrl shortName "logo")
    (client.getCompanyInfo libraries shortName = .ok (expected libraries quote logo) ↔
      HarmlessCall libraries quote logo) ∧
    (client.getCompanyInfoFor libraries shortName timeFrame = .ok (expected libraries chart logo) ↔
      HarmlessCall libraries chart logo) ∧
    (client.getCompanyInfoAt libraries shortName timeFrame date = .ok (expected libraries dated logo) ↔
      HarmlessCall libraries dated logo) := by
  intro quote chart dated logo
  refine ⟨?_, ?_, ?_⟩
  · exact getCompanyInfoOf_returns_iff libraries client shortName "quote"
  · exact getCompanyInfoOf_returns_iff libraries client shortName ("chart/" ++ timeFrame)
  · exact getCompanyInfoOf_returns_iff libraries client shortName ("chart/" ++ timeFrame ++ "/" ++ date)

/-- Libraries that read no body. -/
def unreadableLibraries : Libraries :=
  { curlEasyStrerror := fun _ => "Couldn't connect to server"
    readJson := fun _ => none
    toFloat := fun _ => none
    toInt64 := fun _ => none }

/-- A client whose server cannot be reached. -/
def unreachableClient : IEXClient :=
  { iexUrl := "https://sandbox.iexapis.com"
    iexTocken := "pk"
    exchange := fun _ => ⟨true, [], .couldntConnect, none⟩ }

/-- A server that cannot be reached makes the call throw. -/
theorem unreachable_server_throws :
    unreachableClient.getCompanyInfo unreadableLibraries "aapl" =
      .error (.network "Couldn't connect to server") := rfl

end Peakwork.Rpc.IEXClient
