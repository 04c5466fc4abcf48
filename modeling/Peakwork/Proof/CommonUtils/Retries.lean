/-
This file decides when a transaction that is performed again is as good as a fresh one.
-/

import Peakwork.Proof.CommonUtils.Downloads
import Peakwork.Proof.CommonUtils.Headers
import Peakwork.Proof.CommonUtils.Uploads

namespace Peakwork.CommonUtils

/-- The calls of the upload callback in a transfer. -/
def CurlEvent.uploadCall : CurlEvent → Option (Nat × Nat)
  | .upload elementSize elementsCount => some (elementSize, elementsCount)
  | .header _ => none
  | .body _ => none

def Transfer.uploads (transfer : Transfer) : List (Nat × Nat) := transfer.events.filterMap CurlEvent.uploadCall

/-- The pair that a line brings. -/
def headerPair (line : List Char) : Option (List Char × List Char) :=
  if ':' ∈ line then
    some (HTTPTransaction.trim (line.takeWhile (· ≠ ':')), HTTPTransaction.trim ((line.dropWhile (· ≠ ':')).drop 1))
  else none

/-- The pairs that the lines of a text bring, in order. -/
def headerPairs (text : List Char) : HTTPHeaders := (linesOf text).filterMap headerPair

theorem foldl_parseHeader_eq (headers : HTTPHeaders) (lines : List (List Char)) :
    lines.foldl HTTPTransaction.parseHeader headers = emplaceAll headers (lines.filterMap headerPair) := by
  induction lines generalizing headers with
  | nil => rfl
  | cons line rest ih =>
      rw [List.foldl_cons, ih, List.filterMap_cons]
      by_cases colon : ':' ∈ line
      · rw [headerPair, if_pos colon, HTTPTransaction.parseHeader, if_pos colon]
        rfl
      · rw [headerPair, if_neg colon, parseHeader_plain headers colon]

namespace HTTPTransaction

/-- The characters that the upload callback stores while the events happen. -/
def offered (transaction : HTTPTransaction) : List CurlEvent → List Char
  | [] => []
  | event :: rest =>
      (match event with
        | .upload elementSize elementsCount => (transaction.read elementSize elementsCount).2.1
        | .header _ => []
        | .body _ => []) ++ offered (transaction.callback event) rest

variable (curlEasyStrerror : CurlCode → String)

/-- The transaction after a call of `Perform`, whether it has returned or thrown. -/
def afterPerform (transaction : HTTPTransaction) (transfer : Transfer) : HTTPTransaction :=
  match (perform curlEasyStrerror transfer).run transaction with
  | .ok _ after => after
  | .error _ after => after

def Fails (transaction : HTTPTransaction) (transfer : Transfer) : Prop :=
  ∃ thrown after, (perform curlEasyStrerror transfer).run transaction = .error thrown after

/-- The data of the request, from its first character. -/
def requestData (request : HTTPRequest) : List Char := (request.data.map IStream.content).getD []

/-- The success after the failed attempts leaves what it leaves in a fresh transaction, and its upload
starts with the first character and ends with the last one. -/
structure RetryIsFresh (request : HTTPRequest) (response : HTTPResponse) (failed : List Transfer)
    (last : Transfer) (after : HTTPTransaction) : Prop where
  fresh : ∃ fresh, (perform curlEasyStrerror last).run (construct request response) = .ok () fresh ∧
    (∀ name, after.response.headers.lookup name = fresh.response.headers.lookup name) ∧
    after.response.data.map OStream.stored = fresh.response.data.map OStream.stored
  upload : (play (afterPerform curlEasyStrerror) (construct request response) failed).offered last.events =
    requestData request

/-- The callbacks of the failed attempts have brought nothing that shows in the last one. -/
structure LeftNothing (request : HTTPRequest) (response : HTTPResponse) (failed : List Transfer)
    (last : Transfer) : Prop where
  headers : ∀ name, response.headers.lookup name = none →
    (headerPairs (failed.flatMap Transfer.headerText ++ last.headerText)).lookup name =
      (headerPairs last.headerText).lookup name
  body : ∀ sink ∈ response.data, sink.kept (failed.flatMap Transfer.body ++ last.body) = sink.kept last.body
  upload : ∀ data ∈ request.data, data.content = [] ∨
    (data.failed = false ∧ data.content.length < 2 ^ 64 ∧ requestedAll (failed.flatMap Transfer.uploads) = 0 ∧
      data.content.length ≤ requestedAll last.uploads)

section Attempts

variable {curlEasyStrerror} {transaction : HTTPTransaction}

theorem callback_completed (event : CurlEvent) : (transaction.callback event).completed = transaction.completed := by
  cases event with
  | header data => rfl
  | body data => rfl
  | upload elementSize elementsCount =>
      obtain ⟨request, same⟩ := transaction.read_frame elementSize elementsCount
      show (transaction.read elementSize elementsCount).2.2.completed = _
      rw [same]

theorem moved_completed (transfer : Transfer) : (moved transaction transfer).completed = transaction.completed := by
  obtain ⟨events, status, responseCode⟩ := transfer
  unfold moved
  induction events generalizing transaction with
  | nil => rfl
  | cons event rest ih => rw [List.foldl_cons, ih, callback_completed]

/-- An attempt that fails leaves what its callbacks have done. -/
theorem afterPerform_fails (fresh : transaction.completed = false) {transfer : Transfer}
    (fails : Fails curlEasyStrerror transaction transfer) :
    transaction.afterPerform curlEasyStrerror transfer = moved transaction transfer := by
  obtain ⟨thrown, after, failed⟩ := fails
  unfold afterPerform
  rcases perform_cases curlEasyStrerror transaction transfer fresh with ⟨_, code, _, run⟩ | ⟨_, run⟩
  · rw [failed] at run
    cases run
  · rw [run]

/-- An attempt that succeeds has parsed the headers; the code is the one of its response. -/
theorem finished_of_ok (fresh : transaction.completed = false) {transfer : Transfer} {after : HTTPTransaction}
    (succeeds : (perform curlEasyStrerror transfer).run transaction = .ok () after) :
    ∃ code, after = finished transaction transfer code ∧
      ∀ other : HTTPTransaction, other.completed = false →
        (perform curlEasyStrerror transfer).run other = .ok () (finished other transfer code) := by
  rcases perform_cases curlEasyStrerror transaction transfer fresh with ⟨ok, code, response, run⟩ | ⟨_, run⟩
  · rw [run] at succeeds
    cases succeeds
    exact ⟨code, rfl, fun other unfinished => perform_ok curlEasyStrerror other transfer unfinished ok response⟩
  · rw [run] at succeeds
    cases succeeds

/-- The events of several transfers are those of one. -/
def together (transfers : List Transfer) : Transfer := ⟨transfers.flatMap Transfer.events, .ok, none⟩

theorem moved_moved (first second : Transfer) :
    moved (moved transaction first) second = moved transaction ⟨first.events ++ second.events, .ok, none⟩ := by
  unfold moved
  rw [List.foldl_append]

theorem play_afterPerform (fresh : transaction.completed = false) {failed : List Transfer}
    (fail : StepsMeet (afterPerform curlEasyStrerror) (Fails curlEasyStrerror) transaction failed) :
    play (afterPerform curlEasyStrerror) transaction failed = moved transaction (together failed) := by
  induction failed generalizing transaction with
  | nil => rfl
  | cons transfer rest ih =>
      obtain ⟨first, later⟩ := fail
      have next := afterPerform_fails fresh first
      rw [next] at later
      rw [play_cons, next, ih ((moved_completed transfer).trans fresh) later, moved_moved]
      rfl

end Attempts

section Together

variable (failed : List Transfer)

theorem headerText_together : (together failed).headerText = failed.flatMap Transfer.headerText := by
  induction failed with
  | nil => rfl
  | cons transfer rest ih =>
      rw [List.flatMap_cons, ← ih]
      simp [Transfer.headerText, together]

theorem body_together : (together failed).body = failed.flatMap Transfer.body := List.flatMap_assoc

theorem uploads_together : (together failed).uploads = failed.flatMap Transfer.uploads := List.filterMap_flatMap

end Together

section Upload

variable {transaction other : HTTPTransaction}

/-- What a call stores depends on the stream and the size of its data. -/
theorem read_same (same : transaction.request = other.request) (size : transaction.uploadDataSize = other.uploadDataSize)
    (elementSize elementsCount : Nat) :
    (transaction.read elementSize elementsCount).2.1 = (other.read elementSize elementsCount).2.1 ∧
      (transaction.read elementSize elementsCount).2.2.request = (other.read elementSize elementsCount).2.2.request ∧
      (transaction.read elementSize elementsCount).2.2.uploadDataSize =
        (other.read elementSize elementsCount).2.2.uploadDataSize := by
  obtain ⟨request, response, count, headersData, completed⟩ := transaction
  obtain ⟨otherRequest, otherResponse, otherCount, otherHeadersData, otherCompleted⟩ := other
  cases same
  cases size
  unfold read
  cases request.data with
  | none => exact ⟨rfl, rfl, rfl⟩
  | some data =>
      dsimp only
      split_ifs
      all_goals exact ⟨rfl, rfl, rfl⟩

/-- The other callbacks do not change what an upload offers. -/
theorem offered_eq (events : List CurlEvent) (same : transaction.request = other.request)
    (size : transaction.uploadDataSize = other.uploadDataSize) :
    transaction.offered events = other.delivered (events.filterMap CurlEvent.uploadCall) ∧
      (events.foldl callback transaction).request =
        (play afterRead other (events.filterMap CurlEvent.uploadCall)).request ∧
      (events.foldl callback transaction).uploadDataSize =
        (play afterRead other (events.filterMap CurlEvent.uploadCall)).uploadDataSize := by
  induction events generalizing transaction other with
  | nil => exact ⟨rfl, same, size⟩
  | cons event rest ih =>
      cases event with
      | header data => exact ih same size
      | body data => exact ih same size
      | upload elementSize elementsCount =>
          obtain ⟨first, request, count⟩ := read_same same size elementSize elementsCount
          obtain ⟨later, last⟩ := ih request count
          refine ⟨?_, last⟩
          rw [offered, List.filterMap_cons_some (f := CurlEvent.uploadCall) rfl, delivered]
          exact congrArg₂ _ first later

/-- A stream that gives nothing stays as it is. -/
theorem delivered_silent (silent : ∀ elementSize elementsCount,
      transaction.read elementSize elementsCount = (0, [], transaction)) (calls : List (Nat × Nat)) :
    transaction.delivered calls = [] ∧ play afterRead transaction calls = transaction := by
  induction calls with
  | nil => exact ⟨rfl, rfl⟩
  | cons call rest ih =>
      have stays : transaction.afterRead call = transaction := by
        unfold afterRead
        rw [silent]
      rw [delivered, play_cons, stays, silent]
      exact ih

/-- A stream that has failed gives nothing. -/
theorem read_broken {content : List Char} {position : Nat}
    (broken : transaction.request.data = some { content, position, failed := true })
    (size : transaction.uploadDataSize = 2 ^ 64 - 1) (elementSize elementsCount : Nat) :
    transaction.read elementSize elementsCount = (0, [], transaction) := by
  have left : (((transaction.uploadDataSize : Int) - IStream.tellg { content, position, failed := true }) % 2 ^ 64).toNat = 0 := by
    rw [size]
    rfl
  unfold read
  rw [broken]
  simp only [left]
  simp

/-- All data comes in the later calls exactly when there is none, or the earlier calls ask for nothing and
the later ones for all of it. -/
theorem delivered_whole_iff {content : List Char} (uploading : Uploading content 0 transaction)
    (earlier later : List (Nat × Nat)) :
    (play afterRead transaction earlier).delivered later = content ↔
      content = [] ∨ (content.length < 2 ^ 64 ∧ requestedAll earlier = 0 ∧ content.length ≤ requestedAll later) := by
  obtain ⟨-, moved⟩ := delivered_uploading uploading earlier
  obtain ⟨sent, -⟩ := delivered_uploading moved later
  have first : bytesLeft content 0 = content.length % 2 ^ 64 := rfl
  rw [sent]
  generalize place : 0 + min (requestedAll earlier) (bytesLeft content 0) = position
  have bound := bytesLeft_le content position
  have left : bytesLeft content position = (content.length - position) % 2 ^ 64 := rfl
  constructor
  · intro whole
    by_cases empty : content = []
    · exact .inl empty
    · right
      have long := List.length_pos_of_ne_nil empty
      have lengths := congrArg List.length whole
      rw [List.length_take, List.length_drop] at lengths
      omega
  · rintro (rfl | ⟨small, unread, asked⟩)
    · simp
    · have start : position = 0 := by omega
      have enough : content.length ≤ min (requestedAll later) (bytesLeft content position) := by omega
      rw [start, List.drop_zero, List.take_of_length_le (start ▸ enough)]

end Upload

/-- The upload after the failed attempts is whole exactly when they have left the data. -/
theorem offered_whole_iff (request : HTTPRequest) (response : HTTPResponse) (failed : List Transfer) (last : Transfer) :
    (moved (construct request response) (together failed)).offered last.events = requestData request ↔
      ∀ data ∈ request.data, data.content = [] ∨
        (data.failed = false ∧ data.content.length < 2 ^ 64 ∧ requestedAll (failed.flatMap Transfer.uploads) = 0 ∧
          data.content.length ≤ requestedAll last.uploads) := by
  obtain ⟨-, read, count⟩ := @offered_eq _ (construct request response) (together failed).events rfl rfl
  obtain ⟨offers, -⟩ := offered_eq last.events read count
  have calls : (together failed).events.filterMap CurlEvent.uploadCall = failed.flatMap Transfer.uploads :=
    uploads_together failed
  rw [moved, offers, calls]
  obtain ⟨url, data⟩ := request
  cases data with
  | none =>
      have silent (elementSize elementsCount : Nat) : (construct { url } response).read elementSize elementsCount =
          (0, [], construct { url } response) := rfl
      obtain ⟨-, stays⟩ := delivered_silent silent (failed.flatMap Transfer.uploads)
      rw [stays, (delivered_silent silent _).1]
      exact iff_of_true rfl fun data member => absurd member (Option.not_mem_none data)
  | some data =>
      obtain ⟨content, position, broken⟩ := data
      cases broken with
      | true =>
          have stream : (construct { url, data := some { content, position, failed := true } } response).request.data =
              some { content, position, failed := true } := rfl
          have size : (construct { url, data := some { content, position, failed := true } } response).uploadDataSize =
              2 ^ 64 - 1 := rfl
          have silent := read_broken stream size
          obtain ⟨-, stays⟩ := delivered_silent silent (failed.flatMap Transfer.uploads)
          rw [stays, (delivered_silent silent _).1]
          constructor
          · intro empty data member
            cases member
            exact .inl empty.symm
          · intro condition
            rcases condition _ rfl with empty | ⟨good, -⟩
            · exact empty.symm
            · cases good
      | false =>
          have uploading : Uploading content 0 (construct { url, data := some { content, position } } response) :=
            uploading_construct { url } response content position
          apply (delivered_whole_iff uploading (failed.flatMap Transfer.uploads) last.uploads).trans
          constructor
          · intro condition data member
            cases member
            exact condition.imp_right fun asked => ⟨rfl, asked⟩
          · intro condition
            exact (condition _ rfl).imp_right And.right

/-- The headers after a success are the pairs of all heads, behind those of the start. -/
theorem finished_headers (request : HTTPRequest) (response : HTTPResponse) (failed : List Transfer) (last : Transfer)
    (code : Int) (name : List Char) :
    (finished (moved (construct request response) (together failed)) last code).response.headers.lookup name =
      (response.headers.lookup name).or
        ((headerPairs (failed.flatMap Transfer.headerText ++ last.headerText)).lookup name) := by
  obtain ⟨collected, headers⟩ := moved_headers (construct request response) (together failed)
  obtain ⟨all, unchanged⟩ := moved_headers (moved (construct request response) (together failed)) last
  rw [collected, StringStream.write_append, headerText_together] at all
  show (((moved (moved (construct request response) (together failed)) last).responseHeadersData.getlines.1).foldl
    parseHeader (moved (moved (construct request response) (together failed)) last).response.headers).lookup name = _
  rw [all, unchanged, headers, foldl_parseHeader_eq, lookup_emplaceAll]
  rfl

/-- The sink after a success has what it keeps of all bodies. -/
theorem finished_stored (request : HTTPRequest) (response : HTTPResponse) (failed : List Transfer) (last : Transfer)
    (code : Int) :
    (finished (moved (construct request response) (together failed)) last code).response.data.map OStream.stored =
      response.data.map fun sink => sink.stored ++ sink.kept (failed.flatMap Transfer.body ++ last.body) := by
  show (moved (moved (construct request response) (together failed)) last).response.data.map OStream.stored = _
  rw [moved_sink, moved_sink, body_together, Option.map_map, Option.map_map]
  show response.data.map _ = _
  congr 1
  funext sink
  show ((sink.write _).write _).stored = _
  rw [sink.write_append, sink.write_stored]

/-- The value of a field is that of a fresh transfer unless the heads of the failed attempts change it. -/
theorem retry_headers_iff (request : HTTPRequest) (response : HTTPResponse) (failed : List Transfer) (last : Transfer)
    (code : Int) (name : List Char) :
    (finished (moved (construct request response) (together failed)) last code).response.headers.lookup name =
        (finished (construct request response) last code).response.headers.lookup name ↔
      (response.headers.lookup name = none →
        (headerPairs (failed.flatMap Transfer.headerText ++ last.headerText)).lookup name =
          (headerPairs last.headerText).lookup name) := by
  have fresh : (finished (construct request response) last code).response.headers.lookup name =
      (response.headers.lookup name).or ((headerPairs last.headerText).lookup name) :=
    finished_headers request response [] last code name
  rw [finished_headers, fresh]
  cases response.headers.lookup name with
  | none => simp
  | some value => simp

/-- The sink has what a fresh transfer leaves unless it keeps some of the failed attempts. -/
theorem retry_stored_iff (request : HTTPRequest) (response : HTTPResponse) (failed : List Transfer) (last : Transfer)
    (code : Int) :
    (finished (moved (construct request response) (together failed)) last code).response.data.map OStream.stored =
        (finished (construct request response) last code).response.data.map OStream.stored ↔
      ∀ sink ∈ response.data, sink.kept (failed.flatMap Transfer.body ++ last.body) = sink.kept last.body := by
  have fresh : (finished (construct request response) last code).response.data.map OStream.stored =
      response.data.map fun sink => sink.stored ++ sink.kept last.body :=
    finished_stored request response [] last code
  rw [finished_stored, fresh]
  cases response.data with
  | none => simp
  | some sink => simp

/-- A success after failed attempts is as good as a fresh one exactly when they have left nothing. -/
theorem retryIsFresh_iff (request : HTTPRequest) (response : HTTPResponse) (failed : List Transfer) (last : Transfer)
    (fail : StepsMeet (afterPerform curlEasyStrerror) (Fails curlEasyStrerror) (construct request response) failed)
    (after : HTTPTransaction)
    (succeeds : (perform curlEasyStrerror last).run
      (play (afterPerform curlEasyStrerror) (construct request response) failed) = .ok () after) :
    RetryIsFresh curlEasyStrerror request response failed last after ↔ LeftNothing request response failed last := by
  have reached := play_afterPerform rfl fail
  rw [reached] at succeeds
  obtain ⟨code, rfl, always⟩ := finished_of_ok (moved_completed _) succeeds
  have alone := always (construct request response) rfl
  have headers := retry_headers_iff request response failed last code
  have body := retry_stored_iff request response failed last code
  constructor
  · rintro ⟨⟨fresh, ran, sameHeaders, sameBody⟩, upload⟩
    rw [alone] at ran
    cases ran
    rw [reached, offered_whole_iff] at upload
    exact ⟨fun name => (headers name).mp (sameHeaders name), body.mp sameBody, upload⟩
  · rintro ⟨noHeaders, noBody, unread⟩
    refine ⟨⟨_, alone, fun name => (headers name).mpr (noHeaders name), body.mpr noBody⟩, ?_⟩
    rw [reached, offered_whole_iff]
    exact unread

/-- The server sends a part of the body, and then the connection breaks. -/
def brokenOff : Transfer := ⟨[.body ['x']], .recvError, none⟩

def wholeBody : Transfer := ⟨[.body ['x', 'y']], .ok, some 200⟩

theorem brokenOff_fails : StepsMeet (afterPerform fun _ => "") (Fails fun _ => "") (opened "/a") [brokenOff] :=
  ⟨⟨_, _, perform_run (fun _ => "") (opened "/a") brokenOff rfl⟩, trivial⟩

theorem wholeBody_succeeds : (perform (fun _ => "") wholeBody).run
    (play (afterPerform fun _ => "") (opened "/a") [brokenOff]) =
      .ok () (finished (moved (opened "/a") brokenOff) wholeBody 200) := by
  have reached := play_afterPerform rfl brokenOff_fails
  rw [reached]
  exact perform_run (fun _ => "") (moved (opened "/a") (together [brokenOff])) wholeBody rfl

theorem retryIsFresh_iff_example :
    RetryIsFresh (fun _ => "") { url := "/a" } { data := some {} } [brokenOff] wholeBody
        (finished (moved (opened "/a") brokenOff) wholeBody 200) ↔
      LeftNothing { url := "/a" } { data := some {} } [brokenOff] wholeBody :=
  retryIsFresh_iff (fun _ => "") { url := "/a" } { data := some {} } [brokenOff] wholeBody brokenOff_fails _
    wholeBody_succeeds

/-- The part of the body stays in front of the whole one. -/
theorem broken_part_stays : ∃ after, StepsMeet (afterPerform fun _ => "") (Fails fun _ => "") (opened "/a") [brokenOff] ∧
    (perform (fun _ => "") wholeBody).run (play (afterPerform fun _ => "") (opened "/a") [brokenOff]) = .ok () after ∧
    ¬ RetryIsFresh (fun _ => "") { url := "/a" } { data := some {} } [brokenOff] wholeBody after := by
  refine ⟨_, brokenOff_fails, wholeBody_succeeds, fun retried => ?_⟩
  obtain ⟨fresh, ran, -, body⟩ := retried.fresh
  rw [show (perform (fun _ => "") wholeBody).run (construct { url := "/a" } { data := some {} }) =
    .ok () (finished (opened "/a") wholeBody 200) from perform_run (fun _ => "") (opened "/a") wholeBody rfl] at ran
  cases ran
  exact absurd body (by decide)

end HTTPTransaction

end Peakwork.CommonUtils
