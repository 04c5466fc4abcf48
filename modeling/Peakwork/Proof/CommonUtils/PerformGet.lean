/-
This file says what a request brings or throws.
-/

import Peakwork.Construction.CommonUtils.HTTPTransaction
import Peakwork.Library.Action

namespace Peakwork.CommonUtils

/-- The characters that the events bring for the body. -/
def CurlEvent.bodyPart : CurlEvent → List Char
  | .body data => data
  | .header _ => []
  | .upload _ _ => []

def Transfer.body (transfer : Transfer) : List Char := transfer.events.flatMap CurlEvent.bodyPart

namespace HTTPTransaction

variable (curlEasyStrerror : CurlCode → String) (transaction : HTTPTransaction) (transfer : Transfer)

/-- The transaction after the callbacks. -/
def moved : HTTPTransaction := transfer.events.foldl callback transaction

/-- The transaction after the headers have been parsed. -/
def finished (code : Int) : HTTPTransaction :=
  let moved := moved transaction transfer
  { ({ moved with response := { moved.response with statusCode := code } } : HTTPTransaction).parseResponseHeaders with
    completed := true }

/-- What `Perform` does on a transaction that is not completed. -/
theorem perform_run (fresh : transaction.completed = false) :
    (perform curlEasyStrerror transfer).run transaction =
      if transfer.status.isNetworkError then
        .error (.network (curlEasyStrerror transfer.status)) (moved transaction transfer)
      else if transfer.status.isCertificateError then
        .error (.certificate "HTTP operation failed, certificate is not valid") (moved transaction transfer)
      else if transfer.status ≠ .ok then
        .error (.http "CURLE_OK == transfer_status FAILED") (moved transaction transfer)
      else match transfer.responseCode with
        | some code => .ok () (finished transaction transfer code)
        | none => .error (.http ("CURLE_OK == curl_easy_getinfo(curl_handle, CURLINFO_RESPONSE_CODE, " ++
            "&httpTransaction.response.status_code) FAILED")) (moved transaction transfer) := by
  obtain ⟨request, response, size, headers, completed⟩ := transaction
  obtain ⟨events, status, responseCode⟩ := transfer
  cases fresh
  cases status
  case ok =>
    cases responseCode with
    | some code => rfl
    | none => rfl
  all_goals rfl

theorem perform_ok (fresh : transaction.completed = false) {code : Int} (ok : transfer.status = .ok)
    (response : transfer.responseCode = some code) :
    (perform curlEasyStrerror transfer).run transaction = .ok () (finished transaction transfer code) := by
  rw [perform_run curlEasyStrerror transaction transfer fresh, ok, response]
  rfl

/-- Either the transfer has succeeded and has a code, or `Perform` throws after the callbacks. -/
theorem perform_cases (fresh : transaction.completed = false) :
    (transfer.status = .ok ∧ ∃ code, transfer.responseCode = some code ∧
        (perform curlEasyStrerror transfer).run transaction = .ok () (finished transaction transfer code)) ∨
      ∃ thrown, (perform curlEasyStrerror transfer).run transaction = .error thrown (moved transaction transfer) := by
  have run := perform_run curlEasyStrerror transaction transfer fresh
  split at run
  · exact .inr ⟨_, run⟩
  · split at run
    · exact .inr ⟨_, run⟩
    · split at run
      · exact .inr ⟨_, run⟩
      · rename_i success
        have ok : transfer.status = .ok := not_not.mp success
        cases response : transfer.responseCode with
        | some code => exact .inl ⟨ok, code, rfl, perform_ok curlEasyStrerror transaction transfer fresh ok response⟩
        | none =>
            rw [response] at run
            exact .inr ⟨_, run⟩

/-- An upload changes the stream of the request only. -/
theorem read_frame (elementSize elementsCount : Nat) :
    ∃ request, (transaction.read elementSize elementsCount).2.2 = { transaction with request } := by
  unfold read
  split
  · exact ⟨transaction.request, rfl⟩
  · dsimp only
    split_ifs
    all_goals exact ⟨_, rfl⟩

theorem read_response (elementSize elementsCount : Nat) :
    (transaction.read elementSize elementsCount).2.2.response = transaction.response := by
  obtain ⟨request, same⟩ := transaction.read_frame elementSize elementsCount
  rw [same]

/-- A callback writes what it brings for the body into the sink. -/
theorem callback_sink (event : CurlEvent) :
    (transaction.callback event).response.data = transaction.response.data.map (·.write event.bodyPart) := by
  have unchanged : transaction.response.data.map (·.write []) = transaction.response.data := by
    simp [OStream.write_nil]
  cases event with
  | header data => exact unchanged.symm
  | body data => rfl
  | upload elementSize elementsCount =>
      rw [callback, read_response]
      exact unchanged.symm

theorem moved_sink :
    (moved transaction transfer).response.data = transaction.response.data.map (·.write transfer.body) := by
  obtain ⟨events, status, responseCode⟩ := transfer
  rw [moved, Transfer.body]
  induction events generalizing transaction with
  | nil => simp [OStream.write_nil]
  | cons event rest ih =>
      rw [List.foldl_cons, ih, callback_sink, Option.map_map, List.flatMap_cons]
      congr 1
      funext sink
      exact sink.write_append _ _

/-- The body of an exchange that succeeds with a code of success. -/
def Exchange.answer (exchange : Exchange) : Option (List Char) :=
  if exchange.initialized ∧ exchange.transfer.status = .ok ∧
      exchange.transfer.responseCode.any (fun code => 200 ≤ code ∧ code < 300) then
    some exchange.transfer.body
  else none

/-- The exchange ends in an error of the network or of a certificate. -/
def Exchange.escapes (exchange : Exchange) : Bool :=
  exchange.initialized &&
    (exchange.transfer.status.isNetworkError || exchange.transfer.status.isCertificateError)

/-- The transaction of a request, before its transfer. -/
def opened (url : String) : HTTPTransaction := construct { url } { data := some {} }

theorem performGet_error (url : String) {thrown : Thrown} {after : HTTPTransaction}
    (failed : (perform curlEasyStrerror transfer).run (opened url) = .error thrown after) :
    performGet curlEasyStrerror url ⟨true, transfer⟩ = .error thrown := by
  unfold opened at failed
  unfold performGet
  rw [if_pos rfl, failed]

/-- A code that is not one of success throws. -/
theorem performGet_code (url : String) (code : Int)
    (done : (perform curlEasyStrerror transfer).run (opened url) =
      .ok () (finished (opened url) transfer code)) :
    performGet curlEasyStrerror url ⟨true, transfer⟩ =
      if code < 200 ∨ code ≥ 300 then
        .error (.http ("server response is " ++ toString code ++ " " ++ String.ofList transfer.body))
      else .ok transfer.body := by
  have body := moved_sink (opened url) transfer
  have storage : (finished (opened url) transfer code).response.data = some { stored := transfer.body } := body
  unfold opened at done storage
  unfold performGet
  rw [if_pos rfl, done]
  dsimp only
  rw [storage]
  rfl

/-- An answer is returned. -/
theorem performGet_answer (url : String) {exchange : Exchange} {body : List Char}
    (answer : exchange.answer = some body) :
    performGet curlEasyStrerror url exchange = .ok body ∧ exchange.escapes = false := by
  obtain ⟨initialized, events, status, responseCode⟩ := exchange
  unfold Exchange.answer at answer
  split at answer
  · rename_i success
    obtain ⟨rfl, rfl, some_⟩ : initialized = true ∧ status = .ok ∧ _ := success
    cases answer
    cases responseCode with
    | none => cases some_
    | some code =>
        have inside : ¬ (code < 200 ∨ code ≥ 300) := by
          simp only [Option.any_some, decide_eq_true_eq] at some_
          omega
        refine ⟨?_, rfl⟩
        rw [performGet_code curlEasyStrerror _ url code (perform_run curlEasyStrerror (opened url) _ rfl),
          if_neg inside]
  · cases answer

/-- Without an answer an exception is thrown, and it is an `HTTPException` when nothing escapes. -/
theorem performGet_throws (url : String) {exchange : Exchange} (answer : exchange.answer = none) :
    ∃ thrown, performGet curlEasyStrerror url exchange = .error thrown ∧
      thrown.isHTTP = !exchange.escapes := by
  obtain ⟨initialized, transfer⟩ := exchange
  cases initialized with
  | false => exact ⟨_, rfl, rfl⟩
  | true =>
      have run := perform_run curlEasyStrerror (opened url) transfer rfl
      unfold Exchange.escapes
      split at run
      · rename_i network
        exact ⟨_, performGet_error curlEasyStrerror transfer url run, by simp [network, Thrown.isHTTP]⟩
      · rename_i network
        split at run
        · rename_i certificate
          exact ⟨_, performGet_error curlEasyStrerror transfer url run,
            by simp [certificate, Thrown.isHTTP]⟩
        · rename_i certificate
          split at run
          · exact ⟨_, performGet_error curlEasyStrerror transfer url run,
              by simp [network, certificate, Thrown.isHTTP]⟩
          · rename_i success
            have ok : transfer.status = .ok := not_not.mp success
            cases response : transfer.responseCode with
            | none =>
                rw [response] at run
                exact ⟨_, performGet_error curlEasyStrerror transfer url run,
                  by simp [network, certificate, Thrown.isHTTP]⟩
            | some code =>
                rw [response] at run
                have outside : code < 200 ∨ code ≥ 300 := by
                  simp [Exchange.answer, ok, response] at answer
                  omega
                refine ⟨_, (performGet_code curlEasyStrerror transfer url code run).trans (if_pos outside), ?_⟩
                simp [network, certificate, Thrown.isHTTP]

end HTTPTransaction

end Peakwork.CommonUtils
