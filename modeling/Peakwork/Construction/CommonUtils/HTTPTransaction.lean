/-
This file gives the transactions with a remote server.
-/

import Mathlib.Data.List.DropRight
import Peakwork.Library.Streams

namespace Peakwork.CommonUtils

/-- These are the exceptions behind a fetch; the JSON library and the tree throw the last three. -/
inductive Thrown where
  | network (what : String)
  | http (what : String)
  | certificate (what : String)
  | jsonParser
  | badPath
  | badData
  deriving DecidableEq, Repr

/-- `HTTPException` is a kind of `NetworkException`; a handler for it catches no other kind. -/
def Thrown.isHTTP : Thrown → Bool
  | .http _ => true
  | _ => false

/-- The results of a transfer that the transaction tells apart. -/
inductive CurlCode where
  | ok
  | recvError
  | sendError
  | couldntConnect
  | couldntResolveProxy
  | couldntResolveHost
  | operationTimedout
  | sslCertproblem
  | sslCipher
  | sslCacert
  | sslCacertBadfile
  | other (code : Nat)
  deriving DecidableEq, Repr

def CurlCode.isNetworkError (status : CurlCode) : Bool :=
  status = .recvError ∨ status = .sendError ∨ status = .couldntConnect ∨ status = .couldntResolveProxy ∨
    status = .couldntResolveHost ∨ status = .operationTimedout

def CurlCode.isCertificateError (status : CurlCode) : Bool :=
  status = .sslCertproblem ∨ status = .sslCipher ∨ status = .sslCacert ∨ status = .sslCacertBadfile

/-- A map keeps the first value of a name. -/
abbrev HTTPHeaders := List (List Char × List Char)

def emplace (headers : HTTPHeaders) (name value : List Char) : HTTPHeaders :=
  if headers.any (·.1 = name) then headers else headers ++ [(name, value)]

structure HTTPRequest where
  url : String
  data : Option IStream := none
  deriving DecidableEq, Repr

structure HTTPResponse where
  data : Option OStream
  headers : HTTPHeaders := []
  statusCode : Int := 204
  deriving DecidableEq, Repr

structure HTTPTransaction where
  request : HTTPRequest
  response : HTTPResponse
  uploadDataSize : Nat
  responseHeadersData : StringStream := {}
  completed : Bool := false
  deriving DecidableEq, Repr

/-- A callback of one transfer, with the characters that it brings or asks for. -/
inductive CurlEvent where
  | header (data : List Char)
  | body (data : List Char)
  | upload (elementSize elementsCount : Nat)
  deriving DecidableEq, Repr

/-- What happens in one `curl_easy_perform`; the code of the response may not be available. -/
structure Transfer where
  events : List CurlEvent
  status : CurlCode
  responseCode : Option Int
  deriving DecidableEq, Repr

namespace HTTPTransaction

variable (transaction : HTTPTransaction)

def calculateUploadDataSize (request : HTTPRequest) : HTTPRequest × Nat :=
  match request.data with
  | some data =>
      let data := data.seekEnd
      let size := data.tellg % 2 ^ 64
      ({ request with data := some data.seekBegin }, size.toNat)
  | none => (request, 0)

def construct (request : HTTPRequest) (response : HTTPResponse) : HTTPTransaction :=
  let counted := calculateUploadDataSize request
  { request := counted.1
    response
    uploadDataSize := counted.2 }

/-- The callback says how much it gave; the characters are those that it stored. -/
def read (elementSize elementsCount : Nat) : Nat × List Char × HTTPTransaction :=
  match transaction.request.data with
  | none => (0, [], transaction)
  | some data =>
      let maxDataSize := elementsCount * elementSize % 2 ^ 64
      let bytesLeft := ((transaction.uploadDataSize - data.tellg) % 2 ^ 64).toNat
      let readSize := if bytesLeft > maxDataSize then maxDataSize else bytesLeft
      if readSize ≠ 0 then
        let taken := data.read readSize
        (readSize, taken.1, { transaction with request := { transaction.request with data := some taken.2 } })
      else (readSize, [], transaction)

/-- All characters count as written. -/
def write (data : List Char) : Nat × HTTPTransaction :=
  (data.length, { transaction with response := { transaction.response with
    data := transaction.response.data.map (·.write data) } })

def processResponseHeaders (data : List Char) : Nat × HTTPTransaction :=
  (data.length, { transaction with responseHeadersData := transaction.responseHeadersData.write data })

def isTrimmed (c : Char) : Bool := c = ' ' ∨ c = '\r'

def trim (text : List Char) : List Char := (text.dropWhile isTrimmed).rdropWhile isTrimmed

/-- A line without a colon is no header. -/
def parseHeader (headers : HTTPHeaders) (header : List Char) : HTTPHeaders :=
  if ':' ∈ header then
    emplace headers (trim (header.takeWhile (· ≠ ':'))) (trim ((header.dropWhile (· ≠ ':')).drop 1))
  else headers

def parseResponseHeaders : HTTPTransaction :=
  let read := transaction.responseHeadersData.getlines
  { transaction with
    responseHeadersData := read.2
    response := { transaction.response with headers := read.1.foldl parseHeader transaction.response.headers } }

def callback (transaction : HTTPTransaction) : CurlEvent → HTTPTransaction
  | .header data => (transaction.processResponseHeaders data).2
  | .body data => (transaction.write data).2
  | .upload elementSize elementsCount => (transaction.read elementSize elementsCount).2.2

abbrev Performing := EStateM Thrown HTTPTransaction

variable (curlEasyStrerror : CurlCode → String)

def assertThrowHTTPSucceed (condition : Bool) (text : String) : Performing Unit :=
  if condition then pure () else throw (.http (text ++ " FAILED"))

def verifyThrowNetworkError (status : CurlCode) : Performing Unit :=
  if status.isNetworkError then throw (.network (curlEasyStrerror status)) else pure ()

def verifyThrowSSLCertValid (status : CurlCode) : Performing Unit :=
  if status.isCertificateError then throw (.certificate (curlEasyStrerror status)) else pure ()

def setStatusCode : Option Int → Performing Unit
  | some code => modify fun transaction =>
      { transaction with response := { transaction.response with statusCode := code } }
  | none => throw (.http ("CURLE_OK == curl_easy_getinfo(curl_handle, CURLINFO_RESPONSE_CODE, " ++
      "&httpTransaction.response.status_code) FAILED"))

/-- The block of `Perform` that its handlers guard. -/
def performTransfer (transfer : Transfer) : Performing Unit := do
  if (← get).completed then
    throw (.http "!completed Inapplicable operation: transaction completed!")
  modify fun transaction => transfer.events.foldl callback transaction
  if transfer.status ≠ .ok then
    verifyThrowNetworkError curlEasyStrerror transfer.status
    verifyThrowSSLCertValid curlEasyStrerror transfer.status
    assertThrowHTTPSucceed (transfer.status = .ok) "CURLE_OK == transfer_status"
  setStatusCode transfer.responseCode
  modify parseResponseHeaders
  modify fun transaction => { transaction with completed := true }

def perform (transfer : Transfer) : Performing Unit :=
  tryCatch (performTransfer curlEasyStrerror transfer) fun thrown =>
    match thrown with
    | .certificate _ => throw (.certificate "HTTP operation failed, certificate is not valid")
    | .network what => throw (.network what)
    | .http what => throw (.http what)
    | _ => throw (.http "HTTP operation failed")

/-- An exchange may end before its transfer, when the connection is not initialized. -/
structure Exchange where
  initialized : Bool
  transfer : Transfer
  deriving DecidableEq, Repr

def performGet (url : String) (exchange : Exchange) : Except Thrown (List Char) :=
  if exchange.initialized then
    match (perform curlEasyStrerror exchange.transfer).run (construct { url } { data := some {} }) with
    | .error thrown _ => .error thrown
    | .ok _ transaction =>
        let storage := (transaction.response.data.map OStream.stored).getD []
        let code := transaction.response.statusCode
        if code < 200 ∨ code ≥ 300 then
          .error (.http ("server response is " ++ toString code ++ " " ++ String.ofList storage))
        else .ok storage
  else .error (.http "HTTP transaction initialization failed")

end HTTPTransaction

end Peakwork.CommonUtils
