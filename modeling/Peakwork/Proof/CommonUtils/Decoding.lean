/-
This file shows that a head is read as it was sent, wherever it is cut.
-/

import Peakwork.Proof.CommonUtils.Headers

namespace Peakwork.CommonUtils

open HTTPTransaction

/-- A field of a head; its name may hold blanks inside. -/
structure HeadField where
  name : List Char
  value : List Char
  named : name ≠ []
  noColon : ':' ∉ name
  nameLine : '\n' ∉ name
  nameBare : Bare name
  valueLine : '\n' ∉ value
  valueBare : Bare value

structure Head where
  status : List Char
  fields : List HeadField
  noColon : ':' ∉ status
  oneLine : '\n' ∉ status

namespace HeadField

variable (field : HeadField)

def text : List Char := field.name ++ [':', ' '] ++ field.value

def entry : List Char × List Char := (field.name, field.value)

end HeadField

namespace Head

variable (head : Head)

/-- The lines of the head without their ends. -/
def lines : List (List Char) := head.status :: head.fields.map HeadField.text ++ [[]]

def text : List Char :=
  head.status ++ ['\r', '\n'] ++ (head.fields.flatMap fun field => field.text ++ ['\r', '\n']) ++ ['\r', '\n']

/-- The first value of a name. -/
def valueOf (name : List Char) : Option (List Char) := (head.fields.map HeadField.entry).lookup name

theorem text_eq : head.text = (head.lines.map (· ++ ['\r', '\n'])).flatten := by
  simp [text, lines, List.flatMap, Function.comp_def]

theorem lines_oneLine : ∀ line ∈ head.lines, '\n' ∉ line := by
  intro line member
  unfold lines at member
  rcases List.mem_append.mp member with front | blank
  · rcases List.mem_cons.mp front with status | sent
    · rw [status]
      exact head.oneLine
    · obtain ⟨field, -, rfl⟩ := List.mem_map.mp sent
      simp [HeadField.text, field.nameLine, field.valueLine]
  · rw [List.mem_singleton.mp blank]
    exact List.not_mem_nil

end Head

theorem parseHeader_headField (headers : HTTPHeaders) (field : HeadField) :
    parseHeader headers (field.text ++ ['\r']) = emplace headers field.name field.value := by
  have shape : field.text ++ ['\r'] = field.name ++ ':' :: ([' '] ++ field.value ++ ['\r']) := by
    simp [HeadField.text]
  rw [shape, parseHeader_split headers _ _ field.noColon, trim_bare field.nameBare,
    trim_padded field.value (by simp [isTrimmed]) (by simp [isTrimmed]), trim_bare field.valueBare]

/-- The lines of a head bring its fields and nothing else. -/
theorem foldl_head (headers : HTTPHeaders) (head : Head) :
    (linesOf head.text).foldl parseHeader headers = emplaceAll headers (head.fields.map HeadField.entry) := by
  have shape : head.lines.map (· ++ ['\r']) =
      (head.status ++ ['\r']) :: ((head.fields.map fun field => field.text ++ ['\r']) ++ [['\r']]) := by
    simp [Head.lines, Function.comp_def]
  have status : ':' ∉ head.status ++ ['\r'] := by
    simp [head.noColon]
  rw [head.text_eq, linesOf_texts _ head.lines_oneLine, shape, List.foldl_cons, parseHeader_plain _ status,
    List.foldl_append, foldl_lines _ HeadField.entry parseHeader_headField, List.foldl_cons, List.foldl_nil,
    parseHeader_plain _ (by decide)]

/-- A name enters the map once. -/
theorem nodup_emplace {headers : HTTPHeaders} (nodup : (headers.map Prod.fst).Nodup) (name value : List Char) :
    ((emplace headers name value).map Prod.fst).Nodup := by
  unfold emplace
  split
  · exact nodup
  · rename_i absent
    rw [List.map_append, List.nodup_append']
    refine ⟨nodup, List.nodup_singleton _, ?_⟩
    intro key old new
    obtain ⟨pair, member, rfl⟩ := List.mem_map.mp old
    apply absent
    rw [List.any_eq_true]
    exact ⟨pair, member, decide_eq_true (List.mem_singleton.mp new)⟩

theorem nodup_emplaceAll (headers : HTTPHeaders) (nodup : (headers.map Prod.fst).Nodup) (pairs : HTTPHeaders) :
    ((emplaceAll headers pairs).map Prod.fst).Nodup := by
  induction pairs generalizing headers with
  | nil => exact nodup
  | cons pair rest ih => exact ih _ (nodup_emplace nodup pair.1 pair.2)

namespace HTTPTransaction

/-- The chunks are passed to the header callback one after the other. -/
def processChunks (transaction : HTTPTransaction) (chunks : List (List Char)) : HTTPTransaction :=
  chunks.foldl (fun transaction chunk => (transaction.processResponseHeaders chunk).2) transaction

theorem processChunks_eq (transaction : HTTPTransaction) (chunks : List (List Char)) :
    transaction.processChunks chunks = { transaction with
      responseHeadersData := transaction.responseHeadersData.write chunks.flatten } := by
  rw [← StringStream.foldl_write]
  unfold processChunks
  induction chunks generalizing transaction with
  | nil => rfl
  | cons chunk rest ih =>
      rw [List.foldl_cons, ih]
      rfl

end HTTPTransaction

/-- A head that is cut into any chunks is read as the map of the first values of its names. -/
theorem parseResponseHeaders_head (request : HTTPRequest) (data : Option OStream) (head : Head)
    (chunks : List (List Char)) (cut : chunks.flatten = head.text) :
    let headers := ((construct request { data }).processChunks chunks).parseResponseHeaders.response.headers
    (headers.map Prod.fst).Nodup ∧ ∀ name, headers.lookup name = head.valueOf name := by
  have read : ((construct request { data }).processChunks chunks).parseResponseHeaders.response.headers =
      emplaceAll [] (head.fields.map HeadField.entry) := by
    rw [processChunks_eq, cut]
    exact foldl_head [] head
  intro headers
  show (headers.map Prod.fst).Nodup ∧ _
  rw [show headers = _ from read]
  constructor
  · exact nodup_emplaceAll [] List.nodup_nil _
  · intro name
    exact lookup_emplaceAll [] _ name

def dateField : HeadField where
  name := ['D', 'a', 't', 'e']
  value := ['1', '0', ':', '3', '0']
  named := by simp
  noColon := by simp
  nameLine := by simp
  nameBare := ⟨by simp [isTrimmed], by simp [isTrimmed]⟩
  valueLine := by simp
  valueBare := ⟨by simp [isTrimmed], by simp [isTrimmed]⟩

def datedHead : Head where
  status := ['H', 'T', 'T', 'P', '/', '2', ' ', '2', '0', '0']
  fields := [dateField]
  noColon := by simp
  oneLine := by simp

/-- The head is cut between the two characters of a line end. -/
theorem parseResponseHeaders_head_example :
    let headers := ((construct { url := "/a" } { data := some {} }).processChunks
      [datedHead.text.take 11, datedHead.text.drop 11]).parseResponseHeaders.response.headers
    (headers.map Prod.fst).Nodup ∧ ∀ name, headers.lookup name = datedHead.valueOf name :=
  parseResponseHeaders_head { url := "/a" } (some {}) datedHead
    [datedHead.text.take 11, datedHead.text.drop 11] (by simp)

end Peakwork.CommonUtils
