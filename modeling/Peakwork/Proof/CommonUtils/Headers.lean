/-
This file decides when the headers of a transaction are those of its last response.
-/

import Peakwork.Proof.CommonUtils.PerformGet

namespace Peakwork.CommonUtils

open HTTPTransaction

/-- A field as it is sent: its name is a token, and blanks may stand around its value. -/
structure Field where
  name : List Char
  value : List Char
  before : Nat
  after : Nat
  token : ∀ c ∈ name, c ≠ ':' ∧ c ≠ '/' ∧ c ≠ '\n' ∧ isTrimmed c = false
  oneLine : '\n' ∉ value
  trimmed : trim value = value

/-- The status line is given without its leading `HTTP/`. -/
structure Response where
  status : List Char
  fields : List Field
  oneLine : '\n' ∉ status

namespace Field

variable (field : Field)

def text : List Char :=
  field.name ++ ':' :: (List.replicate field.before ' ' ++ field.value ++ List.replicate field.after ' ')

def entry : List Char × List Char := (field.name, field.value)

end Field

namespace Response

variable (response : Response)

def statusLine : List Char := ['H', 'T', 'T', 'P', '/'] ++ response.status

/-- The lines of the head, without their ends; the last one is blank. -/
def texts : List (List Char) := response.statusLine :: response.fields.map Field.text ++ [[]]

/-- The lines as they are passed to the header callback. -/
def lines : List (List Char) := response.texts.map (· ++ ['\r', '\n'])

def entries : HTTPHeaders := response.fields.map Field.entry

/-- The first value of a field. -/
def valueOf (name : List Char) : Option (List Char) := response.entries.lookup name

end Response

/-- The first value of a field in any of the responses. -/
def firstValue (chain : List Response) (name : List Char) : Option (List Char) :=
  (chain.flatMap Response.entries).lookup name

/-- The line that an event passes to the header callback. -/
def CurlEvent.headerLine : CurlEvent → Option (List Char)
  | .header data => some data
  | .body _ => none
  | .upload _ _ => none

/-- A chain of responses has arrived when its lines have been passed in order. -/
def Transfer.Receives (transfer : Transfer) (chain : List Response) : Prop :=
  transfer.events.filterMap CurlEvent.headerLine = chain.flatMap Response.lines

section Trim

theorem trim_padded {before after : List Char} (text : List Char) (left : ∀ c ∈ before, isTrimmed c)
    (right : ∀ c ∈ after, isTrimmed c) : trim (before ++ text ++ after) = trim text := by
  unfold trim
  rw [List.append_assoc, List.dropWhile_append_of_pos left, List.dropWhile_append]
  have ends (front : List Char) : (front ++ after).rdropWhile isTrimmed = front.rdropWhile isTrimmed := by
    have backwards : ∀ c ∈ after.reverse, isTrimmed c := fun c member => right c (List.mem_reverse.mp member)
    rw [List.rdropWhile, List.reverse_append, List.dropWhile_append_of_pos backwards, List.rdropWhile]
  split
  · rename_i blank
    rw [List.isEmpty_iff.mp blank, List.dropWhile_eq_nil_iff.mpr right]
  · exact ends _

/-- What is not trimmed stays. -/
theorem mem_trim {text : List Char} {c : Char} (member : c ∈ text) (kept : isTrimmed c = false) : c ∈ trim text := by
  have stays {other : List Char} (inside : c ∈ other) : c ∈ other.dropWhile isTrimmed := by
    rw [← List.takeWhile_append_dropWhile (p := isTrimmed) (l := other)] at inside
    rcases List.mem_append.mp inside with taken | dropped
    · have impossible := List.mem_takeWhile_imp taken
      rw [kept] at impossible
      cases impossible
    · exact dropped
  unfold trim List.rdropWhile
  rw [List.mem_reverse]
  exact stays (List.mem_reverse.mpr (stays member))

/-- Neither end of the text is a blank. -/
def Bare (text : List Char) : Prop :=
  (∀ c ∈ text.head?, isTrimmed c = false) ∧ ∀ c ∈ text.getLast?, isTrimmed c = false

theorem trim_bare {text : List Char} (bare : Bare text) : trim text = text := by
  have first : text.dropWhile isTrimmed = text := by
    cases text with
    | nil => rfl
    | cons c rest => rw [List.dropWhile_cons_of_neg (by simp [bare.1 c rfl])]
  rw [trim, first, List.rdropWhile_eq_self_iff]
  intro some_
  simp [bare.2 _ (List.getLast?_eq_some_getLast some_)]

theorem trim_plain {text : List Char} (plain : ∀ c ∈ text, isTrimmed c = false) : trim text = text :=
  trim_bare ⟨fun c first => plain c (List.mem_of_head? first), fun c last => plain c (List.mem_of_getLast? last)⟩

end Trim

/-- Pairs enter the map in order. -/
def emplaceAll (headers pairs : HTTPHeaders) : HTTPHeaders :=
  pairs.foldl (fun headers pair => emplace headers pair.1 pair.2) headers

theorem lookup_emplace (headers : HTTPHeaders) (name value other : List Char) :
    (emplace headers name value).lookup other =
      (headers.lookup other).or (if other = name then some value else none) := by
  have added : (headers ++ [(name, value)]).lookup other =
      (headers.lookup other).or (if other = name then some value else none) := by
    rw [List.lookup_append]
    congr 1
    by_cases same : other = name
    · simp [same]
    · simp [List.lookup_cons, same, beq_false_of_ne same]
  unfold emplace
  split
  · rename_i present
    by_cases same : other = name
    · subst same
      have found : (headers.lookup other).isSome := by
        rw [Option.isSome_iff_ne_none, ne_eq, List.lookup_eq_none_iff]
        obtain ⟨pair, member, key⟩ := List.any_eq_true.mp present
        intro absent
        have differs := absent pair member
        simp_all
      rw [Option.or_of_isSome found]
    · simp [same]
  · exact added

/-- The first pair of a name wins. -/
theorem lookup_emplaceAll (headers pairs : HTTPHeaders) (name : List Char) :
    (emplaceAll headers pairs).lookup name = (headers.lookup name).or (pairs.lookup name) := by
  induction pairs generalizing headers with
  | nil => exact Option.or_none.symm
  | cons pair rest ih =>
      obtain ⟨key, value⟩ := pair
      have first : ((key, value) :: rest).lookup name =
          (if name = key then some value else none).or (rest.lookup name) := by
        by_cases same : name = key
        · simp [same]
        · simp [List.lookup_cons, same, beq_false_of_ne same]
      change (emplaceAll (emplace headers key value) rest).lookup name = _
      rw [ih, lookup_emplace, first, Option.or_assoc]

/-- The first colon of a line ends its name. -/
theorem parseHeader_split (headers : HTTPHeaders) (name rest : List Char) (noColon : ':' ∉ name) :
    parseHeader headers (name ++ ':' :: rest) = emplace headers (trim name) (trim rest) := by
  have plain : ∀ c ∈ name, decide (c ≠ ':') = true := by
    intro c member
    apply decide_eq_true
    rintro rfl
    exact noColon member
  have before : (name ++ ':' :: rest).takeWhile (· ≠ ':') = name := by
    rw [List.takeWhile_append_of_pos plain, List.takeWhile_cons_of_neg (by decide), List.append_nil]
  have after : ((name ++ ':' :: rest).dropWhile (· ≠ ':')).drop 1 = rest := by
    rw [List.dropWhile_append_of_pos plain, List.dropWhile_cons_of_neg (by decide)]
    rfl
  unfold parseHeader
  rw [if_pos (by simp), before, after]

/-- A field is read as it was meant. -/
theorem parseHeader_field (headers : HTTPHeaders) (field : Field) :
    parseHeader headers (field.text ++ ['\r']) = emplace headers field.name field.value := by
  have noColon : ':' ∉ field.name := fun member => (field.token ':' member).1 rfl
  have blank (count : Nat) : ∀ c ∈ List.replicate count ' ', isTrimmed c := by
    intro c member
    rw [List.eq_of_mem_replicate member]
    decide
  have tail : ∀ c ∈ List.replicate field.after ' ' ++ ['\r'], isTrimmed c := by
    intro c member
    rcases List.mem_append.mp member with space | ending
    · exact blank field.after c space
    · rw [List.mem_singleton.mp ending]
      decide
  have shape : field.text ++ ['\r'] = field.name ++ ':' ::
      (List.replicate field.before ' ' ++ field.value ++ (List.replicate field.after ' ' ++ ['\r'])) := by
    simp [Field.text]
  rw [shape, parseHeader_split headers _ _ noColon, trim_padded field.value (blank field.before) tail,
    field.trimmed, trim_plain fun c member => (field.token c member).2.2.2]

/-- Lines that are read as fields enter the map in order. -/
theorem foldl_lines {Item : Type} (line : Item → List Char) (entry : Item → List Char × List Char)
    (read : ∀ headers item, parseHeader headers (line item) = emplace headers (entry item).1 (entry item).2)
    (headers : HTTPHeaders) (items : List Item) :
    (items.map line).foldl parseHeader headers = emplaceAll headers (items.map entry) := by
  induction items generalizing headers with
  | nil => rfl
  | cons item rest ih =>
      rw [List.map_cons, List.foldl_cons, read, ih]
      rfl

/-- The blank line and a line without a colon bring nothing. -/
theorem parseHeader_plain (headers : HTTPHeaders) {line : List Char} (plain : ':' ∉ line) :
    parseHeader headers line = headers := by
  unfold parseHeader
  rw [if_neg plain]

/-- The pair that a status line with a colon is taken for. -/
def Response.statusEntries (response : Response) : HTTPHeaders :=
  if ':' ∈ response.status then
    [(trim ((response.statusLine ++ ['\r']).takeWhile (· ≠ ':')),
      trim (((response.statusLine ++ ['\r']).dropWhile (· ≠ ':')).drop 1))]
  else []

theorem parseHeader_status (headers : HTTPHeaders) (response : Response) :
    parseHeader headers (response.statusLine ++ ['\r']) = emplaceAll headers response.statusEntries := by
  have colon : ':' ∈ response.statusLine ++ ['\r'] ↔ ':' ∈ response.status := by
    simp [Response.statusLine]
  unfold parseHeader Response.statusEntries
  by_cases here : ':' ∈ response.status
  · rw [if_pos (colon.mpr here), if_pos here]
    rfl
  · rw [if_neg fun there => here (colon.mp there), if_neg here]
    rfl

/-- No field has the name that a status line is taken for. -/
theorem statusEntries_slash {response : Response} {pair : List Char × List Char}
    (member : pair ∈ response.statusEntries) : '/' ∈ pair.1 := by
  unfold Response.statusEntries at member
  split at member
  · rw [List.mem_singleton.mp member]
    refine mem_trim ?_ (by decide)
    simp [Response.statusLine]
  · cases member

/-- A head is read as its status line, its fields and nothing else. -/
theorem foldl_parseHeader (headers : HTTPHeaders) (response : Response) :
    (response.texts.map (· ++ ['\r'])).foldl parseHeader headers =
      emplaceAll headers (response.statusEntries ++ response.entries) := by
  have fields (before : HTTPHeaders) : (response.fields.map fun field => field.text ++ ['\r']).foldl parseHeader before =
      emplaceAll before (response.fields.map Field.entry) :=
    foldl_lines (fun field : Field => field.text ++ ['\r']) Field.entry parseHeader_field before response.fields
  have shape : response.texts.map (· ++ ['\r']) =
      (response.statusLine ++ ['\r']) :: ((response.fields.map fun field => field.text ++ ['\r']) ++ [['\r']]) := by
    simp [Response.texts, Function.comp_def]
  rw [shape, List.foldl_cons, List.foldl_append, parseHeader_status, fields, List.foldl_cons, List.foldl_nil,
    parseHeader_plain _ (by decide)]
  unfold emplaceAll
  rw [List.foldl_append]
  rfl

/-- Lines that are written with their ends are read without them. -/
theorem linesOf_texts (texts : List (List Char)) (oneLine : ∀ text ∈ texts, '\n' ∉ text) :
    linesOf (texts.map (· ++ ['\r', '\n'])).flatten = texts.map (· ++ ['\r']) := by
  induction texts with
  | nil => rfl
  | cons text rest ih =>
      have plain : '\n' ∉ text ++ ['\r'] := by
        simp [oneLine text List.mem_cons_self]
      have shape : ((text :: rest).map (· ++ ['\r', '\n'])).flatten =
          (text ++ ['\r']) ++ '\n' :: (rest.map (· ++ ['\r', '\n'])).flatten := by
        simp
      rw [shape, linesOf_line _ _ plain, ih fun other member => oneLine other (List.mem_cons_of_mem text member)]
      rfl

theorem Response.texts_oneLine (response : Response) : ∀ text ∈ response.texts, '\n' ∉ text := by
  intro text member
  unfold Response.texts at member
  rcases List.mem_append.mp member with head | blank
  · rcases List.mem_cons.mp head with status | field
    · rw [status]
      simp [Response.statusLine, response.oneLine]
    · obtain ⟨sent, -, rfl⟩ := List.mem_map.mp field
      have name : '\n' ∉ sent.name := fun inside => (sent.token _ inside).2.2.1 rfl
      simp [Field.text, name, sent.oneLine]
  · rw [List.mem_singleton.mp blank]
    exact List.not_mem_nil

/-- A chain of heads is read response by response. -/
theorem foldl_chain (headers : HTTPHeaders) (chain : List Response) :
    (linesOf (chain.flatMap Response.lines).flatten).foldl parseHeader headers =
      emplaceAll headers (chain.flatMap fun response => response.statusEntries ++ response.entries) := by
  have texts : chain.flatMap Response.lines = (chain.flatMap Response.texts).map (· ++ ['\r', '\n']) :=
    (List.map_flatMap ..).symm
  have oneLine : ∀ text ∈ chain.flatMap Response.texts, '\n' ∉ text := by
    intro text member
    obtain ⟨response, -, inside⟩ := List.mem_flatMap.mp member
    exact response.texts_oneLine text inside
  rw [texts, linesOf_texts _ oneLine]
  clear texts oneLine
  induction chain generalizing headers with
  | nil => rfl
  | cons response rest ih =>
      rw [List.flatMap_cons, List.map_append, List.foldl_append, foldl_parseHeader, ih, List.flatMap_cons]
      unfold emplaceAll
      rw [List.foldl_append (l := response.statusEntries ++ response.entries)]

/-- What the events pass to the header callback. -/
def Transfer.headerText (transfer : Transfer) : List Char :=
  (transfer.events.filterMap CurlEvent.headerLine).flatten

namespace HTTPTransaction

theorem read_headersData (transaction : HTTPTransaction) (elementSize elementsCount : Nat) :
    (transaction.read elementSize elementsCount).2.2.responseHeadersData = transaction.responseHeadersData := by
  obtain ⟨request, same⟩ := transaction.read_frame elementSize elementsCount
  rw [same]

/-- The callbacks collect the lines of the heads and leave the headers for later. -/
theorem moved_headers (transaction : HTTPTransaction) (transfer : Transfer) :
    (moved transaction transfer).responseHeadersData =
        transaction.responseHeadersData.write transfer.headerText ∧
      (moved transaction transfer).response.headers = transaction.response.headers := by
  obtain ⟨events, status, responseCode⟩ := transfer
  unfold moved Transfer.headerText
  induction events generalizing transaction with
  | nil => exact ⟨(StringStream.write_nil _).symm, rfl⟩
  | cons event rest ih =>
      obtain ⟨collected, headers⟩ := ih (transaction.callback event)
      rw [List.foldl_cons, collected, headers]
      cases event with
      | header data =>
          refine ⟨?_, rfl⟩
          rw [List.filterMap_cons_some (f := CurlEvent.headerLine) rfl, List.flatten_cons]
          exact StringStream.write_append _ _ _
      | body data =>
          rw [List.filterMap_cons_none (f := CurlEvent.headerLine) rfl]
          exact ⟨rfl, rfl⟩
      | upload elementSize elementsCount =>
          rw [List.filterMap_cons_none (f := CurlEvent.headerLine) rfl, callback, read_headersData, read_response]
          exact ⟨rfl, rfl⟩

/-- A transaction that succeeds has the first value of every name that was sent. -/
theorem perform_headers (curlEasyStrerror : CurlCode → String) (request : HTTPRequest) (data : Option OStream)
    {transfer : Transfer} {chain : List Response} (received : transfer.Receives chain) {after : HTTPTransaction}
    (succeeds : (perform curlEasyStrerror transfer).run (construct request { data }) = .ok () after) :
    after.response.headers = emplaceAll [] (chain.flatMap fun response => response.statusEntries ++ response.entries) := by
  have text : transfer.headerText = (chain.flatMap Response.lines).flatten := congrArg List.flatten received
  obtain ⟨collected, headers⟩ := moved_headers (construct request { data }) transfer
  rcases perform_cases curlEasyStrerror (construct request { data }) transfer rfl with ⟨_, code, _, run⟩ | ⟨_, run⟩
  · rw [run] at succeeds
    cases succeeds
    show ((moved (construct request { data }) transfer).responseHeadersData.getlines.1).foldl parseHeader
      (moved (construct request { data }) transfer).response.headers = _
    rw [collected, headers, text]
    exact foldl_chain [] chain
  · rw [run] at succeeds
    cases succeeds

end HTTPTransaction

/-- A lookup that finds something has met a pair with this name. -/
theorem lookup_member {pairs : HTTPHeaders} {name value : List Char} (found : pairs.lookup name = some value) :
    (name, value) ∈ pairs := by
  obtain ⟨front, rest, same, -⟩ := List.lookup_eq_some_iff.mp found
  rw [same]
  simp

theorem lookup_isSome {pairs : HTTPHeaders} {pair : List Char × List Char} (member : pair ∈ pairs) :
    (pairs.lookup pair.1).isSome := by
  rw [Option.isSome_iff_ne_none]
  intro absent
  have differs := List.lookup_eq_none_iff.mp absent pair member
  simp at differs

theorem entry_member {response : Response} {pair : List Char × List Char} (member : pair ∈ response.entries) :
    ∃ field ∈ response.fields, field.name = pair.1 := by
  obtain ⟨field, inside, same⟩ := List.mem_map.mp member
  exact ⟨field, inside, congrArg Prod.fst same⟩

/-- Without colons the status lines bring nothing. -/
theorem lookup_chain {chain : List Response} (plain : ∀ response ∈ chain, ':' ∉ response.status) (name : List Char) :
    (chain.flatMap fun response => response.statusEntries ++ response.entries).lookup name = firstValue chain name := by
  have same : (chain.flatMap fun response => response.statusEntries ++ response.entries) =
      chain.flatMap Response.entries := by
    apply List.flatMap_congr
    intro response member
    rw [Response.statusEntries, if_neg (plain response member), List.nil_append]
  rw [same, firstValue]

theorem firstValue_append (earlier : List Response) (last : Response) (name : List Char) :
    firstValue (earlier ++ [last]) name = (firstValue earlier name).or (last.valueOf name) := by
  unfold firstValue Response.valueOf
  rw [List.flatMap_append, List.flatMap_singleton, List.lookup_append]

/-- A status line with a colon brings a name that no response has. -/
theorem status_plain {chain : List Response} {last : Response}
    (same : ∀ name, (chain.flatMap fun response => response.statusEntries ++ response.entries).lookup name =
      last.valueOf name) : ∀ response ∈ chain, ':' ∉ response.status := by
  intro response member colon
  have brought : ∃ pair, pair ∈ response.statusEntries := by
    unfold Response.statusEntries
    rw [if_pos colon]
    exact ⟨_, List.mem_singleton_self _⟩
  obtain ⟨pair, inside⟩ := brought
  have there : pair ∈ chain.flatMap fun response => response.statusEntries ++ response.entries :=
    List.mem_flatMap.mpr ⟨response, member, List.mem_append_left _ inside⟩
  have found := lookup_isSome there
  rw [same] at found
  obtain ⟨value, held⟩ := Option.isSome_iff_exists.mp found
  obtain ⟨field, -, name⟩ := entry_member (lookup_member held)
  have slash := statusEntries_slash inside
  rw [← show field.name = pair.1 from name] at slash
  exact (field.token '/' slash).2.1 rfl

/-- The pairs of a chain are those of its last response exactly when no status line has a colon and
every field of an earlier response is in the last one with the value that came first. -/
theorem lookup_last_iff (earlier : List Response) (last : Response) :
    (∀ name, ((earlier ++ [last]).flatMap fun response => response.statusEntries ++ response.entries).lookup name =
      last.valueOf name) ↔
      (∀ response ∈ earlier ++ [last], ':' ∉ response.status) ∧
        ∀ response ∈ earlier, ∀ field ∈ response.fields,
          last.valueOf field.name = firstValue (earlier ++ [last]) field.name := by
  constructor
  · intro same
    have plain := status_plain same
    refine ⟨plain, fun response _ field _ => ?_⟩
    rw [← same, lookup_chain plain]
  · intro condition name
    obtain ⟨plain, kept⟩ := condition
    rw [lookup_chain plain, firstValue_append]
    cases found : firstValue earlier name with
    | none => exact Option.none_or
    | some value =>
        obtain ⟨response, member, inside⟩ := List.mem_flatMap.mp (lookup_member found)
        obtain ⟨field, sent, same⟩ := entry_member inside
        have first := kept response member field sent
        rw [show field.name = name from same, firstValue_append, found] at first
        exact first.symm

/-- After a transaction that succeeds, the headers are those of the last response exactly when no status
line has a colon and every field of an earlier response is in the last one with the value that came first. -/
theorem headers_last_iff (curlEasyStrerror : CurlCode → String) (request : HTTPRequest) (data : Option OStream)
    (transfer : Transfer) (earlier : List Response) (last : Response)
    (received : transfer.Receives (earlier ++ [last])) (after : HTTPTransaction)
    (succeeds : (perform curlEasyStrerror transfer).run (construct request { data }) = .ok () after) :
    (∀ name, after.response.headers.lookup name = last.valueOf name) ↔
      (∀ response ∈ earlier ++ [last], ':' ∉ response.status) ∧
        ∀ response ∈ earlier, ∀ field ∈ response.fields,
          last.valueOf field.name = firstValue (earlier ++ [last]) field.name := by
  have headers := perform_headers curlEasyStrerror request data received succeeds
  rw [headers, ← lookup_last_iff]
  apply forall_congr'
  intro name
  rw [lookup_emplaceAll]
  rfl

def locationField : Field where
  name := ['L', 'o', 'c', 'a', 't', 'i', 'o', 'n']
  value := ['/', 'b']
  before := 1
  after := 0
  token := by simp [isTrimmed]
  oneLine := by simp
  trimmed := by decide

/-- A redirection. -/
def movedResponse : Response where
  status := ['1', '.', '1', ' ', '3', '0', '1']
  fields := [locationField]
  oneLine := by simp

def plainResponse : Response where
  status := ['1', '.', '1', ' ', '2', '0', '0']
  fields := []
  oneLine := by simp

/-- The transfer that follows a redirection. -/
def redirected : Transfer where
  events := ([movedResponse, plainResponse].flatMap Response.lines).map .header
  status := .ok
  responseCode := some 200

theorem redirected_receives : redirected.Receives [movedResponse, plainResponse] := by
  unfold Transfer.Receives redirected
  rw [List.filterMap_map]
  exact List.filterMap_some

/-- The field of the redirection appears among the headers. -/
theorem redirection_leaves_field : ∃ after,
    (perform (fun _ => "") redirected).run (construct { url := "/a" } { data := some {} }) = .ok () after ∧
      after.response.headers.lookup locationField.name ≠ plainResponse.valueOf locationField.name := by
  refine ⟨finished (opened "/a") redirected 200, perform_run _ (opened "/a") redirected rfl, ?_⟩
  have headers := perform_headers (fun _ => "") { url := "/a" } (some {}) redirected_receives
    (perform_run _ (opened "/a") redirected rfl)
  rw [headers, lookup_emplaceAll]
  decide

theorem headers_last_iff_example :
    (∀ name, (finished (opened "/a") redirected 200).response.headers.lookup name = plainResponse.valueOf name) ↔
      (∀ response ∈ [movedResponse] ++ [plainResponse], ':' ∉ response.status) ∧
        ∀ response ∈ [movedResponse], ∀ field ∈ response.fields,
          plainResponse.valueOf field.name = firstValue ([movedResponse] ++ [plainResponse]) field.name :=
  headers_last_iff (fun _ => "") { url := "/a" } (some {}) redirected [movedResponse] plainResponse
    redirected_receives _ (perform_run _ (opened "/a") redirected rfl)

end Peakwork.CommonUtils
