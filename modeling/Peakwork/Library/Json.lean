/-
This file reads texts of JSON and writes trees as such texts.
-/

import Peakwork.Library.PropertyTree

namespace Peakwork.Json

/-- The values that a tree can be written as; its numbers are strings. -/
inductive Value where
  | string (text : String)
  | array (items : List Value)
  | object (members : List (String × Value))
  deriving Repr

inductive Token where
  | string (text : String)
  | mark (sign : Char)
  | illegal
  deriving DecidableEq, Repr

/-- A string may hold escapes, and a code has four digits. -/
inductive Scan where
  | between
  | inside (read : List Char)
  | escape (read : List Char)
  | code (read : List Char) (value : Nat) (missing : Nat)
  deriving DecidableEq, Repr

def isBlank (c : Char) : Bool := c = ' ' ∨ c = '\t' ∨ c = '\n' ∨ c = '\r'

def isMark (c : Char) : Bool := c = '{' ∨ c = '}' ∨ c = '[' ∨ c = ']' ∨ c = ',' ∨ c = ':'

/-- These letters stand for a character after a backslash. -/
def unescape : Char → Option Char
  | '"' => some '"'
  | '\\' => some '\\'
  | '/' => some '/'
  | 'b' => some '\x08'
  | 'f' => some '\x0c'
  | 'n' => some '\n'
  | 'r' => some '\r'
  | 't' => some '\t'
  | _ => none

def hexDigit (c : Char) : Option Nat :=
  if c.isDigit then some (c.toNat - '0'.toNat)
  else if 'A' ≤ c ∧ c ≤ 'F' then some (c.toNat - 'A'.toNat + 10)
  else if 'a' ≤ c ∧ c ≤ 'f' then some (c.toNat - 'a'.toNat + 10)
  else none

def next : Scan → Char → List Token × Scan
  | .between, c =>
      if isBlank c then ([], .between)
      else if c = '"' then ([], .inside [])
      else if isMark c then ([.mark c], .between)
      else ([.illegal], .between)
  | .inside read, c =>
      if c = '"' then ([.string (String.ofList read)], .between)
      else if c = '\\' then ([], .escape read)
      -- a control character must be escaped
      else if c.toNat < 32 then ([.illegal], .between)
      else ([], .inside (read ++ [c]))
  | .escape read, c =>
      if c = 'u' then ([], .code read 0 4)
      else match unescape c with
        | some plain => ([], .inside (read ++ [plain]))
        | none => ([.illegal], .between)
  | .code read value missing, c =>
      match hexDigit c with
      | none => ([.illegal], .between)
      | some digit =>
          if missing = 1 then ([], .inside (read ++ [Char.ofNat (16 * value + digit)]))
          else ([], .code read (16 * value + digit) (missing - 1))

def scan : Scan → List Char → List Token
  | .between, [] => []
  | _, [] => [.illegal]
  | state, c :: rest => (next state c).1 ++ scan (next state c).2 rest

/-- An open array or object; an object waits for the value of its last key. -/
inductive Frame where
  | array (items : List Value)
  | object (members : List (String × Value)) (key : String)
  deriving Repr

inductive Reader where
  | value (stack : List Frame)
  | firstItem (stack : List Frame)
  | afterItem (items : List Value) (stack : List Frame)
  | firstKey (stack : List Frame)
  | key (members : List (String × Value)) (stack : List Frame)
  | colon (members : List (String × Value)) (key : String) (stack : List Frame)
  | afterMember (members : List (String × Value)) (stack : List Frame)
  | done (value : Value)
  | failed
  deriving Repr

/-- Of the members with one key a reader keeps the first or the last. -/
inductive Policy where
  | first
  | last
  deriving DecidableEq, Repr

def dropKey (key : String) (members : List (String × Value)) : List (String × Value) :=
  members.filter (·.1 ≠ key)

def keepFirst (kept : List (String × Value)) (member : String × Value) : List (String × Value) :=
  if (kept.any (·.1 = member.1)) then kept else kept ++ [member]

def keepLast (kept : List (String × Value)) (member : String × Value) : List (String × Value) :=
  dropKey member.1 kept ++ [member]

variable (policy : Policy)

def Policy.keep : List (String × Value) → List (String × Value) :=
  match policy with
  | .first => fun members => members.foldl keepFirst []
  | .last => fun members => members.foldl keepLast []

/-- A complete value goes into the innermost open frame. -/
def deliver (value : Value) : List Frame → Reader
  | [] => .done value
  | .array items :: stack => .afterItem (items ++ [value]) stack
  | .object members key :: stack => .afterMember (members ++ [(key, value)]) stack

def begin (stack : List Frame) : Token → Reader
  | .string text => deliver (.string text) stack
  | .mark '[' => .firstItem stack
  | .mark '{' => .firstKey stack
  | _ => .failed

def step : Reader → Token → Reader
  | .value stack, token => begin stack token
  | .firstItem stack, token =>
      if token = .mark ']' then deliver (.array []) stack else begin (.array [] :: stack) token
  | .afterItem items stack, .mark ',' => .value (.array items :: stack)
  | .afterItem items stack, .mark ']' => deliver (.array items) stack
  | .firstKey stack, .mark '}' => deliver (.object []) stack
  | .firstKey stack, .string key => .colon [] key stack
  | .key members stack, .string key => .colon members key stack
  | .colon members key stack, .mark ':' => .value (.object members key :: stack)
  | .afterMember members stack, .mark ',' => .key members stack
  | .afterMember members stack, .mark '}' => deliver (.object (policy.keep members)) stack
  | _, _ => .failed

/-- A text is a value when its last token completes it. -/
def read (text : String) : Option Value :=
  match (scan .between text.toList).foldl (step policy) (.value []) with
  | .done value => some value
  | _ => none

/-- A digit of a code. -/
def hexSign (digit : Nat) : Char :=
  if digit < 10 then Char.ofNat ('0'.toNat + digit) else Char.ofNat ('A'.toNat + (digit - 10))

def escape (c : Char) : List Char :=
  if c = '\x08' then ['\\', 'b']
  else if c = '\x0c' then ['\\', 'f']
  else if c = '\n' then ['\\', 'n']
  else if c = '\r' then ['\\', 'r']
  else if c = '\t' then ['\\', 't']
  else if c = '/' then ['\\', '/']
  else if c = '"' then ['\\', '"']
  else if c = '\\' then ['\\', '\\']
  else if c.toNat < 32 then ['\\', 'u', '0', '0', hexSign (c.toNat / 16), hexSign (c.toNat % 16)]
  else [c]

def quote (text : String) : List Char := '"' :: text.toList.flatMap escape ++ ['"']

mutual

/-- The root is an object always; a node without children is a string. -/
def writeNode (root : Bool) : PropertyTree → List Char
  | .node data children =>
      if ¬ root ∧ children.isEmpty then quote data
      else if ¬ root ∧ children.all (·.1 = "") then '[' :: writeItems children ++ [']']
      else '{' :: writeMembers children ++ ['}']

def writeItems : List (String × PropertyTree) → List Char
  | [] => []
  | (_, tree) :: rest => writeNode false tree ++ if rest.isEmpty then [] else ',' :: writeItems rest

def writeMembers : List (String × PropertyTree) → List Char
  | [] => []
  | (key, tree) :: rest =>
      quote key ++ ':' :: writeNode false tree ++ if rest.isEmpty then [] else ',' :: writeMembers rest

end

mutual

/-- A node has data or children, and the root has no data. -/
def verify (root : Bool) : PropertyTree → Bool
  | .node data children =>
      (data = "" ∨ (¬ root ∧ children.isEmpty)) && verifyAll children

def verifyAll : List (String × PropertyTree) → Bool
  | [] => true
  | (_, tree) :: rest => verify false tree && verifyAll rest

end

/-- A tree that JSON cannot represent throws. -/
def write (tree : PropertyTree) : Option String :=
  if verify true tree then some (String.ofList (writeNode true tree)) else none

mutual

/-- The value that the text of a tree has. -/
def shape (root : Bool) : PropertyTree → Value
  | .node data children =>
      if ¬ root ∧ children.isEmpty then .string data
      else if ¬ root ∧ children.all (·.1 = "") then .array (shapeItems children)
      else .object (policy.keep (shapeMembers children))

def shapeItems : List (String × PropertyTree) → List Value
  | [] => []
  | (_, tree) :: rest => shape false tree :: shapeItems rest

def shapeMembers : List (String × PropertyTree) → List (String × Value)
  | [] => []
  | (key, tree) :: rest => (key, shape false tree) :: shapeMembers rest

end

theorem shapeItems_eq (children : List (String × PropertyTree)) :
    shapeItems policy children = children.map fun entry => shape policy false entry.2 := by
  induction children with
  | nil => rfl
  | cons entry rest ih => rw [shapeItems, ih, List.map_cons]

theorem shapeMembers_eq (children : List (String × PropertyTree)) :
    shapeMembers policy children = children.map fun entry => (entry.1, shape policy false entry.2) := by
  induction children with
  | nil => rfl
  | cons entry rest ih => rw [shapeMembers, ih, List.map_cons]

theorem verifyAll_eq (children : List (String × PropertyTree)) :
    verifyAll children = children.all fun entry => verify false entry.2 := by
  induction children with
  | nil => rfl
  | cons entry rest ih => rw [verifyAll, ih, List.all_cons]

@[simp] theorem shape_leaf (text : String) : shape policy false (.leaf text) = .string text := rfl

@[simp] theorem verify_leaf (text : String) : verify false (.leaf text) = true := by
  simp [PropertyTree.leaf, verify, verifyAll]

theorem hexDigit_hexSign (digit : Nat) (small : digit < 16) : hexDigit (hexSign digit) = some digit := by
  have all : ∀ digit : Fin 16, hexDigit (hexSign digit) = some digit.val := by decide
  exact all ⟨digit, small⟩

/-- An escaped character is read back. -/
theorem scan_escape (read rest : List Char) (c : Char) :
    scan (.inside read) (escape c ++ rest) = scan (.inside (read ++ [c])) rest := by
  unfold escape
  split_ifs with h1 h2 h3 h4 h5 h6 h7 h8 h9
  · subst h1; rfl
  · subst h2; rfl
  · subst h3; rfl
  · subst h4; rfl
  · subst h5; rfl
  · subst h6; rfl
  · subst h7; rfl
  · subst h8; rfl
  · have high := hexDigit_hexSign (c.toNat / 16) (by omega)
    have low := hexDigit_hexSign (c.toNat % 16) (by omega)
    have code : Char.ofNat (16 * (c.toNat / 16) + c.toNat % 16) = c := by
      rw [Nat.div_add_mod, Char.ofNat_toNat]
    have zero : hexDigit '0' = some 0 := by decide
    simp [scan, next, zero, high, low, code]
  · simp [scan, next, h7, h8, h9]

theorem scan_escaped (read text rest : List Char) :
    scan (.inside read) (text.flatMap escape ++ '"' :: rest) =
      .string (String.ofList (read ++ text)) :: scan .between rest := by
  induction text generalizing read with
  | nil => simp [scan, next]
  | cons c text ih =>
      rw [List.flatMap_cons, List.append_assoc, scan_escape, ih]
      simp

/-- A quoted text is one token. -/
theorem scan_quote (text : String) (rest : List Char) :
    scan .between (quote text ++ rest) = .string text :: scan .between rest := by
  have inner := scan_escaped [] text.toList rest
  rw [List.nil_append, String.ofList_toList] at inner
  rw [← inner]
  simp [quote, scan, next, isBlank]

theorem scan_mark (c : Char) (mark : isMark c = true) (rest : List Char) :
    scan .between (c :: rest) = .mark c :: scan .between rest := by
  have notBlank : isBlank c = false := by
    simp only [isMark, isBlank, decide_eq_true_eq, decide_eq_false_iff_not] at mark ⊢
    rcases mark with rfl | rfl | rfl | rfl | rfl | rfl <;> decide
  have notQuote : c ≠ '"' := by
    rintro rfl
    exact absurd mark (by decide)
  simp [scan, next, mark, notBlank, notQuote]

/-- The reader waits for a value; only the end of an empty array would be read otherwise. -/
def Ready (reader : Reader) (stack : List Frame) : Prop :=
  ∀ token, token ≠ .mark ']' → step policy reader token = begin stack token

theorem ready_value (stack : List Frame) : Ready policy (.value stack) stack :=
  fun _ _ => rfl

theorem ready_firstItem (stack : List Frame) : Ready policy (.firstItem stack) (.array [] :: stack) :=
  fun _ other => by simp [step, other]

/-- A reader that is ready reads the text of a tree as the value of its shape. -/
def ReadsAs (tree : PropertyTree) : Prop :=
  ∀ root reader stack rest, Ready policy reader stack →
    (scan .between (writeNode root tree ++ rest)).foldl (step policy) reader =
      (scan .between rest).foldl (step policy) (deliver (shape policy root tree) stack)

theorem reads_items (children : List (String × PropertyTree)) (some_ : children ≠ [])
    (each : ∀ entry ∈ children, ReadsAs policy entry.2) (items : List Value) (reader : Reader)
    (stack : List Frame) (rest : List Char) (ready : Ready policy reader (.array items :: stack)) :
    (scan .between (writeItems children ++ rest)).foldl (step policy) reader =
      (scan .between rest).foldl (step policy)
        (.afterItem (items ++ shapeItems policy children) stack) := by
  induction children generalizing items reader with
  | nil => exact absurd rfl some_
  | cons entry children ih =>
      obtain ⟨key, tree⟩ := entry
      have first := each (key, tree) (by simp) false reader (.array items :: stack)
      cases children with
      | nil =>
          simp only [writeItems, shapeItems, List.isEmpty_nil, if_true, List.append_nil]
          exact first rest ready
      | cons second others =>
          have tail := ih (by simp) (fun entry member => each entry (by simp [member]))
            (items ++ [shape policy false tree]) (.value (.array (items ++ [shape policy false tree]) :: stack))
            (ready_value policy _)
          rw [writeItems, List.isEmpty_cons, if_neg (by decide), List.append_assoc, List.cons_append,
            first _ ready, scan_mark ',' (by decide)]
          rw [shapeItems, List.append_cons, ← tail]
          rfl

theorem reads_members (children : List (String × PropertyTree)) (some_ : children ≠ [])
    (each : ∀ entry ∈ children, ReadsAs policy entry.2) (members : List (String × Value)) (reader : Reader)
    (stack : List Frame) (rest : List Char)
    (ready : ∀ key, step policy reader (.string key) = .colon members key stack) :
    (scan .between (writeMembers children ++ rest)).foldl (step policy) reader =
      (scan .between rest).foldl (step policy)
        (.afterMember (members ++ shapeMembers policy children) stack) := by
  induction children generalizing members reader with
  | nil => exact absurd rfl some_
  | cons entry children ih =>
      obtain ⟨key, tree⟩ := entry
      have first := each (key, tree) (by simp) false (.value (.object members key :: stack))
        (.object members key :: stack)
      have head (more : List Char) :
          (scan .between (quote key ++ ':' :: writeNode false tree ++ more)).foldl (step policy) reader =
            (scan .between more).foldl (step policy)
              (.afterMember (members ++ [(key, shape policy false tree)]) stack) := by
        rw [List.append_assoc, scan_quote, List.cons_append, scan_mark ':' (by decide), List.foldl_cons,
          ready]
        exact first more (ready_value policy _)
      cases children with
      | nil =>
          simp only [writeMembers, shapeMembers, List.isEmpty_nil, if_true, List.append_nil]
          exact head rest
      | cons second others =>
          have tail := ih (by simp) (fun entry member => each entry (by simp [member]))
            (members ++ [(key, shape policy false tree)])
            (.key (members ++ [(key, shape policy false tree)]) stack) (fun _ => rfl)
          rw [writeMembers, List.isEmpty_cons, if_neg (by decide), List.append_assoc, List.cons_append,
            head, scan_mark ',' (by decide)]
          rw [shapeMembers, List.append_cons members _ (shapeMembers policy (second :: others)), ← tail]
          rfl

/-- The text of a tree has the shape of the tree. -/
theorem readsAs (tree : PropertyTree) : ReadsAs policy tree := by
  induction tree using PropertyTree.induction with
  | node data children each =>
      intro root reader stack rest ready
      rw [writeNode, shape]
      split_ifs with leaf list
      · rw [scan_quote, List.foldl_cons, ready _ (by simp)]
        rfl
      · have some_ : children ≠ [] := by
          rintro rfl
          exact leaf ⟨list.1, rfl⟩
        rw [List.cons_append, List.cons_append, List.append_assoc, scan_mark '[' (by decide), List.foldl_cons,
          ready _ (by decide)]
        change (scan .between (writeItems children ++ ([']'] ++ rest))).foldl (step policy)
          (.firstItem stack) = _
        rw [reads_items policy children some_ each [] _ stack _ (ready_firstItem policy stack),
          List.singleton_append, scan_mark ']' (by decide), List.nil_append]
        rfl
      · rw [List.cons_append, List.cons_append, List.append_assoc, scan_mark '{' (by decide), List.foldl_cons,
          ready _ (by decide)]
        change (scan .between (writeMembers children ++ (['}'] ++ rest))).foldl (step policy)
          (.firstKey stack) = _
        rw [List.singleton_append]
        cases children with
        | nil =>
            rw [writeMembers, List.nil_append, scan_mark '}' (by decide)]
            cases policy <;> rfl
        | cons entry others =>
            rw [reads_members policy (entry :: others) (by simp) each [] _ stack _ (fun _ => rfl),
              scan_mark '}' (by decide), List.nil_append]
            rfl

/-- A text that was written is read back as the shape of its tree. -/
theorem read_write (tree : PropertyTree) (text : String) (written : write tree = some text) :
    read policy text = some (shape policy true tree) := by
  unfold write at written
  split at written
  · cases written
    have whole := readsAs policy tree true (.value []) [] [] (ready_value policy [])
    rw [List.append_nil] at whole
    rw [read, String.toList_ofList, whole]
    rfl
  · cases written

end Peakwork.Json
