/-
This file gives texts with separated fields and a reader of them.
-/

import Mathlib.Tactic

namespace Peakwork.Csv

/-- A field is written as it is or between quotes. -/
inductive Field where
  | plain (text : List Char)
  | quoted (text : List Char)
  deriving DecidableEq, Repr

def Field.text : Field → List Char
  | .plain text => text
  | .quoted text => text

/-- A quote inside of quotes is doubled. -/
def Field.written : Field → List Char
  | .plain text => text
  | .quoted text => ['"'] ++ (text.flatMap fun c => if c = '"' then ['"', '"'] else [c]) ++ ['"']

/-- A field without quotes has no sign that ends it. -/
def Field.Sound (separator : Char) : Field → Prop
  | .plain text => ∀ c ∈ text, c ≠ separator ∧ c ≠ '\n' ∧ c ≠ '"'
  | .quoted _ => True

def row (separator : Char) : List Field → List Char
  | [] => ['\n']
  | [field] => field.written ++ ['\n']
  | field :: rest => field.written ++ [separator] ++ row separator rest

inductive Mode where
  | start
  | plain
  | quoted
  | closed
  deriving DecidableEq, Repr

structure Reader where
  rows : List (List (List Char))
  row : List (List Char)
  field : List Char
  mode : Mode
  deriving DecidableEq, Repr

/-- Between quotes each sign but a quote belongs to the field; a second quote stands for one. -/
def step (separator : Char) (reader : Reader) (c : Char) : Option Reader :=
  if reader.mode = .quoted then
    if c = '"' then some { reader with mode := .closed } else some { reader with field := reader.field ++ [c] }
  else if c = separator then some { reader with row := reader.row ++ [reader.field], field := [], mode := .start }
  else if c = '\n' then some ⟨reader.rows ++ [reader.row ++ [reader.field]], [], [], .start⟩
  else if c = '"' then
    match reader.mode with
    | .start => some { reader with mode := .quoted }
    | .closed => some { reader with field := reader.field ++ [c], mode := .quoted }
    | _ => none
  else if reader.mode = .closed then none
  else some { reader with field := reader.field ++ [c], mode := .plain }

/-- The text must end with the end of a row. -/
def read (separator : Char) (text : List Char) : Option (List (List (List Char))) :=
  match text.foldlM (step separator) ⟨[], [], [], .start⟩ with
  | some reader => if reader = ⟨reader.rows, [], [], .start⟩ then some reader.rows else none
  | none => none

section Reading

variable {separator : Char} {rows : List (List (List Char))} {before : List (List Char)}

theorem foldlM_plain {text : List Char} (sound : (Field.plain text).Sound separator) (field : List Char) (mode : Mode)
    (open_ : mode = .start ∨ mode = .plain) : ∃ after, (after = .start ∨ after = .plain) ∧
      text.foldlM (step separator) ⟨rows, before, field, mode⟩ = some ⟨rows, before, field ++ text, after⟩ := by
  induction text generalizing field mode with
  | nil =>
      refine ⟨mode, open_, ?_⟩
      rw [List.append_nil]
      rfl
  | cons c rest ih =>
      obtain ⟨apart, line, quote⟩ := sound c List.mem_cons_self
      have mode_ : mode ≠ .quoted ∧ mode ≠ .closed := by
        rcases open_ with rfl | rfl <;> decide
      obtain ⟨after, stays, run⟩ := ih (fun other member => sound other (List.mem_cons_of_mem c member)) (field ++ [c]) .plain
        (Or.inr rfl)
      refine ⟨after, stays, ?_⟩
      have first : step separator ⟨rows, before, field, mode⟩ c = some ⟨rows, before, field ++ [c], .plain⟩ := by
        rw [step, if_neg mode_.1, if_neg apart, if_neg line, if_neg quote, if_neg mode_.2]
      rw [List.foldlM_cons, first]
      show List.foldlM (step separator) _ rest = _
      rw [run, List.append_assoc, List.singleton_append]

variable (apart : separator ≠ '"')

theorem step_separator {field : List Char} {mode : Mode} (ended : mode ≠ .quoted) :
    step separator ⟨rows, before, field, mode⟩ separator = some ⟨rows, before ++ [field], [], .start⟩ := by
  rw [step, if_neg ended, if_pos rfl]

theorem step_line (line : separator ≠ '\n') {field : List Char} {mode : Mode} (ended : mode ≠ .quoted) :
    step separator ⟨rows, before, field, mode⟩ '\n' = some ⟨rows ++ [before ++ [field]], [], [], .start⟩ := by
  rw [step, if_neg ended, if_neg line.symm, if_pos rfl]

include apart

theorem foldlM_quoted (text field : List Char) :
    (text.flatMap fun c => if c = '"' then ['"', '"'] else [c]).foldlM (step separator) ⟨rows, before, field, .quoted⟩ =
      some ⟨rows, before, field ++ text, .quoted⟩ := by
  induction text generalizing field with
  | nil =>
      rw [List.append_nil]
      rfl
  | cons c rest ih =>
      have first : (if c = '"' then ['"', '"'] else [c]).foldlM (step separator) ⟨rows, before, field, .quoted⟩ =
          some ⟨rows, before, field ++ [c], .quoted⟩ := by
        by_cases quote : c = '"'
        · have closes : step separator ⟨rows, before, field, .quoted⟩ '"' = some ⟨rows, before, field, .closed⟩ := rfl
          have opens : step separator ⟨rows, before, field, .closed⟩ '"' = some ⟨rows, before, field ++ ['"'], .quoted⟩ := by
            rw [step, if_neg (show ¬ Mode.closed = .quoted by decide), if_neg apart.symm, if_neg (by decide), if_pos rfl]
          rw [if_pos quote, quote, List.foldlM_cons, closes]
          show List.foldlM (step separator) _ ['"'] = _
          rw [List.foldlM_cons, opens]
          rfl
        · rw [if_neg quote, List.foldlM_cons, step, if_pos rfl, if_neg quote]
          rfl
      rw [List.flatMap_cons, List.foldlM_append, first]
      show List.foldlM (step separator) _ _ = _
      rw [ih, List.append_assoc, List.singleton_append]

theorem foldlM_field {field : Field} (sound : field.Sound separator) : ∃ mode, mode ≠ .quoted ∧
    field.written.foldlM (step separator) ⟨rows, before, [], .start⟩ = some ⟨rows, before, field.text, mode⟩ := by
  cases field with
  | plain text =>
      obtain ⟨mode, stays, run⟩ := @foldlM_plain separator rows before text sound [] .start (Or.inl rfl)
      refine ⟨mode, ?_, run⟩
      rcases stays with rfl | rfl <;> decide
  | quoted text =>
      have opens : step separator ⟨rows, before, [], .start⟩ '"' = some ⟨rows, before, [], .quoted⟩ := by
        rw [step, if_neg (show ¬ Mode.start = .quoted by decide), if_neg apart.symm, if_neg (by decide), if_pos rfl]
      refine ⟨.closed, by decide, ?_⟩
      rw [Field.written, List.append_assoc, List.singleton_append, List.foldlM_cons, opens]
      show List.foldlM (step separator) _ _ = _
      rw [List.foldlM_append, foldlM_quoted apart]
      rfl

variable (line : separator ≠ '\n')

include line

theorem foldlM_row {fields : List Field} (some_ : fields ≠ []) (sound : ∀ field ∈ fields, field.Sound separator) :
    (row separator fields).foldlM (step separator) ⟨rows, before, [], .start⟩ =
      some ⟨rows ++ [before ++ fields.map Field.text], [], [], .start⟩ := by
  induction fields generalizing before with
  | nil => exact absurd rfl some_
  | cons field rest ih =>
      obtain ⟨mode, ended, run⟩ := @foldlM_field separator rows before apart field (sound field List.mem_cons_self)
      cases rest with
      | nil =>
          rw [row, List.foldlM_append, run]
          show List.foldlM (step separator) _ ['\n'] = _
          rw [List.foldlM_cons, step_line line ended]
          rfl
      | cons next later =>
          rw [row, List.append_assoc, List.foldlM_append, run]
          · show List.foldlM (step separator) _ _ = _
            rw [List.singleton_append, List.foldlM_cons, step_separator ended]
            show List.foldlM (step separator) _ _ = _
            rw [ih (List.cons_ne_nil next later) fun other member => sound other (List.mem_cons_of_mem field member),
              List.append_assoc]
            rfl
          · exact fun absurd_ => List.cons_ne_nil next later absurd_

/-- Rows of sound fields are read back. -/
theorem read_rows {fields : List (List Field)} (some_ : ∀ one ∈ fields, one ≠ [])
    (sound : ∀ one ∈ fields, ∀ field ∈ one, field.Sound separator) :
    read separator (fields.flatMap (row separator)) = some (fields.map (List.map Field.text)) := by
  have run (rows : List (List (List Char))) : (fields.flatMap (row separator)).foldlM (step separator) ⟨rows, [], [], .start⟩ =
      some ⟨rows ++ fields.map (List.map Field.text), [], [], .start⟩ := by
    induction fields generalizing rows with
    | nil =>
        rw [List.map_nil, List.append_nil]
        rfl
    | cons one rest ih =>
        rw [List.flatMap_cons, List.foldlM_append,
          foldlM_row apart line (some_ one List.mem_cons_self) (sound one List.mem_cons_self)]
        show List.foldlM (step separator) _ _ = _
        rw [ih (fun other member => some_ other (List.mem_cons_of_mem one member))
          (fun other member => sound other (List.mem_cons_of_mem one member)), List.append_assoc]
        rfl
  rw [read, run]
  exact if_pos rfl

end Reading

end Peakwork.Csv
