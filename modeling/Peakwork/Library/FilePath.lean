/-
This file says which file a path denotes where no name is a link.
-/

import Mathlib.Tactic

namespace Peakwork

/-- Paths differ in what they denote only by their start and by their names. -/
structure FilePath where
  absolute : Bool
  names : List (List Char)
  deriving DecidableEq, Repr

namespace FilePath

/-- The C library reads a path up to its first zero. -/
def cPath (text : List Char) : List Char := text.takeWhile (· ≠ '\x00')

/-- An empty part and a part that is one dot lead nowhere else. -/
def isName (part : List Char) : Bool := part ≠ [] ∧ part ≠ ['.']

def namesOf (text : List Char) : List (List Char) := (text.splitOn '/').filter isName

def ofText (text : List Char) : FilePath := ⟨(cPath text).head? = some '/', namesOf (cPath text)⟩

section Texts

variable {front back part : List Char}

theorem cPath_append_plain (plain : '\x00' ∉ front) (back : List Char) :
    cPath (front ++ back) = front ++ cPath back := by
  apply List.takeWhile_append_of_pos
  intro c member
  rw [decide_eq_true_eq]
  rintro rfl
  exact plain member

theorem cPath_plain (plain : '\x00' ∉ front) : cPath front = front := by
  have whole := cPath_append_plain plain []
  rw [List.append_nil, show cPath [] = [] from rfl, List.append_nil] at whole
  exact whole

/-- A zero ends the path. -/
theorem cPath_append_zero (zero : '\x00' ∈ front) (back : List Char) : cPath (front ++ back) = cPath front := by
  obtain ⟨before, after, rfl, plain⟩ := List.eq_append_cons_of_mem zero
  have ends (rest : List Char) : cPath ('\x00' :: rest) = [] := List.takeWhile_cons_of_neg (by decide)
  rw [List.append_assoc, cPath_append_plain plain, cPath_append_plain plain, List.cons_append, ends, ends]

theorem cPath_before (front back : List Char) : cPath front <+: cPath (front ++ back) := by
  by_cases zero : '\x00' ∈ front
  · rw [cPath_append_zero zero]
  · rw [cPath_append_plain zero, cPath_plain zero]
    exact List.prefix_append _ _

theorem mem_of_mem_cPath {c : Char} (member : c ∈ cPath front) : c ∈ front :=
  (List.takeWhile_sublist _).mem member

theorem namesOf_slash (front back : List Char) : namesOf (front ++ '/' :: back) = namesOf front ++ namesOf back := by
  rw [namesOf, List.splitOn_append_cons_self, List.filter_append]
  rfl

theorem namesOf_nil : namesOf [] = [] := rfl

/-- A part without slashes is a name or nothing. -/
theorem namesOf_part (whole : '/' ∉ part) : namesOf part = if isName part then [part] else [] := by
  rw [namesOf, List.splitOn_eq_singleton whole, List.filter_singleton, Bool.cond_eq_ite]

/-- A text that is empty or ends with a slash is complete. -/
def Opened (text : List Char) : Prop := text = [] ∨ ∃ front, text = front ++ ['/']

theorem Opened.namesOf_append (opened : Opened front) (back : List Char) :
    namesOf (front ++ back) = namesOf front ++ namesOf back := by
  rcases opened with rfl | ⟨before, rfl⟩
  · rfl
  · rw [List.append_assoc, List.singleton_append, namesOf_slash, namesOf_slash, namesOf_nil, List.append_nil]

/-- The last part behind a slash is a part of its own. -/
theorem Opened.splitOn_append (opened : Opened front) (whole : '/' ∉ part) :
    ∃ parts, (front ++ part).splitOn '/' = parts ++ [part] ∧ parts.filter isName = namesOf front := by
  rcases opened with rfl | ⟨before, rfl⟩
  · exact ⟨[], List.splitOn_eq_singleton whole, rfl⟩
  · refine ⟨before.splitOn '/', ?_, ?_⟩
    · rw [List.append_assoc, List.singleton_append, List.splitOn_append_cons_self, List.splitOn_eq_singleton whole]
    · rw [namesOf_slash, namesOf_nil, List.append_nil]
      rfl

/-- Two dots are a name, so they are among the parts only when they are among the names. -/
theorem plain_parts (plain : ['.', '.'] ∉ namesOf front) : ['.', '.'] ∉ front.splitOn '/' :=
  fun member => plain (List.mem_filter.mpr ⟨member, by decide⟩)

end Texts

end FilePath

end Peakwork
