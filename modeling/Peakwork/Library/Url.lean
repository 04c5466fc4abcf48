/-
This file cuts the text of a URL into the segments of its path.
-/

import Mathlib.Data.List.TakeWhile
import Mathlib.Tactic

namespace Peakwork.Url

/-- The path ends where a query or a fragment begins. -/
def endsPath (c : Char) : Bool := c = '?' ∨ c = '#'

def path (text : List Char) : List Char := text.takeWhile (¬ endsPath ·)

def behindPath (text : List Char) : List Char := text.dropWhile (¬ endsPath ·)

/-- What stands before the first slash is no segment. -/
def segments (text : List Char) : List (List Char) := ((path text).splitOn '/').tail

/-- A text without these characters stays one segment. -/
def Plain (text : List Char) : Prop := ∀ c ∈ text, c ≠ '/' ∧ endsPath c = false

/-- The path with these segments. -/
def joined (pieces : List (List Char)) : List Char := pieces.flatMap ('/' :: ·)

/-- A part of a text has characters of the text, and none that separates. -/
theorem mem_of_mem_splitOn {sep c : Char} {text piece : List Char} (member : piece ∈ text.splitOn sep)
    (inside : c ∈ piece) : c ∈ text ∧ c ≠ sep := by
  induction text generalizing piece with
  | nil =>
      rw [List.splitOn_nil, List.mem_singleton] at member
      rw [member] at inside
      cases inside
  | cons head rest ih =>
      rw [List.splitOn_cons_eq_if_modifyHead] at member
      split at member
      · rcases List.mem_cons.mp member with rfl | later
        · cases inside
        · exact (ih later inside).imp_left (List.mem_cons_of_mem head)
      · rename_i different
        obtain ⟨first, others, shape⟩ := List.exists_cons_of_ne_nil (List.splitOn_ne_nil sep rest)
        rw [shape, List.modifyHead_cons] at member
        rcases List.mem_cons.mp member with rfl | later
        · rcases List.mem_cons.mp inside with rfl | below
          · exact ⟨List.mem_cons_self, by simpa using different⟩
          · exact (ih (shape ▸ List.mem_cons_self) below).imp_left (List.mem_cons_of_mem head)
        · exact (ih (shape ▸ List.mem_cons_of_mem first later) inside).imp_left (List.mem_cons_of_mem head)

/-- A segment never holds a character that cuts. -/
theorem plain_of_mem_segments {text piece : List Char} (member : piece ∈ segments text) : Plain piece := by
  have whole : piece ∈ (path text).splitOn '/' := List.mem_of_mem_tail member
  intro c inside
  obtain ⟨there, apart⟩ := mem_of_mem_splitOn whole inside
  have kept := List.mem_takeWhile_imp there
  exact ⟨apart, by simpa using kept⟩

theorem splitOn_joined {pieces : List (List Char)} (plain : ∀ piece ∈ pieces, Plain piece) :
    (joined pieces).splitOn '/' = [] :: pieces := by
  induction pieces with
  | nil => rfl
  | cons piece rest ih =>
      have slash : '/' ∉ piece := fun inside => (plain piece List.mem_cons_self '/' inside).1 rfl
      have split := ih fun other member => plain other (List.mem_cons_of_mem piece member)
      cases rest with
      | nil =>
          show ([] ++ '/' :: (piece ++ [])).splitOn '/' = _
          rw [List.splitOn_append_cons_self_of_not_mem List.not_mem_nil, List.append_nil,
            List.splitOn_eq_singleton slash]
      | cons next rest =>
          show ([] ++ '/' :: (piece ++ '/' :: (next ++ joined rest))).splitOn '/' = _
          rw [List.splitOn_append_cons_self_of_not_mem List.not_mem_nil,
            List.splitOn_append_cons_self_of_not_mem slash]
          have behind : [] :: (next ++ joined rest).splitOn '/' = [] :: next :: rest := by
            rw [← split]
            exact (List.splitOn_append_cons_self_of_not_mem List.not_mem_nil _).symm
          rw [(List.cons.inj behind).2]

/-- Plain segments before a query are read as they were joined. -/
theorem cut_joined {pieces : List (List Char)} (plain : ∀ piece ∈ pieces, Plain piece) (query : List Char) :
    segments (joined pieces ++ '?' :: query) = pieces ∧ behindPath (joined pieces ++ '?' :: query) = '?' :: query := by
  have kept : ∀ c ∈ joined pieces, (decide ¬ endsPath c = true) = true := by
    intro c member
    obtain ⟨piece, inside, here⟩ := List.mem_flatMap.mp member
    rcases List.mem_cons.mp here with rfl | later
    · decide
    · simp [(plain piece inside c later).2]
  have front : path (joined pieces ++ '?' :: query) = joined pieces := by
    unfold path
    rw [List.takeWhile_append_of_pos kept, List.takeWhile_cons_of_neg (by decide), List.append_nil]
  constructor
  · rw [segments, front, splitOn_joined plain, List.tail_cons]
  · unfold behindPath
    rw [List.dropWhile_append_of_pos kept, List.dropWhile_cons_of_neg (by decide)]

end Peakwork.Url
