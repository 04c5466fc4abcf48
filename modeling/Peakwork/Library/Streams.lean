/-
This file gives the character streams of the standard library.
-/

import Mathlib.Tactic

namespace Peakwork

/-- A seekable input stream; a read behind the end makes it fail. -/
structure IStream where
  content : List Char
  position : Nat := 0
  failed : Bool := false
  deriving DecidableEq, Repr

namespace IStream

variable (stream : IStream)

/-- The position of a failed stream is `-1`. -/
def tellg : Int := if stream.failed then -1 else stream.position

def seekEnd : IStream :=
  if stream.failed then stream else { stream with position := stream.content.length }

def seekBegin : IStream := if stream.failed then stream else { stream with position := 0 }

def read (size : Nat) : List Char × IStream :=
  if stream.failed then ([], stream)
  else
    let data := (stream.content.drop stream.position).take size
    (data, { stream with
      position := stream.position + data.length
      failed := decide (data.length < size) })

end IStream

/-- An output stream that stores no more once its room is used up. -/
structure OStream where
  stored : List Char := []
  room : Option Nat := none
  failed : Bool := false
  deriving DecidableEq, Repr

def OStream.write (stream : OStream) (data : List Char) : OStream :=
  if stream.failed then stream
  else match stream.room with
    | none => { stream with stored := stream.stored ++ data }
    | some room =>
        { stored := stream.stored ++ data.take room
          room := some (room - data.length)
          failed := decide (room < data.length) }

namespace OStream

variable (stream : OStream)

/-- What the stream stores of a text. -/
def kept (data : List Char) : List Char :=
  if stream.failed then []
  else match stream.room with
    | none => data
    | some room => data.take room

theorem write_stored (data : List Char) : (stream.write data).stored = stream.stored ++ stream.kept data := by
  obtain ⟨stored, room, failed⟩ := stream
  cases failed with
  | true => exact (List.append_nil stored).symm
  | false =>
      cases room with
      | none => rfl
      | some room => rfl

theorem write_nil : stream.write [] = stream := by
  obtain ⟨stored, room, failed⟩ := stream
  cases failed with
  | true => rfl
  | false =>
      cases room with
      | none => simp [write]
      | some room => simp [write]

/-- Two writes are one write of both texts. -/
theorem write_append (first second : List Char) : (stream.write first).write second = stream.write (first ++ second) := by
  obtain ⟨stored, room, failed⟩ := stream
  cases failed with
  | true => rfl
  | false =>
      cases room with
      | none => simp [write]
      | some room =>
          by_cases full : room < first.length
          · have used : room ≤ first.length + second.length := by omega
            have more : room < first.length + second.length := by omega
            simp [write, full, more, List.take_append_of_le_length full.le]
            omega
          · have whole : first.take room = first := List.take_of_length_le (by omega)
            simp [write, full, whole, List.take_append]
            omega

theorem foldl_write (chunks : List (List Char)) : chunks.foldl write stream = stream.write chunks.flatten := by
  induction chunks generalizing stream with
  | nil => exact stream.write_nil.symm
  | cons chunk rest ih => rw [List.foldl_cons, ih, write_append, List.flatten_cons]

/-- A text is stored whole exactly when there is room for it. -/
theorem kept_eq_iff (data : List Char) :
    stream.kept data = data ↔ data = [] ∨ (stream.failed = false ∧ ∀ room ∈ stream.room, data.length ≤ room) := by
  obtain ⟨stored, room, failed⟩ := stream
  cases failed with
  | true => simp [kept, eq_comm]
  | false =>
      cases room with
      | none => simp [kept]
      | some room =>
          simp only [kept, Bool.false_eq_true, if_false, List.take_eq_self_iff, Option.mem_some_iff, forall_eq',
            true_and]
          constructor
          · exact .inr
          · rintro (rfl | fits)
            · exact Nat.zero_le room
            · exact fits

end OStream

/-- A stream that is written and then read to its end, after which it is not good any more. -/
structure StringStream where
  unread : List Char := []
  good : Bool := true
  deriving DecidableEq, Repr

def StringStream.write (stream : StringStream) (data : List Char) : StringStream :=
  if stream.good then { stream with unread := stream.unread ++ data } else stream

/-- The lines that a loop of `getline` reads; the last line needs no end. -/
def linesOf : List Char → List (List Char)
  | [] => []
  | c :: rest =>
      if c = '\n' then [] :: linesOf rest
      else match linesOf rest with
        | [] => [[c]]
        | line :: others => (c :: line) :: others

/-- The loop ends when the stream is not good. -/
def StringStream.getlines (stream : StringStream) : List (List Char) × StringStream :=
  if stream.good then (linesOf stream.unread, { unread := [], good := false }) else ([], stream)

theorem linesOf_line (line rest : List Char) (plain : '\n' ∉ line) :
    linesOf (line ++ '\n' :: rest) = line :: linesOf rest := by
  induction line with
  | nil => simp [linesOf]
  | cons c line ih =>
      simp only [List.mem_cons, not_or] at plain
      rw [List.cons_append, linesOf, if_neg (Ne.symm plain.1), ih plain.2]

theorem StringStream.write_nil (stream : StringStream) : stream.write [] = stream := by
  unfold StringStream.write
  split
  · rw [List.append_nil]
  · rfl

/-- Two writes are one write of both texts. -/
theorem StringStream.write_append (stream : StringStream) (first second : List Char) :
    (stream.write first).write second = stream.write (first ++ second) := by
  unfold StringStream.write
  by_cases good : stream.good = true
  · simp only [good, if_true, List.append_assoc]
  · simp only [good, Bool.false_eq_true, if_false]

/-- What is written does not depend on where it is cut. -/
theorem StringStream.foldl_write (stream : StringStream) (chunks : List (List Char)) :
    chunks.foldl write stream = stream.write chunks.flatten := by
  induction chunks generalizing stream with
  | nil => exact (stream.write_nil).symm
  | cons chunk rest ih => rw [List.foldl_cons, ih, write_append, List.flatten_cons]

end Peakwork
