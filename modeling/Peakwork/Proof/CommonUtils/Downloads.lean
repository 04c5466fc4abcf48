/-
This file decides when a download that succeeds has been stored whole.
-/

import Peakwork.Library.Run
import Peakwork.Proof.CommonUtils.PerformGet

namespace Peakwork.CommonUtils

namespace HTTPTransaction

def afterWrite (transaction : HTTPTransaction) (chunk : List Char) : HTTPTransaction := (transaction.write chunk).2

/-- The call returns the full size of its chunk. -/
def WritesFull (transaction : HTTPTransaction) (chunk : List Char) : Prop :=
  (transaction.write chunk).1 = chunk.length

/-- When every call returns the full size, the sink has stored all chunks. -/
def StoresWhole (transaction : HTTPTransaction) (sink : OStream) (chunks : List (List Char)) : Prop :=
  StepsMeet afterWrite WritesFull transaction chunks →
    (play afterWrite transaction chunks).response.data.map OStream.stored = some (sink.stored ++ chunks.flatten)

/-- The calls write their chunks into the sink. -/
theorem play_afterWrite (transaction : HTTPTransaction) (chunks : List (List Char)) :
    (play afterWrite transaction chunks).response.data =
      transaction.response.data.map (·.write chunks.flatten) := by
  induction chunks generalizing transaction with
  | nil => simp [play, OStream.write_nil]
  | cons chunk rest ih =>
      rw [play_cons, ih]
      show (transaction.response.data.map (·.write chunk)).map (·.write rest.flatten) = _
      rw [Option.map_map, List.flatten_cons]
      congr 1
      funext sink
      exact sink.write_append chunk rest.flatten

/-- A failure of the sink does not show in what the calls return. -/
theorem writesFull_always (transaction : HTTPTransaction) (chunks : List (List Char)) :
    StepsMeet afterWrite WritesFull transaction chunks := by
  induction chunks generalizing transaction with
  | nil => trivial
  | cons chunk rest ih => exact ⟨rfl, ih _⟩

/-- The sink stores all chunks exactly when there are none, or it is good and has room for them. -/
theorem storesWhole_iff (request : HTTPRequest) (sink : OStream) (chunks : List (List Char)) :
    StoresWhole (construct request { data := some sink }) sink chunks ↔
      chunks.flatten = [] ∨ (sink.failed = false ∧ ∀ room ∈ sink.room, chunks.flatten.length ≤ room) := by
  have full := writesFull_always (construct request { data := some sink }) chunks
  have stored : (play afterWrite (construct request { data := some sink }) chunks).response.data.map OStream.stored =
      some (sink.stored ++ sink.kept chunks.flatten) := by
    rw [play_afterWrite, ← sink.write_stored]
    rfl
  rw [← sink.kept_eq_iff]
  unfold StoresWhole
  rw [stored, Option.some.injEq, List.append_cancel_left_eq]
  exact forall_prop_of_true full

/-- A sink with room for one character loses the second one. -/
theorem full_sink_truncates :
    ¬ StoresWhole (construct { url := "/a" } { data := some { room := some 1 } }) { room := some 1 } [['a', 'b']] := by
  intro whole
  have stored := whole ⟨rfl, trivial⟩
  exact absurd stored (by decide)

end HTTPTransaction

end Peakwork.CommonUtils
