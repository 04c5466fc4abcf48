/-
This file shows that the upload callback delivers the data of the request once.
-/

import Peakwork.Library.Run
import Peakwork.Proof.CommonUtils.PerformGet

namespace Peakwork.CommonUtils

namespace HTTPTransaction

/-- A call of the callback is given by the size of an element and their count. -/
def afterRead (transaction : HTTPTransaction) (call : Nat × Nat) : HTTPTransaction :=
  (transaction.read call.1 call.2).2.2

/-- The characters that the calls store, one after the other. -/
def delivered (transaction : HTTPTransaction) : List (Nat × Nat) → List Char
  | [] => []
  | call :: rest => (transaction.read call.1 call.2).2.1 ++ delivered (transaction.afterRead call) rest

end HTTPTransaction

open HTTPTransaction

/-- The count is a product of machine words. -/
def requested (call : Nat × Nat) : Nat := call.2 * call.1 % 2 ^ 64

def requestedAll (calls : List (Nat × Nat)) : Nat := (calls.map requested).sum

/-- The characters that the callback still has to deliver; the size of the data is a machine word. -/
def bytesLeft (content : List Char) (position : Nat) : Nat := (content.length - position) % 2 ^ 64

/-- The stream is good and stands at the position, and the size of its data is known. -/
structure Uploading (content : List Char) (position : Nat) (transaction : HTTPTransaction) : Prop where
  data : transaction.request.data = some { content, position }
  inside : position ≤ content.length
  size : transaction.uploadDataSize = content.length % 2 ^ 64

theorem bytesLeft_le (content : List Char) (position : Nat) : bytesLeft content position ≤ content.length - position :=
  Nat.mod_le _ _

theorem IStream_read_good {content : List Char} {position size : Nat} (fits : size ≤ content.length - position) :
    IStream.read { content, position } size =
      ((content.drop position).take size, { content, position := position + size }) := by
  have whole : ((content.drop position).take size).length = size := by
    rw [List.length_take, List.length_drop]
    omega
  simp [IStream.read, whole]

/-- A call delivers what is asked for as long as there is some left. -/
theorem read_uploading {content : List Char} {position : Nat} {transaction : HTTPTransaction}
    (uploading : Uploading content position transaction) (call : Nat × Nat) :
    let size := min (requested call) (bytesLeft content position)
    (transaction.read call.1 call.2).1 = size ∧
      (transaction.read call.1 call.2).2.1 = (content.drop position).take size ∧
      Uploading content (position + size) (transaction.afterRead call) := by
  obtain ⟨data, inside, count⟩ := uploading
  intro size
  have left : (((transaction.uploadDataSize : Int) - IStream.tellg { content, position }) % 2 ^ 64).toNat =
      bytesLeft content position := by
    have place : IStream.tellg { content, position } = position := rfl
    unfold bytesLeft
    omega
  have asked : (if bytesLeft content position > requested call then requested call else bytesLeft content position) = size := by
    show _ = min (requested call) (bytesLeft content position)
    split
    all_goals omega
  have fits : size ≤ content.length - position := (Nat.min_le_right _ _).trans (bytesLeft_le content position)
  have ran : transaction.read call.1 call.2 =
      if size ≠ 0 then
        (size, (content.drop position).take size,
          { transaction with request := { transaction.request with data := some { content, position := position + size } } })
      else (size, [], transaction) := by
    unfold HTTPTransaction.read
    rw [data]
    simp only [left]
    rw [show call.2 * call.1 % 2 ^ 64 = requested call from rfl, asked, IStream_read_good fits]
  unfold afterRead
  rw [ran]
  by_cases none_ : size = 0
  · rw [if_neg (not_not.mpr none_), none_]
    exact ⟨rfl, rfl, data, inside, count⟩
  · rw [if_pos none_]
    exact ⟨rfl, rfl, rfl, by omega, count⟩

/-- The calls deliver what they ask for, and the stream moves on by it. -/
theorem delivered_uploading {content : List Char} {position : Nat} {transaction : HTTPTransaction}
    (uploading : Uploading content position transaction) (calls : List (Nat × Nat)) :
    let size := min (requestedAll calls) (bytesLeft content position)
    transaction.delivered calls = (content.drop position).take size ∧
      Uploading content (position + size) (play afterRead transaction calls) := by
  induction calls generalizing transaction position with
  | nil =>
      rw [show requestedAll [] = 0 from rfl, Nat.zero_min]
      exact ⟨rfl, uploading⟩
  | cons call rest ih =>
      obtain ⟨-, first, next⟩ := read_uploading uploading call
      obtain ⟨later, last⟩ := ih next
      have sum : requestedAll (call :: rest) = requested call + requestedAll rest := List.sum_cons
      have shrinks : bytesLeft content (position + min (requested call) (bytesLeft content position)) =
          bytesLeft content position - min (requested call) (bytesLeft content position) := by
        have := bytesLeft_le content position
        unfold bytesLeft at this ⊢
        omega
      have total : min (requested call) (bytesLeft content position) +
          min (requestedAll rest) (bytesLeft content (position + min (requested call) (bytesLeft content position))) =
          min (requestedAll (call :: rest)) (bytesLeft content position) := by
        rw [shrinks, sum]
        omega
      constructor
      · rw [delivered, first, later, ← total, List.take_add, List.drop_drop]
      · rw [play_cons, ← total, ← Nat.add_assoc]
        exact last

/-- A stream that is good has its data counted and is rewound. -/
theorem uploading_construct (request : HTTPRequest) (response : HTTPResponse) (content : List Char) (position : Nat) :
    Uploading content 0 (construct { request with data := some { content, position } } response) where
  data := rfl
  inside := Nat.zero_le _
  size := by
    show (((content.length : Int) % 2 ^ 64).toNat) = _
    omega

/-- The calls deliver what they ask for once and in order, and then nothing. -/
structure DeliversOnce (start : HTTPTransaction) (content : List Char) (calls : List (Nat × Nat)) : Prop where
  bytes : start.delivered calls =
    content.take (min content.length (calls.map fun call => call.1 * call.2).sum)
  returns : ∀ earlier call later, calls = earlier ++ call :: later →
    ((play afterRead start earlier).read call.1 call.2).1 =
      min (content.length - (start.delivered earlier).length) (call.1 * call.2)
  ends : ∀ earlier call later, calls = earlier ++ call :: later → 0 < call.1 * call.2 →
    (((play afterRead start earlier).read call.1 call.2).1 = 0 ↔ start.delivered earlier = content)
  good : ∀ earlier later, calls = earlier ++ later → ∃ data, (play afterRead start earlier).request.data = some data ∧
    data.failed = false ∧ 0 ≤ data.tellg ∧ data.tellg ≤ (play afterRead start earlier).uploadDataSize

theorem requested_fit {call : Nat × Nat} (fit : call.1 * call.2 < 2 ^ 64) : requested call = call.1 * call.2 := by
  rw [requested, Nat.mul_comm, Nat.mod_eq_of_lt fit]

theorem requestedAll_fit {calls : List (Nat × Nat)} (fit : ∀ call ∈ calls, call.1 * call.2 < 2 ^ 64) :
    requestedAll calls = (calls.map fun call => call.1 * call.2).sum := by
  unfold requestedAll
  congr 1
  apply List.map_congr_left
  intro call member
  exact requested_fit (fit call member)

section Start

variable {transaction : HTTPTransaction} {content : List Char} (start : Uploading content 0 transaction)
  (small : content.length < 2 ^ 63)
include start small

/-- From the start of the data the calls deliver as much of it as they ask for. -/
theorem delivered_start (earlier : List (Nat × Nat)) :
    transaction.delivered earlier = content.take (min (requestedAll earlier) content.length) ∧
      Uploading content (min (requestedAll earlier) content.length) (play afterRead transaction earlier) := by
  have whole : bytesLeft content 0 = content.length := by
    unfold bytesLeft
    omega
  have moved := delivered_uploading start earlier
  simp only [whole, List.drop_zero, Nat.zero_add] at moved
  exact moved

/-- A call returns what it asks for, or what is left. -/
theorem returned_start (earlier : List (Nat × Nat)) {call : Nat × Nat} (fit : call.1 * call.2 < 2 ^ 64) :
    ((play afterRead transaction earlier).read call.1 call.2).1 =
      min (content.length - (transaction.delivered earlier).length) (call.1 * call.2) := by
  obtain ⟨sent, uploading⟩ := delivered_start start small earlier
  obtain ⟨size, -⟩ := read_uploading uploading call
  rw [size, requested_fit fit, sent, List.length_take]
  unfold bytesLeft
  omega

end Start

/-- The callback delivers the data of a good stream once, wherever the stream stands at first. -/
theorem deliversOnce_construct (request : HTTPRequest) (response : HTTPResponse) (content : List Char)
    (position : Nat) (small : content.length < 2 ^ 63) (calls : List (Nat × Nat))
    (fit : ∀ call ∈ calls, call.1 * call.2 < 2 ^ 64) :
    DeliversOnce (construct { request with data := some { content, position } } response) content calls := by
  have start := uploading_construct request response content position
  generalize construct { request with data := some { content, position } } response = transaction at start
  have returned (earlier : List (Nat × Nat)) (call : Nat × Nat) (later : List (Nat × Nat))
      (split : calls = earlier ++ call :: later) : ((play afterRead transaction earlier).read call.1 call.2).1 =
        min (content.length - (transaction.delivered earlier).length) (call.1 * call.2) := by
    apply returned_start start small earlier
    apply fit
    rw [split]
    exact List.mem_append_right _ List.mem_cons_self
  constructor
  · rw [(delivered_start start small calls).1, requestedAll_fit fit, Nat.min_comm]
  · exact returned
  · intro earlier call later split positive
    obtain ⟨sent, -⟩ := delivered_start start small earlier
    rw [returned earlier call later split]
    constructor
    · intro nothing
      have whole : content.length ≤ (transaction.delivered earlier).length := by omega
      rw [sent, List.length_take] at whole
      rw [sent, List.take_of_length_le (by omega)]
    · intro whole
      rw [whole]
      omega
  · intro earlier later _
    obtain ⟨-, data, inside, count⟩ := delivered_start start small earlier
    refine ⟨_, data, rfl, Int.natCast_nonneg _, ?_⟩
    rw [count]
    show ((min (requestedAll earlier) content.length : Nat) : Int) ≤ _
    omega

/-- The data ends within the second call. -/
theorem deliversOnce_construct_example :
    DeliversOnce (construct { url := "/a", data := some { content := ['a', 'b', 'c'], position := 1 } } { data := none })
      ['a', 'b', 'c'] [(1, 2), (2, 1), (1, 5)] :=
  deliversOnce_construct { url := "/a" } { data := none } ['a', 'b', 'c'] 1 (by decide) [(1, 2), (2, 1), (1, 5)]
    (by decide)

end Peakwork.CommonUtils
