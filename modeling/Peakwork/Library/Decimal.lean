/-
This file gives the decimal texts of signed integers of 32 bits.
-/

import Mathlib.Tactic

namespace Peakwork.Decimal

def isInt (value : Int) : Bool := -2 ^ 31 ≤ value ∧ value < 2 ^ 31

/-- Blanks are not skipped, and there is at least one digit. -/
def readDigits (text : List Char) : Option Nat :=
  if text ≠ [] ∧ text.all Char.isDigit then some (Nat.ofDigitChars 10 text 0) else none

/-- One sign may stand before the digits. -/
def readSigned : List Char → Option Int
  | '-' :: digits => (readDigits digits).map fun value : Nat => -(value : Int)
  | '+' :: digits => (readDigits digits).map Int.ofNat
  | digits => (readDigits digits).map Int.ofNat

/-- This is `boost::lexical_cast<int>`; `none` is its exception. -/
def castInt (text : String) : Option Int := (readSigned text.toList).filter isInt

/-- This is `boost::lexical_cast<std::string>` of an `int`. -/
def castString (value : Int) : String := toString value

theorem readDigits_toDigits (value : Nat) : readDigits (Nat.toDigits 10 value) = some value := by
  have digits : (Nat.toDigits 10 value).all Char.isDigit = true := by
    rw [List.all_eq_true]
    intro c member
    exact Nat.isDigit_of_mem_toDigits (by decide) (by decide) member
  rw [readDigits, if_pos ⟨Nat.toDigits_ne_nil, digits⟩, Nat.ofDigitChars_ten_toDigits]

/-- The digits of a number start with no sign. -/
theorem readSigned_toDigits (value : Nat) :
    readSigned (Nat.toDigits 10 value) = some (value : Int) := by
  have head (c : Char) (sign : c.isDigit = false) (rest : List Char) :
      Nat.toDigits 10 value ≠ c :: rest := by
    intro spelled
    have member : c ∈ Nat.toDigits 10 value := by
      rw [spelled]
      exact List.mem_cons_self
    have digit := Nat.isDigit_of_mem_toDigits (by decide) (by decide) member
    rw [sign] at digit
    cases digit
  unfold readSigned
  split
  · exact absurd ‹_› (head '-' (by decide) _)
  · exact absurd ‹_› (head '+' (by decide) _)
  · rw [readDigits_toDigits]
    rfl

/-- An integer that is written as a text is read back. -/
theorem castInt_castString (value : Int) (small : isInt value = true) :
    castInt (castString value) = some value := by
  have read : readSigned (castString value).toList = some value := by
    rw [castString, Int.toString_eq_repr, Int.repr_eq_if]
    split
    · rw [Nat.toList_repr, readSigned_toDigits, Int.toNat_of_nonneg ‹_›]
    · have positive : (-value).toNat = -value := Int.toNat_of_nonneg (by omega)
      have minus : "-".toList = ['-'] := by decide
      rw [String.toList_append, Nat.toList_repr, minus, List.singleton_append, readSigned,
        readDigits_toDigits, Option.map_some, positive, Int.neg_neg]
  rw [castInt, read, Option.filter_some, if_pos small]

theorem isInt_of_castInt {text : String} {value : Int} (cast : castInt text = some value) :
    isInt value = true :=
  (Option.filter_eq_some_iff.mp cast).2

end Peakwork.Decimal
