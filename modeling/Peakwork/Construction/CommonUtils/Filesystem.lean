/-
This file gives the function that creates a folder with all folders above it.
-/

import Peakwork.Library.FileSystem

namespace Peakwork.CommonUtils

/-- These are the bits of `S_IRWXU`, `S_IRWXG` and `S_IRWXO`. -/
def allAccess : Nat := 0o700 ||| 0o070 ||| 0o007

/-- This is `substr` up to what `find` returns; without a slash it is the whole text. -/
def upToSlash (text : List Char) : List Char := text.takeWhile (· ≠ '/')

/-- This is what `erase` leaves. -/
def behindSlash (text : List Char) : List Char := (text.dropWhile (· ≠ '/')).drop 1

/-- What is behind the next slash is shorter. -/
theorem length_behindSlash {text : List Char} (long : text ≠ []) : (behindSlash text).length < text.length := by
  have shorter := (List.dropWhile_suffix (l := text) (· ≠ '/')).length_le
  have positive := List.length_pos_iff.mpr long
  rw [behindSlash, List.length_drop]
  omega

/-- The loop moves one part of the path in each round and makes its directory. -/
def createParts (refused : Place → Bool) (createdDir nextPart : List Char) (fs : FileSystem) : FileSystem :=
  if nextPart = [] then fs
  else
    let createdDir := createdDir ++ upToSlash nextPart
    if createdDir ≠ [] ∧ (fs.stat createdDir).isNone then
      match fs.mkdir refused createdDir allAccess with
      | none => fs
      | some made =>
          createParts refused (createdDir ++ ['/']) (behindSlash nextPart) (made.chmod createdDir allAccess)
    else createParts refused (createdDir ++ ['/']) (behindSlash nextPart) fs
termination_by nextPart.length
decreasing_by
  all_goals exact length_behindSlash ‹_›

def createFolder (refused : Place → Bool) (dir : List Char) (fs : FileSystem) : FileSystem :=
  if dir = [] ∨ (fs.stat dir).isSome then fs
  else if dir.head? = some '/' then createParts refused ['/'] dir.tail fs
  else createParts refused [] dir fs

end Peakwork.CommonUtils
