/-
This file gives a tree of directories without links and the system calls that look at it and change it.
-/

import Peakwork.Library.FilePath

namespace Peakwork

/-- The names that lead from the root to a place. -/
abbrev Place := List (List Char)

inductive Entry where
  | directory (mode : Nat)
  | other (content : List Char)
  deriving DecidableEq, Repr

def Entry.isDirectory : Entry → Bool
  | .directory _ => true
  | .other _ => false

/-- An entry stands in a directory, and so does the process. -/
structure FileSystem where
  entries : Place → Option Entry
  cwd : Place
  umask : Nat
  root : (entries []).any Entry.isDirectory = true
  parents : ∀ place name, (entries (place ++ [name])).isSome → (entries place).any Entry.isDirectory = true
  current : (entries cwd).any Entry.isDirectory = true

namespace FileSystem

def isDirectory (fs : FileSystem) (place : Place) : Bool := (fs.entries place).any Entry.isDirectory

theorem parent_directory (fs : FileSystem) {place : Place} (present : (fs.entries place).isSome) (deep : place ≠ []) :
    fs.isDirectory place.dropLast = true := by
  rw [← List.dropLast_append_getLast deep] at present
  exact fs.parents _ _ present

/-- Whatever stands below a place shows that the place is a directory. -/
theorem isDirectory_above (fs : FileSystem) {place : Place} {below : List (List Char)}
    (present : (fs.entries (place ++ below)).isSome) (deep : below ≠ []) : fs.isDirectory place = true := by
  induction below using List.reverseRecOn with
  | nil => exact absurd rfl deep
  | append_singleton front name ih =>
      rw [← List.append_assoc] at present
      have parent := fs.parents _ _ present
      cases front with
      | nil =>
          rw [List.append_nil] at parent
          exact parent
      | cons first rest =>
          apply ih _ (List.cons_ne_nil first rest)
          exact Option.isSome_of_any parent

/-- A place whose parent is a directory becomes a directory of the mode. -/
def withDirectory (fs : FileSystem) (place : Place) (mode : Nat)
    (parent : place = [] ∨ fs.isDirectory place.dropLast = true) : FileSystem where
  entries := Function.update fs.entries place (some (.directory mode))
  cwd := fs.cwd
  umask := fs.umask
  root := by
    rw [Function.update_apply]
    split
    · rfl
    · exact fs.root
  parents := by
    intro above name present
    rw [Function.update_apply]
    split
    · rfl
    · rw [Function.update_apply] at present
      split at present
      · rename_i same
        rcases parent with none_ | directory
        · exact absurd (same.trans none_) (by simp)
        · rw [← same, List.dropLast_concat] at directory
          exact directory
      · exact fs.parents above name present
  current := by
    rw [Function.update_apply]
    split
    · rfl
    · exact fs.current

/-- A directory is made where nothing is. -/
def make (fs : FileSystem) (place : Place) (mode : Nat) : Option FileSystem :=
  if free : fs.entries place = none ∧ fs.isDirectory place.dropLast = true then
    some (fs.withDirectory place mode (.inr free.2))
  else none

def setMode (fs : FileSystem) (place : Place) (mode : Nat) : FileSystem :=
  if directory : fs.isDirectory place = true then
    fs.withDirectory place mode (by
      by_cases deep : place = []
      · exact .inl deep
      · exact .inr (fs.parent_directory (Option.isSome_of_any directory) deep))
  else fs

/-- A part of a path is looked up in a directory. -/
def enter (place : Place) (part : List Char) : Place :=
  if part = ['.'] then place else if part = ['.', '.'] then place.dropLast else place ++ [part]

/-- An empty part stands between two slashes and is skipped. -/
def follow (fs : FileSystem) : Place → List (List Char) → Option Place
  | place, [] => some place
  | place, part :: rest =>
      if part = [] then fs.follow place rest
      else if fs.isDirectory place then fs.follow (enter place part) rest
      else none

def start (fs : FileSystem) (path : FilePath) : Place := if path.absolute then [] else fs.cwd

def resolve (fs : FileSystem) (text : List Char) : Option Place :=
  if FilePath.cPath text = [] then none
  else fs.follow (fs.start (.ofText text)) ((FilePath.cPath text).splitOn '/')

/-- A path that ends with a slash is the path of a directory. -/
def stat (fs : FileSystem) (text : List Char) : Option Entry :=
  (fs.resolve text).bind fun place =>
    (fs.entries place).filter fun entry => (FilePath.cPath text).getLast? ≠ some '/' ∨ entry.isDirectory

/-- The system may refuse a new directory for a reason of its own, such as a permission. -/
def mkdir (refused : Place → Bool) (fs : FileSystem) (text : List Char) (mode : Nat) : Option FileSystem :=
  (fs.resolve text).bind fun place =>
    if refused place then none else fs.make place (mode &&& (0o777 ^^^ (fs.umask &&& 0o777)))

def chmod (fs : FileSystem) (text : List Char) (mode : Nat) : FileSystem :=
  match fs.resolve text with
  | some place => fs.setMode place mode
  | none => fs

end FileSystem

end Peakwork
