/-
This file gives files under their names and the system calls that change them.
-/

import Mathlib.Tactic

namespace Peakwork

/-- A name has a file with its content, or none. -/
abbrev Files (Name Content : Type) := Name → Option Content

namespace Files

section Calls

variable {Name Content : Type} [DecidableEq Name]

def unlink (files : Files Name Content) (name : Name) : Files Name Content := Function.update files name none

/-- A file that is missing is not renamed, and the name that a file takes loses its old file. -/
def rename (files : Files Name Content) (old new : Name) : Files Name Content :=
  match files old with
  | none => files
  | some content => Function.update (Function.update files old none) new (some content)

/-- Numbered files take the next numbers, from the last one down to zero; a call can be refused. -/
def renameDown (names : Nat → Name) (renames : Nat → Bool) : Nat → Files Name Content → Files Name Content
  | 0, files => files
  | number + 1, files => renameDown names renames number
      (if renames number then files.rename (names number) (names (number + 1)) else files)

variable {files : Files Name Content} {name old new other : Name}

theorem unlink_self : files.unlink name name = none := Function.update_self _ _ _

theorem unlink_other (apart : other ≠ name) : files.unlink name other = files other :=
  Function.update_of_ne apart _ _

theorem rename_of_missing (missing : files old = none) : files.rename old new = files := by
  rw [rename, missing]

theorem rename_of_found {content : Content} (found : files old = some content) :
    files.rename old new = Function.update (Function.update files old none) new (some content) := by
  rw [rename, found]

theorem rename_target (free : files new = none) : files.rename old new new = files old := by
  cases found : files old with
  | none => rw [rename_of_missing found, free]
  | some content => rw [rename_of_found found, Function.update_self]

theorem rename_source (apart : old ≠ new) : files.rename old new old = none := by
  cases found : files old with
  | none => rw [rename_of_missing found, found]
  | some content => rw [rename_of_found found, Function.update_of_ne apart, Function.update_self]

theorem rename_other (first : other ≠ old) (second : other ≠ new) : files.rename old new other = files other := by
  cases found : files old with
  | none => rw [rename_of_missing found]
  | some content => rw [rename_of_found found, Function.update_of_ne second, Function.update_of_ne first]

theorem renameDown_other (names : Nat → Name) (renames : Nat → Bool) (count : Nat)
    (apart : ∀ number, number ≤ count → other ≠ names number) :
    files.renameDown names renames count other = files other := by
  induction count generalizing files with
  | zero => rfl
  | succ count ih =>
      rw [renameDown, ih fun number below => apart number (Nat.le_succ_of_le below)]
      split
      · exact rename_other (apart count (Nat.le_succ count)) (apart (count + 1) le_rfl)
      · rfl

end Calls

section Shows

variable {Name Content Volume : Type}

/-- The files of some names show numbered volumes. -/
def Shows (files : Files Name Content) (names : Nat → Name) (content : Volume → Content) (volumes : Files Nat Volume) : Prop :=
  ∀ number, files (names number) = (volumes number).map content

variable [DecidableEq Name] {files : Files Name Content} {names : Nat → Name} {content : Volume → Content}
  {volumes : Files Nat Volume} (distinct : Function.Injective names) (shows_ : files.Shows names content volumes)

include distinct shows_

theorem Shows.update (number : Nat) (volume : Option Volume) :
    Shows (Function.update files (names number) (volume.map content)) names content (Function.update volumes number volume) := by
  intro place
  by_cases same : place = number
  · rw [same, Function.update_self, Function.update_self]
  · rw [Function.update_of_ne (distinct.ne same), Function.update_of_ne same]
    exact shows_ place

theorem Shows.unlink (number : Nat) : (files.unlink (names number)).Shows names content (volumes.unlink number) :=
  shows_.update distinct number none

theorem Shows.rename (old new : Nat) :
    (files.rename (names old) (names new)).Shows names content (volumes.rename old new) := by
  cases found : volumes old with
  | none =>
      have missing : files (names old) = none := by
        rw [shows_ old, found, Option.map_none]
      rw [rename_of_missing found, rename_of_missing missing]
      exact shows_
  | some volume =>
      have present : files (names old) = some (content volume) := by
        rw [shows_ old, found, Option.map_some]
      rw [rename_of_found found, rename_of_found present]
      exact (shows_.unlink distinct old).update distinct new (some volume)

/-- The chain of renames shows the chain of the numbers. -/
theorem Shows.renameDown (renames : Nat → Bool) (count : Nat) :
    (files.renameDown names renames count).Shows names content (volumes.renameDown id renames count) := by
  induction count generalizing files volumes with
  | zero => exact shows_
  | succ count ih =>
      apply ih
      split
      · exact shows_.rename distinct count (count + 1)
      · exact shows_

end Shows

end Files

/-- The names and the contents are texts. -/
abbrev Disk := Files (List Char) (List Char)

/-- A file is open for writing at a position. -/
structure Descriptor where
  name : List Char
  position : Nat
  deriving DecidableEq, Repr

/-- What a call of `write` does: it is refused, or it stores a first part of the text, or the whole text. -/
inductive Written where
  | refused
  | part (count : Nat)
  | whole
  deriving DecidableEq, Repr

/-- One call stores at most this many characters. -/
def writeLimit : Nat := 0x7ffff000

/-- The first part of a text that is stored. -/
def Written.stored (written : Written) (data : List Char) : List Char :=
  match written with
  | .refused => []
  | .part count => data.take (min count writeLimit)
  | .whole => data.take writeLimit

theorem Written.stored_whole {data : List Char} (short : data.length ≤ writeLimit) : whole.stored data = data :=
  List.take_of_length_le short

theorem Written.length_stored (written : Written) (data : List Char) : (written.stored data).length ≤ writeLimit := by
  cases written with
  | refused => exact Nat.zero_le _
  | part count => exact (List.length_take_le _ _).trans (min_le_right _ _)
  | whole => exact List.length_take_le _ _

theorem Written.stored_prefix (written : Written) (data : List Char) : written.stored data <+: data := by
  cases written with
  | refused => exact List.nil_prefix
  | part count => exact List.take_prefix _ _
  | whole => exact List.take_prefix _ _

namespace Disk

variable (disk : Disk)

/-- This is `open` with `O_CREAT`, which keeps the content of a file. -/
def create (name : List Char) : Disk := Function.update disk name (some ((disk name).getD []))

def size (name : List Char) : Nat := ((disk name).getD []).length

/-- A gap before the position is filled with zeros. -/
def writeAt (file : Descriptor) (data : List Char) : Disk :=
  let content := (disk file.name).getD []
  Function.update disk file.name (some (content.take file.position ++
    List.replicate (file.position - content.length) '\x00' ++ data ++ content.drop (file.position + data.length)))

variable {disk : Disk} {content data : List Char}

/-- A text that is written at the end is appended. -/
theorem writeAt_end {file : Descriptor} (here : disk file.name = some content)
    (end_ : file.position = content.length) : disk.writeAt file data = Function.update disk file.name (some (content ++ data)) := by
  rw [writeAt, here, Option.getD_some, end_, List.take_length, Nat.sub_self, List.replicate_zero, List.append_nil,
    List.drop_of_length_le (Nat.le_add_right _ _), List.append_nil]

end Disk

end Peakwork
