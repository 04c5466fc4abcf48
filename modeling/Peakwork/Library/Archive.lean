/-
This file gives an archive of numbered volumes, where the newest one has the number zero.
-/

import Peakwork.Library.Disk

namespace Peakwork

/-- A volume has its entries in order, or it does not exist. -/
abbrev Archive (Entry : Type) := Files Nat (List Entry)

namespace Files

variable {Entry : Type}

/-- The newest volume gets entries at its end. -/
def append (archive : Archive Entry) (added : List Entry) : Archive Entry :=
  Function.update archive 0 (some ((archive 0).getD [] ++ added))

/-- The entries of the first volumes, the oldest entry first. -/
def entries (archive : Archive Entry) : Nat → List Entry
  | 0 => []
  | count + 1 => (archive count).getD [] ++ entries archive count

/-- The first volumes, the oldest volume first; a missing one is empty. -/
def volumes (archive : Archive Entry) : Nat → List (List Entry)
  | 0 => []
  | count + 1 => (archive count).getD [] :: volumes archive count

variable {archive other : Archive Entry}

theorem volumes_flatten (count : Nat) : (archive.volumes count).flatten = archive.entries count := by
  induction count with
  | zero => rfl
  | succ count ih => rw [volumes, List.flatten_cons, ih, entries]

theorem length_volumes (count : Nat) : (archive.volumes count).length = count := by
  induction count with
  | zero => rfl
  | succ count ih => rw [volumes, List.length_cons, ih]

theorem volumes_congr {count : Nat} (same : ∀ number, number < count → other number = archive number) :
    other.volumes count = archive.volumes count := by
  induction count with
  | zero => rfl
  | succ count ih =>
      rw [volumes, volumes, same count (Nat.lt_succ_self count), ih fun number below => same number (Nat.lt_succ_of_lt below)]

/-- The newest volume stands behind the others. -/
theorem volumes_newest (count : Nat) :
    archive.volumes (count + 1) = volumes (fun number => archive (number + 1)) count ++ [(archive 0).getD []] := by
  induction count with
  | zero => rfl
  | succ count ih =>
      rw [volumes, ih]
      rfl

theorem volumes_append (added : List Entry) (count : Nat) : (archive.append added).volumes (count + 1) =
    volumes (fun number => archive (number + 1)) count ++ [(archive 0).getD [] ++ added] := by
  rw [volumes_newest, append, Function.update_self, Option.getD_some]
  congr 1

/-- A shift by one number makes room for a new volume. -/
theorem volumes_shift {count : Nat} (newest : other 0 = none) (shift : ∀ number, number < count → other (number + 1) = archive number)
    (added : List Entry) : (other.append added).volumes (count + 1) = archive.volumes count ++ [added] := by
  rw [volumes_append, newest, Option.getD_none, List.nil_append, volumes_congr shift]

theorem entries_congr {count : Nat} (same : ∀ number, number < count → other number = archive number) :
    other.entries count = archive.entries count := by
  induction count with
  | zero => rfl
  | succ count ih =>
      rw [entries, entries, same count (Nat.lt_succ_self count), ih fun number below => same number (Nat.lt_succ_of_lt below)]

/-- Two archives that agree from a volume on have the same entries there. -/
theorem entries_above {first count : Nat} (within : first ≤ count)
    (same : ∀ number, first ≤ number → other number = archive number) :
    ∃ oldest, other.entries count = oldest ++ other.entries first ∧ archive.entries count = oldest ++ archive.entries first := by
  induction count, within using Nat.le_induction with
  | base => exact ⟨[], rfl, rfl⟩
  | succ count within ih =>
      obtain ⟨oldest, here, there⟩ := ih
      refine ⟨(archive count).getD [] ++ oldest, ?_, ?_⟩
      · rw [entries, same count within, here, List.append_assoc]
      · rw [entries, there, List.append_assoc]

theorem entries_suffix {first count : Nat} (within : first ≤ count) : archive.entries first <:+ archive.entries count := by
  obtain ⟨oldest, whole, _⟩ := entries_above within fun number _ => @rfl _ (archive number)
  exact ⟨oldest, whole.symm⟩

theorem mem_entries {number count : Nat} (within : number < count) {entry : Entry} (member : entry ∈ (archive number).getD []) :
    entry ∈ archive.entries count := by
  obtain ⟨oldest, whole⟩ := @entries_suffix _ archive _ _ (Nat.succ_le_of_lt within)
  rw [← whole]
  exact List.mem_append_right _ (List.mem_append_left _ member)

theorem entries_free {count : Nat} (free : ∀ number, number < count → archive number = none) : archive.entries count = [] := by
  induction count with
  | zero => rfl
  | succ count ih =>
      rw [entries, free count (Nat.lt_succ_self count), ih fun number below => free number (Nat.lt_succ_of_lt below)]
      rfl

/-- Entries that are mapped in each volume are mapped in their order. -/
theorem entries_map {Other : Type} (f : Entry → Other) (count : Nat) :
    (archive.entries count).map f = entries (fun number => some (((archive number).getD []).map f)) count := by
  induction count with
  | zero => rfl
  | succ count ih =>
      rw [entries, List.map_append, ih]
      rfl

theorem entries_append (added : List Entry) (count : Nat) :
    (archive.append added).entries (count + 1) = archive.entries (count + 1) ++ added := by
  induction count with
  | zero =>
      simp only [entries, append, Function.update_self, Option.getD_some, List.append_nil]
  | succ count ih =>
      rw [entries, ih, append, Function.update_of_ne (Nat.succ_ne_zero count), ← List.append_assoc]
      rfl

theorem append_append (first second : List Entry) : (append archive first).append second = append archive (first ++ second) := by
  simp only [append, Function.update_self, Function.update_idem, Option.getD_some, List.append_assoc]

theorem append_other (added : List Entry) {number : Nat} (older : number ≠ 0) : append archive added number = archive number :=
  Function.update_of_ne older _ _

/-- A shift by one number keeps the entries in order. -/
theorem entries_shift {count : Nat} (newest : other 0 = none) (shift : ∀ number, number < count → other (number + 1) = archive number) :
    other.entries (count + 1) = archive.entries count := by
  induction count with
  | zero =>
      show (other 0).getD [] ++ [] = []
      rw [newest, Option.getD_none, List.append_nil]
  | succ count ih =>
      rw [entries, shift count (Nat.lt_succ_self count), ih fun number below => shift number (Nat.lt_succ_of_lt below)]
      rfl

/-- The entries of the last volume are lost with it. -/
theorem entries_unlink (last : Nat) :
    (archive last).getD [] ++ (archive.unlink last).entries (last + 1) = archive.entries (last + 1) := by
  have below : (archive.unlink last).entries last = archive.entries last :=
    entries_congr fun number below => unlink_other (by omega)
  rw [entries, unlink_self, below, Option.getD_none, List.nil_append]
  rfl

/-- A volume that takes the next number keeps the order of the entries; those of the old volume there are lost. -/
theorem entries_rename (number count : Nat) :
    ((archive.rename number (number + 1)).entries count).Sublist (archive.entries count) := by
  cases found : archive number with
  | none => rw [rename_of_missing found]
  | some volume =>
      have source : archive.rename number (number + 1) number = none := rename_source (by omega)
      have target : archive.rename number (number + 1) (number + 1) = some volume := by
        rw [rename_of_found found, Function.update_self]
      have below : (archive.rename number (number + 1)).entries number = archive.entries number :=
        entries_congr fun place less => rename_other (by omega) (by omega)
      have here : (archive.rename number (number + 1)).entries (number + 1) = archive.entries number := by
        rw [entries, source, below, Option.getD_none, List.nil_append]
      have before : archive.entries (number + 1) = volume ++ archive.entries number := by
        rw [entries, found, Option.getD_some]
      rcases Nat.lt_trichotomy count (number + 1) with less | same | more
      · rw [entries_congr fun place under => rename_other (by omega) (by omega)]
      · rw [same, here, before]
        exact List.sublist_append_right _ _
      · obtain ⟨oldest, after, whole⟩ := @entries_above _ archive (archive.rename number (number + 1)) _ _ more
          fun place over_ => rename_other (by omega) (by omega)
        rw [after, whole, entries, target, here, Option.getD_some, entries, before]
        exact (List.sublist_append_right _ _).append_left _

/-- Nothing is lost where the next number is free. -/
theorem entries_rename_free {number count : Nat} (free : archive (number + 1) = none) (within : number + 2 ≤ count) :
    (archive.rename number (number + 1)).entries count = archive.entries count := by
  have source : archive.rename number (number + 1) number = none := rename_source (by omega)
  have below : (archive.rename number (number + 1)).entries number = archive.entries number :=
    entries_congr fun place less => rename_other (by omega) (by omega)
  obtain ⟨oldest, after, whole⟩ := @entries_above _ archive (archive.rename number (number + 1)) _ _ within
    fun place over_ => rename_other (by omega) (by omega)
  rw [after, whole, entries, entries, rename_target free, source, below, entries, entries, free, Option.getD_none,
    List.nil_append, List.nil_append]

theorem entries_renameDown (renames : Nat → Bool) (number count : Nat) :
    ((archive.renameDown id renames number).entries count).Sublist (archive.entries count) := by
  induction number generalizing archive with
  | zero => exact List.Sublist.refl _
  | succ number ih =>
      apply ih.trans
      split
      · exact entries_rename number count
      · exact List.Sublist.refl _

/-- A whole chain of renames into a free number loses nothing and leaves the number zero free. -/
theorem entries_renameDown_free {last count : Nat} (free : archive last = none) (within : last < count) :
    (archive.renameDown id (fun _ => true) last).entries count = archive.entries count ∧
      archive.renameDown id (fun _ => true) last 0 = none := by
  induction last generalizing archive with
  | zero => exact ⟨rfl, free⟩
  | succ last ih =>
      rw [renameDown, if_pos rfl, ← entries_rename_free free within]
      exact ih (rename_source (Nat.succ_ne_self last).symm) (Nat.lt_of_succ_lt within)

theorem renameDown_free_succ {last number : Nat} (free : archive last = none) (below : number < last) :
    archive.renameDown id (fun _ => true) last (number + 1) = archive number := by
  induction last generalizing archive with
  | zero => omega
  | succ last ih =>
      rw [renameDown, if_pos rfl]
      show (archive.rename last (last + 1)).renameDown id (fun _ => true) last (number + 1) = archive number
      rcases Nat.lt_succ_iff_lt_or_eq.mp below with less | rfl
      · rw [ih (rename_source (Nat.succ_ne_self last).symm) less]
        exact rename_other (by simp; omega) (by simp; omega)
      · rw [renameDown_other id _ number fun place under => by simp; omega]
        exact rename_target free

theorem Shows.newest {Name Sign : Type} {files : Files Name (List Sign)} {names : Nat → Name} {text : Entry → List Sign}
    (shows_ : files.Shows names (List.flatMap text) archive) : (files (names 0)).getD [] = (archive.entries 1).flatMap text := by
  rw [shows_ 0, entries, entries, List.append_nil]
  cases archive 0 <;> rfl

/-- A text that is appended to the file with the number zero shows entries that are appended to the newest volume. -/
theorem Shows.append {Name Sign : Type} [DecidableEq Name] {files : Files Name (List Sign)} {names : Nat → Name}
    {text : Entry → List Sign} (distinct : Function.Injective names) (shows_ : files.Shows names (List.flatMap text) archive)
    (added : List Entry) :
    Shows (Function.update files (names 0) (some ((files (names 0)).getD [] ++ added.flatMap text))) names (List.flatMap text)
      (archive.append added) := by
  have content : some ((files (names 0)).getD [] ++ added.flatMap text) =
      (some ((archive 0).getD [] ++ added)).map (List.flatMap text) := by
    rw [shows_ 0, Option.map_some, List.flatMap_append]
    cases archive 0 <;> rfl
  rw [content]
  exact shows_.update distinct 0 _

end Files

end Peakwork
