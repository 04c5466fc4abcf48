/-
This file makes the directories along a path and says which entries this changes.
-/

import Peakwork.Library.FileSystem

namespace Peakwork.FileSystem

open FilePath

variable {fs : FileSystem} {place other : Place} {mode later : Nat} {names parts : List (List Char)}
  {parent : place = [] ∨ fs.isDirectory place.dropLast = true}

theorem isDirectory_iff : fs.isDirectory place = true ↔ ∃ mode, fs.entries place = some (.directory mode) := by
  rw [isDirectory]
  cases fs.entries place with
  | none => simp
  | some entry =>
      cases entry with
      | directory mode => simp [Entry.isDirectory]
      | other content => simp [Entry.isDirectory]

theorem entries_withDirectory (other : Place) : (fs.withDirectory place mode parent).entries other =
    if other = place then some (.directory mode) else fs.entries other :=
  Function.update_apply _ _ _ _

theorem isDirectory_withDirectory_self : (fs.withDirectory place mode parent).isDirectory place = true := by
  rw [isDirectory, entries_withDirectory, if_pos rfl]
  rfl

theorem isDirectory_withDirectory (directory : fs.isDirectory other = true) :
    (fs.withDirectory place mode parent).isDirectory other = true := by
  rw [isDirectory, entries_withDirectory]
  split
  · rfl
  · exact directory

theorem make_eq (missing : fs.entries place = none) (above : fs.isDirectory place.dropLast = true) :
    fs.make place mode = some (fs.withDirectory place mode (.inr above)) :=
  dif_pos ⟨missing, above⟩

/-- A directory is made with one mode and gets another one. -/
theorem setMode_withDirectory :
    (fs.withDirectory place mode parent).setMode place later = fs.withDirectory place later parent := by
  rw [setMode, dif_pos isDirectory_withDirectory_self]
  simp only [withDirectory, Function.update_idem]

/-- All places along the names are directories. -/
def Along (fs : FileSystem) (place : Place) (names : List (List Char)) : Prop :=
  ∀ front, front <+: names → fs.isDirectory (place ++ front) = true

theorem Along.here (along : fs.Along place names) : fs.isDirectory place = true := by
  have first := along [] List.nil_prefix
  rwa [List.append_nil] at first

theorem Along.enter {name : List Char} (along : fs.Along place (name :: names)) :
    fs.Along (place ++ [name]) names := by
  intro front before
  rw [List.append_assoc]
  exact along (name :: front) (List.cons_prefix_cons.mpr ⟨rfl, before⟩)

theorem Along.withDirectory (along : fs.Along place names) (new : Place) (mode : Nat)
    (parent : new = [] ∨ fs.isDirectory new.dropLast = true) :
    (fs.withDirectory new mode parent).Along place names :=
  fun front before => isDirectory_withDirectory (along front before)

/-- An entry at the end of the names shows that all places above it are directories. -/
theorem along_of_present (end_ : fs.isDirectory (place ++ names) = true) :
    fs.Along place names := by
  intro front before
  obtain ⟨back, rfl⟩ := before
  cases back with
  | nil =>
      rw [List.append_nil] at end_
      exact end_
  | cons first rest =>
      rw [← List.append_assoc] at end_
      exact fs.isDirectory_above (Option.isSome_of_any end_) (List.cons_ne_nil first rest)

/-- The parts of a path lead through directories to its names. -/
theorem follow_along (plain : ['.', '.'] ∉ parts) (along : fs.Along place (parts.filter isName)) :
    fs.follow place parts = some (place ++ parts.filter isName) := by
  induction parts generalizing place with
  | nil =>
      rw [follow, List.filter_nil, List.append_nil]
  | cons part rest ih =>
      have two := (List.ne_of_not_mem_cons plain).symm
      have below := List.not_mem_of_not_mem_cons plain
      rw [follow]
      by_cases empty : part = []
      · rw [List.filter_cons_of_neg (by simp [isName, empty])] at along ⊢
        rw [if_pos empty]
        exact ih below along
      · rw [if_neg empty, if_pos along.here, FileSystem.enter, if_neg two]
        by_cases dot : part = ['.']
        · rw [List.filter_cons_of_neg (by simp [isName, dot])] at along ⊢
          rw [if_pos dot]
          exact ih below along
        · rw [List.filter_cons_of_pos (by simp [isName, empty, dot])] at along ⊢
          rw [if_neg dot, ih below along.enter, List.append_assoc, List.singleton_append]

/-- A path without two dots leads nowhere but to its names. -/
theorem follow_names (plain : ['.', '.'] ∉ parts) (found : fs.follow place parts = some other) :
    other = place ++ parts.filter isName := by
  induction parts generalizing place with
  | nil =>
      rw [List.filter_nil, List.append_nil]
      exact (Option.some.inj found).symm
  | cons part rest ih =>
      have two := (List.ne_of_not_mem_cons plain).symm
      have below := List.not_mem_of_not_mem_cons plain
      rw [follow] at found
      by_cases empty : part = []
      · rw [if_pos empty] at found
        rw [List.filter_cons_of_neg (by simp [isName, empty])]
        exact ih below found
      · rw [if_neg empty, FileSystem.enter, if_neg two] at found
        split at found
        · by_cases dot : part = ['.']
          · rw [if_pos dot] at found
            rw [List.filter_cons_of_neg (by simp [isName, dot])]
            exact ih below found
          · rw [if_neg dot] at found
            rw [List.filter_cons_of_pos (by simp [isName, empty, dot]), ih below found, List.append_assoc,
              List.singleton_append]
        · cases found

theorem follow_append (place : Place) (first second : List (List Char)) :
    fs.follow place (first ++ second) = (fs.follow place first).bind fun middle => fs.follow middle second := by
  induction first generalizing place with
  | nil => rfl
  | cons part rest ih =>
      rw [List.cons_append, follow, follow]
      split_ifs
      · exact ih place
      · exact ih (FileSystem.enter place part)
      · rfl

section Resolve

variable {text front name : List Char}

theorem stat_directory (found : fs.resolve text = some place) (directory : fs.isDirectory place = true) :
    ∃ mode, fs.stat text = some (.directory mode) := by
  obtain ⟨mode, present⟩ := isDirectory_iff.mp directory
  refine ⟨mode, ?_⟩
  rw [stat, found, Option.bind_some, present]
  simp [Option.filter, Entry.isDirectory]

/-- A path through directories is resolved, and its end is a directory. -/
theorem stat_along (long : cPath text ≠ []) (plain : ['.', '.'] ∉ (ofText text).names)
    (along : fs.Along (fs.start (.ofText text)) (ofText text).names) :
    ∃ mode, fs.stat text = some (.directory mode) := by
  have found : fs.resolve text = some (fs.start (.ofText text) ++ (ofText text).names) := by
    rw [resolve, if_neg long]
    exact follow_along (plain_parts plain) along
  exact stat_directory found (along _ (List.prefix_refl _))

theorem stat_missing (found : fs.resolve text = some place) (missing : fs.entries place = none) :
    fs.stat text = none := by
  rw [stat, found, Option.bind_some, missing, Option.filter_none]

theorem mkdir_refused {refused : Place → Bool} (found : fs.resolve text = some place)
    (refuses : refused place = true) : fs.mkdir refused text mode = none := by
  rw [mkdir, found, Option.bind_some, if_pos refuses]

theorem mkdir_make {refused : Place → Bool} (found : fs.resolve text = some place) (missing : fs.entries place = none)
    (above : fs.isDirectory place.dropLast = true) (allowed : refused place = false) :
    ∃ given, fs.mkdir refused text mode = some (fs.withDirectory place given (.inr above)) := by
  refine ⟨mode &&& (0o777 ^^^ (fs.umask &&& 0o777)), ?_⟩
  rw [mkdir, found, Option.bind_some, if_neg (by simp [allowed]), make_eq missing above]

theorem chmod_withDirectory (found : (fs.withDirectory place mode parent).resolve text = some place) :
    (fs.withDirectory place mode parent).chmod text later = fs.withDirectory place later parent := by
  rw [chmod, found]
  exact setMode_withDirectory

theorem stat_empty (empty : cPath text = []) : fs.stat text = none := by
  rw [stat, resolve, if_pos empty, Option.bind_none]

theorem mkdir_empty (refused : Place → Bool) (mode : Nat) (empty : cPath text = []) :
    fs.mkdir refused text mode = none := by
  rw [mkdir, resolve, if_pos empty, Option.bind_none]

/-- A path is resolved whose parent directories are there, whether its last name is or not. -/
theorem resolve_name (opened : Opened front) (cut : cPath text = front ++ name) (whole : '/' ∉ name)
    (named : isName name = true) (two : name ≠ ['.', '.']) (plain : ['.', '.'] ∉ namesOf front)
    (along : fs.Along (fs.start (.ofText text)) (namesOf front)) :
    fs.resolve text = some (fs.start (.ofText text) ++ namesOf front ++ [name]) := by
  obtain ⟨parts, shape, names⟩ := opened.splitOn_append whole
  have long : cPath text ≠ [] := by
    rw [cut]
    intro empty
    rw [(List.append_eq_nil_iff.mp empty).2] at named
    cases named
  have plain_ : ['.', '.'] ∉ parts := by
    intro member
    rw [← names] at plain
    exact plain (List.mem_filter.mpr ⟨member, by decide⟩)
  rw [← names] at along ⊢
  rw [isName, decide_eq_true_eq] at named
  rw [resolve, if_neg long, cut, shape, follow_append, follow_along plain_ along, Option.bind_some, follow,
    if_neg named.1, if_pos (along _ (List.prefix_refl _)), FileSystem.enter, if_neg named.2, if_neg two, follow]

end Resolve

/-- One directory after the other is made until one is refused. -/
def makePath (refused : Place → Bool) (mode : Nat) (fs : FileSystem) (place : Place) : List (List Char) → FileSystem
  | [] => fs
  | name :: rest =>
      if (fs.entries (place ++ [name])).isSome then makePath refused mode fs (place ++ [name]) rest
      else if refused (place ++ [name]) then fs
      else match fs.make (place ++ [name]) mode with
        | some made => makePath refused mode made (place ++ [name]) rest
        | none => fs

/-- No place along the names is anything else than a directory. -/
def Clear (fs : FileSystem) (place : Place) (names : List (List Char)) : Prop :=
  ∀ front, front <+: names → fs.entries (place ++ front) = none ∨ fs.isDirectory (place ++ front) = true

/-- A place is missing, and no missing place above it is refused. -/
structure Creates (refused : Place → Bool) (fs : FileSystem) (place : Place) (names : List (List Char))
    (new : Place) : Prop where
  missing : fs.entries new = none
  along : ∃ front, front <+: names ∧ new = place ++ front ∧
    ∀ above, above <+: front → fs.entries (place ++ above) = none → refused (place ++ above) = false

section Make

variable {refused : Place → Bool} {name : List Char} {rest : List (List Char)} {new : Place}

theorem Clear.enter (clear : fs.Clear place (name :: rest)) : fs.Clear (place ++ [name]) rest := by
  intro front before
  rw [List.append_assoc]
  exact clear (name :: front) (List.cons_prefix_cons.mpr ⟨rfl, before⟩)

theorem Clear.withDirectory (clear : fs.Clear place names) (new : Place) (mode : Nat)
    (parent : new = [] ∨ fs.isDirectory new.dropLast = true) :
    (fs.withDirectory new mode parent).Clear place names := by
  intro front before
  rw [entries_withDirectory]
  split
  · rename_i same
    rw [same]
    exact .inr isDirectory_withDirectory_self
  · exact (clear front before).imp_right isDirectory_withDirectory

theorem entries_ne_none (directory : fs.isDirectory place = true) : fs.entries place ≠ none := by
  intro missing
  rw [isDirectory, missing] at directory
  cases directory

theorem not_creates_nil (here : fs.isDirectory place = true) : ¬ Creates refused fs place [] new := by
  rintro ⟨missing, front, before, rfl, _⟩
  rw [List.prefix_nil.mp before, List.append_nil] at missing
  exact entries_ne_none here missing

/-- A created place is not the directory where the names begin. -/
theorem Creates.cons (creates : Creates refused fs place (name :: rest) new) (here : fs.isDirectory place = true) :
    ∃ front, front <+: rest ∧ new = place ++ [name] ++ front ∧
      ∀ above, above <+: front → fs.entries (place ++ [name] ++ above) = none →
        refused (place ++ [name] ++ above) = false := by
  obtain ⟨missing, front, before, rfl, allowed⟩ := creates
  cases front with
  | nil =>
      rw [List.append_nil] at missing
      exact absurd missing (entries_ne_none here)
  | cons first front =>
      obtain ⟨rfl, inner⟩ := List.cons_prefix_cons.mp before
      refine ⟨front, inner, by simp, fun above shorter => ?_⟩
      rw [List.append_assoc]
      exact allowed (first :: above) (List.cons_prefix_cons.mpr ⟨rfl, shorter⟩)

theorem creates_cons {front : List (List Char)} (here : fs.isDirectory place = true) (before : front <+: rest)
    (missing : fs.entries (place ++ [name] ++ front) = none)
    (allowed : ∀ above, above <+: front → fs.entries (place ++ [name] ++ above) = none →
      refused (place ++ [name] ++ above) = false) :
    Creates refused fs place (name :: rest) (place ++ [name] ++ front) := by
  refine ⟨missing, name :: front, List.cons_prefix_cons.mpr ⟨rfl, before⟩, by simp, fun above shorter free => ?_⟩
  cases above with
  | nil =>
      rw [List.append_nil] at free
      exact absurd free (entries_ne_none here)
  | cons first above =>
      obtain ⟨rfl, inner⟩ := List.cons_prefix_cons.mp shorter
      have same : place ++ first :: above = place ++ [first] ++ above := by simp
      rw [same] at free ⊢
      exact allowed above inner free

theorem creates_below_iff (here : fs.isDirectory place = true) :
    Creates refused fs place (name :: rest) new ↔ Creates refused fs (place ++ [name]) rest new := by
  constructor
  · intro creates
    exact ⟨creates.missing, creates.cons here⟩
  · rintro ⟨missing, front, before, rfl, allowed⟩
    exact creates_cons here before missing allowed

theorem not_creates_refused (here : fs.isDirectory place = true) (missing : fs.entries (place ++ [name]) = none)
    (refuses : refused (place ++ [name]) = true) : ¬ Creates refused fs place (name :: rest) new := by
  intro creates
  obtain ⟨front, _, _, allowed⟩ := creates.cons here
  have free := allowed [] List.nil_prefix
  rw [List.append_nil, refuses] at free
  cases free missing

variable (mode) in
/-- A directory that is made is created, and so is what is created below it. -/
theorem creates_made_iff (here : fs.isDirectory place = true) (missing : fs.entries (place ++ [name]) = none)
    (allowed : refused (place ++ [name]) = false)
    (parent : place ++ [name] = [] ∨ fs.isDirectory (place ++ [name]).dropLast = true) :
    Creates refused fs place (name :: rest) new ↔ new = place ++ [name] ∨
      Creates refused (fs.withDirectory (place ++ [name]) mode parent) (place ++ [name]) rest new := by
  have deeper (front : List (List Char)) (long : front ≠ []) :
      (fs.withDirectory (place ++ [name]) mode parent).entries (place ++ [name] ++ front) =
        fs.entries (place ++ [name] ++ front) := by
    rw [entries_withDirectory, if_neg]
    intro same
    exact long (by simpa using same)
  have made : (fs.withDirectory (place ++ [name]) mode parent).entries (place ++ [name] ++ []) ≠ none := by
    rw [List.append_nil]
    exact entries_ne_none isDirectory_withDirectory_self
  constructor
  · intro creates
    obtain ⟨front, before, rfl, free⟩ := creates.cons here
    by_cases long : front = []
    · exact .inl (by rw [long, List.append_nil])
    · refine .inr ⟨(deeper front long).trans creates.missing, front, before, rfl, fun above shorter none_ => ?_⟩
      by_cases top : above = []
      · rw [top] at none_
        exact absurd none_ made
      · rw [deeper above top] at none_
        exact free above shorter none_
  · rintro (rfl | ⟨none_, front, before, rfl, free⟩)
    · have self := creates_cons here (List.nil_prefix : [] <+: rest) (by rwa [List.append_nil])
        fun above shorter _ => by rwa [List.prefix_nil.mp shorter, List.append_nil]
      rwa [List.append_nil] at self
    · have long : front ≠ [] := by
        rintro rfl
        exact made none_
      rw [deeper front long] at none_
      refine creates_cons here before none_ fun above shorter missing_ => ?_
      by_cases top : above = []
      · rwa [top, List.append_nil]
      · rw [← deeper above top] at missing_
        exact free above shorter missing_

theorem above_concat (here : fs.isDirectory place = true) : fs.isDirectory (place ++ [name]).dropLast = true := by
  rw [List.dropLast_concat]
  exact here

theorem makePath_present (present : (fs.entries (place ++ [name])).isSome) :
    makePath refused mode fs place (name :: rest) = makePath refused mode fs (place ++ [name]) rest := by
  rw [makePath, if_pos present]

theorem makePath_refused (missing : fs.entries (place ++ [name]) = none)
    (refuses : refused (place ++ [name]) = true) : makePath refused mode fs place (name :: rest) = fs := by
  rw [makePath, missing, if_neg (by decide), if_pos refuses]

theorem makePath_made (here : fs.isDirectory place = true) (missing : fs.entries (place ++ [name]) = none)
    (allowed : refused (place ++ [name]) = false) :
    makePath refused mode fs place (name :: rest) =
      makePath refused mode (fs.withDirectory (place ++ [name]) mode (.inr (above_concat here))) (place ++ [name])
        rest := by
  rw [makePath, missing, if_neg (by decide), if_neg (by simp [allowed]), make_eq missing (above_concat here)]

/-- Directories that are there are passed. -/
theorem makePath_append (along : fs.Along place names) (more : List (List Char)) :
    makePath refused mode fs place (names ++ more) = makePath refused mode fs (place ++ names) more := by
  induction names generalizing place with
  | nil => rw [List.nil_append, List.append_nil]
  | cons name rest ih =>
      rw [List.cons_append, makePath_present (Option.isSome_of_any along.enter.here), ih along.enter,
        List.append_assoc, List.singleton_append]

/-- Along directories nothing is made. -/
theorem makePath_along (along : fs.Along place names) : makePath refused mode fs place names = fs := by
  have passed := @makePath_append fs place mode names refused along []
  rw [List.append_nil] at passed
  exact passed

theorem makePath_cwd (names : List (List Char)) : (makePath refused mode fs place names).cwd = fs.cwd := by
  induction names generalizing fs place with
  | nil => rfl
  | cons name rest ih =>
      rw [makePath]
      split
      · exact ih
      · split
        · rfl
        · unfold make
          split_ifs
          · exact ih
          · rfl

/-- Exactly the created places become directories, and every other entry stays. -/
theorem makePath_entries (here : fs.isDirectory place = true) (clear : fs.Clear place names) :
    (∀ new, Creates refused fs place names new →
        (makePath refused mode fs place names).entries new = some (.directory mode)) ∧
      ∀ old, ¬ Creates refused fs place names old →
        (makePath refused mode fs place names).entries old = fs.entries old := by
  induction names generalizing fs place with
  | nil => exact ⟨fun new creates => absurd creates (not_creates_nil here), fun _ _ => rfl⟩
  | cons name rest ih =>
      cases missing : fs.entries (place ++ [name]) with
      | some entry =>
          have below := clear.enter [] List.nil_prefix
          rw [List.append_nil] at below
          have directory := below.resolve_left (by simp [missing])
          have present : (fs.entries (place ++ [name])).isSome := Option.isSome_of_eq_some missing
          rw [makePath_present present]
          simp only [creates_below_iff here]
          exact ih directory clear.enter
      | none =>
          cases allowed : refused (place ++ [name]) with
          | true =>
              rw [makePath_refused missing allowed]
              exact ⟨fun new creates => absurd creates (not_creates_refused here missing allowed), fun _ _ => rfl⟩
          | false =>
              have parent : fs.isDirectory (place ++ [name]).dropLast = true := above_concat here
              obtain ⟨created, kept⟩ := @ih (fs.withDirectory (place ++ [name]) mode (.inr parent)) (place ++ [name])
                isDirectory_withDirectory_self (clear.enter.withDirectory _ mode (.inr parent))
              rw [makePath_made here missing allowed]
              simp only [creates_made_iff mode here missing allowed (.inr parent)]
              have own : (fs.withDirectory (place ++ [name]) mode (.inr parent)).entries (place ++ [name]) =
                  some (.directory mode) := by
                rw [entries_withDirectory, if_pos rfl]
              constructor
              · rintro new (rfl | creates)
                · by_cases creates : Creates refused (fs.withDirectory (place ++ [name]) mode (.inr parent))
                    (place ++ [name]) rest (place ++ [name])
                  · exact created _ creates
                  · rw [kept _ creates, own]
                · exact created new creates
              · intro old other
                obtain ⟨different, uncreated⟩ := not_or.mp other
                rw [kept old uncreated, entries_withDirectory, if_neg different]

/-- When nothing is refused, all places along the names are directories afterwards. -/
theorem makePath_isDirectory (here : fs.isDirectory place = true) (clear : fs.Clear place names)
    (allowed : ∀ front, front <+: names → fs.entries (place ++ front) = none → refused (place ++ front) = false) :
    (makePath refused mode fs place names).Along place names := by
  intro front before
  obtain ⟨created, kept⟩ := @makePath_entries fs place mode names refused here clear
  by_cases missing : fs.entries (place ++ front) = none
  · have creates : Creates refused fs place names (place ++ front) :=
      ⟨missing, front, before, rfl, fun above shorter => allowed above (shorter.trans before)⟩
    rw [isDirectory, created _ creates]
    rfl
  · have old : ¬ Creates refused fs place names (place ++ front) := fun creates => missing creates.missing
    rw [isDirectory, kept _ old]
    exact (clear front before).resolve_left missing

end Make

end Peakwork.FileSystem
