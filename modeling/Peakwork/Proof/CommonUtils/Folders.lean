/-
This file proves that a folder is created with the folders above it and nothing else.
-/

import Mathlib.Data.List.TakeWhile
import Peakwork.Construction.CommonUtils.Filesystem
import Peakwork.Library.Folders

namespace Peakwork.CommonUtils

open FilePath FileSystem

/-- Every place along a path is a directory. -/
def Ready (fs : FileSystem) (text : List Char) : Prop := fs.Along (fs.start (.ofText text)) (ofText text).names

variable {refused : Place → Bool} {fs : FileSystem} {createdDir nextPart text : List Char}

theorem createParts_nil (createdDir : List Char) : createParts refused createdDir [] fs = fs := by
  rw [createParts, if_pos rfl]

/-- A path that is there is passed. -/
theorem createParts_pass (long : nextPart ≠ [])
    (present : (fs.stat (createdDir ++ upToSlash nextPart)).isSome) :
    createParts refused createdDir nextPart fs =
      createParts refused (createdDir ++ upToSlash nextPart ++ ['/'])
        (behindSlash nextPart) fs := by
  rw [createParts, if_neg long]
  have there : ¬ (createdDir ++ upToSlash nextPart ≠ [] ∧
      (fs.stat (createdDir ++ upToSlash nextPart)).isNone) := by
    rintro ⟨_, missing⟩
    rw [Option.isNone_iff_eq_none.mp missing] at present
    cases present
  exact if_neg there

/-- A path that is missing and cannot be made ends the loop. -/
theorem createParts_stop (long : nextPart ≠ []) (some_ : createdDir ++ upToSlash nextPart ≠ [])
    (missing : fs.stat (createdDir ++ upToSlash nextPart) = none)
    (failed : fs.mkdir refused (createdDir ++ upToSlash nextPart) allAccess = none) :
    createParts refused createdDir nextPart fs = fs := by
  rw [createParts, if_neg long]
  have there : createdDir ++ upToSlash nextPart ≠ [] ∧
      (fs.stat (createdDir ++ upToSlash nextPart)).isNone := ⟨some_, Option.isNone_iff_eq_none.mpr missing⟩
  refine (if_pos there).trans ?_
  rw [failed]

theorem createParts_make {made : FileSystem} (long : nextPart ≠ [])
    (some_ : createdDir ++ upToSlash nextPart ≠ [])
    (missing : fs.stat (createdDir ++ upToSlash nextPart) = none)
    (done : fs.mkdir refused (createdDir ++ upToSlash nextPart) allAccess = some made) :
    createParts refused createdDir nextPart fs =
      createParts refused (createdDir ++ upToSlash nextPart ++ ['/'])
        (behindSlash nextPart) (made.chmod (createdDir ++ upToSlash nextPart) allAccess) := by
  rw [createParts, if_neg long]
  have there : createdDir ++ upToSlash nextPart ≠ [] ∧
      (fs.stat (createdDir ++ upToSlash nextPart)).isNone := ⟨some_, Option.isNone_iff_eq_none.mpr missing⟩
  refine (if_pos there).trans ?_
  rw [done]

/-- Behind a zero no system call sees more of the path, so nothing is made. -/
theorem createParts_zero (zero : '\x00' ∈ createdDir) (plain : ['.', '.'] ∉ (ofText createdDir).names)
    (ready : Ready fs createdDir) (nextPart : List Char) : createParts refused createdDir nextPart fs = fs := by
  induction count : nextPart.length using Nat.strong_induction_on generalizing createdDir nextPart with
  | _ count ih =>
      by_cases long : nextPart = []
      · rw [long, createParts_nil]
      · have same (back : List Char) : cPath (createdDir ++ back) = cPath createdDir := cPath_append_zero zero back
        have path (back : List Char) : ofText (createdDir ++ back) = ofText createdDir := by
          rw [ofText, ofText, same]
        by_cases empty : cPath createdDir = []
        · have none_ : cPath (createdDir ++ upToSlash nextPart) = [] := (same _).trans empty
          exact createParts_stop long (List.append_ne_nil_of_left_ne_nil (List.ne_nil_of_mem zero) _)
            (stat_empty none_) (mkdir_empty refused allAccess none_)
        · obtain ⟨mode, found⟩ := @stat_along fs (createdDir ++ upToSlash nextPart) (by rwa [same])
             (by rwa [path]) (by rw [path]; exact ready)
          rw [createParts_pass long (Option.isSome_of_eq_some found), List.append_assoc]
          refine ih _ (count ▸ length_behindSlash long) (List.mem_append_left _ zero) ?_ ?_ _ rfl
          · rwa [path]
          · rw [Ready, path]
            exact ready

/-- A round with a new name makes one directory, or it passes it or stops at it. -/
theorem createParts_name {base : Place} {front more : List (List Char)} {name : List Char} (long : nextPart ≠ [])
    (some_ : createdDir ++ upToSlash nextPart ≠ [])
    (resolved : ∀ later : FileSystem, later.cwd = fs.cwd → later.Along base front →
      later.resolve (createdDir ++ upToSlash nextPart) = some (base ++ front ++ [name]))
    (begun : fs.Along base front) (clear : fs.Clear base (front ++ [name] ++ more))
    (resume : ∀ later : FileSystem, later.cwd = fs.cwd → later.Along base (front ++ [name]) →
      later.Clear base (front ++ [name] ++ more) →
      createParts refused (createdDir ++ upToSlash nextPart ++ ['/'])
          (behindSlash nextPart) later =
        makePath refused allAccess later base (front ++ [name] ++ more)) :
    createParts refused createdDir nextPart fs = makePath refused allAccess fs base (front ++ [name] ++ more) := by
  have found := resolved fs rfl begun
  have here : fs.isDirectory (base ++ front) = true := begun front (List.prefix_refl front)
  have above : fs.isDirectory (base ++ front ++ [name]).dropLast = true := above_concat here
  cases missing : fs.entries (base ++ front ++ [name]) with
  | some entry =>
      have directory : fs.isDirectory (base ++ (front ++ [name])) = true := by
        apply (clear _ (List.prefix_append _ more)).resolve_left
        rw [← List.append_assoc, missing]
        exact Option.some_ne_none entry
      have known : fs.isDirectory (base ++ front ++ [name]) = true := by
        rw [List.append_assoc]
        exact directory
      obtain ⟨mode, present⟩ := stat_directory found known
      rw [createParts_pass long (Option.isSome_of_eq_some present)]
      exact resume fs rfl (along_of_present directory) clear
  | none =>
      rw [List.append_assoc, makePath_append begun, List.singleton_append]
      cases allowed : refused (base ++ front ++ [name]) with
      | true =>
          rw [makePath_refused missing allowed]
          exact createParts_stop long some_ (stat_missing found missing) (mkdir_refused found allowed)
      | false =>
          obtain ⟨given, made⟩ := @mkdir_make fs _ allAccess _ refused found missing above allowed
          have kept := begun.withDirectory (base ++ front ++ [name]) given (.inr above)
          have along : (fs.withDirectory (base ++ front ++ [name]) allAccess (.inr above)).Along base
              (front ++ [name]) := by
            apply along_of_present
            rw [← List.append_assoc]
            exact isDirectory_withDirectory_self
          rw [createParts_make long some_ (stat_missing found missing) made,
            chmod_withDirectory (resolved _ rfl kept),
            resume (fs.withDirectory (base ++ front ++ [name]) allAccess (.inr above)) rfl along
              (clear.withDirectory _ _ _), makePath_append along, makePath_made here missing allowed,
            ← List.append_assoc base front [name]]

/-- What holds between two rounds of the loop. -/
structure Looping (fs : FileSystem) (createdDir nextPart : List Char) : Prop where
  opened : Opened createdDir
  whole : '\x00' ∉ createdDir
  first : createdDir = [] → nextPart.head? ≠ some '/'
  plain : ['.', '.'] ∉ (ofText (createdDir ++ nextPart)).names
  ready : Ready fs createdDir
  clear : fs.Clear (fs.start (.ofText (createdDir ++ nextPart))) (ofText (createdDir ++ nextPart)).names

/-- The rest of the path is made from the state that a round leaves. -/
def Resumes (refused : Place → Bool) (later : FileSystem) (nextPart : List Char) : Prop :=
  ∀ createdDir rest, rest.length < nextPart.length → Looping later createdDir rest →
    createParts refused createdDir rest later = makePath refused allAccess later
      (later.start (.ofText (createdDir ++ rest))) (ofText (createdDir ++ rest)).names

section Texts

theorem upToSlash_append (text : List Char) : upToSlash text ++ text.dropWhile (· ≠ '/') = text :=
  List.takeWhile_append_dropWhile

/-- The next part ends the path, or a slash stands behind it. -/
theorem upToSlash_cases (text : List Char) :
    (text = upToSlash text ∧ behindSlash text = []) ∨ text = upToSlash text ++ '/' :: behindSlash text := by
  have parts := upToSlash_append text
  rw [behindSlash]
  cases behind : text.dropWhile (· ≠ '/') with
  | nil =>
      rw [behind, List.append_nil] at parts
      exact .inl ⟨parts.symm, rfl⟩
  | cons c rest =>
      have slash : c = '/' := by
        have stops := List.head?_dropWhile_not (· ≠ '/') text
        rw [behind] at stops
        simpa using stops
      rw [behind, slash] at parts
      exact .inr parts.symm

theorem slash_not_mem (text : List Char) : '/' ∉ cPath (upToSlash text) := by
  intro member
  simpa using List.mem_takeWhile_imp (mem_of_mem_cPath member)

/-- A zero in the part ends the path there. -/
theorem ofText_zero (zero : '\x00' ∈ upToSlash nextPart) (createdDir : List Char) :
    ofText (createdDir ++ nextPart) = ofText (createdDir ++ upToSlash nextPart) := by
  have cut := cPath_append_zero (List.mem_append_right createdDir zero) (nextPart.dropWhile (· ≠ '/'))
  rw [List.append_assoc, upToSlash_append] at cut
  rw [ofText, ofText, cut]

/-- The names of a path are those of its first part and more. -/
theorem namesOf_cPath (text : List Char) :
    ∃ more, namesOf (cPath text) = namesOf (cPath (upToSlash text)) ++ more := by
  by_cases zero : '\x00' ∈ upToSlash text
  · have cut := cPath_append_zero zero (text.dropWhile (· ≠ '/'))
    rw [upToSlash_append] at cut
    exact ⟨[], by rw [cut, List.append_nil]⟩
  · rcases upToSlash_cases text with ⟨same, _⟩ | slash
    · exact ⟨[], by rw [← same, List.append_nil]⟩
    · have cut : cPath text = upToSlash text ++ '/' :: cPath (behindSlash text) := by
        conv => lhs; rw [slash]
        rw [cPath_append_plain zero, ← List.singleton_append, cPath_append_plain (by decide)]
        rfl
      rw [cut, namesOf_slash, cPath_plain zero]
      exact ⟨_, rfl⟩

/-- A path that is not empty starts where a longer one starts. -/
theorem start_append (long : cPath text ≠ []) (back : List Char) :
    fs.start (.ofText (text ++ back)) = fs.start (.ofText text) := by
  obtain ⟨tail, shape⟩ := cPath_before text back
  have same : (cPath (text ++ back)).head? = (cPath text).head? := by
    rw [← shape, List.head?_append_of_ne_nil _ long]
  rw [FileSystem.start, FileSystem.start, ofText, ofText, same]

theorem start_upToSlash (filled : cPath (createdDir ++ upToSlash nextPart) ≠ []) :
    fs.start (.ofText (createdDir ++ upToSlash nextPart)) = fs.start (.ofText (createdDir ++ nextPart)) := by
  have longer := @start_append fs _ filled (nextPart.dropWhile (· ≠ '/'))
  rw [List.append_assoc, upToSlash_append] at longer
  exact longer.symm

theorem start_congr {later : FileSystem} (same : later.cwd = fs.cwd) (path : FilePath) :
    later.start path = fs.start path := by
  rw [FileSystem.start, FileSystem.start, same]

end Texts

namespace Looping

variable (looping : Looping fs createdDir nextPart)
include looping

theorem start : fs.start (.ofText (createdDir ++ nextPart)) = fs.start (.ofText createdDir) := by
  by_cases empty : createdDir = []
  · have relative : (cPath nextPart).head? ≠ some '/' := by
      intro slash
      obtain ⟨tail, shape⟩ := List.head?_eq_some_iff.mp slash
      have before : cPath nextPart <+: nextPart := List.takeWhile_prefix _
      rw [shape] at before
      obtain ⟨back, whole⟩ := before
      exact looping.first empty (by rw [← whole]; rfl)
    rw [empty, List.nil_append]
    show (if decide ((cPath nextPart).head? = some '/') then [] else fs.cwd) = fs.cwd
    rw [decide_eq_false relative]
    rfl
  · apply start_append
    rwa [cPath_plain looping.whole]

theorem created : (ofText createdDir).names = namesOf createdDir := by
  rw [ofText, cPath_plain looping.whole]

/-- The path so far leads through directories. -/
theorem begun : fs.Along (fs.start (.ofText (createdDir ++ nextPart))) (namesOf createdDir) := by
  have ready := looping.ready
  rw [Ready, ← looping.start, looping.created] at ready
  exact ready

theorem cut : cPath (createdDir ++ upToSlash nextPart) = createdDir ++ cPath (upToSlash nextPart) :=
  cPath_append_plain looping.whole _

/-- The names of the whole path are the old ones, perhaps one more, and the rest. -/
theorem names : ∃ more, (ofText (createdDir ++ nextPart)).names =
    (ofText (createdDir ++ upToSlash nextPart)).names ++ more := by
  obtain ⟨more, names⟩ := namesOf_cPath nextPart
  refine ⟨more, ?_⟩
  rw [ofText, ofText, looping.cut, cPath_append_plain looping.whole, looping.opened.namesOf_append,
    looping.opened.namesOf_append, names, List.append_assoc]

theorem plain_text : ['.', '.'] ∉ (ofText (createdDir ++ upToSlash nextPart)).names := by
  intro member
  obtain ⟨more, names⟩ := looping.names
  apply looping.plain
  rw [names]
  exact List.mem_append_left more member

variable (long : nextPart ≠ [])
include long

/-- A round always has a part before the next slash or something in front of it. -/
theorem text_ne_nil : createdDir ++ upToSlash nextPart ≠ [] := by
  intro empty
  obtain ⟨none_, part⟩ := List.append_eq_nil_iff.mp empty
  rcases upToSlash_cases nextPart with ⟨same, _⟩ | slash
  · exact long (same.trans part)
  · rw [part, List.nil_append] at slash
    exact looping.first none_ (by rw [slash]; rfl)

/-- After a round the loop goes on with the rest of the path, when the path so far is there. -/
theorem resume {later : FileSystem} (ready : Ready later (createdDir ++ upToSlash nextPart))
    (clear : later.Clear (later.start (.ofText (createdDir ++ nextPart))) (ofText (createdDir ++ nextPart)).names)
    (resumes : Resumes refused later nextPart) :
    createParts refused (createdDir ++ upToSlash nextPart ++ ['/']) (behindSlash nextPart) later =
      makePath refused allAccess later (later.start (.ofText (createdDir ++ nextPart)))
        (ofText (createdDir ++ nextPart)).names := by
  by_cases zero : '\x00' ∈ upToSlash nextPart
  · have inside := List.mem_append_right createdDir zero
    have path : ofText (createdDir ++ upToSlash nextPart ++ ['/']) = ofText (createdDir ++ upToSlash nextPart) := by
      rw [ofText, ofText, cPath_append_zero inside]
    rw [ofText_zero zero, makePath_along ready]
    apply createParts_zero (List.mem_append_left _ inside)
    · rw [path]
      exact looping.plain_text
    · rw [Ready, path]
      exact ready
  · rcases upToSlash_cases nextPart with ⟨same, none_⟩ | slash
    · rw [none_, createParts_nil, same]
      exact (makePath_along ready).symm
    · have joined : createdDir ++ upToSlash nextPart ++ ['/'] ++ behindSlash nextPart = createdDir ++ nextPart := by
        conv => rhs; rw [slash]
        simp
      have plainText : '\x00' ∉ createdDir ++ upToSlash nextPart := by
        intro member
        exact (List.mem_append.mp member).elim looping.whole zero
      have next := resumes (createdDir ++ upToSlash nextPart ++ ['/']) (behindSlash nextPart)
        (length_behindSlash long)
      rw [joined] at next
      apply next
      refine ⟨.inr ⟨_, rfl⟩, ?_, fun empty => absurd empty (by simp), ?_, ?_, ?_⟩
      · intro member
        exact (List.mem_append.mp member).elim plainText (by decide)
      · rw [joined]
        exact looping.plain
      · have start : later.start (.ofText (createdDir ++ upToSlash nextPart ++ ['/'])) =
            later.start (.ofText (createdDir ++ upToSlash nextPart)) :=
          start_append (by rw [cPath_plain plainText]; exact looping.text_ne_nil long) ['/']
        have names : (ofText (createdDir ++ upToSlash nextPart ++ ['/'])).names =
            (ofText (createdDir ++ upToSlash nextPart)).names := by
          rw [ofText, ofText, cPath_append_plain plainText, cPath_plain plainText, show cPath ['/'] = ['/'] from rfl,
            namesOf_slash, namesOf_nil, List.append_nil]
        rw [Ready, start, names]
        exact ready
      · rw [joined]
        exact clear

/-- A path that begins with a zero is empty for the system. -/
theorem round_empty (empty : cPath (createdDir ++ upToSlash nextPart) = []) :
    createParts refused createdDir nextPart fs =
      makePath refused allAccess fs (fs.start (.ofText (createdDir ++ nextPart)))
        (ofText (createdDir ++ nextPart)).names := by
  have text := looping.text_ne_nil long
  obtain ⟨none_, part⟩ := List.append_eq_nil_iff.mp (looping.cut.symm.trans empty)
  have zero : '\x00' ∈ upToSlash nextPart := by
    by_contra plain
    rw [cPath_plain plain] at part
    exact text (by rw [none_, part]; rfl)
  have nothing : (ofText (createdDir ++ nextPart)).names = [] := by
    rw [ofText_zero zero, ofText, empty, namesOf_nil]
  rw [createParts_stop long text (stat_empty empty) (mkdir_empty refused allAccess empty), nothing, makePath]

/-- An empty part or a dot leads to the directory that is there. -/
theorem round_dot (filled : cPath (createdDir ++ upToSlash nextPart) ≠ [])
    (dot : isName (cPath (upToSlash nextPart)) = false) (resumes : Resumes refused fs nextPart) :
    createParts refused createdDir nextPart fs =
      makePath refused allAccess fs (fs.start (.ofText (createdDir ++ nextPart)))
        (ofText (createdDir ++ nextPart)).names := by
  have own : (ofText (createdDir ++ upToSlash nextPart)).names = namesOf createdDir := by
    rw [ofText, looping.cut, looping.opened.namesOf_append, namesOf_part (slash_not_mem nextPart), dot,
      if_neg (by decide), List.append_nil]
  have ready : Ready fs (createdDir ++ upToSlash nextPart) := by
    rw [Ready, start_upToSlash filled, own]
    exact looping.begun
  obtain ⟨mode, found⟩ := stat_along filled looping.plain_text ready
  rw [createParts_pass long (Option.isSome_of_eq_some found)]
  exact looping.resume long ready looping.clear resumes

/-- A name leads to a place that is passed, made or refused. -/
theorem round_name (filled : cPath (createdDir ++ upToSlash nextPart) ≠ [])
    (named : isName (cPath (upToSlash nextPart)) = true) (resumes : ∀ later, Resumes refused later nextPart) :
    createParts refused createdDir nextPart fs =
      makePath refused allAccess fs (fs.start (.ofText (createdDir ++ nextPart)))
        (ofText (createdDir ++ nextPart)).names := by
  obtain ⟨more, names⟩ := looping.names
  have own : (ofText (createdDir ++ upToSlash nextPart)).names =
      namesOf createdDir ++ [cPath (upToSlash nextPart)] := by
    rw [ofText, looping.cut, looping.opened.namesOf_append, namesOf_part (slash_not_mem nextPart), if_pos named]
  have plain := looping.plain_text
  rw [own, List.mem_append, List.mem_singleton, not_or] at plain
  have clear := looping.clear
  rw [names, own] at clear ⊢
  apply createParts_name long (looping.text_ne_nil long) _ looping.begun clear
  · intro later same along clearLater
    have again := start_congr same (.ofText (createdDir ++ nextPart))
    have ready : Ready later (createdDir ++ upToSlash nextPart) := by
      rw [Ready, start_congr same, start_upToSlash filled, own]
      exact along
    rw [← own, ← names, ← again] at clearLater ⊢
    exact looping.resume long ready clearLater (resumes later)
  · intro later same along
    have found : later.start (.ofText (createdDir ++ upToSlash nextPart)) =
        fs.start (.ofText (createdDir ++ nextPart)) := (start_congr same _).trans (start_upToSlash filled)
    rw [← found] at along ⊢
    exact resolve_name looping.opened looping.cut (slash_not_mem nextPart) named (Ne.symm plain.2) plain.1 along

end Looping

/-- The loop makes the directories along the path. -/
theorem createParts_eq (looping : Looping fs createdDir nextPart) :
    createParts refused createdDir nextPart fs =
      makePath refused allAccess fs (fs.start (.ofText (createdDir ++ nextPart)))
        (ofText (createdDir ++ nextPart)).names := by
  induction count : nextPart.length using Nat.strong_induction_on generalizing createdDir nextPart fs with
  | _ count ih =>
      have resumes (later : FileSystem) : Resumes refused later nextPart := by
        intro createdDir rest less looping
        exact ih rest.length (count ▸ less) looping rfl
      by_cases long : nextPart = []
      · have begun := looping.begun
        rw [long, List.append_nil] at begun ⊢
        rw [createParts_nil, looping.created, makePath_along begun]
      · by_cases empty : cPath (createdDir ++ upToSlash nextPart) = []
        · exact looping.round_empty long empty
        · cases named : isName (cPath (upToSlash nextPart)) with
          | false => exact looping.round_dot long empty named (resumes fs)
          | true => exact looping.round_name long empty named resumes

variable {dir : List Char}

/-- The function makes the directories along its path, whatever slashes and dots the path has. -/
theorem createFolder_eq (plain : ['.', '.'] ∉ (ofText dir).names)
    (clear : fs.Clear (fs.start (.ofText dir)) (ofText dir).names) :
    createFolder refused dir fs =
      makePath refused allAccess fs (fs.start (.ofText dir)) (ofText dir).names := by
  rw [createFolder]
  by_cases empty : dir = []
  · rw [if_pos (.inl empty), empty]
    rfl
  · by_cases present : (fs.stat dir).isSome = true
    · rw [if_pos (.inr present)]
      obtain ⟨entry, found⟩ := Option.isSome_iff_exists.mp present
      obtain ⟨place, resolved, there⟩ := Option.bind_eq_some_iff.mp found
      rw [resolve] at resolved
      split at resolved
      · cases resolved
      · have same := follow_names (plain_parts plain) resolved
        have entry_ := (Option.filter_eq_some_iff.mp there).1
        have directory := (clear _ (List.prefix_refl _)).resolve_left fun missing => by
          rw [same] at entry_
          exact Option.some_ne_none entry (entry_.symm.trans missing)
        exact (makePath_along (along_of_present directory)).symm
    · rw [if_neg (not_or.mpr ⟨empty, present⟩)]
      have top (path : FilePath) (none_ : path.names = []) : fs.Along (fs.start path) path.names := by
        intro front before
        rw [none_] at before
        rw [List.prefix_nil.mp before, List.append_nil, FileSystem.start]
        split
        · exact fs.root
        · exact fs.current
      by_cases absolute : dir.head? = some '/'
      · obtain ⟨rest, rfl⟩ := List.head?_eq_some_iff.mp absolute
        rw [if_pos absolute, List.tail_cons]
        exact @createParts_eq refused fs ['/'] rest
          ⟨.inr ⟨[], rfl⟩, by decide, fun none_ => absurd none_ (by decide), plain, top _ rfl, clear⟩
      · rw [if_neg absolute]
        exact @createParts_eq refused fs [] dir
          ⟨.inl rfl, by decide, fun _ => absolute, plain, top _ rfl, clear⟩

/-- A call on a path that is there changes nothing. -/
theorem createFolder_ready (plain : ['.', '.'] ∉ (ofText dir).names) (ready : Ready fs dir) :
    createFolder refused dir fs = fs := by
  rw [createFolder_eq plain fun front before => .inr (ready front before), makePath_along ready]

/-- Exactly the missing places along the path become directories, up to the first one that is refused; when
none is refused, the whole path is there and another call changes nothing. -/
theorem createFolder_creates (refused : Place → Bool) (dir : List Char) (fs : FileSystem)
    (plain : ['.', '.'] ∉ (ofText dir).names)
    (clear : fs.Clear (fs.start (.ofText dir)) (ofText dir).names) :
    (∀ new, Creates refused fs (fs.start (.ofText dir)) (ofText dir).names new →
        (createFolder refused dir fs).entries new = some (.directory 0o777)) ∧
      (∀ old, ¬ Creates refused fs (fs.start (.ofText dir)) (ofText dir).names old →
        (createFolder refused dir fs).entries old = fs.entries old) ∧
      ((∀ front, front <+: (ofText dir).names → fs.entries (fs.start (.ofText dir) ++ front) = none →
          refused (fs.start (.ofText dir) ++ front) = false) →
        (createFolder refused dir fs).Along (fs.start (.ofText dir)) (ofText dir).names ∧
          (cPath dir ≠ [] → ∃ mode, (createFolder refused dir fs).stat dir = some (.directory mode)) ∧
          ∀ again, createFolder again dir (createFolder refused dir fs) = createFolder refused dir fs) := by
  have here : fs.isDirectory (fs.start (.ofText dir)) = true := by
    rw [FileSystem.start]
    split
    · exact fs.root
    · exact fs.current
  obtain ⟨created, kept⟩ := @makePath_entries fs _ allAccess _ refused here clear
  have made := @createFolder_eq refused fs dir plain clear
  rw [← made] at created kept
  refine ⟨created, kept, fun allowed => ?_⟩
  have along := @makePath_isDirectory fs _ allAccess _ refused here clear allowed
  have cwd := @makePath_cwd fs (fs.start (.ofText dir)) allAccess refused (ofText dir).names
  rw [← made] at along cwd
  have ready : Ready (createFolder refused dir fs) dir := by
    rw [Ready, start_congr cwd]
    exact along
  exact ⟨along, fun long => stat_along long plain ready, fun again => createFolder_ready plain ready⟩

/-- A process stands in the only directory below the root. -/
def served : FileSystem where
  entries place := if place = [] ∨ place = ["srv".toList] then some (.directory 0o755) else none
  cwd := ["srv".toList]
  umask := 0o022
  root := rfl
  parents := by
    intro place name present
    by_cases top : place = []
    · rw [if_pos (.inl top)]
      rfl
    · rw [if_neg] at present
      · cases present
      · rintro (none_ | one)
        · simp at none_
        · have shorter := congrArg List.length one
          have long := List.length_pos_iff.mpr top
          rw [List.length_append, List.length_singleton, List.length_singleton] at shorter
          omega
  current := rfl

theorem served_creates : (createFolder (fun _ => false) "log//./app/".toList served).Along ["srv".toList]
    ["log".toList, "app".toList] := by
  have clear : served.Clear (served.start (.ofText "log//./app/".toList)) (ofText "log//./app/".toList).names := by
    intro front before
    cases front with
    | nil => exact .inr rfl
    | cons first rest => exact .inl rfl
  have creates := createFolder_creates (fun _ => false) "log//./app/".toList served (by decide) clear
  exact (creates.2.2 fun _ _ _ => rfl).1

end Peakwork.CommonUtils
