/-
This file proves what the log files hold when the disk refuses any of the calls.
-/

import Peakwork.Library.Rotation
import Peakwork.Proof.Plog.Appender

namespace Peakwork.Plog

/-- A file holds a text that was there before, headers and records, or first parts of them. -/
inductive Piece where
  | old (text : List Char)
  | header (text : List Char)
  | record (record : Record) (text : List Char)

namespace Piece

def text : Piece → List Char
  | .old text => text
  | .header text => text
  | .record _ text => text

def record? : Piece → Option Record
  | .record logged _ => some logged
  | _ => none

/-- What a process writes is a first part of the header or of the text of a record. -/
def Partly (formatter : Formatter) : Piece → Prop
  | .old _ => False
  | .header text => text <+: UTF8Converter.header formatter.header
  | .record logged text => text <+: formatter.format logged

end Piece

def LogEvent.records : LogEvent → List Record
  | .write record _ => [record]
  | .restart => []

namespace RollingFileAppender

/-- Each file that is there before the run holds one old text. -/
def before (log : RollingFileAppender) : Archive Piece :=
  fun number => (log.disk (log.buildFileName number)).map fun content => [Piece.old content]

variable {formatter : Formatter} {log : RollingFileAppender} {answers : Answers} {archive : Archive Piece}

def ShowsPieces (log : RollingFileAppender) (archive : Archive Piece) : Prop :=
  log.disk.Shows log.buildFileName (List.flatMap Piece.text) archive

theorem shows_before : log.ShowsPieces log.before := by
  intro number
  rw [before, Option.map_map]
  cases log.disk (log.buildFileName number) with
  | none => rfl
  | some content => exact congrArg some (List.append_nil content).symm

/-- Renames and a removal that may be refused keep the order of what they leave. -/
theorem rolled_shows (shows_ : log.ShowsPieces archive) : ∃ moved,
    (log.rolled answers).Shows log.buildFileName (List.flatMap Piece.text) moved ∧
      (moved.entries (log.m_lastFileNumber + 1)).Sublist (archive.entries (log.m_lastFileNumber + 1)) := by
  have distinct := log.buildFileName_injective
  have removed : ∃ left : Archive Piece,
      Files.Shows (if answers.unlinks then log.disk.unlink (log.buildFileName log.m_lastFileNumber) else log.disk)
        log.buildFileName (List.flatMap Piece.text) left ∧
      (left.entries (log.m_lastFileNumber + 1)).Sublist (archive.entries (log.m_lastFileNumber + 1)) := by
    cases answers.unlinks with
    | false => exact ⟨archive, shows_, List.Sublist.refl _⟩
    | true =>
        refine ⟨archive.unlink log.m_lastFileNumber, shows_.unlink distinct _, ?_⟩
        rw [← @Files.entries_unlink _ archive]
        exact List.sublist_append_right _ _
  obtain ⟨left, shown, part⟩ := removed
  exact ⟨_, shown.renameDown distinct answers.renames log.m_lastFileNumber, (Files.entries_renameDown _ _ _).trans part⟩

theorem rolled_other {other : List Char} (apart : ∀ number, number ≤ log.m_lastFileNumber → other ≠ log.buildFileName number) :
    log.rolled answers other = log.disk other := by
  rw [rolled, Files.renameDown_other _ _ _ apart]
  split
  · exact Files.unlink_other (apart _ le_rfl)
  · rfl

/-- The log files hold in the order of the writes what they still hold, and no other file is touched. -/
structure KeepsOrder (formatter : Formatter) (first : RollingFileAppender) (records : List Record)
    (log : RollingFileAppender) : Prop where
  files : ∃ (archive : Archive Piece) (written : List Piece),
    log.disk.Shows first.buildFileName (List.flatMap Piece.text) archive ∧
      (archive.entries (first.m_lastFileNumber + 1)).Sublist (first.before.entries (first.m_lastFileNumber + 1) ++ written) ∧
      (∀ piece ∈ written, piece.Partly formatter) ∧ (written.filterMap Piece.record?).Sublist records
  others : ∀ other, (∀ number, number ≤ first.m_lastFileNumber → other ≠ first.buildFileName number) →
    log.disk other = first.disk other

structure SameFiles (first log : RollingFileAppender) : Prop where
  names : log.buildFileName = first.buildFileName
  last : log.m_lastFileNumber = first.m_lastFileNumber

variable {first : RollingFileAppender} {records : List Record}

theorem KeepsOrder.write (keeps : KeepsOrder formatter first records log) (same : SameFiles first log) (stands : log.Stands)
    (record : Record) (answers : Answers) :
    KeepsOrder formatter first (records ++ [record]) (log.write formatter answers record) := by
  obtain ⟨archive, written, shown, part, partly, logged⟩ := keeps.files
  obtain ⟨disk, moved, outcome⟩ := @Stands.write_cases formatter log answers record stands
  have now : ∃ left : Archive Piece, disk.Shows first.buildFileName (List.flatMap Piece.text) left ∧
      (left.entries (first.m_lastFileNumber + 1)).Sublist (archive.entries (first.m_lastFileNumber + 1)) := by
    rcases moved with rfl | rfl
    · exact ⟨archive, shown, List.Sublist.refl _⟩
    · rw [← same.names, ← same.last]
      rw [← same.names] at shown
      exact rolled_shows shown
  have untouched : ∀ other, (∀ number, number ≤ first.m_lastFileNumber → other ≠ first.buildFileName number) →
      disk other = first.disk other := by
    intro other apart
    rw [← keeps.others other apart]
    rcases moved with rfl | rfl
    · rfl
    · rw [← same.names, ← same.last] at apart
      exact rolled_other apart
  obtain ⟨left, leftShown, leftPart⟩ := now
  rcases outcome with closed | ⟨head, headed, holds⟩
  · rw [closed]
    exact ⟨⟨left, written, leftShown, leftPart.trans part, partly, logged.trans (List.sublist_append_left _ _)⟩, untouched⟩
  · rw [holds]
    refine ⟨⟨left.append [.header head, .record record (answers.record.stored (formatter.format record))],
      written ++ [.header head, .record record (answers.record.stored (formatter.format record))], ?_, ?_, ?_, ?_⟩, ?_⟩
    · have appended := leftShown.append first.buildFileName_injective
        [Piece.header head, Piece.record record (answers.record.stored (formatter.format record))]
      rw [List.flatMap_cons, List.flatMap_singleton, ← List.append_assoc] at appended
      show Files.Shows (Function.update disk (log.buildFileName 0) _) _ _ _
      rw [same.names]
      exact appended
    · rw [Files.entries_append, ← List.append_assoc]
      exact (leftPart.trans part).append (List.Sublist.refl _)
    · intro piece member
      rcases List.mem_append.mp member with early | late
      · exact partly piece early
      · rcases List.mem_cons.mp late with rfl | last
        · exact headed
        · rw [List.mem_singleton.mp last]
          exact Written.stored_prefix _ _
    · rw [List.filterMap_append]
      exact logged.append (List.Sublist.refl _)
    · intro other apart
      have newest := apart 0 (Nat.zero_le _)
      rw [← same.names] at newest
      rw [← untouched other apart]
      exact Function.update_of_ne newest _ _

theorem SameFiles.write (same : SameFiles first log) (stands : log.Stands) (record : Record) (answers : Answers) :
    SameFiles first (log.write formatter answers record) ∧ (log.write formatter answers record).Stands := by
  obtain ⟨disk, _, outcome⟩ := @Stands.write_cases formatter log answers record stands
  rcases outcome with closed | ⟨head, _, holds⟩
  · rw [closed]
    exact ⟨⟨same.names, same.last⟩, stands_closed⟩
  · rw [holds]
    exact ⟨⟨same.names, same.last⟩, stands_holding⟩

end RollingFileAppender

open RollingFileAppender

section Runs

variable {fileName : List Char} {maxFileSize : Nat} {maxFiles : Int} {disk : Disk}

theorem keepsOrder_start : KeepsOrder formatter (.construct fileName maxFileSize maxFiles disk) []
    (.construct fileName maxFileSize maxFiles disk) := by
  refine ⟨⟨_, [], shows_before, ?_, fun piece none_ => absurd none_ List.not_mem_nil, List.Sublist.refl _⟩, fun _ _ => rfl⟩
  rw [List.append_nil]

theorem RollingFileAppender.KeepsOrder.play {done : List Record} {log : RollingFileAppender}
    (keeps : KeepsOrder formatter (.construct fileName maxFileSize maxFiles disk) done log)
    (same : SameFiles (.construct fileName maxFileSize maxFiles disk) log) (stands : log.Stands) (events : List LogEvent) :
    KeepsOrder formatter (.construct fileName maxFileSize maxFiles disk) (done ++ events.flatMap LogEvent.records)
      (Peakwork.play (LogEvent.next formatter fileName maxFileSize maxFiles) log events) := by
  induction events generalizing done log with
  | nil =>
      rw [List.flatMap_nil, List.append_nil]
      exact keeps
  | cons event rest ih =>
      rw [List.flatMap_cons, ← List.append_assoc]
      cases event with
      | write record answers =>
          obtain ⟨sameNow, standsNow⟩ := same.write stands record answers
          exact ih (keeps.write same stands record answers) sameNow standsNow
      | restart =>
          rw [LogEvent.records, List.append_nil]
          exact ih ⟨keeps.files, keeps.others⟩ ⟨rfl, rfl⟩ (.fresh rfl)

end Runs

/-- Whatever the disk refuses, the log files hold a part of the old texts and of the records in their order. -/
theorem log_keeps_order (formatter : Formatter) (fileName : List Char) (maxFileSize : Nat) (maxFiles : Int) (disk : Disk)
    (events : List LogEvent) :
    KeepsOrder formatter (.construct fileName maxFileSize maxFiles disk) (events.flatMap LogEvent.records)
      (play (LogEvent.next formatter fileName maxFileSize maxFiles) (.construct fileName maxFileSize maxFiles disk) events) :=
  keepsOrder_start.play ⟨rfl, rfl⟩ (.fresh rfl) events

end Peakwork.Plog
