/-
This file proves what one record does to the appender and to the disk.
-/

import Peakwork.Proof.Plog.FileNames

namespace Peakwork.Plog

/-- A write at the end appends what is stored, and its answer is the stored count or `-1`. -/
theorem File.write_end {disk : Disk} {name content : List Char} (here : disk name = some content) (str : List Char)
    (written : Written) :
    File.write disk (some ⟨name, content.length⟩) str written =
      (Function.update disk name (some (content ++ written.stored str)),
        some ⟨name, (content ++ written.stored str).length⟩,
        if written = .refused then -1 else ((written.stored str).length : Int)) := by
  by_cases refused : written = .refused
  · rw [refused, write, if_pos rfl, Written.stored, List.append_nil, ← here, Function.update_eq_self, if_pos rfl]
  · have limited := written.length_stored str
    have small : Int.bmod (written.stored str).length (2 ^ 32) = (written.stored str).length := by
      rw [writeLimit] at limited
      apply Int.bmod_eq_of_le <;> omega
    have appended := @Disk.writeAt_end disk content (written.stored str) ⟨name, content.length⟩ here rfl
    rw [write, if_neg refused, if_neg refused, List.length_append]
    show (disk.writeAt ⟨name, content.length⟩ (written.stored str), _, _) = _
    rw [appended, small]

namespace RollingFileAppender

variable {formatter : Formatter} {log : RollingFileAppender} {disk : Disk} {content : List Char} {answers : Answers}

/-- The file with the number zero is open at its end, and its size is known. -/
def holding (log : RollingFileAppender) (disk : Disk) (content : List Char) : RollingFileAppender :=
  { log with
    disk := Function.update disk (log.buildFileName 0) (some content)
    m_file := some ⟨log.buildFileName 0, content.length⟩
    m_fileSize := content.length }

/-- The file could not be opened. -/
def closed (log : RollingFileAppender) (disk : Disk) : RollingFileAppender :=
  { log with m_file := none, m_fileSize := -1, disk }

/-- What is stored is appended to the file, and the size follows. -/
theorem put_holding (str : List Char) (written : Written) :
    (log.holding disk content).put str written = log.holding disk (content ++ written.stored str) := by
  have done : File.write (log.holding disk content).disk (log.holding disk content).m_file str written = _ :=
    File.write_end (Function.update_self (log.buildFileName 0) (some content) disk) str written
  have size (answer : Int) (is : answer = if written = .refused then -1 else ((written.stored str).length : Int)) :
      (if answer > 0 then (content.length : Int) + answer else content.length) = (content ++ written.stored str).length := by
    rw [is, List.length_append, Nat.cast_add]
    by_cases refused : written = .refused
    · rw [refused]
      rfl
    · rw [if_neg refused]
      split <;> omega
  rw [put, done]
  simp only [holding, size _ rfl, Function.update_idem]

/-- A file that is opened empty gets the header. -/
def opening (log : RollingFileAppender) (formatter : Formatter) (answers : Answers) (disk : Disk) : List Char :=
  let old := (disk (log.buildFileName 0)).getD []
  if old = [] then answers.header.stored (UTF8Converter.header formatter.header) else old

theorem openLogFile_eq : openLogFile formatter log answers =
    if answers.opens then log.holding log.disk (log.opening formatter answers log.disk) else log.closed log.disk := by
  cases opens : answers.opens with
  | false =>
      rw [openLogFile, opens]
      rfl
  | true =>
      have size : (log.disk.create (log.buildFileName 0)).size (log.buildFileName 0) =
          ((log.disk (log.buildFileName 0)).getD []).length := by
        rw [Disk.size, Disk.create, Function.update_self, Option.getD_some]
      have opened : File.open log.disk (log.buildFileName 0) true =
          (log.disk.create (log.buildFileName 0),
            some ⟨log.buildFileName 0, ((log.disk (log.buildFileName 0)).getD []).length⟩,
            (((log.disk (log.buildFileName 0)).getD []).length : Int)) := by
        rw [File.open, if_pos rfl]
        simp only [size]
      rw [openLogFile, opens, opened, opening, if_pos rfl]
      show (if (0 : Int) = ((log.disk (log.buildFileName 0)).getD []).length then
          (log.holding log.disk ((log.disk (log.buildFileName 0)).getD [])).put _ _
        else log.holding log.disk ((log.disk (log.buildFileName 0)).getD [])) = _
      cases old : (log.disk (log.buildFileName 0)).getD [] with
      | nil =>
          rw [if_pos rfl, put_holding, List.nil_append]
          rfl
      | cons c rest => rfl

/-- The process has logged its first record. -/
def begun (log : RollingFileAppender) : RollingFileAppender := { log with m_firstWrite := false }

/-- The files have been renamed as far as the system does it. -/
def rolled (log : RollingFileAppender) (answers : Answers) : Disk :=
  (if answers.unlinks then log.disk.unlink (log.buildFileName log.m_lastFileNumber) else log.disk).renameDown
    log.buildFileName answers.renames log.m_lastFileNumber

theorem rollLogFiles_eq : rollLogFiles formatter log answers =
    if answers.opens then log.holding (log.rolled answers) (log.opening formatter answers (log.rolled answers))
    else log.closed (log.rolled answers) := by
  rw [rollLogFiles, openLogFile_eq]
  rfl

/-- A write goes to a file or to none, behind what the file holds when it is open. -/
theorem put_opened (opens : Bool) (str : List Char) (written : Written) :
    (if opens then log.holding disk content else log.closed disk).put str written =
      if opens then log.holding disk (content ++ written.stored str) else log.closed disk := by
  cases opens with
  | false => rfl
  | true => exact put_holding str written

variable {record : Record}

theorem write_first (first : log.m_firstWrite = true) : log.write formatter answers record =
    if answers.opens then
      log.begun.holding log.disk (log.opening formatter answers log.disk ++ answers.record.stored (formatter.format record))
    else log.begun.closed log.disk := by
  rw [write, if_pos first, openLogFile_eq, ← put_opened]
  cases answers.opens <;> rfl

/-- The file is open and holds a text in a process that has logged. -/
structure Holds (log : RollingFileAppender) (content : List Char) : Prop where
  begun : log.m_firstWrite = false
  opened : log = log.holding log.disk content

/-- The file could not be opened in a process that has logged. -/
structure Closed (log : RollingFileAppender) : Prop where
  begun : log.m_firstWrite = false
  closed : log = log.closed log.disk

theorem holds_holding (begun : log.m_firstWrite = false) : (log.holding disk content).Holds content where
  begun := begun
  opened := by
    have again : Function.update (Function.update disk (log.buildFileName 0) (some content)) (log.buildFileName 0) (some content) =
        Function.update disk (log.buildFileName 0) (some content) := Function.update_idem _ _ _
    exact congrArg (fun disk => { log.holding disk content with disk }) again.symm

theorem closed_closed (begun : log.m_firstWrite = false) : (log.closed disk).Closed := ⟨begun, rfl⟩

theorem Holds.found (holds : log.Holds content) : log.disk (log.buildFileName 0) = some content := by
  rw [holds.opened]
  exact Function.update_self _ _ _

theorem Holds.size (holds : log.Holds content) : log.m_fileSize = content.length := by
  rw [holds.opened]
  rfl

/-- Nothing is written after the file could not be opened. -/
theorem Closed.write (closed_ : log.Closed) : log.write formatter answers record = log := by
  have first : ¬ log.m_firstWrite = true := Bool.not_eq_true _ ▸ closed_.begun
  have size : log.m_fileSize = -1 := by
    rw [closed_.closed]
    rfl
  rw [RollingFileAppender.write, if_neg first, if_neg fun full => full.2.2 size.symm, closed_.closed]
  rfl

theorem Holds.write_full (holds : log.Holds content)
    (full : 0 < log.m_lastFileNumber ∧ log.m_maxFileSize < content.length) :
    log.write formatter answers record =
      if answers.opens then
        log.holding (log.rolled answers) (log.opening formatter answers (log.rolled answers) ++
          answers.record.stored (formatter.format record))
      else log.closed (log.rolled answers) := by
  have first : ¬ log.m_firstWrite = true := Bool.not_eq_true _ ▸ holds.begun
  have rolls : log.m_lastFileNumber > 0 ∧ log.m_fileSize > log.m_maxFileSize ∧ -1 ≠ log.m_fileSize := by
    rw [holds.size]
    exact ⟨full.1, full.2, by omega⟩
  rw [write, if_neg first, if_pos rolls, rollLogFiles_eq]
  exact put_opened answers.opens _ _

theorem Holds.write_room (holds : log.Holds content)
    (room : ¬ (0 < log.m_lastFileNumber ∧ log.m_maxFileSize < content.length)) :
    log.write formatter answers record = log.holding log.disk (content ++ answers.record.stored (formatter.format record)) := by
  have first : ¬ log.m_firstWrite = true := Bool.not_eq_true _ ▸ holds.begun
  have stays : ¬ (log.m_lastFileNumber > 0 ∧ log.m_fileSize > log.m_maxFileSize ∧ -1 ≠ log.m_fileSize) := by
    rw [holds.size]
    exact fun full => room ⟨full.1, full.2.1⟩
  rw [write, if_neg first, if_neg stays]
  nth_rewrite 1 [holds.opened]
  exact put_holding _ _

/-- The process has not logged, or its file is closed or open. -/
inductive Stands (log : RollingFileAppender) : Prop where
  | fresh (first : log.m_firstWrite = true)
  | closed (closed_ : log.Closed)
  | holds (content : List Char) (holds : log.Holds content)

theorem begun_self (begun_ : log.m_firstWrite = false) : log.begun = log := by
  rw [begun, ← begun_]

theorem opening_cases (disk : Disk) : ∃ head, head <+: UTF8Converter.header formatter.header ∧
    log.opening formatter answers disk = (disk (log.buildFileName 0)).getD [] ++ head := by
  by_cases empty : (disk (log.buildFileName 0)).getD [] = []
  · refine ⟨answers.header.stored (UTF8Converter.header formatter.header), Written.stored_prefix _ _, ?_⟩
    rw [opening, if_pos empty, empty, List.nil_append]
  · refine ⟨[], List.nil_prefix, ?_⟩
    rw [opening, if_neg empty, List.append_nil]

/-- A record goes behind the newest file, which may have been moved on, or the file is closed. -/
theorem Stands.write_cases (stands : log.Stands) :
    ∃ disk, (disk = log.disk ∨ disk = log.rolled answers) ∧
      (log.write formatter answers record = log.begun.closed disk ∨
        ∃ head, head <+: UTF8Converter.header formatter.header ∧
          log.write formatter answers record = log.begun.holding disk
            ((disk (log.buildFileName 0)).getD [] ++ head ++ answers.record.stored (formatter.format record))) := by
  cases stands with
  | fresh first =>
      refine ⟨log.disk, Or.inl rfl, ?_⟩
      obtain ⟨head, before, opened⟩ := @opening_cases formatter log answers log.disk
      rw [write_first first]
      split
      · exact Or.inr ⟨head, before, by rw [opened]⟩
      · exact Or.inl rfl
  | closed closed_ =>
      refine ⟨log.disk, Or.inl rfl, Or.inl ?_⟩
      rw [closed_.write, begun_self closed_.begun]
      exact closed_.closed
  | holds content holds =>
      rw [begun_self holds.begun]
      by_cases full : 0 < log.m_lastFileNumber ∧ log.m_maxFileSize < content.length
      · refine ⟨log.rolled answers, Or.inr rfl, ?_⟩
        obtain ⟨head, before, opened⟩ := @opening_cases formatter log answers (log.rolled answers)
        rw [holds.write_full full]
        split
        · exact Or.inr ⟨head, before, by rw [opened]⟩
        · exact Or.inl rfl
      · refine ⟨log.disk, Or.inl rfl, Or.inr ⟨[], List.nil_prefix, ?_⟩⟩
        rw [holds.write_room full, holds.found, Option.getD_some, List.append_nil]

theorem stands_closed : (log.begun.closed disk).Stands := .closed (closed_closed rfl)

theorem stands_holding : (log.begun.holding disk content).Stands := .holds content (holds_holding rfl)

end RollingFileAppender

end Peakwork.Plog
