/-
This file gives the log file that is renamed when it is full.
-/

import Peakwork.Construction.Plog.Formatters
import Peakwork.Library.Disk

namespace Peakwork.Plog

/-- The whole path is split at its last dot. -/
def splitFileName (fileName : List Char) : List Char × List Char :=
  if '.' ∈ fileName then ((fileName.rdropWhile (· ≠ '.')).dropLast, fileName.rtakeWhile (· ≠ '.')) else (fileName, [])

/-- A call has the answer `-1` when the file is not open or the system refuses. -/
abbrev Answered := Disk × Option Descriptor × Int

/-- The answer is the end of the file. -/
def File.open (disk : Disk) (fileName : List Char) (opens : Bool) : Answered :=
  if opens then
    let disk := disk.create fileName
    (disk, some ⟨fileName, disk.size fileName⟩, disk.size fileName)
  else (disk, none, -1)

/-- The count of the stored bytes becomes a signed integer of 32 bits. -/
def File.write (disk : Disk) (m_file : Option Descriptor) (str : List Char) (written : Written) : Answered :=
  match m_file with
  | none => (disk, none, -1)
  | some file =>
      if written = .refused then (disk, some file, -1)
      else
        let stored := written.stored str
        (disk.writeAt file stored, some { file with position := file.position + stored.length },
          Int.bmod stored.length (2 ^ 32))

/-- These are the answers of the system to the calls of one `write` of a record. -/
structure Answers where
  unlinks : Bool := true
  renames : Nat → Bool := fun _ => true
  opens : Bool := true
  header : Written := .whole
  record : Written := .whole

/-- The fields stand beside the disk that the appender works on. -/
structure RollingFileAppender where
  m_file : Option Descriptor
  m_fileSize : Int
  m_maxFileSize : Int
  m_lastFileNumber : Nat
  m_fileExt : List Char
  m_fileNameNoExt : List Char
  m_firstWrite : Bool
  disk : Disk

namespace RollingFileAppender

/-- The size is cast to `off_t`. -/
def construct (fileName : List Char) (maxFileSize : Nat) (maxFiles : Int) (disk : Disk) : RollingFileAppender where
  m_file := none
  m_fileSize := 0
  m_maxFileSize := max (Int.bmod maxFileSize (2 ^ 64)) 1000
  m_lastFileNumber := (maxFiles - 1).toNat
  m_fileExt := (splitFileName (FilePath.cPath fileName)).2
  m_fileNameNoExt := (splitFileName (FilePath.cPath fileName)).1
  m_firstWrite := true
  disk := disk

variable (formatter : Formatter) (log : RollingFileAppender) (answers : Answers)

def buildFileName (fileNumber : Nat) : List Char :=
  log.m_fileNameNoExt ++ (if fileNumber > 0 then '.' :: decimal fileNumber else []) ++
    (if log.m_fileExt ≠ [] then '.' :: log.m_fileExt else [])

/-- A write adds to the size what has been stored. -/
def put (str : List Char) (written : Written) : RollingFileAppender :=
  let (disk, m_file, bytesWritten) := File.write log.disk log.m_file str written
  { log with disk, m_file, m_fileSize := if bytesWritten > 0 then log.m_fileSize + bytesWritten else log.m_fileSize }

def openLogFile : RollingFileAppender :=
  let (disk, m_file, m_fileSize) := File.open log.disk (log.buildFileName 0) answers.opens
  let opened := { log with disk, m_file, m_fileSize }
  if 0 = m_fileSize then opened.put (UTF8Converter.header formatter.header) answers.header else opened

/-- The last file is removed, and the loop renames the others from the last one down to the number zero. -/
def rollLogFiles : RollingFileAppender :=
  let last := log.buildFileName log.m_lastFileNumber
  let unlinked := if answers.unlinks then log.disk.unlink last else log.disk
  let renamed := unlinked.renameDown log.buildFileName answers.renames log.m_lastFileNumber
  openLogFile formatter { log with m_file := none, disk := renamed } answers

def write (record : Record) : RollingFileAppender :=
  let ready :=
    if log.m_firstWrite then { openLogFile formatter log answers with m_firstWrite := false }
    else if log.m_lastFileNumber > 0 ∧ log.m_fileSize > log.m_maxFileSize ∧ -1 ≠ log.m_fileSize then
      rollLogFiles formatter log answers
    else log
  ready.put (UTF8Converter.convert (formatter.format record)) answers.record

end RollingFileAppender

/-- A process logs a record, or it ends and the next process logs to the same path. -/
inductive LogEvent where
  | write (record : Record) (answers : Answers)
  | restart

/-- The appender of each process is made with the same arguments. -/
def LogEvent.next (formatter : Formatter) (fileName : List Char) (maxFileSize : Nat) (maxFiles : Int)
    (log : RollingFileAppender) : LogEvent → RollingFileAppender
  | .write record answers => log.write formatter answers record
  | .restart => .construct fileName maxFileSize maxFiles log.disk

end Peakwork.Plog
