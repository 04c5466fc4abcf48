/-
This file gives the logger of a process and the statements that log with it.
-/

import Peakwork.Construction.Plog.RollingFileAppender

namespace Peakwork.Plog

/-- The text begins at the last dot. -/
def findExtensionDot (fileName : List Char) : Option (List Char) :=
  if '.' ∈ fileName then some ('.' :: fileName.rtakeWhile (· ≠ '.')) else none

/-- Each formatter has one static appender. -/
inductive Kind where
  | csv
  | txt
  deriving DecidableEq, Repr

def Kind.formatter : Kind → Formatter
  | .csv => csvFormatter
  | .txt => txtFormatter

def isCsv (fileName : List Char) : Bool := findExtensionDot (FilePath.cPath fileName) = some ".csv".toList

def kindOf (fileName : List Char) : Kind := if isCsv fileName then .csv else .txt

structure Logger where
  m_maxSeverity : Severity
  m_appenders : List Kind
  deriving DecidableEq, Repr

def Logger.checkSeverity (logger : Logger) (severity : Severity) : Bool :=
  severity.number ≤ logger.m_maxSeverity.number

/-- The arguments of `plog::init`. -/
structure Init where
  maxSeverity : Severity
  fileName : List Char
  maxFileSize : Nat
  maxFiles : Int
  deriving DecidableEq, Repr

/-- The static objects of a process, and the disk below its appenders. -/
structure Process where
  logger : Option Logger := none
  appenders : Kind → Option RollingFileAppender := fun _ => none
  disk : Disk

namespace Process

variable (process : Process)

/-- A static object is made by the first call; each call adds the appender again. -/
def init (arguments : Init) : Process :=
  let kind := kindOf arguments.fileName
  let appender := (process.appenders kind).getD
    (.construct arguments.fileName arguments.maxFileSize arguments.maxFiles process.disk)
  let logger := process.logger.getD ⟨arguments.maxSeverity, []⟩
  { process with
    logger := some { logger with m_appenders := logger.m_appenders ++ [kind] }
    appenders := Function.update process.appenders kind (some appender) }

/-- An appender writes to the disk as the last write has left it. -/
def writeTo (kind : Kind) (record : Record) (answers : Answers) : Process :=
  match process.appenders kind with
  | none => process
  | some appender =>
      let written := { appender with disk := process.disk }.write kind.formatter answers record
      { process with appenders := Function.update process.appenders kind (some written), disk := written.disk }

/-- The appenders write in their order, each with its own answers of the system. -/
def append (record : Record) : List Kind → List Answers → Process → Process
  | [], _, process => process
  | kind :: rest, answers, process =>
      append record rest answers.tail (process.writeTo kind record (answers.headD {}))

/-- Nothing is logged before the first `plog::init` or above the severity. -/
def log (record : Record) (answers : List Answers) : Process :=
  match process.logger with
  | none => process
  | some logger =>
      if logger.checkSeverity record.severity then append record logger.m_appenders answers process else process

end Process

/-- A process calls `plog::init` or logs a record. -/
inductive Call where
  | init (arguments : Init)
  | log (record : Record) (answers : List Answers)

def Call.next (process : Process) : Call → Process
  | .init arguments => process.init arguments
  | .log record answers => process.log record answers

end Peakwork.Plog
