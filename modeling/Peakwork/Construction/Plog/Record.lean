/-
This file gives the records of the log.
-/

import Mathlib.Data.List.DropRight
import Peakwork.Library.FilePath

namespace Peakwork.Plog

inductive Severity where
  | none
  | fatal
  | error
  | warning
  | info
  | debug
  | verbose
  deriving DecidableEq, Repr

namespace Severity

def number : Severity → Nat
  | .none => 0
  | .fatal => 1
  | .error => 2
  | .warning => 3
  | .info => 4
  | .debug => 5
  | .verbose => 6

/-- This is `severityToString`. -/
def text : Severity → List Char
  | .fatal => "FATAL".toList
  | .error => "ERROR".toList
  | .warning => "WARN".toList
  | .info => "INFO".toList
  | .debug => "DEBUG".toList
  | .verbose => "VERB".toList
  | .none => "NONE".toList

end Severity

/-- The fields of the local time that are printed. -/
structure Tm where
  year : Int
  mon : Nat
  mday : Nat
  hour : Nat
  min : Nat
  sec : Nat
  deriving DecidableEq, Repr

/-- The message is what has been streamed into the record. -/
structure Record where
  time : Tm
  millitm : Nat
  severity : Severity
  tid : Nat
  object : Nat
  line : Nat
  func : List Char
  message : List Char
  deriving DecidableEq, Repr

/-- The name stands before the first bracket and behind the last blank that is left of it. -/
def processFuncName (func : List Char) : List Char :=
  if '(' ∈ func then (func.takeWhile (· ≠ '(')).rtakeWhile (· ≠ ' ') else func

namespace Record

variable (record : Record)

/-- Texts are handed on as texts that end at their first zero. -/
def getMessage : List Char := FilePath.cPath record.message

def getFunc : List Char := processFuncName (FilePath.cPath record.func)

end Record

end Peakwork.Plog
