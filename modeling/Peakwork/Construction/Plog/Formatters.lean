/-
This file gives the texts of the records in a log file.
-/

import Peakwork.Construction.Plog.Record

namespace Peakwork.Plog

/-- A formatter has the first text of a new file and the text of each record. -/
structure Formatter where
  header : List Char
  format : Record → List Char

def decimal (value : Nat) : List Char := Nat.toDigits 10 value

def signed (value : Int) : List Char := (toString value).toList

/-- This is `std::setfill('0') << std::setw(count)`. -/
def padded (count value : Nat) : List Char := (decimal value).leftpad count '0'

namespace UTF8Converter

/-- A file starts with the three bytes of the byte order mark. -/
def header (text : List Char) : List Char := ['\u00EF', '\u00BB', '\u00BF'] ++ text

def convert (text : List Char) : List Char := text

end UTF8Converter

namespace CsvFormatter

def kMaxMessageSize : Nat := 32000

def date (time : Tm) : List Char :=
  signed (time.year + 1900) ++ ['/'] ++ padded 2 (time.mon + 1) ++ ['/'] ++ padded 2 time.mday

def clock (time : Tm) (millitm : Nat) : List Char :=
  padded 2 time.hour ++ [':'] ++ padded 2 time.min ++ [':'] ++ padded 2 time.sec ++ ['.'] ++ padded 3 millitm

/-- A null pointer has no prefix. -/
def pointer (object : Nat) : List Char :=
  if object = 0 then ['0'] else ['0', 'x'] ++ Nat.toDigits 16 object

/-- A message that is too long is cut. -/
def cut (message : List Char) : List Char :=
  if message.length > kMaxMessageSize then message.take kMaxMessageSize ++ "...".toList else message

/-- The loop of `getline` reads the parts between the quotes, and each part is quoted. -/
def quoted (message : List Char) : List Char :=
  (message.splitOn '"').flatMap fun token => ['"'] ++ token ++ ['"']

def format (record : Record) : List Char :=
  date record.time ++ [';'] ++ clock record.time record.millitm ++ [';'] ++ record.severity.text ++ [';'] ++
    decimal record.tid ++ [';'] ++ pointer record.object ++ [';'] ++ record.getFunc ++ ['@'] ++ decimal record.line ++
    [';'] ++ quoted (cut record.getMessage) ++ ['\n']

end CsvFormatter

def csvFormatter : Formatter where
  header := "Date;Time;Severity;TID;This;Function;Message\n".toList
  format := CsvFormatter.format

namespace TxtFormatter

def date (time : Tm) : List Char :=
  signed (time.year + 1900) ++ ['-'] ++ padded 2 (time.mon + 1) ++ ['-'] ++ padded 2 time.mday

def format (record : Record) : List Char :=
  date record.time ++ [' '] ++ CsvFormatter.clock record.time record.millitm ++ [' '] ++
    record.severity.text.rightpad 5 ' ' ++ [' '] ++ ['['] ++ decimal record.tid ++ [']', ' '] ++ ['['] ++
    record.getFunc ++ ['@'] ++ decimal record.line ++ [']', ' '] ++ record.getMessage ++ ['\n']

end TxtFormatter

def txtFormatter : Formatter where
  header := []
  format := TxtFormatter.format

end Peakwork.Plog
