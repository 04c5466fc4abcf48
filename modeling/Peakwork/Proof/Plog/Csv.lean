/-
This file proves that a log file with separated fields is read back.
-/

import Peakwork.Library.Csv
import Peakwork.Proof.Plog.Rolling

namespace Peakwork.Plog

namespace CsvFormatter

open Csv

/-- The parts between the quotes are written as one field between quotes. -/
theorem quoted_eq (message : List Char) : quoted message = (Field.quoted message).written := by
  rw [Field.written]
  induction message with
  | nil => rfl
  | cons c rest ih =>
      rw [quoted] at ih
      by_cases quote : c = '"'
      · rw [quoted, quote, List.splitOn_cons_eq_if_modifyHead, if_pos (beq_self_eq_true '"'), List.flatMap_cons, ih,
          List.flatMap_cons, if_pos rfl]
        rfl
      · obtain ⟨first, others, shape⟩ := List.exists_cons_of_ne_nil (List.splitOn_ne_nil '"' rest)
        simp only [shape, List.flatMap_cons, List.append_assoc] at ih
        have body := List.append_cancel_left ih
        have other : ¬ (c == '"') = true := fun same => quote (beq_iff_eq.mp same)
        rw [quoted, List.splitOn_cons_eq_if_modifyHead, if_neg other, shape, List.modifyHead_cons, List.flatMap_cons,
          List.flatMap_cons, if_neg quote]
        simp only [List.append_assoc, List.cons_append, List.nil_append] at body ⊢
        rw [body]

def Plain (text : List Char) : Prop := (Field.plain text).Sound ';'

theorem plain_of_all {text : List Char} (all : (text.all fun c => c != ';' && c != '\n' && c != '"') = true) : Plain text := by
  intro c member
  have plain := List.all_eq_true.mp all c member
  simp only [Bool.and_eq_true, bne_iff_ne] at plain
  exact ⟨plain.1.1, plain.1.2, plain.2⟩

theorem Plain.append {first second : List Char} (one : Plain first) (other : Plain second) : Plain (first ++ second) := by
  intro c member
  rcases List.mem_append.mp member with early | late
  · exact one c early
  · exact other c late

theorem plain_digit {c : Char} (digit : c.isDigit = true) : c ≠ ';' ∧ c ≠ '\n' ∧ c ≠ '"' := by
  refine ⟨?_, ?_, ?_⟩ <;>
  · rintro rfl
    exact absurd digit (by decide)

theorem plain_decimal (value : Nat) : Plain (decimal value) := fun _ member =>
  plain_digit (Nat.isDigit_of_mem_toDigits (by decide) (by decide) member)

theorem plain_padded (count value : Nat) : Plain (padded count value) := by
  intro c member
  rw [padded, List.leftpad] at member
  rcases List.mem_append.mp member with zero | digit
  · rw [List.eq_of_mem_replicate zero]
    decide
  · exact plain_decimal value c digit

theorem plain_signed (value : Int) : Plain (signed value) := by
  rw [signed, Int.toString_eq_repr, Int.repr_eq_if]
  split
  · rw [Nat.toList_repr]
    exact plain_decimal _
  · rw [String.toList_append, Nat.toList_repr]
    exact (plain_of_all (by decide)).append (plain_decimal _)

theorem plain_hexadecimal (value : Nat) : Plain (Nat.toDigits 16 value) := by
  have signs : ∀ place, place < 16 →
      ([Nat.digitChar place].all fun c => c != ';' && c != '\n' && c != '"') = true := by decide
  have digit (place : Nat) (small : place < 16) : Plain [Nat.digitChar place] := plain_of_all (signs place small)
  induction value using Nat.strongRecOn with
  | ind value ih =>
      rw [Nat.toDigits_eq_if (by decide)]
      split
      · exact digit value ‹_›
      · exact (ih (value / 16) (by omega)).append (digit (value % 16) (by omega))

theorem plain_date (time : Tm) : Plain (date time) := by
  have slash : Plain ['/'] := plain_of_all (by decide)
  exact ((((plain_signed _).append slash).append (plain_padded _ _)).append slash).append (plain_padded _ _)

theorem plain_clock (time : Tm) (millitm : Nat) : Plain (clock time millitm) := by
  have colon : Plain [':'] := plain_of_all (by decide)
  have dot : Plain ['.'] := plain_of_all (by decide)
  have minutes := ((plain_padded 2 time.hour).append colon).append (plain_padded 2 time.min)
  exact (((minutes.append colon).append (plain_padded _ _)).append dot).append (plain_padded _ _)

theorem plain_severity (severity : Severity) : Plain severity.text := by
  apply plain_of_all
  cases severity <;> decide

theorem plain_pointer (object : Nat) : Plain (pointer object) := by
  rw [pointer]
  split
  · exact plain_of_all (by decide)
  · exact (plain_of_all (by decide)).append (plain_hexadecimal object)

def fields (record : Record) : List Field :=
  [.plain (date record.time), .plain (clock record.time record.millitm), .plain record.severity.text,
    .plain (decimal record.tid), .plain (pointer record.object), .plain (record.getFunc ++ ['@'] ++ decimal record.line),
    .quoted (cut record.getMessage)]

/-- The byte order mark stands before the first name. -/
def headerFields : List Field :=
  [.plain (['\u00EF', '\u00BB', '\u00BF'] ++ "Date".toList), .plain "Time".toList, .plain "Severity".toList,
    .plain "TID".toList, .plain "This".toList, .plain "Function".toList, .plain "Message".toList]

theorem format_eq (record : Record) : format record = row ';' (fields record) := by
  rw [format, quoted_eq]
  simp only [row, fields, Field.written, List.append_assoc]

theorem header_eq : UTF8Converter.header csvFormatter.header = row ';' headerFields := by decide

/-- The name of the function is the one text of a record that could break a row. -/
theorem fields_sound {record : Record} (tidy : Plain record.getFunc) : ∀ field ∈ fields record, field.Sound ';' := by
  intro field member
  simp only [fields, List.mem_cons, List.not_mem_nil, or_false] at member
  rcases member with rfl | rfl | rfl | rfl | rfl | rfl | rfl
  · exact plain_date _
  · exact plain_clock _ _
  · exact plain_severity _
  · exact plain_decimal _
  · exact plain_pointer _
  · exact (tidy.append (plain_of_all (by decide))).append (plain_decimal _)
  · trivial

theorem headerFields_sound : ∀ field ∈ headerFields, field.Sound ';' := by
  intro field member
  simp only [headerFields, List.mem_cons, List.not_mem_nil, or_false] at member
  rcases member with rfl | rfl | rfl | rfl | rfl | rfl | rfl <;>
  · apply plain_of_all
    decide

def rowOf (record : Record) : List (List Char) := (fields record).map Field.text

def headerRow : List (List Char) := headerFields.map Field.text

/-- The third field tells a record from the header. -/
theorem rowOf_ne_header (record : Record) : rowOf record ≠ headerRow := by
  intro same
  have third : record.severity.text = "Severity".toList := by
    have place := congrArg (fun row => row[2]?) same
    exact Option.some.inj place
  revert third
  cases record.severity <;> decide

end CsvFormatter

section Files

open CsvFormatter RollingFileAppender

def Piece.fields : Piece → List Csv.Field
  | .old _ => []
  | .header _ => headerFields
  | .record logged _ => CsvFormatter.fields logged

def Piece.row (piece : Piece) : List (List Char) := piece.fields.map Csv.Field.text

variable {piece : Piece}

theorem whole_text (whole : piece.Whole csvFormatter) : piece.text = Csv.row ';' piece.fields := by
  rcases whole with rfl | ⟨record, rfl⟩
  · exact header_eq
  · exact format_eq record

theorem whole_some (whole : piece.Whole csvFormatter) : piece.fields ≠ [] := by
  rcases whole with rfl | ⟨record, rfl⟩ <;> exact List.cons_ne_nil _ _

theorem whole_sound (whole : piece.Whole csvFormatter) (tidy : ∀ record, piece.record? = some record → Plain record.getFunc) :
    ∀ field ∈ piece.fields, field.Sound ';' := by
  rcases whole with rfl | ⟨record, rfl⟩
  · exact headerFields_sound
  · exact fields_sound (tidy record rfl)

/-- The rows but the header belong to the records. -/
theorem rows_of_whole {pieces : List Piece} (whole : ∀ piece ∈ pieces, piece.Whole csvFormatter) :
    (pieces.map Piece.row).filter (· ≠ headerRow) = (pieces.filterMap Piece.record?).map rowOf := by
  induction pieces with
  | nil => rfl
  | cons piece rest ih =>
      have later := ih fun other member => whole other (List.mem_cons_of_mem piece member)
      rw [List.map_cons, List.filter_cons, later]
      rcases whole piece List.mem_cons_self with rfl | ⟨record, rfl⟩
      · rw [if_neg (by decide)]
        rfl
      · rw [if_pos (by exact decide_eq_true (rowOf_ne_header record))]
        rfl

/-- A text of whole pieces is read back. -/
theorem read_pieces {pieces : List Piece} (whole : ∀ piece ∈ pieces, piece.Whole csvFormatter)
    (tidy : ∀ record ∈ pieces.filterMap Piece.record?, Plain record.getFunc) :
    Csv.read ';' (pieces.flatMap Piece.text) = some (pieces.map Piece.row) := by
  have texts : pieces.flatMap Piece.text = (pieces.map Piece.fields).flatMap (Csv.row ';') := by
    rw [List.flatMap_map]
    exact List.flatMap_congr fun piece member => whole_text (whole piece member)
  rw [texts, Csv.read_rows (by decide) (by decide), List.map_map]
  · rfl
  · intro fields member
    obtain ⟨piece, present, rfl⟩ := List.mem_map.mp member
    exact whole_some (whole piece present)
  · intro fields member
    obtain ⟨piece, present, rfl⟩ := List.mem_map.mp member
    exact whole_sound (whole piece present) fun record is => tidy record (List.mem_filterMap.mpr ⟨piece, present, is⟩)

/-- The rows of the files, read from the oldest one on, are the records that were logged last, and all of them until all the
older files are full. -/
theorem csv_log_reads_back (fileName : List Char) (maxFileSize : Nat) (maxFiles : Int) (disk : Disk)
    (events : List LogEvent) (done : ∀ event ∈ events, event.Done csvFormatter)
    (tidy : ∀ record ∈ events.flatMap LogEvent.records, Plain record.getFunc) :
    let first := construct fileName maxFileSize maxFiles disk
    let log := play (LogEvent.next csvFormatter fileName maxFileSize maxFiles) first events
    (∀ number, number ≤ first.m_lastFileNumber → disk (first.buildFileName number) = none) →
    ∃ rows : Nat → List (List (List Char)),
      (∀ number, number ≤ first.m_lastFileNumber →
        Csv.read ';' ((log.disk (first.buildFileName number)).getD []) = some (rows number)) ∧
      ((Files.entries (fun number => some (rows number)) (first.m_lastFileNumber + 1)).filter (· ≠ headerRow)) <:+
        (events.flatMap LogEvent.records).map rowOf ∧
      ((Files.entries (fun number => some (rows number)) (first.m_lastFileNumber + 1)).filter (· ≠ headerRow) =
          (events.flatMap LogEvent.records).map rowOf ∨
        0 < first.m_lastFileNumber ∧ ∀ number, 1 ≤ number → number ≤ first.m_lastFileNumber →
          first.m_maxFileSize < ((log.disk (first.buildFileName number)).getD []).length) := by
  intro first log free
  obtain ⟨⟨opened, archive⟩, lost, written, follows, recorded, whole, logged⟩ :=
    @kept_play csvFormatter fileName maxFileSize maxFiles disk (by decide) events done
  have shown : log.disk.Shows first.buildFileName (List.flatMap Piece.text) archive := follows.shown
  have none_ : first.before.entries (first.m_lastFileNumber + 1) = [] := by
    apply Files.entries_free
    intro number below
    rw [before, show first.disk = disk from rfl, free number (Nat.le_of_lt_succ below), Option.map_none]
  have contents : lost.flatten ++ archive.entries (first.m_lastFileNumber + 1) = written := by
    have all : (lost ++ archive.volumes (first.m_lastFileNumber + 1)).flatten =
      first.before.entries (first.m_lastFileNumber + 1) ++ written := recorded.chronicle.contents
    rw [none_, List.nil_append, List.flatten_append, Files.volumes_flatten] at all
    exact all
  have kept (piece : Piece) (member : piece ∈ archive.entries (first.m_lastFileNumber + 1)) : piece ∈ written := by
    rw [← contents]
    exact List.mem_append_right _ member
  have read : (Files.entries (fun number => some (((archive number).getD []).map Piece.row)) (first.m_lastFileNumber + 1)).filter
      (· ≠ headerRow) = ((archive.entries (first.m_lastFileNumber + 1)).filterMap Piece.record?).map rowOf := by
    rw [← Files.entries_map, rows_of_whole fun piece member => whole piece (kept piece member)]
  refine ⟨fun number => ((archive number).getD []).map Piece.row, fun number within => ?_, ?_, ?_⟩
  · have here (piece : Piece) (member : piece ∈ (archive number).getD []) : piece ∈ written :=
      kept piece (Files.mem_entries (Nat.lt_succ_of_le within) member)
    have content : (log.disk (first.buildFileName number)).getD [] = ((archive number).getD []).flatMap Piece.text := by
      rw [shown number]
      cases archive number <;> rfl
    rw [content]
    apply read_pieces fun piece member => whole piece (here piece member)
    intro record member
    obtain ⟨piece, present, is⟩ := List.mem_filterMap.mp member
    apply tidy record
    rw [← logged]
    exact List.mem_filterMap.mpr ⟨piece, here piece present, is⟩
  · rw [read, ← logged, ← contents, List.filterMap_append, List.map_append]
    exact List.suffix_append _ _
  · rcases kept_or_full shown recorded with there | full
    · apply Or.inl
      have same : archive.entries (first.m_lastFileNumber + 1) = written := by
        apply (List.IsSuffix.eq_of_length_le there _).symm
        rw [← contents, List.length_append]
        exact Nat.le_add_left _ _
      rw [read, same, logged]
    · exact Or.inr full

/-- The message of this record has a quote, a separator and a line end. -/
def quotedRecord : Record := { serviceStarted with message := "say \"go; on\"\nand wait".toList }

def quotedRecords : List LogEvent := [.write quotedRecord {}, .restart, .write serviceStarted {}]

/-- The only file of the witness gives back both records, the message as it was. -/
theorem csv_log_reads_back_example :
    let first := construct "/tmp/peakwork.csv".toList 0 1 fun _ => none
    let log := play (LogEvent.next csvFormatter "/tmp/peakwork.csv".toList 0 1) first quotedRecords
    (∃ rows, Csv.read ';' ((log.disk (first.buildFileName 0)).getD []) = some rows ∧
      rows.filter (· ≠ headerRow) = [rowOf quotedRecord, rowOf serviceStarted]) ∧
    (rowOf quotedRecord)[6]? = some quotedRecord.message := by
  constructor
  · obtain ⟨rows, read, _, all⟩ := csv_log_reads_back "/tmp/peakwork.csv".toList 0 1 (fun _ => none) quotedRecords
      (by
        intro event member
        simp only [quotedRecords, List.mem_cons, List.not_mem_nil, or_false] at member
        rcases member with rfl | rfl | rfl
        · exact ⟨rfl, by decide⟩
        · trivial
        · exact ⟨rfl, by decide⟩)
      (by
        intro record member
        simp only [quotedRecords, List.flatMap_cons, LogEvent.records, List.flatMap_nil, List.append_nil, List.nil_append,
          List.singleton_append, List.mem_cons, List.not_mem_nil, or_false] at member
        rcases member with rfl | rfl
        · exact plain_of_all (by decide)
        · exact plain_of_all (by decide))
      fun number within => rfl
    refine ⟨rows 0, read 0 (Nat.zero_le _), ?_⟩
    rcases all with all | ⟨more, _⟩
    · rw [← List.append_nil (rows 0)]
      exact all
    · exact absurd more (by decide)
  · decide

end Files

end Peakwork.Plog
