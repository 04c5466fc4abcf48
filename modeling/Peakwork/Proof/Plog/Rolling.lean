/-
This file proves what the log files hold when the disk does all the calls.
-/

import Peakwork.Proof.Plog.Refusals

namespace Peakwork.Plog

variable {formatter : Formatter}

def Piece.ofRecord (formatter : Formatter) (record : Record) : Piece := .record record (formatter.format record)

/-- The header and the text of a record are written as a whole. -/
def Piece.Whole (formatter : Formatter) (piece : Piece) : Prop :=
  piece = .header (UTF8Converter.header formatter.header) ∨ ∃ record, piece = .ofRecord formatter record

/-- The disk does every call, and no text is too long for one of them. -/
def LogEvent.Done (formatter : Formatter) : LogEvent → Prop
  | .write record answers => answers = {} ∧ (formatter.format record).length ≤ writeLimit
  | .restart => True

def LogEvent.rotates (formatter : Formatter) : LogEvent → Rotation.Event Piece
  | .write record _ => .add (.ofRecord formatter record)
  | .restart => .reopen

namespace RollingFileAppender

/-- The log files are the volumes of an archive. -/
def retention (formatter : Formatter) (first : RollingFileAppender) : Retention Piece where
  size piece := piece.text.length
  header := .header (UTF8Converter.header formatter.header)
  limit := first.m_maxFileSize.toNat
  last := first.m_lastFileNumber

variable {first log : RollingFileAppender} {disk : Disk} {archive : Archive Piece} {rotation : Rotation Piece}

theorem volumeSize_shows (shows_ : disk.Shows first.buildFileName (List.flatMap Piece.text) archive) (number : Nat) :
    Rotation.volumeSize (retention formatter first) archive number = ((disk (first.buildFileName number)).getD []).length := by
  rw [Rotation.volumeSize, shows_ number]
  cases archive number with
  | none => rfl
  | some volume => exact List.length_flatMap.symm

/-- The appender stands where the abstract archive stands. -/
structure Follows (first log : RollingFileAppender) (rotation : Rotation Piece) : Prop where
  files : SameFiles first log
  limit : log.m_maxFileSize = first.m_maxFileSize
  shown : log.disk.Shows first.buildFileName (List.flatMap Piece.text) rotation.archive
  state : if rotation.opened then ∃ content, log.Holds content else log.m_firstWrite = true

/-- A file that gets texts at its end stands where the archive gets the entries. -/
theorem follows_holding (begun : log.m_firstWrite = false) (files : SameFiles first log)
    (limit : log.m_maxFileSize = first.m_maxFileSize)
    (shows_ : disk.Shows first.buildFileName (List.flatMap Piece.text) archive) (added : List Piece) {content : List Char}
    (is : content = (disk (first.buildFileName 0)).getD [] ++ added.flatMap Piece.text) :
    Follows first (log.holding disk content) ⟨true, archive.append added⟩ where
  files := ⟨files.names, files.last⟩
  limit := limit
  shown := by
    show Files.Shows (Function.update disk (log.buildFileName 0) (some content)) _ _ _
    rw [files.names, is]
    exact shows_.append first.buildFileName_injective added
  state := ⟨content, holds_holding begun⟩

theorem rolled_done (files : SameFiles first log) (shown : log.disk.Shows first.buildFileName (List.flatMap Piece.text) archive) :
    (log.rolled {}).Shows first.buildFileName (List.flatMap Piece.text) (Rotation.roll (retention formatter first) archive) := by
  rw [rolled, if_pos rfl, files.names, files.last]
  have distinct := first.buildFileName_injective
  exact (shown.unlink distinct first.m_lastFileNumber).renameDown distinct (fun _ => true) first.m_lastFileNumber

variable (headed : (UTF8Converter.header formatter.header).length ≤ writeLimit)

include headed

theorem opening_done (shows_ : disk.Shows first.buildFileName (List.flatMap Piece.text) archive) :
    first.opening formatter {} disk =
      (disk (first.buildFileName 0)).getD [] ++ (Rotation.heads (retention formatter first) archive).flatMap Piece.text := by
  rw [opening, Rotation.heads, volumeSize_shows shows_]
  cases old : (disk (first.buildFileName 0)).getD [] with
  | nil =>
      show Written.stored .whole _ = [] ++ _
      rw [Written.stored_whole headed]
      exact (List.append_nil _).symm
  | cons c rest => exact (List.append_nil _).symm

/-- One record takes the appender and the archive to the same place. -/
theorem Follows.write (follows : Follows first log rotation) (limited : 0 ≤ first.m_maxFileSize) {record : Record}
    (short : (formatter.format record).length ≤ writeLimit) :
    Follows first (log.write formatter {} record)
      (rotation.next (retention formatter first) (.add (.ofRecord formatter record))) := by
  have whole : Written.whole.stored (formatter.format record) = [Piece.ofRecord formatter record].flatMap Piece.text :=
    (Written.stored_whole short).trans (List.append_nil _).symm
  have opens (moved : Disk) : log.opening formatter {} moved = first.opening formatter {} moved := by
    rw [opening, opening, follows.files.names]
  have shown := follows.shown
  have state := follows.state
  cases running : rotation.opened with
  | false =>
      rw [running, if_neg Bool.false_ne_true] at state
      rw [write_first state, if_pos rfl, Rotation.next, if_pos running, Files.append_append]
      apply @follows_holding first log.begun _ _ rfl ⟨follows.files.names, follows.files.last⟩ follows.limit shown
      rw [opens, opening_done headed shown, List.flatMap_append, ← whole, List.append_assoc]
  | true =>
      rw [running, if_pos rfl] at state
      obtain ⟨content, holds⟩ := state
      have open_ : ¬ rotation.opened = false := by
        rw [running]
        decide
      have found := holds.found
      rw [follows.files.names] at found
      have size : Rotation.volumeSize (retention formatter first) rotation.archive 0 = content.length := by
        rw [volumeSize_shows shown, found, Option.getD_some]
      have agree : (0 < (retention formatter first).last ∧ (retention formatter first).limit < content.length) ↔
          (0 < log.m_lastFileNumber ∧ log.m_maxFileSize < content.length) := by
        rw [follows.files.last, follows.limit]
        show 0 < first.m_lastFileNumber ∧ first.m_maxFileSize.toNat < content.length ↔ _
        omega
      rw [Rotation.next, if_neg open_, size]
      by_cases full : 0 < (retention formatter first).last ∧ (retention formatter first).limit < content.length
      · rw [if_pos full, Files.append_append, holds.write_full (agree.mp full), if_pos rfl]
        have moved := @rolled_done formatter _ _ _ follows.files shown
        apply follows_holding holds.begun follows.files follows.limit moved
        rw [opens, opening_done headed moved, List.flatMap_append, ← whole, List.append_assoc]
      · rw [if_neg full, Files.append_append, holds.write_room fun other => full (agree.mpr other)]
        apply follows_holding holds.begun follows.files follows.limit shown
        rw [found, Option.getD_some, List.nil_append, ← whole]

end RollingFileAppender

open RollingFileAppender

variable (fileName : List Char) (maxFileSize : Nat) (maxFiles : Int) (disk : Disk)

theorem construct_limited : 0 ≤ (construct fileName maxFileSize maxFiles disk).m_maxFileSize :=
  le_max_of_le_right (by decide)

theorem follows_start : Follows (.construct fileName maxFileSize maxFiles disk) (.construct fileName maxFileSize maxFiles disk)
    ⟨false, (construct fileName maxFileSize maxFiles disk).before⟩ :=
  ⟨⟨rfl, rfl⟩, rfl, shows_before, rfl⟩

section Runs

variable {fileName : List Char} {maxFileSize : Nat} {maxFiles : Int} {disk : Disk}

/-- A run of the appender goes along with a run of the archive. -/
theorem follows_play (headed : (UTF8Converter.header formatter.header).length ≤ writeLimit) {log : RollingFileAppender}
    {rotation : Rotation Piece} (follows : Follows (.construct fileName maxFileSize maxFiles disk) log rotation)
    (events : List LogEvent) (done : ∀ event ∈ events, event.Done formatter) :
    Follows (.construct fileName maxFileSize maxFiles disk)
      (play (LogEvent.next formatter fileName maxFileSize maxFiles) log events)
      (play (Rotation.next (retention formatter (.construct fileName maxFileSize maxFiles disk))) rotation
        (events.map (LogEvent.rotates formatter))) := by
  induction events generalizing log rotation with
  | nil => exact follows
  | cons event rest ih =>
      have now := done event List.mem_cons_self
      apply ih
      · cases event with
        | write record answers =>
            obtain ⟨rfl, short⟩ := now
            exact follows.write headed (construct_limited _ _ _ _) short
        | restart => exact ⟨⟨rfl, rfl⟩, rfl, follows.shown, rfl⟩
      · exact fun event member => done event (List.mem_cons_of_mem _ member)

end Runs

theorem records_rotates (events : List LogEvent) :
    ((events.map (LogEvent.rotates formatter)).flatMap Rotation.Event.entries).filterMap Piece.record? =
      events.flatMap LogEvent.records := by
  induction events with
  | nil => rfl
  | cons event rest ih =>
      rw [List.map_cons, List.flatMap_cons, List.filterMap_append, ih, List.flatMap_cons]
      cases event <;> rfl

theorem whole_rotates (events : List LogEvent) {piece : Piece}
    (member : piece ∈ (events.map (LogEvent.rotates formatter)).flatMap Rotation.Event.entries) :
    ∃ record ∈ events.flatMap LogEvent.records, piece = .ofRecord formatter record := by
  induction events with
  | nil => exact absurd member List.not_mem_nil
  | cons event rest ih =>
      rw [List.map_cons, List.flatMap_cons, List.mem_append] at member
      rw [List.flatMap_cons]
      rcases member with here | there
      · cases event with
        | write record answers => exact ⟨record, List.mem_append_left _ (List.mem_singleton_self record), List.mem_singleton.mp here⟩
        | restart => exact absurd here List.not_mem_nil
      · obtain ⟨record, found, same⟩ := ih there
        exact ⟨record, List.mem_append_right _ found, same⟩

theorem limit_lt {first : RollingFileAppender} {length : Nat} (more : (retention formatter first).limit < length) :
    first.m_maxFileSize < length := by
  have natural : first.m_maxFileSize.toNat < length := more
  omega

theorem limit_le {first : RollingFileAppender} {bound : Nat} (within : first.m_maxFileSize ≤ bound) :
    (retention formatter first).limit ≤ bound := by
  show first.m_maxFileSize.toNat ≤ bound
  omega

/-- The archive has kept the old texts and the records, each written as a whole. -/
theorem kept_play (headed : (UTF8Converter.header formatter.header).length ≤ writeLimit) (events : List LogEvent)
    (done : ∀ event ∈ events, event.Done formatter) :
    let first := construct fileName maxFileSize maxFiles disk
    ∃ (rotation : Rotation Piece) (lost : List (List Piece)) (written : List Piece),
      Follows first (play (LogEvent.next formatter fileName maxFileSize maxFiles) first events) rotation ∧
        Rotation.Kept (retention formatter first) first.before written rotation.archive lost ∧
        (∀ piece ∈ written, piece.Whole formatter) ∧ written.filterMap Piece.record? = events.flatMap LogEvent.records := by
  intro first
  have start : Rotation.Kept (retention formatter first) first.before [] (Rotation.mk false first.before).archive [] :=
    Rotation.Kept.start
  have plain : Piece.record? (retention formatter first).header = none := rfl
  obtain ⟨written, lost, kept, items, from_⟩ := start.play plain (events.map (LogEvent.rotates formatter))
  refine ⟨_, lost, written, follows_play headed (follows_start fileName maxFileSize maxFiles disk) events done, kept, ?_,
    items.trans (records_rotates events)⟩
  intro piece member
  rcases from_ piece member with header | logged
  · exact Or.inl header
  · obtain ⟨record, _, same⟩ := whole_rotates events logged
    exact Or.inr ⟨record, same⟩

/-- What is written is still there, or all the older files are full. -/
theorem kept_or_full {first : RollingFileAppender} {disk : Disk} {archive : Archive Piece} {lost : List (List Piece)}
    {written : List Piece} (shown : disk.Shows first.buildFileName (List.flatMap Piece.text) archive)
    (kept : Rotation.Kept (retention formatter first) first.before written archive lost) :
    written <:+ archive.entries (first.m_lastFileNumber + 1) ∨
      0 < first.m_lastFileNumber ∧ ∀ number, 1 ≤ number → number ≤ first.m_lastFileNumber →
        first.m_maxFileSize < ((disk (first.buildFileName number)).getD []).length := by
  by_cases few : lost.length ≤ first.m_lastFileNumber
  · exact Or.inl ((kept.recent few).trans (Files.entries_suffix (by omega)))
  · apply Or.inr
    constructor
    · apply kept.rolled
      rintro rfl
      exact few (Nat.zero_le _)
    · intro number positive within
      have size := kept.aged number positive within (by omega)
      rw [volumeSize_shows shown] at size
      exact limit_lt size

/-- The log files are the newest of the volumes that were ever begun, and the volumes hold every old text and every record in
order; only whole oldest files are lost, and a record is lost only when all the older files are full. -/
theorem log_rolls (formatter : Formatter) (headed : (UTF8Converter.header formatter.header).length ≤ writeLimit)
    (events : List LogEvent) (done : ∀ event ∈ events, event.Done formatter) :
    let first := construct fileName maxFileSize maxFiles disk
    let log := play (LogEvent.next formatter fileName maxFileSize maxFiles) first events
    ∃ (archive : Archive Piece) (lost : List (List Piece)) (written : List Piece),
      log.disk.Shows first.buildFileName (List.flatMap Piece.text) archive ∧
        Rotation.Chronicle (retention formatter first) first.before written
          (lost ++ archive.volumes (first.m_lastFileNumber + 1)) ∧
        (first.m_lastFileNumber = 0 → lost = []) ∧
        (∀ piece ∈ written, piece.Whole formatter) ∧ written.filterMap Piece.record? = events.flatMap LogEvent.records ∧
        (written <:+ archive.entries (first.m_lastFileNumber + 1) ∨
          0 < first.m_lastFileNumber ∧ ∀ number, 1 ≤ number → number ≤ first.m_lastFileNumber →
            first.m_maxFileSize < ((log.disk (first.buildFileName number)).getD []).length) := by
  intro first log
  obtain ⟨rotation, lost, written, follows, kept, whole, logged⟩ :=
    kept_play fileName maxFileSize maxFiles disk headed events done
  refine ⟨rotation.archive, lost, written, follows.shown, kept.chronicle, fun single => ?_, whole, logged,
    kept_or_full follows.shown kept⟩
  by_contra some_
  exact (kept.rolled some_).ne' single

/-- This is a record of the start of the service. -/
def serviceStarted : Record where
  time := ⟨126, 0, 2, 3, 4, 5⟩
  millitm := 67
  severity := .debug
  tid := 100
  object := 0
  line := 30
  func := "void Controller::Start()".toList
  message := "Service started".toList

/-- Its text alone is longer than the least limit. -/
def longRecord : Record := { serviceStarted with message := List.replicate 1000 'a' }

theorem short_longRecord : (txtFormatter.format longRecord).length ≤ 1100 := by decide +kernel

/-- Each of these records but the first moves the file of the one before it. -/
def longRecords : List LogEvent := [.write longRecord {}, .write longRecord {}, .write longRecord {}]

theorem mem_longRecords {event : LogEvent} (member : event ∈ longRecords) : event = .write longRecord {} := by
  simp only [longRecords, List.mem_cons, List.not_mem_nil, or_false, or_self] at member
  exact member

theorem longRecords_done : ∀ event ∈ longRecords, event.Done txtFormatter := by
  intro event member
  rw [mem_longRecords member]
  exact ⟨rfl, short_longRecord.trans (by decide)⟩

/-- The witness log rolls: its older file is full. -/
theorem log_rolls_example :
    let first := construct "/tmp/peakwork.log".toList 0 2 fun _ => none
    let log := play (LogEvent.next txtFormatter "/tmp/peakwork.log".toList 0 2) first longRecords
    1000 < ((log.disk (first.buildFileName 1)).getD []).length ∧
    ∃ (archive : Archive Piece) (lost : List (List Piece)) (written : List Piece),
      log.disk.Shows first.buildFileName (List.flatMap Piece.text) archive ∧
        Rotation.Chronicle (retention txtFormatter first) first.before written
          (lost ++ archive.volumes (first.m_lastFileNumber + 1)) ∧
        (first.m_lastFileNumber = 0 → lost = []) ∧
        (∀ piece ∈ written, piece.Whole txtFormatter) ∧
        written.filterMap Piece.record? = longRecords.flatMap LogEvent.records ∧
        (written <:+ archive.entries (first.m_lastFileNumber + 1) ∨
          0 < first.m_lastFileNumber ∧ ∀ number, 1 ≤ number → number ≤ first.m_lastFileNumber →
            first.m_maxFileSize < ((log.disk (first.buildFileName number)).getD []).length) :=
  ⟨by decide +kernel, log_rolls _ _ _ _ txtFormatter (by decide) longRecords longRecords_done⟩

def LogEvent.restarts : LogEvent → Nat
  | .write _ _ => 0
  | .restart => 1

theorem reopens_rotates (events : List LogEvent) :
    ((events.map (LogEvent.rotates formatter)).map Rotation.Event.reopens).sum = (events.map LogEvent.restarts).sum := by
  rw [List.map_map]
  congr 2
  funext event
  cases event <;> rfl

/-- With at least two files each of them stays within the limit, the sizes of the old log files and one record for each
process. -/
theorem log_sizes (formatter : Formatter) (headed : (UTF8Converter.header formatter.header).length ≤ writeLimit)
    (rolls : 2 ≤ maxFiles) {bound longest : Nat} (events : List LogEvent) (done : ∀ event ∈ events, event.Done formatter)
    (limited : (construct fileName maxFileSize maxFiles disk).m_maxFileSize ≤ bound)
    (headers : (UTF8Converter.header formatter.header).length ≤ bound)
    (old : ∀ number, number ≤ (construct fileName maxFileSize maxFiles disk).m_lastFileNumber →
      ((disk ((construct fileName maxFileSize maxFiles disk).buildFileName number)).getD []).length ≤ bound)
    (short : ∀ record ∈ events.flatMap LogEvent.records, (formatter.format record).length ≤ longest) :
    let first := construct fileName maxFileSize maxFiles disk
    let log := play (LogEvent.next formatter fileName maxFileSize maxFiles) first events
    ∀ number, number ≤ first.m_lastFileNumber →
      ((log.disk (first.buildFileName number)).getD []).length ≤ bound + longest * ((events.map LogEvent.restarts).sum + 1) := by
  intro first log number within
  have follows := follows_play headed (follows_start fileName maxFileSize maxFiles disk) events done
  have start : Rotation.Bounded (retention formatter first) bound longest 0 ⟨false, first.before⟩ := by
    intro place below
    rw [volumeSize_shows shows_before]
    exact Nat.le_add_right_of_le (old place below)
  have after := start.play (show 0 < (maxFiles - 1).toNat by omega) (limit_le limited) headers
    (events.map (LogEvent.rotates formatter)) (by
      intro piece member
      obtain ⟨record, logged, rfl⟩ := whole_rotates events member
      exact short record logged) number within
  rw [volumeSize_shows follows.shown, Nat.zero_add, reopens_rotates] at after
  have once := Bool.toNat_le (play (Rotation.next (retention formatter first)) ⟨false, first.before⟩
    (events.map (LogEvent.rotates formatter))).opened
  exact after.trans (Nat.add_le_add_left (Nat.mul_le_mul_left longest (Nat.add_le_add_left once _)) bound)

theorem records_ofRecord (records : List Record) :
    (records.map (Piece.ofRecord formatter)).filterMap Piece.record? = records := by
  rw [List.filterMap_map]
  exact List.filterMap_some

/-- The witness log rolls, and no file takes more than one record above the limit. -/
theorem log_sizes_example :
    let first := construct "/tmp/peakwork.log".toList 0 2 fun _ => none
    let log := play (LogEvent.next txtFormatter "/tmp/peakwork.log".toList 0 2) first longRecords
    1000 < ((log.disk (first.buildFileName 1)).getD []).length ∧ ∀ number, number ≤ first.m_lastFileNumber →
      ((log.disk (first.buildFileName number)).getD []).length ≤ 1000 + 1100 * ((longRecords.map LogEvent.restarts).sum + 1) := by
  constructor
  · decide +kernel
  · apply log_sizes _ _ _ _ txtFormatter (by decide) (by decide) longRecords longRecords_done (by decide) (by decide)
    · exact fun number within => Nat.zero_le 1000
    · intro record member
      obtain ⟨event, logged, own⟩ := List.mem_flatMap.mp member
      rw [mem_longRecords logged] at own
      rw [List.mem_singleton.mp own]
      exact short_longRecord

/-- A process logs at most one record and ends. -/
def shortProcess (life : Option Record) : List LogEvent := life.toList.map (fun record => .write record {}) ++ [.restart]

theorem rotates_shortProcess (lives : List (Option Record)) :
    (lives.flatMap shortProcess).map (LogEvent.rotates formatter) =
      (lives.map (Option.map (Piece.ofRecord formatter))).flatMap Rotation.shortLife := by
  induction lives with
  | nil => rfl
  | cons life rest ih =>
      rw [List.flatMap_cons, List.map_append, ih, List.map_cons, List.flatMap_cons]
      cases life <;> rfl

/-- The log files are never moved on while each process logs at most one record, so that one file takes them all. -/
theorem short_processes_never_roll (formatter : Formatter) (headed : (UTF8Converter.header formatter.header).length ≤ writeLimit)
    (lives : List (Option Record)) (short : ∀ record ∈ lives.reduceOption, (formatter.format record).length ≤ writeLimit) :
    let first := construct fileName maxFileSize maxFiles disk
    let log := play (LogEvent.next formatter fileName maxFileSize maxFiles) first (lives.flatMap shortProcess)
    (∃ written : List Piece, written.filterMap Piece.record? = lives.reduceOption ∧ (∀ piece ∈ written, piece.Whole formatter) ∧
        (log.disk (first.buildFileName 0)).getD [] =
          (disk (first.buildFileName 0)).getD [] ++ written.flatMap Piece.text) ∧
      ∀ name, name ≠ first.buildFileName 0 → log.disk name = disk name := by
  intro first log
  have done : ∀ event ∈ lives.flatMap shortProcess, event.Done formatter := by
    intro event member
    obtain ⟨life, present, part⟩ := List.mem_flatMap.mp member
    rcases List.mem_append.mp part with logged | last
    · obtain ⟨record, is, rfl⟩ := List.mem_map.mp logged
      rw [Option.mem_toList.mp is] at present
      exact ⟨rfl, short record (List.reduceOption_mem_iff.mpr present)⟩
    · rw [List.mem_singleton.mp last]
      trivial
  have follows := follows_play headed (follows_start fileName maxFileSize maxFiles disk) _ done
  rw [rotates_shortProcess] at follows
  have plain : Piece.record? (retention formatter first).header = none := rfl
  obtain ⟨written, newest, items, from_, older⟩ := @Rotation.play_shortLives _ (retention formatter first)
    ⟨false, first.before⟩ _ _ plain rfl (lives.map (Option.map (Piece.ofRecord formatter)))
  rw [List.reduceOption_map] at items from_
  refine ⟨⟨written, items.trans (records_ofRecord _), ?_, ?_⟩, ?_⟩
  · intro piece member
    rcases from_ piece member with header | logged
    · exact Or.inl header
    · obtain ⟨record, _, same⟩ := List.mem_map.mp logged
      exact Or.inr ⟨record, same.symm⟩
  · have start := (@shows_before first).newest
    rw [follows.shown.newest, newest, List.flatMap_append, ← start]
    rfl
  · intro name other
    by_cases family : ∃ number, name = first.buildFileName number
    · obtain ⟨number, rfl⟩ := family
      have apart : number ≠ 0 := fun same => other (by rw [same])
      rw [follows.shown number, older number apart]
      exact (shows_before number).symm
    · have start : KeepsOrder formatter first [] first := keepsOrder_start
      have kept := start.play ⟨rfl, rfl⟩ (.fresh rfl) (lives.flatMap shortProcess)
      exact kept.others name fun number _ same => family ⟨number, same⟩

/-- A log file above the limit. -/
def fullDisk : Disk := fun name => if name = "/tmp/peakwork.log".toList then some (List.replicate 2000 'a') else none

theorem short_processes_never_roll_example :
    let first := construct "/tmp/peakwork.log".toList 0 2 fullDisk
    let log := play (LogEvent.next txtFormatter "/tmp/peakwork.log".toList 0 2) first
      ([some longRecord, none, some longRecord].flatMap shortProcess)
    first.m_maxFileSize < ((fullDisk (first.buildFileName 0)).getD []).length ∧
    (∃ written : List Piece,
        written.filterMap Piece.record? = [some longRecord, none, some longRecord].reduceOption ∧
          (∀ piece ∈ written, piece.Whole txtFormatter) ∧
          (log.disk (first.buildFileName 0)).getD [] =
            (fullDisk (first.buildFileName 0)).getD [] ++ written.flatMap Piece.text) ∧
      ∀ name, name ≠ first.buildFileName 0 → log.disk name = fullDisk name := by
  constructor
  · decide +kernel
  · apply short_processes_never_roll _ _ _ _ txtFormatter (by decide)
    intro record member
    have same : record = longRecord := by
      simp only [List.reduceOption_cons_of_some, List.reduceOption_cons_of_none, List.reduceOption_nil, List.mem_cons,
        List.not_mem_nil, or_false, or_self] at member
      exact member
    rw [same]
    exact short_longRecord.trans (by decide)

end Peakwork.Plog
