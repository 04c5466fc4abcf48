/-
This file proves which statements of a service reach its log files.
-/

import Peakwork.Construction.Plog.Logger
import Peakwork.Proof.Plog.Csv

namespace Peakwork.Plog

/-- An appender that has been added several times writes a record several times. -/
def writesOf (record : Record) : Nat → List Answers → List LogEvent
  | 0, _ => []
  | count + 1, answers => .write record (answers.headD {}) :: writesOf record count answers.tail

/-- The records of the statements that are severe enough, when the appender has been added so often before. -/
def logged (severity : Severity) : Nat → List Call → List LogEvent
  | _, [] => []
  | count, .init _ :: rest => logged severity (count + 1) rest
  | count, .log record answers :: rest =>
      (if record.severity.number ≤ severity.number then writesOf record count answers else []) ++ logged severity count rest

/-- A process logs, calls `plog::init` for the first time and goes on. -/
structure Life where
  before : List (Record × List Answers)
  after : List Call

def Life.calls (life : Life) (arguments : Init) : List Call :=
  life.before.map (fun statement => .log statement.1 statement.2) ++ .init arguments :: life.after

/-- The processes of a service follow each other on one disk. -/
def serve (arguments : Init) (disk : Disk) (lives : List Life) : Disk :=
  lives.foldl (fun disk life => (play Call.next { disk } (life.calls arguments)).disk) disk

/-- One appender belongs to the logger, so often, and it stands where a plain appender stands. -/
structure Serves (arguments : Init) (count : Nat) (plain : RollingFileAppender) (process : Process) : Prop where
  logger : process.logger = some ⟨arguments.maxSeverity, List.replicate count (kindOf arguments.fileName)⟩
  appender : ∃ appender, process.appenders (kindOf arguments.fileName) = some appender ∧
    { appender with disk := process.disk } = plain

variable {arguments : Init} {count : Nat} {plain : RollingFileAppender} {process : Process}

theorem Serves.disk (serves : Serves arguments count plain process) : process.disk = plain.disk := by
  obtain ⟨appender, _, same⟩ := serves.appender
  rw [← same]

theorem Serves.init (serves : Serves arguments count plain process) {again : Init}
    (kind : kindOf again.fileName = kindOf arguments.fileName) : Serves arguments (count + 1) plain (process.init again) := by
  obtain ⟨appender, found, same⟩ := serves.appender
  refine ⟨?_, appender, ?_, same⟩
  · show some _ = some _
    rw [serves.logger, Option.getD_some, kind, List.replicate_succ']
  · show Function.update _ _ _ _ = _
    rw [kind, Function.update_self, found, Option.getD_some]

/-- The first call makes the appender on the disk as it is. -/
theorem serves_first (first : Init) (disk : Disk) :
    Serves first 1 (.construct first.fileName first.maxFileSize first.maxFiles disk) (({ disk } : Process).init first) :=
  ⟨rfl, _, Function.update_self _ _ _, rfl⟩

/-- The other places of the logger do not change. -/
theorem Serves.append (serves : Serves arguments count plain process) (record : Record) (times : Nat) (answers : List Answers) :
    Serves arguments count
      (play (LogEvent.next (kindOf arguments.fileName).formatter arguments.fileName arguments.maxFileSize arguments.maxFiles)
        plain (writesOf record times answers))
      (Process.append record (List.replicate times (kindOf arguments.fileName)) answers process) := by
  induction times generalizing plain process answers with
  | zero => exact serves
  | succ times ih =>
      rw [List.replicate_succ, Process.append, writesOf, play_cons]
      apply ih
      obtain ⟨appender, found, same⟩ := serves.appender
      rw [Process.writeTo, found]
      refine ⟨serves.logger, _, Function.update_self _ _ _, ?_⟩
      exact congrArg (fun log => RollingFileAppender.write (kindOf arguments.fileName).formatter log (answers.headD {}) record) same

theorem Serves.log (serves : Serves arguments count plain process) (record : Record) (answers : List Answers) :
    Serves arguments count
      (play (LogEvent.next (kindOf arguments.fileName).formatter arguments.fileName arguments.maxFileSize arguments.maxFiles)
        plain (if record.severity.number ≤ arguments.maxSeverity.number then writesOf record count answers else []))
      (process.log record answers) := by
  rw [Process.log, serves.logger]
  show Serves arguments count _ (if decide (record.severity.number ≤ arguments.maxSeverity.number) = true then _ else _)
  by_cases severe : record.severity.number ≤ arguments.maxSeverity.number
  · rw [if_pos severe, if_pos (decide_eq_true severe)]
    exact serves.append record count answers
  · rw [if_neg severe, if_neg (by rw [decide_eq_false severe]; exact Bool.false_ne_true)]
    exact serves

theorem Serves.play (serves : Serves arguments count plain process) (calls : List Call)
    (kinds : ∀ again, .init again ∈ calls → kindOf again.fileName = kindOf arguments.fileName) : ∃ total,
    Serves arguments total
      (Peakwork.play (LogEvent.next (kindOf arguments.fileName).formatter arguments.fileName arguments.maxFileSize
        arguments.maxFiles) plain (logged arguments.maxSeverity count calls))
      (Peakwork.play Call.next process calls) := by
  induction calls generalizing plain process count with
  | nil => exact ⟨count, serves⟩
  | cons call rest ih =>
      have later (again : Init) (member : .init again ∈ rest) := kinds again (List.mem_cons_of_mem call member)
      cases call with
      | init again => exact ih (serves.init (kinds again List.mem_cons_self)) later
      | log record answers =>
          rw [logged, play_append]
          exact ih (serves.log record answers) later

/-- Statements before the first `plog::init` change nothing. -/
theorem play_before (statements : List (Record × List Answers)) (disk : Disk) :
    play Call.next { disk } (statements.map fun statement => .log statement.1 statement.2) = { disk } := by
  induction statements with
  | nil => rfl
  | cons statement rest ih => exact ih

/-- The log of a service has, for each of its processes, the records behind the first `plog::init` up to its severity, each
as often as `plog::init` has been called. -/
theorem service_log (arguments : Init) (disk : Disk) (lives : List Life)
    (kinds : ∀ life ∈ lives, ∀ again, .init again ∈ life.after → kindOf again.fileName = kindOf arguments.fileName) :
    serve arguments disk lives =
      (play (LogEvent.next (kindOf arguments.fileName).formatter arguments.fileName arguments.maxFileSize arguments.maxFiles)
        (.construct arguments.fileName arguments.maxFileSize arguments.maxFiles disk)
        (lives.flatMap fun life => logged arguments.maxSeverity 1 life.after ++ [.restart])).disk := by
  induction lives generalizing disk with
  | nil => rfl
  | cons life rest ih =>
      have one := (serves_first arguments disk).play life.after (kinds life List.mem_cons_self)
      obtain ⟨total, stands⟩ := one
      have ends : (play Call.next { disk } (life.calls arguments)).disk =
          (play (LogEvent.next (kindOf arguments.fileName).formatter arguments.fileName arguments.maxFileSize
            arguments.maxFiles) (.construct arguments.fileName arguments.maxFileSize arguments.maxFiles disk)
            (logged arguments.maxSeverity 1 life.after)).disk := by
        rw [Life.calls, play_append, play_before]
        exact stands.disk
      show serve arguments (play Call.next { disk } (life.calls arguments)).disk rest = _
      rw [ih _ fun other member => kinds other (List.mem_cons_of_mem life member), ends, List.flatMap_cons, play_append,
        play_append]
      rfl

/-- The arguments of the controller, with one of the paths that can be configured. -/
def controllerInit : Init := ⟨.debug, "/tmp/peakwork.log".toList, 10 * 1024 * 1024, 10⟩

/-- The second process calls `plog::init` twice. -/
def twoLives : List Life :=
  [⟨[(serviceStarted, [])], [.log serviceStarted []]⟩, ⟨[], [.init controllerInit, .log serviceStarted []]⟩]

theorem service_log_example :
    serve controllerInit (fun _ => none) twoLives =
      (play (LogEvent.next (kindOf controllerInit.fileName).formatter controllerInit.fileName controllerInit.maxFileSize
          controllerInit.maxFiles)
        (.construct controllerInit.fileName controllerInit.maxFileSize controllerInit.maxFiles fun _ => none)
        (twoLives.flatMap fun life => logged controllerInit.maxSeverity 1 life.after ++ [.restart])).disk := by
  apply service_log
  intro life member again present
  simp only [twoLives, List.mem_cons, List.not_mem_nil, or_false] at member
  rcases member with rfl | rfl
  · simp only [List.mem_cons, List.not_mem_nil, or_false, reduceCtorEq] at present
  · simp only [List.mem_cons, List.not_mem_nil, or_false, reduceCtorEq, Call.init.injEq] at present
    rw [present]

end Peakwork.Plog
