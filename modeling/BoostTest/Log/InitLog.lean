import Mathlib.Logic.Function.Basic

/-! `init_log` from util.cpp, with what it uses of spdlog: a logger with a
level, and sinks with levels of their own. The console shows a line at once; the
file, to which it is appended, gets it through a buffer, which is written when it
is full, flushed or closed. A line that is only partly written counts as not
written. A file sink throws if it cannot open its file. -/
namespace BoostTest.Log

inductive Level where
  | trace
  | debug
  | info
  | warn
  | err
  | critical
  | off
  deriving DecidableEq, Repr

def Level.rank : Level → Nat
  | .trace => 0
  | .debug => 1
  | .info => 2
  | .warn => 3
  | .err => 4
  | .critical => 5
  | .off => 6

/-- `should_log` of a logger or a sink with this level. -/
def Level.shouldLog (level msgLevel : Level) : Bool := level.rank ≤ msgLevel.rank

/-- `basic_file_sink_mt`, with what its stream has not written yet. -/
structure FileSink (M : Type) where
  filename : String
  level : Level
  buffer : List M

/-- A default logger: `level` is its own, `console` that of the console sink. -/
structure Logger (M : Type) where
  level : Level
  console : Option Level
  file : Option (FileSink M)

variable {M : Type}

/-- The default logger of the registry, before `init_log`. -/
def defaultLogger : Logger M := ⟨.info, some .trace, none⟩

/-- The default of `file_path`. -/
def defaultPath : String := "logs/default.log"

/-- The interval of `flush_every`, in nanoseconds. -/
def flushInterval : Nat := 3000000000

/-- The logger that `init_log` makes. -/
def freshLogger (level : Level) (enableConsole enableFile : Bool) (filePath : String) : Logger M where
  level := level
  console := if enableConsole then some level else none
  file := if enableFile then some ⟨filePath, level, []⟩ else none

/-- `init_log` up to `set_default_logger`; `none` if the file sink throws. -/
def initLog (opens : Bool) (level : Level) (enableConsole enableFile : Bool) (filePath : String) :
    Option (Logger M) :=
  if enableFile && !opens then none else some (freshLogger level enableConsole enableFile filePath)

namespace Logger

def unwritten (logger : Logger M) : List M :=
  match logger.file with
  | some sink => sink.buffer
  | none => []

/-- What is still to be written to the file of a path. -/
def unwrittenTo (logger : Logger M) (path : String) : List M :=
  match logger.file with
  | some sink => if sink.filename = path then sink.buffer else []
  | none => []

def keep (logger : Logger M) (buffer : List M) : Logger M :=
  { logger with file := logger.file.map fun sink => { sink with buffer } }

/-- `sink_it_`: what the console sink prints. -/
def prints (logger : Logger M) (msgLevel : Level) (msg : M) : List M :=
  if logger.level.shouldLog msgLevel ∧ logger.console.any (·.shouldLog msgLevel) then [msg] else []

/-- `sink_it_`: what the file sink takes into its buffer. -/
def log (logger : Logger M) (msgLevel : Level) (msg : M) : Logger M :=
  if logger.level.shouldLog msgLevel ∧ logger.file.any (·.level.shouldLog msgLevel) then
    logger.keep (logger.unwritten ++ [msg])
  else logger

end Logger

/-- The default logger with the terminal and the files. -/
structure Logging (M : Type) where
  logger : Logger M
  screen : List M
  disk : String → List M

inductive Call (M : Type) where
  | log (msgLevel : Level) (msg : M)
  /-- Of the thread that `flush_every` starts, or on closing the file. -/
  | flush
  | spill (lines : Nat)

namespace Logging

def write (s : Logging M) (lines : Nat) : Logging M :=
  match s.logger.file with
  | some sink =>
    { s with
      logger := s.logger.keep (sink.buffer.drop lines)
      disk := Function.update s.disk sink.filename (s.disk sink.filename ++ sink.buffer.take lines) }
  | none => s

def step (s : Logging M) : Call M → Logging M
  | .log msgLevel msg =>
    { s with
      logger := s.logger.log msgLevel msg
      screen := s.screen ++ s.logger.prints msgLevel msg }
  | .flush => s.write s.logger.unwritten.length
  | .spill lines => s.write lines

def run (s : Logging M) (calls : List (Call M)) : Logging M := calls.foldl step s

/-- Another default logger is set; the last one closes its file. -/
def replace (s : Logging M) (logger : Logger M) : Logging M :=
  { s.write s.logger.unwritten.length with logger }

/-- An exception leaves the default logger as it is. -/
def initLog (s : Logging M) (opens : Bool) (level : Level) (enableConsole enableFile : Bool)
    (filePath : String) : Logging M :=
  match Log.initLog opens level enableConsole enableFile filePath with
  | some logger => s.replace logger
  | none => s

/-- All that a file has got, or will once the buffer is written. -/
def lines (s : Logging M) (path : String) : List M := s.disk path ++ s.logger.unwrittenTo path

end Logging

/-- The lines of at least the level of `init_log`, in order. -/
def accepted (level : Level) (calls : List (Call M)) : List M :=
  calls.filterMap fun
    | .log msgLevel msg => if level.shouldLog msgLevel then some msg else none
    | .flush | .spill _ => none

/-- Each sink that is enabled has the level of the logger. -/
structure Logger.Uniform (logger : Logger M) (threshold : Level) (enableConsole enableFile : Bool)
    (filePath : String) : Prop where
  level : logger.level = threshold
  console : logger.console = if enableConsole then some threshold else none
  file : (logger.file.map fun sink => (sink.filename, sink.level)) =
    if enableFile then some (filePath, threshold) else none

namespace Logger
variable {logger : Logger M} {level : Level} {enableConsole enableFile : Bool} {filePath : String}

@[simp] theorem unwritten_freshLogger (level : Level) (enableConsole enableFile : Bool) (filePath : String) :
    (freshLogger level enableConsole enableFile filePath : Logger M).unwritten = [] := by
  cases enableFile <;> rfl

theorem uniform_freshLogger (level : Level) (enableConsole enableFile : Bool) (filePath : String) :
    (freshLogger level enableConsole enableFile filePath : Logger M).Uniform level enableConsole
      enableFile filePath := by
  cases enableFile <;> exact ⟨rfl, rfl, rfl⟩

theorem unwrittenTo_of_fresh (fresh : logger.unwritten = []) (path : String) :
    logger.unwrittenTo path = [] := by
  cases found : logger.file with
  | none => rw [unwrittenTo, found]
  | some sink =>
    rw [unwritten, found] at fresh
    simp [unwrittenTo, found, fresh]

theorem unwrittenTo_of_file {sink : FileSink M} (found : logger.file = some sink) :
    logger.unwrittenTo sink.filename = logger.unwritten := by
  simp [unwrittenTo, unwritten, found]

/-- Without a file sink nothing is kept. -/
theorem unwritten_keep (logger : Logger M) (buffer : List M) :
    (logger.keep buffer).unwritten = if logger.file.isSome then buffer else [] := by
  cases found : logger.file <;> simp [keep, unwritten, found]

theorem unwrittenTo_keep {sink : FileSink M} (found : logger.file = some sink) (buffer : List M)
    (path : String) :
    (logger.keep buffer).unwrittenTo path = if sink.filename = path then buffer else [] := by
  simp [keep, unwrittenTo, found]

/-- A line that is taken goes to the file of the sink. -/
theorem log_of_file {sink : FileSink M} (found : logger.file = some sink) (msgLevel : Level) (msg : M) :
    logger.log msgLevel msg =
      if logger.level.shouldLog msgLevel ∧ sink.level.shouldLog msgLevel then
        logger.keep (sink.buffer ++ [msg])
      else logger := by
  simp [log, found, unwritten]

theorem log_of_none (none : logger.file = none) (msgLevel : Level) (msg : M) :
    logger.log msgLevel msg = logger := by
  simp [log, none]

theorem file_of_mem {msg : M} (kept : msg ∈ logger.unwritten) : logger.file.isSome = true := by
  cases found : logger.file with
  | none => simp [unwritten, found] at kept
  | some sink => rfl

@[simp] theorem filename_keep (logger : Logger M) (buffer : List M) :
    (logger.keep buffer).file.map FileSink.filename = logger.file.map FileSink.filename := by
  simp [keep, Function.comp_def]

@[simp] theorem filename_log (logger : Logger M) (msgLevel : Level) (msg : M) :
    (logger.log msgLevel msg).file.map FileSink.filename = logger.file.map FileSink.filename := by
  unfold log
  split
  · exact filename_keep _ _
  · rfl

theorem mem_unwritten_log {msg other : M} (kept : other ∈ (logger.log msgLevel msg).unwritten) :
    other ∈ logger.unwritten ∨ other = msg := by
  cases found : logger.file with
  | none => exact .inl (log_of_none found msgLevel msg ▸ kept)
  | some sink =>
    rw [log_of_file found] at kept
    split at kept
    · rw [unwritten_keep, found, Option.isSome_some, if_pos rfl] at kept
      obtain old | new := List.mem_append.mp kept
      · exact .inl (by rw [unwritten, found]; exact old)
      · exact .inr (List.mem_singleton.mp new)
    · exact .inl kept

theorem Uniform.keep (uniform : logger.Uniform level enableConsole enableFile filePath)
    (buffer : List M) : (logger.keep buffer).Uniform level enableConsole enableFile filePath where
  level := uniform.level
  console := uniform.console
  file := by
    rw [← uniform.file]
    simp only [Logger.keep, Option.map_map]
    rfl

theorem Uniform.log (uniform : logger.Uniform level enableConsole enableFile filePath)
    (msgLevel : Level) (msg : M) :
    (logger.log msgLevel msg).Uniform level enableConsole enableFile filePath := by
  unfold Logger.log
  split
  · exact uniform.keep _
  · exact uniform

theorem Uniform.sink (uniform : logger.Uniform level enableConsole true filePath) :
    ∃ sink, logger.file = some sink ∧ sink.filename = filePath ∧ sink.level = level := by
  obtain ⟨sink, found, same⟩ := Option.map_eq_some_iff.mp uniform.file
  exact ⟨sink, found, congrArg Prod.fst same, congrArg Prod.snd same⟩

theorem Uniform.unwrittenTo_log (uniform : logger.Uniform level enableConsole enableFile filePath)
    (msgLevel : Level) (msg : M) (path : String) : (logger.log msgLevel msg).unwrittenTo path =
      logger.unwrittenTo path ++
        if enableFile ∧ path = filePath ∧ level.shouldLog msgLevel then [msg] else [] := by
  cases enableFile with
  | true =>
    obtain ⟨sink, found, rfl, same⟩ := uniform.sink
    rw [log_of_file found, uniform.level, same]
    by_cases taken : level.shouldLog msgLevel = true
    · rw [if_pos ⟨taken, taken⟩, unwrittenTo_keep found]
      by_cases here : sink.filename = path
      · simp [unwrittenTo, found, here, taken]
      · simp [unwrittenTo, found, here, Ne.symm here]
    · simp [taken]
  | false =>
    have none : logger.file = none := Option.map_eq_none_iff.mp uniform.file
    simp [log_of_none none]

theorem Uniform.prints (uniform : logger.Uniform level enableConsole enableFile filePath)
    (msgLevel : Level) (msg : M) :
    logger.prints msgLevel msg = if enableConsole ∧ level.shouldLog msgLevel then [msg] else [] := by
  rw [Logger.prints, uniform.level, uniform.console]
  cases enableConsole <;> simp

end Logger

namespace Logging
variable {s : Logging M} {level : Level} {enableConsole enableFile : Bool} {filePath : String}

/-- Writing moves lines from the buffer to the file. -/
theorem lines_write (s : Logging M) (count : Nat) (path : String) :
    (s.write count).lines path = s.lines path := by
  cases found : s.logger.file with
  | none => simp [write, found]
  | some sink =>
    simp only [lines, write, found]
    rw [Logger.unwrittenTo_keep found]
    by_cases here : sink.filename = path
    · subst here
      simp [Logger.unwrittenTo, found, List.append_assoc]
    · rw [Function.update_of_ne (Ne.symm here), if_neg here, Logger.unwrittenTo, found]
      simp [here]

theorem lines_log (s : Logging M) (msgLevel : Level) (msg : M) (path : String) :
    (s.step (.log msgLevel msg)).lines path = s.lines path ∨
      (s.step (.log msgLevel msg)).lines path = s.lines path ++ [msg] := by
  simp only [lines, step]
  cases found : s.logger.file with
  | none => exact .inl (by rw [Logger.log_of_none found])
  | some sink =>
    rw [Logger.log_of_file found]
    split
    · rw [Logger.unwrittenTo_keep found, Logger.unwrittenTo, found]
      by_cases here : sink.filename = path <;> simp [here]
    · exact .inl rfl

theorem unwritten_write (s : Logging M) (count : Nat) :
    (s.write count).logger.unwritten = s.logger.unwritten.drop count := by
  cases found : s.logger.file with
  | none => simp [write, found, Logger.unwritten]
  | some sink =>
    simp only [write, found]
    rw [Logger.unwritten_keep, found, Logger.unwritten, found]
    rfl

theorem mem_unwritten_write {count : Nat} {msg : M} (kept : msg ∈ (s.write count).logger.unwritten) :
    msg ∈ s.logger.unwritten :=
  List.mem_of_mem_drop (s.unwritten_write count ▸ kept)

theorem unwritten_flush (s : Logging M) : (s.step .flush).logger.unwritten = [] := by
  rw [step, unwritten_write, List.drop_length]

@[simp] theorem filename_write (s : Logging M) (count : Nat) :
    (s.write count).logger.file.map FileSink.filename = s.logger.file.map FileSink.filename := by
  cases found : s.logger.file with
  | none => simp [write, found]
  | some sink =>
    simp only [write, found]
    rw [Logger.filename_keep, found]

theorem Uniform.write (uniform : s.logger.Uniform level enableConsole enableFile filePath) (count : Nat) :
    (s.write count).logger.Uniform level enableConsole enableFile filePath := by
  unfold Logging.write
  split
  · exact uniform.keep _
  · exact uniform

theorem screen_write (s : Logging M) (count : Nat) : (s.write count).screen = s.screen := by
  unfold write
  split <;> rfl

/-- A flush leaves nothing to be written. -/
theorem disk_flush (s : Logging M) (path : String) : (s.step .flush).disk path = s.lines path := by
  have moved := s.lines_write s.logger.unwritten.length path
  have empty := Logger.unwrittenTo_of_fresh s.unwritten_flush path
  rw [lines] at moved
  change (s.step .flush).disk path ++ (s.step .flush).logger.unwrittenTo path = _ at moved
  rwa [empty, List.append_nil] at moved

theorem lines_replace (s : Logging M) {logger : Logger M} (fresh : logger.unwritten = [])
    (path : String) : (s.replace logger).lines path = s.lines path := by
  have flushed := s.disk_flush path
  rw [← flushed, lines, replace, Logger.unwrittenTo_of_fresh fresh, List.append_nil]
  rfl

/-- What one call adds to the terminal and to the files with their buffer. -/
theorem step_lines (uniform : s.logger.Uniform level enableConsole enableFile filePath) (call : Call M) :
    (s.step call).logger.Uniform level enableConsole enableFile filePath ∧
    (s.step call).screen = s.screen ++ (if enableConsole then accepted level [call] else []) ∧
    ∀ path, (s.step call).lines path =
      s.lines path ++ if enableFile ∧ path = filePath then accepted level [call] else [] := by
  cases call with
  | log msgLevel msg =>
    refine ⟨uniform.log msgLevel msg, ?_, fun path => ?_⟩
    · rw [step, uniform.prints]
      cases enableConsole <;> cases passes : level.shouldLog msgLevel <;> simp [accepted, passes]
    · rw [lines, step, uniform.unwrittenTo_log, lines, List.append_assoc]
      by_cases taken : level.shouldLog msgLevel = true <;> simp [accepted, taken]
  | flush | spill =>
    refine ⟨Uniform.write uniform _, (s.screen_write _).trans ?_, fun path => (s.lines_write _ path).trans ?_⟩
    · cases enableConsole <;> simp [accepted]
    · simp [accepted]

end Logging

end BoostTest.Log
