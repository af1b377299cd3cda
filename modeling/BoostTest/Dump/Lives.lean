import BoostTest.Dump.Entries
import BoostTest.Dump.Unread

/-! `main` of `prj_exec1` on Linux, in one life of the program after the other.
Signals, faults, exceptions and SIGKILL strike between any two statements, of the
handler as well. The handler frames are those of `Crash`; the calls on files are
those of `Instances`, with a reader for each life and a writer for each handler
entry. -/
namespace BoostTest.Dump
open FileSystem Signals

/-- `EXIT_SUCCESS` and `EXIT_FAILURE`. -/
inductive Status where
  | success
  | failure
  deriving DecidableEq, Repr

/-- The last thing `main` has done. From `constructed` on it is inside
`show_last_dump`, and its reader says how far. -/
inductive Stage where
  | begun
  | terminateSet
  | corePrepared
  | pipeIgnored
  | logging
  | segvSet
  | constructed
  | shown
  | greeted
  | ran
  | caught
  | leaving (status : Status)
  deriving DecidableEq, Repr

namespace Stage

/-- The statements that neither set a signal nor touch the dump file. -/
def next : Stage → Option Stage
  | .begun => some .terminateSet
  | .terminateSet => some .corePrepared
  | .corePrepared => some .pipeIgnored
  | .pipeIgnored => some .logging
  | .shown => some .greeted
  | .greeted => some .ran
  | .ran | .caught => some (.leaving .success)
  | .logging | .segvSet | .constructed | .leaving _ => none

/-- The next statement is in the `try` block and may throw. -/
def throws : Stage → Bool
  | .pipeIgnored | .constructed | .shown | .greeted => true
  | .begun | .terminateSet | .corePrepared | .logging | .segvSet | .ran | .caught | .leaving _ => false

/-- `terminate_handle` is what `std::terminate` calls. -/
def terminates : Stage → Bool
  | .begun | .leaving _ => false
  | .terminateSet | .corePrepared | .pipeIgnored | .logging | .segvSet | .constructed | .shown
  | .greeted | .ran | .caught => true

end Stage

/-- How a process came to its end; `crashed` is by the default action of SIGSEGV
or SIGABRT, with a `StacktraceDumper` or before there was one. -/
inductive Ending where
  | returned (status : Status)
  | crashed (constructed : Bool)
  | killed
  deriving DecidableEq, Repr

/-- What is observed of the lives, each named by how many there were before. -/
inductive Record (β : Type) where
  | started (life : Nat) (present : Option (List β))
  /-- The handler has opened the dump file, and what it held is gone. -/
  | created (life writer file : Nat)
  | dumped (life writer file : Nat) (trace : List β)
  | reported (life : Nat) (stream : Option Nat) (trace : List β)
  | shown (life : Nat)
  | ended (life : Nat) (ending : Ending)
  deriving DecidableEq, Repr

structure Life where
  number : Nat
  stage : Stage
  crash : Crash
  constructed : Bool

namespace Life

/-- A process starts with the default actions. -/
def begin (number : Nat) : Life where
  number
  stage := .begun
  crash :=
    { process :=
        { frames := [], disposition := fun _ => .default, pending := fun _ => false,
          killed := false, entries := 0 }
      file := .old
      writes := 0
      exited := false }
  constructed := false

/-- A `signal` statement of `StacktraceDumper::StacktraceDumper`. -/
def signal (l : Life) (sig : Signal) : Life :=
  { l with crash := { l.crash with process := l.crash.process.signal sig .handler } }

theorem signal_self (l : Life) (sig : Signal) :
    (l.signal sig).crash.process.disposition sig = .handler := Function.update_self _ _ _

theorem signal_of_ne (l : Life) {sig other : Signal} (different : other ≠ sig) :
    (l.signal sig).crash.process.disposition other = l.crash.process.disposition other :=
  Function.update_of_ne different _ _

end Life

/-- `entries` counts the handler entries of the lives that have ended. -/
structure Lives (P β : Type) where
  io : Instances P β
  born : Nat
  entries : Nat
  life : Option Life
  history : List (Record β)

inductive Happening where
  | start
  /-- The next statement of the innermost handler, or of `main` if there is none.
  Opening a dump to be read may be refused. -/
  | exec (granted : Bool)
  /-- That statement throws. -/
  | throw
  /-- `safe_dump_to` of the innermost handler fails. -/
  | refuse
  | terminate
  | deliver (sig : Signal)
  | fault
  | kill
  deriving DecidableEq, Repr

variable {P β : Type}

/-- The next call of `show_last_dump`. -/
def Reader.call (reader : Nat) (granted : Bool) : Reader β → Event β
  | .idle => .test reader
  | .found => .openStream reader granted
  | .opened _ => .load reader
  | .loaded _ _ => .log reader
  | .logged _ _ => .remove reader

/-- What the next call of `show_last_dump` logs. -/
def Reader.record (reader : Nat) : Reader β → List (Record β)
  | .loaded stream trace => [.reported reader stream trace]
  | .idle | .found | .opened _ | .logged _ _ => []

/-- The call on files in the next statement of a handler frame, if there is one.
`capture` gives the stack of each handler entry. -/
def Point.call (capture : Nat → List β) (writer : Nat) : Point → Option (Event β)
  | .reset => some (.prepare writer)
  | .prepared => some (.create writer)
  | .opened => some (.dump writer (capture writer))
  | .entry | .dumped | .raised | .thrown => none

/-- What a call of a handler frame does to the dump file, from what its writer
had open before the call and has after it. -/
def Writer.record (capture : Nat → List β) (life writer : Nat) : Writer → Writer → List (Record β)
  | .prepared, .opened file => [.created life writer file]
  | .opened file, .idle => [.dumped life writer file (capture writer)]
  | _, _ => []

@[simp] theorem Writer.record_self (capture : Nat → List β) (life writer : Nat) (phase : Writer) :
    phase.record capture life writer phase = [] := by
  cases phase <;> rfl

theorem Writer.record_cases {made : Record β} {before after : Writer}
    (member : made ∈ before.record capture life writer after) :
    ∃ file, made = .created life writer file ∨ made = .dumped life writer file (capture writer) := by
  unfold Writer.record at member
  split at member
  · exact ⟨_, .inl (List.mem_singleton.mp member)⟩
  · exact ⟨_, .inr (List.mem_singleton.mp member)⟩
  · cases member

/-- The call of a statement that makes one. -/
def Instances.perform [DecidableEq P] (path : P) (s : Instances P β) : Option (Event β) → Option (Instances P β)
  | some event => s.step path event
  | none => some s

/-- What handler frames have open is closed. -/
def Instances.close (s : Instances P β) (base : Nat) (frames : List (Frame Signal Point)) :
    Instances P β :=
  frames.foldl (fun s f => s.setWriter (base + f.serial) .idle) s

namespace Lives

def init (files : Files P β) : Lives P β := ⟨.init files, 0, 0, none, []⟩

/-- `main` runs on. -/
def proceed (s : Lives P β) (l : Life) : Lives P β := { s with life := some l }

/-- A call of `show_last_dump`, if there is one, does not go on. -/
def abandon (s : Lives P β) (l : Life) : Lives P β :=
  { s with io := s.io.setReader l.number .idle }

/-- Nothing that a process has open outlives it. -/
def bury (s : Lives P β) (l : Life) (ending : Ending) : Lives P β where
  io := (s.abandon l).io.close s.entries l.crash.process.frames
  born := s.born
  entries := s.entries + l.crash.process.entries
  life := none
  history := s.history ++ [.ended l.number ending]

/-- A signal or a statement of the handler leaves the process in it or ends it. -/
def settle (s : Lives P β) (l : Life) (crash : Crash) : Lives P β :=
  let l := { l with crash }
  if crash.process.killed then s.bury l (.crashed l.constructed)
  else if crash.exited then s.bury l (.returned .failure)
  else s.proceed l

/-- A statement of the innermost handler fails, and what it had open is closed. -/
def fail (s : Lives P β) (l : Life) (f : Frame Signal Point) (input : Input) : Option (Lives P β) :=
  (l.crash.step input).map ({ s with io := s.io.setWriter (s.entries + f.serial) .idle }.settle l)

variable [DecidableEq P]

def start (path : P) (s : Lives P β) : Lives P β :=
  { s with
    born := s.born + 1
    life := some (.begin s.born)
    history := s.history ++ [.started s.born ((s.io.files.link path).map s.io.files.content)] }

/-- The next statement of `StacktraceDumper::show_last_dump`, which returns once
its reader is idle again. -/
def showLastDump (path : P) (s : Lives P β) (l : Life) (granted : Bool) : Option (Lives P β) :=
  let reader := s.io.readers l.number
  (s.io.step path (reader.call l.number granted)).map fun io =>
    match io.readers l.number with
    | .idle =>
      { s with
        io
        life := some { l with stage := .shown }
        history := s.history ++ reader.record l.number ++ [.shown l.number] }
    | _ => { s with io, life := some l, history := s.history ++ reader.record l.number }

def execMain (path : P) (s : Lives P β) (l : Life) (granted : Bool) : Option (Lives P β) :=
  match l.stage with
  | .logging => some (s.proceed { l.signal .segv with stage := .segvSet })
  | .segvSet => some (s.proceed { l.signal .abrt with stage := .constructed, constructed := true })
  | .constructed => s.showLastDump path l granted
  | .leaving status => some (s.bury l (.returned status))
  | stage => stage.next.map fun stage => s.proceed { l with stage }

def execHandler (path : P) (capture : Nat → List β) (s : Lives P β) (l : Life)
    (f : Frame Signal Point) : Option (Lives P β) :=
  let writer := s.entries + f.serial
  (s.io.perform path (f.code.call capture writer)).bind fun io =>
    let written := (s.io.writers writer).record capture l.number writer (io.writers writer)
    (l.crash.step .exec).map ({ s with io, history := s.history ++ written }.settle l)

def step (path : P) (capture : Nat → List β) (s : Lives P β) : Happening → Option (Lives P β)
  | .start =>
    match s.life with
    | none => some (s.start path)
    | some _ => none
  | .exec granted => s.life.bind fun l =>
    match l.crash.process.frames with
    | [] => s.execMain path l granted
    | f :: _ => s.execHandler path capture l f
  | .throw => s.life.bind fun l =>
    match l.crash.process.frames with
    | [] =>
      if l.stage.throws then some ((s.abandon l).proceed { l with stage := .caught }) else none
    | f :: _ => s.fail l f .throw
  | .refuse => s.life.bind fun l =>
    match l.crash.process.frames with
    | [] => none
    | f :: _ => s.fail l f .refuse
  | .terminate => s.life.bind fun l =>
    if l.crash.process.frames = [] ∧ l.stage.terminates then
      some ((s.abandon l).proceed { l with stage := .leaving .failure })
    else none
  | .deliver sig => s.life.bind fun l => (l.crash.step (.deliver sig)).map (s.settle l)
  | .fault => s.life.bind fun l => (l.crash.step .fault).map (s.settle l)
  | .kill => s.life.map (s.bury · .killed)

/-- What one step can do. -/
inductive Stepped (path : P) (capture : Nat → List β) (s : Lives P β) :
    Happening → Lives P β → Prop where
  | start (dead : s.life = none) : Stepped path capture s .start (s.start path)
  | move (alive : s.life = some l) (free : l.crash.process.frames = [])
      (next : l.stage.next = some stage) :
      Stepped path capture s (.exec granted) (s.proceed { l with stage })
  | segv (alive : s.life = some l) (free : l.crash.process.frames = []) (stage : l.stage = .logging) :
      Stepped path capture s (.exec granted) (s.proceed { l.signal .segv with stage := .segvSet })
  | abrt (alive : s.life = some l) (free : l.crash.process.frames = []) (stage : l.stage = .segvSet) :
      Stepped path capture s (.exec granted)
        (s.proceed { l.signal .abrt with stage := .constructed, constructed := true })
  | call {io : Instances P β} (alive : s.life = some l) (free : l.crash.process.frames = [])
      (stage : l.stage = .constructed)
      (called : s.io.step path ((s.io.readers l.number).call l.number granted) = some io)
      (busy : io.readers l.number ≠ .idle) :
      Stepped path capture s (.exec granted)
        { s with
          io
          life := some l
          history := s.history ++ (s.io.readers l.number).record l.number }
  | pass {io : Instances P β} (alive : s.life = some l) (free : l.crash.process.frames = [])
      (stage : l.stage = .constructed)
      (called : s.io.step path ((s.io.readers l.number).call l.number granted) = some io)
      (idle : io.readers l.number = .idle) :
      Stepped path capture s (.exec granted)
        { s with
          io
          life := some { l with stage := .shown }
          history := s.history ++ (s.io.readers l.number).record l.number ++ [.shown l.number] }
  | leave (alive : s.life = some l) (free : l.crash.process.frames = [])
      (stage : l.stage = .leaving status) :
      Stepped path capture s (.exec granted) (s.bury l (.returned status))
  | handle (alive : s.life = some l) (top : l.crash.process.frames = f :: outer)
      (silent : f.code.call capture (s.entries + f.serial) = none)
      (executed : l.crash.step .exec = some crash) :
      Stepped path capture s (.exec granted) (s.settle l crash)
  | handleCall {io : Instances P β} (alive : s.life = some l)
      (top : l.crash.process.frames = f :: outer)
      (calls : f.code.call capture (s.entries + f.serial) = some event)
      (called : s.io.step path event = some io) (executed : l.crash.step .exec = some crash) :
      Stepped path capture s (.exec granted)
        ({ s with
          io
          history := s.history ++ (s.io.writers (s.entries + f.serial)).record capture l.number
            (s.entries + f.serial) (io.writers (s.entries + f.serial)) }.settle l crash)
  | throw (alive : s.life = some l) (free : l.crash.process.frames = [])
      (throws : l.stage.throws = true) :
      Stepped path capture s .throw ((s.abandon l).proceed { l with stage := .caught })
  | failThrow (alive : s.life = some l) (top : l.crash.process.frames = f :: outer)
      (failed : l.crash.step .throw = some crash) :
      Stepped path capture s .throw
        ({ s with io := s.io.setWriter (s.entries + f.serial) .idle }.settle l crash)
  | failRefuse (alive : s.life = some l) (top : l.crash.process.frames = f :: outer)
      (failed : l.crash.step .refuse = some crash) :
      Stepped path capture s .refuse
        ({ s with io := s.io.setWriter (s.entries + f.serial) .idle }.settle l crash)
  | terminate (alive : s.life = some l) (free : l.crash.process.frames = [])
      (terminates : l.stage.terminates = true) :
      Stepped path capture s .terminate ((s.abandon l).proceed { l with stage := .leaving .failure })
  | deliver (alive : s.life = some l) (struck : l.crash.step (.deliver sig) = some crash) :
      Stepped path capture s (.deliver sig) (s.settle l crash)
  | fault (alive : s.life = some l) (struck : l.crash.step .fault = some crash) :
      Stepped path capture s .fault (s.settle l crash)
  | kill (alive : s.life = some l) : Stepped path capture s .kill (s.bury l .killed)

theorem Stepped.of_main {path : P} {capture : Nat → List β} {s t : Lives P β} (alive : s.life = some l)
    (free : l.crash.process.frames = []) (stepped : s.execMain path l granted = some t) :
    Stepped path capture s (.exec granted) t := by
  have moves : l.stage.next.map (fun stage => s.proceed { l with stage }) = some t →
      Stepped path capture s (.exec granted) t := by
    intro moved
    obtain ⟨stage, next, rfl⟩ := Option.map_eq_some_iff.mp moved
    exact .move alive free next
  cases stage : l.stage with
  | begun | terminateSet | corePrepared | pipeIgnored | shown | greeted | ran | caught =>
    simp only [execMain, stage] at stepped
    exact moves (by rw [stage]; exact stepped)
  | logging =>
    simp only [execMain, stage, Option.some.injEq] at stepped
    subst stepped
    exact .segv alive free stage
  | segvSet =>
    simp only [execMain, stage, Option.some.injEq] at stepped
    subst stepped
    exact .abrt alive free stage
  | constructed =>
    simp only [execMain, stage] at stepped
    obtain ⟨io, called, rfl⟩ := Option.map_eq_some_iff.mp stepped
    cases reader : io.readers l.number with
    | idle => exact .pass alive free stage called reader
    | found | opened | loaded | logged => exact .call alive free stage called (by simp [reader])
  | leaving status =>
    simp only [execMain, stage, Option.some.injEq] at stepped
    subst stepped
    exact .leave alive free stage

theorem Stepped.of_handler {path : P} {capture : Nat → List β} {s t : Lives P β}
    (alive : s.life = some l) (top : l.crash.process.frames = f :: outer)
    (stepped : s.execHandler path capture l f = some t) :
    Stepped path capture s (.exec granted) t := by
  obtain ⟨io, called, stepped⟩ := Option.bind_eq_some_iff.mp stepped
  obtain ⟨crash, executed, rfl⟩ := Option.map_eq_some_iff.mp stepped
  cases calls : f.code.call capture (s.entries + f.serial) with
  | none =>
    rw [calls] at called
    cases called
    rw [Writer.record_self, List.append_nil]
    exact .handle alive top calls executed
  | some event =>
    rw [calls] at called
    exact .handleCall alive top calls called executed

theorem Stepped.of_step {path : P} {capture : Nat → List β} {s t : Lives P β}
    (stepped : s.step path capture happening = some t) : Stepped path capture s happening t := by
  cases happening with
  | start =>
    simp only [step] at stepped
    split at stepped
    · cases stepped
      exact .start ‹_›
    · contradiction
  | exec granted =>
    obtain ⟨l, alive, stepped⟩ := Option.bind_eq_some_iff.mp stepped
    split at stepped
    · exact .of_main alive ‹_› stepped
    · exact .of_handler alive ‹_› stepped
  | throw =>
    obtain ⟨l, alive, stepped⟩ := Option.bind_eq_some_iff.mp stepped
    split at stepped
    · split at stepped
      · cases stepped
        exact .throw alive ‹_› ‹_›
      · contradiction
    · obtain ⟨crash, failed, rfl⟩ := Option.map_eq_some_iff.mp stepped
      exact .failThrow alive ‹_› failed
  | refuse =>
    obtain ⟨l, alive, stepped⟩ := Option.bind_eq_some_iff.mp stepped
    split at stepped
    · contradiction
    · obtain ⟨crash, failed, rfl⟩ := Option.map_eq_some_iff.mp stepped
      exact .failRefuse alive ‹_› failed
  | terminate =>
    obtain ⟨l, alive, stepped⟩ := Option.bind_eq_some_iff.mp stepped
    split at stepped
    · rename_i allowed
      cases stepped
      exact .terminate alive allowed.1 allowed.2
    · contradiction
  | deliver sig =>
    obtain ⟨l, alive, stepped⟩ := Option.bind_eq_some_iff.mp stepped
    obtain ⟨crash, struck, rfl⟩ := Option.map_eq_some_iff.mp stepped
    exact .deliver alive struck
  | fault =>
    obtain ⟨l, alive, stepped⟩ := Option.bind_eq_some_iff.mp stepped
    obtain ⟨crash, struck, rfl⟩ := Option.map_eq_some_iff.mp stepped
    exact .fault alive struck
  | kill =>
    obtain ⟨l, alive, rfl⟩ := Option.map_eq_some_iff.mp stepped
    exact .kill alive

omit [DecidableEq P] in
/-- The three outcomes of a step of the handler. -/
theorem settle_cases (s : Lives P β) (l : Life) (crash : Crash) :
    (crash.process.killed = true ∧
      s.settle l crash = s.bury { l with crash } (.crashed l.constructed)) ∨
    (crash.process.killed = false ∧ crash.exited = true ∧
      s.settle l crash = s.bury { l with crash } (.returned .failure)) ∨
    (crash.ended = false ∧ s.settle l crash = s.proceed { l with crash }) := by
  unfold settle
  dsimp only
  split
  · exact .inl ⟨‹_›, rfl⟩
  · have living : crash.process.killed = false := Bool.not_eq_true _ ▸ ‹_›
    split
    · exact .inr (.inl ⟨living, ‹_›, rfl⟩)
    · exact .inr (.inr ⟨Crash.ended_eq_false.mpr ⟨living, Bool.not_eq_true _ ▸ ‹_›⟩, rfl⟩)

omit [DecidableEq P] in
theorem settle_history (s : Lives P β) (l : Life) (crash : Crash) :
    (s.settle l crash).history = s.history ∨
      ∃ ending, (s.settle l crash).history = s.history ++ [.ended l.number ending] := by
  obtain ⟨_, same⟩ | ⟨_, _, same⟩ | ⟨_, same⟩ := s.settle_cases l crash <;> rw [same]
  · exact .inr ⟨_, rfl⟩
  · exact .inr ⟨_, rfl⟩
  · exact .inl rfl

omit [DecidableEq P] in
theorem settle_life {s : Lives P β} {l : Life} {crash : Crash}
    (alive : (s.settle l crash).life = some m) : m = { l with crash } ∧ crash.ended = false := by
  obtain ⟨_, same⟩ | ⟨_, _, same⟩ | ⟨living, same⟩ := s.settle_cases l crash <;> rw [same] at alive
  · cases alive
  · cases alive
  · cases alive
    exact ⟨rfl, living⟩

omit [DecidableEq P] in
theorem settle_born (s : Lives P β) (l : Life) (crash : Crash) : (s.settle l crash).born = s.born := by
  obtain ⟨_, same⟩ | ⟨_, _, same⟩ | ⟨_, same⟩ := s.settle_cases l crash <;> rw [same] <;> rfl

end Lives
end BoostTest.Dump
