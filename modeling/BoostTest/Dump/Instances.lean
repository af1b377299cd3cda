import BoostTest.Transition
import BoostTest.FileSystem

/-! Instances of one executable on Linux, which share the path of the dump
file. Any number of them is inside `show_last_dump` and any number inside
`_signal_handler`; each file-system call is a step of its own. -/
namespace BoostTest.Dump
open FileSystem

/-- Where a call of `show_last_dump` is, with the file its stream reads, if the
stream could be opened, and the bytes it has read. -/
inductive Reader (β : Type) where
  | idle
  | found
  | opened (stream : Option Nat)
  | loaded (stream : Option Nat) (trace : List β)
  | logged (stream : Option Nat) (trace : List β)
  deriving DecidableEq, Repr

/-- Where a call of `_signal_handler` is: `prepared` once the directory of the
dump file exists, `opened` inside `safe_dump_to`. -/
inductive Writer where
  | idle
  | prepared
  | opened (file : Nat)
  deriving DecidableEq, Repr

/-- The file a call of `show_last_dump` unlinked, and what it had logged. -/
structure Removal (β : Type) where
  file : Nat
  stream : Option Nat
  trace : List β
  deriving DecidableEq, Repr

structure Instances (P β : Type) where
  files : Files P β
  readers : Nat → Reader β
  writers : Nat → Writer
  removals : List (Removal β)

inductive Event (β : Type) where
  | test (reader : Nat)
  /-- Opening a file that exists may still be refused. -/
  | openStream (reader : Nat) (granted : Bool)
  | load (reader : Nat)
  | log (reader : Nat)
  | remove (reader : Nat)
  | prepare (writer : Nat)
  | create (writer : Nat)
  | dump (writer : Nat) (trace : List β)
  | killReader (reader : Nat)
  | killWriter (writer : Nat)
  deriving DecidableEq, Repr

variable {P β : Type}

namespace Instances

def init (files : Files P β) : Instances P β := ⟨files, fun _ => .idle, fun _ => .idle, []⟩

def setReader (s : Instances P β) (reader : Nat) (phase : Reader β) : Instances P β :=
  { s with readers := Function.update s.readers reader phase }

def setWriter (s : Instances P β) (writer : Nat) (phase : Writer) : Instances P β :=
  { s with writers := Function.update s.writers writer phase }

@[simp] theorem setReader_self (s : Instances P β) (reader : Nat) (phase : Reader β) :
    (s.setReader reader phase).readers reader = phase := Function.update_self _ _ _

theorem forall_setReader {s : Instances P β} {p : Nat → Reader β → Prop} (new : p reader phase)
    (old : ∀ other, p other (s.readers other)) :
    ∀ other, p other ((s.setReader reader phase).readers other) :=
  (Function.forall_update_iff s.readers p).mpr ⟨new, fun other _ => old other⟩

@[simp] theorem setWriter_self (s : Instances P β) (writer : Nat) (phase : Writer) :
    (s.setWriter writer phase).writers writer = phase := Function.update_self _ _ _

theorem forall_setWriter {s : Instances P β} {p : Nat → Writer → Prop} (new : p writer phase)
    (old : ∀ other, p other (s.writers other)) :
    ∀ other, p other ((s.setWriter writer phase).writers other) :=
  (Function.forall_update_iff s.writers p).mpr ⟨new, fun other _ => old other⟩

def writeDump (s : Instances P β) (writer file : Nat) (trace : List β) : Instances P β :=
  { s with files := s.files.write file trace }.setWriter writer .idle

/-- `stacktrace::from_dump`; a stream in a failed state yields nothing. -/
def loadFrom (s : Instances P β) : Option Nat → List β
  | some file => s.files.content file
  | none => []

variable [DecidableEq P]

/-- `std::filesystem::remove`, which does nothing if the file does not exist. -/
def removeDump (path : P) (s : Instances P β) (stream : Option Nat) (trace : List β) :
    Instances P β :=
  match s.files.link path with
  | some file =>
    { s with
      files := s.files.remove path
      removals := s.removals ++ [⟨file, stream, trace⟩] }
  | none => s

def createDump (path : P) (s : Instances P β) (writer : Nat) : Instances P β :=
  let (file, files) := s.files.create path
  { s with files }.setWriter writer (.opened file)

def step (path : P) (s : Instances P β) : Event β → Option (Instances P β)
  | .test reader =>
    match s.readers reader with
    | .idle => some (if s.files.existsAt path then s.setReader reader .found else s)
    | _ => none
  | .openStream reader granted =>
    match s.readers reader with
    | .found => some (s.setReader reader (.opened (if granted then s.files.link path else none)))
    | _ => none
  | .load reader =>
    match s.readers reader with
    | .opened stream => some (s.setReader reader (.loaded stream (s.loadFrom stream)))
    | _ => none
  | .log reader =>
    match s.readers reader with
    | .loaded stream trace => some (s.setReader reader (.logged stream trace))
    | _ => none
  | .remove reader =>
    match s.readers reader with
    | .logged stream trace => some ((s.removeDump path stream trace).setReader reader .idle)
    | _ => none
  | .prepare writer =>
    match s.writers writer with
    | .idle => some (s.setWriter writer .prepared)
    | _ => none
  | .create writer =>
    match s.writers writer with
    | .prepared => some (s.createDump path writer)
    | _ => none
  | .dump writer trace =>
    match s.writers writer with
    | .opened file => some (s.writeDump writer file trace)
    | _ => none
  | .killReader reader => some (s.setReader reader .idle)
  | .killWriter writer => some (s.setWriter writer .idle)

/-- Nothing is assumed of the order of steps. -/
def Interleaved (_ : Instances P β) (_ : Event β) : Prop := True

instance (s : Instances P β) (event : Event β) : Decidable (s.Interleaved event) := .isTrue trivial

/-- What one step can do. -/
inductive Stepped (path : P) (s : Instances P β) : Event β → Instances P β → Prop where
  | absent (idle : s.readers reader = .idle) (absent : s.files.link path = none) :
      Stepped path s (.test reader) s
  | present (idle : s.readers reader = .idle) (linked : s.files.link path = some file) :
      Stepped path s (.test reader) (s.setReader reader .found)
  | openStream (found : s.readers reader = .found) : Stepped path s (.openStream reader granted)
      (s.setReader reader (.opened (if granted then s.files.link path else none)))
  | load (opened : s.readers reader = .opened stream) :
      Stepped path s (.load reader) (s.setReader reader (.loaded stream (s.loadFrom stream)))
  | log (loaded : s.readers reader = .loaded stream trace) :
      Stepped path s (.log reader) (s.setReader reader (.logged stream trace))
  | remove (logged : s.readers reader = .logged stream trace) : Stepped path s (.remove reader)
      ((s.removeDump path stream trace).setReader reader .idle)
  | prepare (idle : s.writers writer = .idle) :
      Stepped path s (.prepare writer) (s.setWriter writer .prepared)
  | create (prepared : s.writers writer = .prepared) :
      Stepped path s (.create writer) (s.createDump path writer)
  | dump (opened : s.writers writer = .opened file) :
      Stepped path s (.dump writer trace) (s.writeDump writer file trace)
  | killReader : Stepped path s (.killReader reader) (s.setReader reader .idle)
  | killWriter : Stepped path s (.killWriter writer) (s.setWriter writer .idle)

theorem Stepped.of_step {path : P} {s t : Instances P β} (stepped : s.step path event = some t) :
    Stepped path s event t := by
  cases event with
  | test reader =>
    simp only [step] at stepped
    split at stepped
    · rename_i idle
      cases linked : s.files.link path with
      | none =>
        simp only [Files.existsAt, linked, Option.isSome_none, Bool.false_eq_true, if_false,
          Option.some.injEq] at stepped
        subst stepped
        exact .absent idle linked
      | some file =>
        simp only [Files.existsAt, linked, Option.isSome_some, if_true, Option.some.injEq] at stepped
        subst stepped
        exact .present idle linked
    · contradiction
  | openStream reader | load reader | log reader | remove reader | prepare writer | create writer
  | dump writer =>
    simp only [step] at stepped
    split at stepped
    · cases stepped
      constructor
      assumption
    · contradiction
  | killReader reader =>
    cases stepped
    exact .killReader
  | killWriter writer =>
    cases stepped
    exact .killWriter

end Instances
end BoostTest.Dump
