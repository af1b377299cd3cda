import BoostTest.Transition
import BoostTest.Signals

/-! `_signal_handler` on Linux, statement by statement, in a process that
signals and faults strike at any point, and where each call on files may fail.
A trace is named by the number of handler entries before the one that captured
it. An exception finds no `catch` on its way out of a handler. -/
namespace BoostTest.Dump
open Signals

inductive Signal where
  | segv
  | abrt
  deriving DecidableEq, Repr

/-- The last thing a frame of `_signal_handler` has done. -/
inductive Point where
  | entry
  | reset
  | prepared
  | opened
  | dumped
  | raised
  /-- An exception has left it, and `terminate_handle` runs. -/
  | thrown
  deriving DecidableEq, Repr

inductive DumpFile where
  | old
  | truncated
  | trace (serial : Nat)
  deriving DecidableEq, Repr

structure Crash where
  process : Process Signal Point
  file : DumpFile
  writes : Nat
  /-- The process has ended by `std::exit`. -/
  exited : Bool

inductive Input where
  | deliver (sig : Signal)
  /-- An invalid memory access of the program or of the handler. -/
  | fault
  /-- The innermost handler executes its next statement. -/
  | exec
  /-- `safe_dump_to` cannot open the file, or not write it. -/
  | refuse
  /-- `exists`, `create_directories` or the making of a path throws. -/
  | throw
  deriving DecidableEq, Repr

/-- `StacktraceDumper::StacktraceDumper`. -/
def install (p : Process Signal Point) : Process Signal Point :=
  (p.signal .segv .handler).signal .abrt .handler

namespace Crash

def init : Crash where
  process := install
    { frames := [], disposition := fun _ => .default, pending := fun _ => false,
      killed := false, entries := 0 }
  file := .old
  writes := 0
  exited := false

/-- By a signal or by `std::exit`. -/
def ended (c : Crash) : Bool := c.process.killed || c.exited

/-- The next statement of `_signal_handler(f.signum)`. -/
def signalHandler (c : Crash) (f : Frame Signal Point) (outer : List (Frame Signal Point)) : Crash :=
  match f.code with
  | .entry => { c with process := (c.process.goto f outer .reset).signal f.signum .default }
  | .reset => { c with process := c.process.goto f outer .prepared }
  | .prepared => { c with process := c.process.goto f outer .opened, file := .truncated }
  | .opened =>
    { c with
      process := c.process.goto f outer .dumped
      file := .trace f.serial
      writes := c.writes + 1 }
  | .dumped => { c with process := (c.process.goto f outer .raised).deliver .entry .abrt }
  | .raised => { c with process := c.process.leave .entry f outer }
  | .thrown => { c with exited := true }

/-- The result of `safe_dump_to` is ignored. -/
def refused (c : Crash) (f : Frame Signal Point) (outer : List (Frame Signal Point)) : Option Crash :=
  match f.code with
  | .prepared | .opened => some { c with process := c.process.goto f outer .dumped }
  | .entry | .reset | .dumped | .raised | .thrown => none

/-- `safe_dump_to` itself does not throw. -/
def threw (c : Crash) (f : Frame Signal Point) (outer : List (Frame Signal Point)) : Option Crash :=
  match f.code with
  | .reset | .prepared => some { c with process := c.process.goto f outer .thrown }
  | .entry | .opened | .dumped | .raised | .thrown => none

def step (c : Crash) (input : Input) : Option Crash :=
  if c.ended then none
  else
    match input, c.process.frames with
    | .deliver sig, _ => some { c with process := c.process.deliver .entry sig }
    | .fault, _ => some { c with process := c.process.fault .entry .segv }
    | .exec, f :: outer => some (c.signalHandler f outer)
    | .refuse, f :: outer => c.refused f outer
    | .throw, f :: outer => c.threw f outer
    | .exec, [] | .refuse, [] | .throw, [] => none

/-- Signals and faults strike at any point. -/
def Anytime (_ : Crash) (_ : Input) : Prop := True

instance (c : Crash) (input : Input) : Decidable (c.Anytime input) := .isTrue trivial

/-- What one step can do to a process that has not been killed. -/
inductive Stepped (c : Crash) : Input → Crash → Prop where
  | deliver (delivered : Process.Delivered .entry c.process sig p) :
      Stepped c (.deliver sig) { c with process := p }
  | faultEnter (enters : c.process.enters .segv = true) :
      Stepped c .fault { c with process := c.process.enter .entry .segv }
  | faultKill (stops : c.process.enters .segv = false) :
      Stepped c .fault { c with process := c.process.kill }
  | reset (top : c.process.frames = f :: outer) (code : f.code = .entry) : Stepped c .exec
      { c with process := (c.process.goto f outer .reset).signal f.signum .default }
  | prepare (top : c.process.frames = f :: outer) (code : f.code = .reset) :
      Stepped c .exec { c with process := c.process.goto f outer .prepared }
  | open (top : c.process.frames = f :: outer) (code : f.code = .prepared) :
      Stepped c .exec { c with process := c.process.goto f outer .opened, file := .truncated }
  | dump (top : c.process.frames = f :: outer) (code : f.code = .opened) : Stepped c .exec
      { c with
        process := c.process.goto f outer .dumped
        file := .trace f.serial
        writes := c.writes + 1 }
  | raise (top : c.process.frames = f :: outer) (code : f.code = .dumped)
      (delivered : Process.Delivered .entry (c.process.goto f outer .raised) .abrt p) :
      Stepped c .exec { c with process := p }
  | leave (top : c.process.frames = f :: outer) (code : f.code = .raised)
      (quiet : c.process.pending f.signum = false) :
      Stepped c .exec { c with process := { c.process with frames := outer } }
  | leavePending (top : c.process.frames = f :: outer) (code : f.code = .raised)
      (waiting : c.process.pending f.signum = true)
      (delivered : Process.Delivered .entry
        { c.process with
          frames := outer
          pending := Function.update c.process.pending f.signum false } f.signum p) :
      Stepped c .exec { c with process := p }
  | exit (top : c.process.frames = f :: outer) (code : f.code = .thrown) :
      Stepped c .exec { c with exited := true }
  | refuse (top : c.process.frames = f :: outer) (code : f.code = .prepared ∨ f.code = .opened) :
      Stepped c .refuse { c with process := c.process.goto f outer .dumped }
  | throw (top : c.process.frames = f :: outer) (code : f.code = .reset ∨ f.code = .prepared) :
      Stepped c .throw { c with process := c.process.goto f outer .thrown }

theorem ended_eq_false {c : Crash} : c.ended = false ↔ c.process.killed = false ∧ c.exited = false :=
  Bool.or_eq_false_iff

theorem Stepped.of_handler {c : Crash} (top : c.process.frames = f :: outer) :
    Stepped c .exec (c.signalHandler f outer) := by
  unfold signalHandler
  cases code : f.code with
  | entry => exact .reset top code
  | reset => exact .prepare top code
  | prepared => exact .open top code
  | opened => exact .dump top code
  | dumped => exact .raise top code (Process.deliver_delivered _ _ _)
  | raised =>
    dsimp only
    unfold Process.leave
    dsimp only
    split
    · exact .leavePending top code ‹_› (Process.deliver_delivered _ _ _)
    · exact .leave top code (Bool.not_eq_true _ ▸ ‹_›)
  | thrown => exact .exit top code

theorem Stepped.of_step {c t : Crash} (stepped : c.step input = some t) :
    c.ended = false ∧ Stepped c input t := by
  unfold step at stepped
  split at stepped
  · contradiction
  · refine ⟨Bool.not_eq_true _ ▸ ‹_›, ?_⟩
    split at stepped
    · cases stepped
      exact .deliver (Process.deliver_delivered _ _ _)
    · cases stepped
      unfold Process.fault
      split
      · exact .faultEnter ‹_›
      · exact .faultKill (Bool.not_eq_true _ ▸ ‹_›)
    · cases stepped
      exact .of_handler ‹_›
    · rename_i f outer top
      unfold refused at stepped
      cases code : f.code with
      | prepared =>
        rw [code] at stepped
        cases stepped
        exact .refuse top (.inl code)
      | opened =>
        rw [code] at stepped
        cases stepped
        exact .refuse top (.inr code)
      | entry | reset | dumped | raised | thrown => simp [code] at stepped
    · rename_i f outer top
      unfold threw at stepped
      cases code : f.code with
      | reset =>
        rw [code] at stepped
        cases stepped
        exact .throw top (.inl code)
      | prepared =>
        rw [code] at stepped
        cases stepped
        exact .throw top (.inr code)
      | entry | opened | dumped | raised | thrown => simp [code] at stepped
    all_goals contradiction

end Crash
end BoostTest.Dump
