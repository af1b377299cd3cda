import BoostTest.Transition
import BoostTest.Token.Completion

/-! `echo` from echo_server.cpp, one step for each completion its coroutine waits
for. The loop views what one read has stored, passes the view to one
`async_write_some` and reads again; how much was written it does not look at.
What the peer sent and got, and the starts of the loop, are recorded beside. -/
namespace BoostTest.Echo
open Token Transition

/-- The conversion of an error code to `bool`, and its comparison with
`boost::asio::error::eof`. -/
structure ErrorCodes (X : Type) where
  failed : X → Bool
  isEof : X → Bool

/-- What `echo` waits for. -/
inductive Phase where
  | reading
  | writing (svBuffer : List UInt8)
  | closed
  deriving DecidableEq, Repr

/-- The lines it logs, without the endpoint of the peer. -/
inductive Line (X : Type) where
  | receive (svBuffer : List UInt8)
  | connectionClose
  | readError (ec : X)
  | writeError (ec : X)
  | catchException
  deriving DecidableEq, Repr

structure Session (X : Type) where
  buffer : List UInt8
  phase : Phase
  log : List (Line X)
  received : List UInt8
  sent : List UInt8
  /-- What had been received and sent whenever the loop started a read. -/
  starts : List (List UInt8 × List UInt8)
  deriving DecidableEq, Repr

inductive Event (X : Type) where
  /-- `async_read_some` completes after it has stored these bytes. -/
  | read (ec : X) (chunk : List UInt8)
  /-- `async_write_some` completes after it has transferred this many bytes. -/
  | write (ec : X) (transferred : Nat)
  | throw
  deriving DecidableEq, Repr

def bufferSize : Nat := 1024

variable {X : Type}

namespace Session

def init : Session X where
  buffer := List.replicate bufferSize 0
  phase := .reading
  log := []
  received := []
  sent := []
  starts := [([], [])]

/-- The bytes that the pending write has been given. -/
def view (s : Session X) : List UInt8 :=
  match s.phase with
  | .writing svBuffer => svBuffer
  | .reading | .closed => []

def store (s : Session X) (chunk : List UInt8) : Session X :=
  { s with
    buffer := chunk ++ s.buffer.drop chunk.length
    received := s.received ++ chunk }

/-- The rest of an iteration after a read of this size. -/
def startWrite (s : Session X) (size : Nat) : Session X :=
  { s with phase := .writing (s.buffer.take size), log := s.log ++ [.receive (s.buffer.take size)] }

def send (s : Session X) (transferred : Nat) : Session X :=
  { s with sent := s.sent ++ s.view.take transferred }

/-- The next iteration. -/
def startRead (s : Session X) : Session X :=
  { s with phase := .reading, starts := s.starts ++ [(s.received, s.sent)] }

def close (s : Session X) (line : Line X) : Session X :=
  { s with phase := .closed, log := s.log ++ [line] }

def step (codes : ErrorCodes X) (s : Session X) : Event X → Option (Session X)
  | .read ec chunk =>
    match s.phase with
    | .reading =>
      let s := s.store chunk
      match resultOf codes.failed ec chunk.length with
      | .error ec => some (s.close (if codes.isEof ec then .connectionClose else .readError ec))
      | .ok size => some (s.startWrite size)
    | _ => none
  | .write ec transferred =>
    match s.phase with
    | .writing _ =>
      let s := s.send transferred
      match resultOf codes.failed ec transferred with
      | .error ec => some (s.close (.writeError ec))
      | .ok _ => some s.startRead
    | _ => none
  | .throw =>
    match s.phase with
    | .closed => none
    | _ => some (s.close .catchException)

/-- What a stream socket promises: some bytes or an error, and no more bytes
than the buffer of the call holds. -/
def Delivers (codes : ErrorCodes X) (s : Session X) : Event X → Prop
  | .read ec chunk =>
    if codes.failed ec then chunk = [] else 1 ≤ chunk.length ∧ chunk.length ≤ bufferSize
  | .write ec transferred =>
    if codes.failed ec then transferred = 0 else 1 ≤ transferred ∧ transferred ≤ s.view.length
  | .throw => True

instance (codes : ErrorCodes X) (s : Session X) : DecidablePred (s.Delivers codes)
  | .read ec chunk => inferInstanceAs
    (Decidable (if codes.failed ec then chunk = [] else 1 ≤ chunk.length ∧ chunk.length ≤ bufferSize))
  | .write ec transferred => inferInstanceAs
    (Decidable (if codes.failed ec then transferred = 0 else 1 ≤ transferred ∧ transferred ≤ s.view.length))
  | .throw => .isTrue trivial

/-- Every write that succeeds transfers all it was given. -/
def WritesAll (codes : ErrorCodes X) (s : Session X) (event : Event X) : Prop :=
  s.Delivers codes event ∧ match event with
  | .write ec transferred => codes.failed ec = false → transferred = s.view.length
  | _ => True

instance (codes : ErrorCodes X) (s : Session X) : DecidablePred (s.WritesAll codes)
  | .write ec transferred => inferInstanceAs
    (Decidable (_ ∧ (codes.failed ec = false → transferred = s.view.length)))
  | .read _ _ | .throw => inferInstanceAs (Decidable (_ ∧ True))

/-- What one step can do. -/
inductive Stepped (codes : ErrorCodes X) (s : Session X) : Event X → Session X → Prop where
  | stopReading (reading : s.phase = .reading) (set : codes.failed ec = true) :
      Stepped codes s (.read ec chunk)
        ((s.store chunk).close (if codes.isEof ec then .connectionClose else .readError ec))
  | receive (reading : s.phase = .reading) (clear : codes.failed ec = false) :
      Stepped codes s (.read ec chunk) ((s.store chunk).startWrite chunk.length)
  | stopWriting (writing : s.phase = .writing svBuffer) (set : codes.failed ec = true) :
      Stepped codes s (.write ec transferred) ((s.send transferred).close (.writeError ec))
  | echo (writing : s.phase = .writing svBuffer) (clear : codes.failed ec = false) :
      Stepped codes s (.write ec transferred) (s.send transferred).startRead
  | throw (running : s.phase ≠ .closed) : Stepped codes s .throw (s.close .catchException)

theorem Stepped.of_step {codes : ErrorCodes X} {s t : Session X}
    (stepped : s.step codes event = some t) : Stepped codes s event t := by
  cases event with
  | read ec chunk =>
    simp only [step] at stepped
    split at stepped
    · rename_i reading
      cases set : codes.failed ec with
      | true =>
        simp only [resultOf, set, if_true, Option.some.injEq] at stepped
        subst stepped
        exact .stopReading reading set
      | false =>
        simp only [resultOf, set, Bool.false_eq_true, if_false, Option.some.injEq] at stepped
        subst stepped
        exact .receive reading set
    · contradiction
  | write ec transferred =>
    simp only [step] at stepped
    split at stepped
    · rename_i svBuffer writing
      cases set : codes.failed ec with
      | true =>
        simp only [resultOf, set, if_true, Option.some.injEq] at stepped
        subst stepped
        exact .stopWriting writing set
      | false =>
        simp only [resultOf, set, Bool.false_eq_true, if_false, Option.some.injEq] at stepped
        subst stepped
        exact .echo writing set
    · contradiction
  | throw =>
    simp only [step] at stepped
    split at stepped
    · contradiction
    · cases stepped
      exact .throw ‹_›

end Session
end BoostTest.Echo
