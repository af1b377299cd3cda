import BoostTest.Asio.IoContext
import BoostTest.Echo.ShortWrites

/-! `listen` and `main` from echo_server.cpp, with a session of `echo` for each
accepted connection, all on one context. A session is named by its position in
the order of acceptance. Each resumption of a coroutine may throw, and whether
`co_spawn` posts the start of a session or starts it at once is left open. -/
namespace BoostTest.Echo
open Asio Transition

/-- What the coroutines and the signal handler wait for. -/
inductive Operation where
  /-- `co_spawn` of `listen`, and of a session. -/
  | listen
  | echo (k : Nat)
  | accept
  | read (k : Nat)
  | write (k : Nat)
  | signal
  deriving DecidableEq, Repr

inductive Outcome (X ε : Type) where
  | resumed
  | accepted (ec : X) (peer : ε)
  | read (ec : X) (chunk : List UInt8)
  | written (ec : X) (transferred : Nat)
  deriving DecidableEq, Repr

/-- The lines that `listen` logs. -/
inductive ListenLine (X ε : Type) where
  | listening
  | acceptError (ec : X)
  | acceptConnection (peer : ε)
  | catchException
  deriving DecidableEq, Repr

/-- Where a resumed coroutine throws. -/
inductive Fault where
  | none
  /-- In its log statement, or before it. -/
  | logging
  /-- In the `co_spawn` of a session. -/
  | spawning
  /-- When it starts its next operation. -/
  | initiating
  deriving DecidableEq, Repr

/-- What the `co_spawn` of a session does. -/
inductive Spawn where
  | posted
  /-- The session runs up to its first read. -/
  | started
  /-- The session throws before its first read. -/
  | thrown
  deriving DecidableEq, Repr

structure Surroundings where
  fault : Fault := .none
  spawn : Spawn := .posted
  deriving DecidableEq, Repr

structure Server (X ε : Type) where
  sessions : List (ε × Session X)
  log : List (ListenLine X ε)

/-- The session that an operation belongs to. -/
def Operation.on (k : Nat) : Operation → Bool
  | .echo i | .read i | .write i => i == k
  | .listen | .accept | .signal => false

variable {X ε : Type}

namespace Session

/-- What the session waits for next. -/
def awaits (s : Session X) (k : Nat) : List Operation :=
  match s.phase with
  | .reading => [.read k]
  | .writing _ => [.write k]
  | .closed => []

/-- An exception before the line is logged undoes neither a read nor a write. -/
def interrupt (codes : ErrorCodes X) (s : Session X) : Event X → Option (Session X)
  | .read _ chunk =>
    match s.phase with
    | .reading => some ((s.store chunk).close .catchException)
    | _ => none
  | .write _ transferred =>
    match s.phase with
    | .writing _ => some ((s.send transferred).close .catchException)
    | _ => none
  | .throw => s.step codes .throw

/-- The coroutine is resumed with a completion, and runs on to its next
`co_await`, to its end or to an exception. -/
def resume (codes : ErrorCodes X) (s : Session X) : Event X × Fault → Option (Session X)
  | (event, .logging) => s.interrupt codes event
  | (event, .initiating) => (s.step codes event).map fun t => (t.step codes .throw).getD t
  | (event, .none) | (event, .spawning) => s.step codes event

/-- As `co_spawn` leaves it. -/
def spawned : Spawn → Session X
  | .posted | .started => init
  | .thrown => init.close .catchException

/-- What has completed is what a stream socket promises. -/
def Receives (codes : ErrorCodes X) (s : Session X) (event : Event X × Fault) : Prop :=
  s.Delivers codes event.1

end Session

/-- What a resumption of a coroutine leaves behind. -/
abbrev Resumed (X ε : Type) : Type := Server X ε × List (Command Operation (Outcome X ε))

namespace Server

def init : Server X ε where
  sessions := []
  log := []

def report (s : Server X ε) (line : ListenLine X ε) : Server X ε := { s with log := s.log ++ [line] }

/-- An exception ends `listen`, and the acceptor with it. -/
def fail (s : Server X ε) : Server X ε := s.report .catchException

/-- `listen` goes on to its next `async_accept`. -/
def asyncAccept (s : Server X ε) (fault : Fault) (commands : List (Command Operation (Outcome X ε))) :
    Resumed X ε :=
  if fault = .initiating then (s.fail, commands) else (s, commands ++ [.start .accept])

/-- `listen` up to its first `co_await`. -/
def listen (s : Server X ε) (fault : Fault) : Resumed X ε :=
  if fault = .logging then (s.fail, []) else (s.report .listening).asyncAccept fault []

def coSpawn (k : Nat) : Spawn → List (Command Operation (Outcome X ε))
  | .posted => [.post (.echo k) .resumed]
  | .started => [.start (.read k)]
  | .thrown => []

/-- An iteration of its loop. -/
def accept (codes : ErrorCodes X) (s : Server X ε) (ec : X) (peer : ε) (surroundings : Surroundings) :
    Resumed X ε :=
  if surroundings.fault = .logging then (s.fail, [])
  else if codes.failed ec then (s.report (.acceptError ec)).asyncAccept surroundings.fault []
  else
    let s := s.report (.acceptConnection peer)
    if surroundings.fault = .spawning then (s.fail, [])
    else
      ({ s with sessions := s.sessions ++ [(peer, .spawned surroundings.spawn)] } : Server X ε).asyncAccept
        surroundings.fault (coSpawn s.sessions.length surroundings.spawn)

/-- A session goes on to its next operation. -/
def advance (codes : ErrorCodes X) (s : Server X ε) (k : Nat) (event : Event X × Fault) : Resumed X ε :=
  match s.sessions[k]? with
  | some (peer, session) =>
    match session.resume codes event with
    | some session =>
      ({ s with sessions := s.sessions.set k (peer, session) }, (session.awaits k).map .start)
    | none => (s, [])
  | none => (s, [])

def handle (codes : ErrorCodes X) (s : Server X ε) (op : Operation) (outcome : Outcome X ε)
    (surroundings : Surroundings) : Resumed X ε :=
  match op, outcome with
  | .listen, .resumed => s.listen surroundings.fault
  | .accept, .accepted ec peer => s.accept codes ec peer surroundings
  | .echo k, .resumed =>
    if surroundings.fault = .initiating then s.advance codes k (.throw, .none) else (s, [.start (.read k)])
  | .read k, .read ec chunk => s.advance codes k (.read ec chunk, surroundings.fault)
  | .write k, .written ec transferred => s.advance codes k (.write ec transferred, surroundings.fault)
  | .signal, .resumed => (s, [.stop])
  | _, _ => (s, [])

/-- The peer that a completed `async_accept` gives a session. -/
def newPeer (codes : ErrorCodes X) (ec : X) (peer : ε) (fault : Fault) : Option ε :=
  if codes.failed ec ∨ fault = .logging ∨ fault = .spawning then none else some peer

section Accept
variable (codes : ErrorCodes X) (s : Server X ε) (ec : X) (peer : ε) (surroundings : Surroundings)

theorem accept_sessions : (s.accept codes ec peer surroundings).1.sessions = s.sessions ++
    ((newPeer codes ec peer surroundings.fault).map (·, .spawned surroundings.spawn)).toList := by
  obtain ⟨fault, spawn⟩ := surroundings
  unfold accept newPeer
  cases fault <;> cases codes.failed ec <;> simp [asyncAccept, fail, report]

/-- It waits again unless it has thrown. -/
theorem accept_commands : ∃ again : List (Command Operation (Outcome X ε)),
    (again = [.start .accept] ∧ (.catchException ∈ (s.accept codes ec peer surroundings).1.log ↔
        .catchException ∈ s.log) ∨
      again = [] ∧ .catchException ∈ (s.accept codes ec peer surroundings).1.log) ∧
    (s.accept codes ec peer surroundings).2 =
      ((newPeer codes ec peer surroundings.fault).elim []
        fun _ => coSpawn s.sessions.length surroundings.spawn) ++ again := by
  obtain ⟨fault, spawn⟩ := surroundings
  unfold accept newPeer
  cases fault <;> cases codes.failed ec <;> simp [asyncAccept, fail, report]

end Accept

/-- What a stream socket, the acceptor and the signals complete with. -/
def Completes (codes : ErrorCodes X) (s : Server X ε) : Operation → Outcome X ε → Prop
  | .accept, .accepted _ _ => True
  | .read k, .read ec chunk => ∀ session ∈ s.sessions[k]?, session.2.Delivers codes (.read ec chunk)
  | .write k, .written ec transferred =>
    ∀ session ∈ s.sessions[k]?, session.2.Delivers codes (.write ec transferred)
  | .signal, .resumed => True
  | _, _ => False

instance (codes : ErrorCodes X) (s : Server X ε) (op : Operation) (outcome : Outcome X ε) :
    Decidable (s.Completes codes op outcome) := by
  cases op <;> cases outcome <;> simp only [Completes] <;> infer_instance

end Server

/-- `main` waits for the signals and spawns `listen`, then runs the context. -/
def server (codes : ErrorCodes X) : Program (Server X ε) Unit Operation (Outcome X ε) Surroundings where
  call s _ _ := (s, [.start .signal, .post .listen .resumed])
  handle s _ := s.handle codes
  completes s _ op outcome := decide (s.Completes codes op outcome)

abbrev ServerLoop (κ X ε : Type) : Type := EventLoop (Server X ε) κ Operation (Outcome X ε) Surroundings

abbrev ServerView (X ε : Type) : Type := View (Server X ε) Operation (Outcome X ε) Surroundings

abbrev ServerInput (X ε : Type) : Type := Input Unit Operation (Outcome X ε) Surroundings

/-- `main` is called once. -/
def Main {κ : Type} (l : ServerLoop κ X ε) : ServerInput X ε → Prop
  | .call _ => l.started = []
  | _ => True

instance {κ : Type} (l : ServerLoop κ X ε) (input : ServerInput X ε) : Decidable (Main l input) :=
  match input with
  | .call _ => inferInstanceAs (Decidable (l.started = []))
  | .enter | .complete _ _ | .handle _ | .leave | .tick _ => .isTrue trivial

/-- What a handler that has run means to the session `k`. -/
def eventOn (k : Nat) : Operation × Outcome X ε × Surroundings → Option (Event X × Fault)
  | (.echo i, .resumed, surroundings) =>
    if i = k ∧ surroundings.fault = .initiating then some (.throw, .none) else none
  | (.read i, .read ec chunk, surroundings) =>
    if i = k then some (.read ec chunk, surroundings.fault) else none
  | (.write i, .written ec transferred, surroundings) =>
    if i = k then some (.write ec transferred, surroundings.fault) else none
  | _ => none

end BoostTest.Echo
