import BoostTest.Asio.IoContext

/-! `AysncConnector` from async_connector.cpp: one timer, one resolver and a
list of sockets on one context. Time is in nanoseconds; each reading of the
system clock and each exception is the surroundings' choice. The formatting of
log lines and allocations other than in the loops are not modeled. -/
namespace BoostTest.Connector
open Asio

/-- `seconds(3)`. -/
def timeOut : Int := 3000000000

inductive ErrorCode (X : Type) where
  | operationAborted
  | other (ec : X)
  deriving DecidableEq, Repr

/-- What a handler waits for, with the arguments bound to it. -/
inductive Operation (η ε : Type) where
  | wait
  | resolve (hostname : η)
  | connect (socket : Nat) (connStartTime : Int) (ep : ε)
  deriving DecidableEq, Repr

inductive Result (ε X : Type) where
  | success
  | results (eps : List ε)
  | failed (ec : ErrorCode X)
  deriving DecidableEq, Repr

/-- The lines it logs. -/
inductive Line (η ε X : Type) where
  | resolveFailed (hostname : η) (ec : ErrorCode X)
  | connectionFailed (ep : ε) (ec : ErrorCode X)
  | connectionTakes (milliseconds : Int)
  | catchException
  deriving DecidableEq, Repr

structure Socket where
  id : Nat
  closed : Bool
  deriving DecidableEq, Repr

def Socket.close (s : Socket) : Socket := { s with closed := true }

/-- What throws in a loop, and in which iteration. -/
inductive Fault where
  | none
  | asyncConnect (i : Nat)
  | pushBack (i : Nat)
  | close (i : Nat)
  deriving DecidableEq, Repr

/-- The readings of `system_clock::now()` inside one handler, and its exception. -/
structure Surroundings where
  clock : Nat → Int
  fault : Fault

structure AysncConnector (η ε X : Type) where
  sockets : List Socket
  /-- Of `_tm_timeout`. -/
  expiry : Option Int
  nextSocket : Nat
  log : List (Line η ε X)
  deriving DecidableEq, Repr

namespace Operation
variable {η ε : Type}

def isWait : Operation η ε → Bool
  | .wait => true
  | _ => false

def isResolve : Operation η ε → Bool
  | .resolve _ => true
  | _ => false

def on (socket : Nat) : Operation η ε → Bool
  | .connect id _ _ => id == socket
  | _ => false

def endpoint : Operation η ε → Option ε
  | .connect _ _ ep => some ep
  | _ => none

end Operation

variable {η ε X : Type}

/-- What a function of the connector leaves behind. -/
abbrev Outcome (η ε X : Type) : Type :=
  AysncConnector η ε X × List (Command (Operation η ε) (Result ε X))

def aborts (which : Operation η ε → Bool) : Command (Operation η ε) (Result ε X) :=
  .cancel which (.failed .operationAborted)

/-- Also what the destructor of a socket does. -/
def closes (socket : Nat) : Command (Operation η ε) (Result ε X) := aborts (Operation.on socket)

namespace AysncConnector

def init : AysncConnector η ε X where
  sockets := []
  expiry := none
  nextSocket := 0
  log := []

def report (p : AysncConnector η ε X) (line : Line η ε X) : AysncConnector η ε X :=
  { p with log := p.log ++ [line] }

def asyncConnect (p : AysncConnector η ε X) (now : Int) (eps : List η) : Outcome η ε X :=
  ({ p with expiry := some (now + timeOut) },
    aborts Operation.isWait :: .start .wait :: eps.map fun i => .start (.resolve i))

/-- `_resolver.cancel()`. A lookup that is being made goes on. -/
def cancelResolver : Command (Operation η ε) (Result ε X) :=
  .request Operation.isResolve (.failed .operationAborted)

/-- The lambda passed to `async_wait`, its error code clear. -/
def handleTimeout (p : AysncConnector η ε X) (fault : Fault) : Outcome η ε X :=
  match fault with
  | .close i =>
    if i < p.sockets.length then
      let reached := p.sockets.take (i + 1)
      ({ p with sockets := reached.map Socket.close ++ p.sockets.drop (i + 1) }.report
          .catchException,
        cancelResolver :: reached.map (closes ·.id))
    else timeout p
  | _ => timeout p
where
  timeout (p : AysncConnector η ε X) : Outcome η ε X :=
    ({ p with sockets := p.sockets.map Socket.close },
      cancelResolver :: p.sockets.map (closes ·.id) ++ [.stop])

/-- The loop of `_handle_resolve` from its `i`-th iteration. An exception
destroys the socket that is not in `_sockets` yet. -/
def connectAll (surroundings : Surroundings) : Nat → AysncConnector η ε X → List ε → Outcome η ε X
  | _, p, [] => (p, [])
  | i, p, ep :: rest =>
    let op := Operation.connect p.nextSocket (surroundings.clock i) ep
    let next := { p with nextSocket := p.nextSocket + 1 }
    if surroundings.fault = .asyncConnect i then (next.report .catchException, [])
    else if surroundings.fault = .pushBack i then
      (next.report .catchException, [.start op, closes p.nextSocket])
    else
      let (p, commands) := connectAll surroundings (i + 1)
        { next with sockets := p.sockets ++ [⟨p.nextSocket, false⟩] } rest
      (p, .start op :: commands)

def handleResolve (p : AysncConnector η ε X) (hostname : η) (surroundings : Surroundings) :
    Result ε X → Outcome η ε X
  | .failed ec => (p.report (.resolveFailed hostname ec), [])
  | .results results => connectAll surroundings 0 p results
  | .success => (p, [])

/-- `duration_cast` rounds towards zero. -/
def handleConnect (p : AysncConnector η ε X) (connStartTime : Int) (ep : ε) (surroundings : Surroundings) :
    Result ε X → Outcome η ε X
  | .failed ec => (p.report (.connectionFailed ep ec), [])
  | .success =>
    (p.report (.connectionTakes ((surroundings.clock 0 - connStartTime).tdiv 1000000)), [])
  | .results _ => (p, [])

def handle (p : AysncConnector η ε X) (op : Operation η ε) (result : Result ε X)
    (surroundings : Surroundings) : Outcome η ε X :=
  match op with
  | .wait =>
    match result with
    | .success => p.handleTimeout surroundings.fault
    | _ => (p, [])
  | .resolve hostname => p.handleResolve hostname surroundings result
  | .connect _ connStartTime ep => p.handleConnect connStartTime ep surroundings result

/-- Only a cancellation completes an operation with `operation_aborted`. -/
def completes (p : AysncConnector η ε X) (now : Int) : Operation η ε → Result ε X → Bool
  | .wait, .success => p.expiry.any (· ≤ now)
  | .resolve _, .results _ | .resolve _, .failed (.other _) => true
  | .connect _ _ _, .success | .connect _ _ _, .failed (.other _) => true
  | _, _ => false

end AysncConnector

/-- `async_connect` is the only function called from outside, besides `run_context`. -/
def program : Program (AysncConnector η ε X) (List η) (Operation η ε) (Result ε X) Surroundings where
  call := AysncConnector.asyncConnect
  handle p _ := p.handle
  completes := AysncConnector.completes

abbrev Loop (κ η ε X : Type) : Type :=
  EventLoop (AysncConnector η ε X) κ (Operation η ε) (Result ε X) Surroundings

abbrev LoopView (η ε X : Type) : Type :=
  View (AysncConnector η ε X) (Operation η ε) (Result ε X) Surroundings

abbrev Step (η ε X : Type) : Type := Input (List η) (Operation η ε) (Result ε X) Surroundings

section Guards
variable {κ : Type}

/-- Any input, also one that throws. -/
def Any (_ : Loop κ η ε X) (_ : Step η ε X) : Prop := True

instance (l : Loop κ η ε X) (input : Step η ε X) : Decidable (Any l input) := .isTrue trivial

/-- No handler throws. -/
def Faultless (_ : Loop κ η ε X) : Step η ε X → Prop
  | .handle surroundings => surroundings.fault = .none
  | _ => True

instance (l : Loop κ η ε X) (input : Step η ε X) : Decidable (Faultless l input) :=
  match input with
  | .handle surroundings => inferInstanceAs (Decidable (surroundings.fault = .none))
  | .call _ | .enter | .complete _ _ | .leave | .tick _ => .isTrue trivial

/-- Whoever calls `async_connect` again does so before the last timeout is over. -/
def Renews (l : Loop κ η ε X) : Step η ε X → Prop
  | .call _ => ∀ e ∈ l.program.expiry, l.now < e
  | _ => True

instance (l : Loop κ η ε X) (input : Step η ε X) : Decidable (Renews l input) :=
  match input with
  | .call _ => inferInstanceAs (Decidable (∀ e ∈ l.program.expiry, l.now < e))
  | .enter | .complete _ _ | .handle _ | .leave | .tick _ => .isTrue trivial

/-- `async_connect` is not called. -/
def Quiet (_ : Loop κ η ε X) : Step η ε X → Prop
  | .call _ => False
  | _ => True

instance (l : Loop κ η ε X) (input : Step η ε X) : Decidable (Quiet l input) :=
  match input with
  | .call _ => .isFalse id
  | .enter | .complete _ _ | .handle _ | .leave | .tick _ => .isTrue trivial

end Guards

/-- A wait is over and its handler will stop the context. -/
def isDue : Operation η ε × Result ε X → Bool
  | (.wait, .success) => true
  | _ => false

end BoostTest.Connector
