import BoostTest.Asio.Family
import BoostTest.Connector.AysncConnector
import BoostTest.Timeout.Provider

/-! `async_connect` and `main` from async_connector_co.cpp: one coroutine for
each endpoint, with a socket and a `timeout_provider` of its own, all on one
context. Time is in nanoseconds; the readings of the system clock, a failure to
open the socket and the exceptions are the surroundings' choice. Exceptions out
of an initiation are not modeled, and nothing is said of what happens after a
handler has used a destroyed provider. -/
namespace BoostTest.ConnectorCo
open Asio CancellationType Timeout
open Connector (ErrorCode)

/-- `timeout_provider timeout{ executor, std::chrono::seconds(3) }`. -/
def timeout : Construction := .single 3000000000

/-- What the coroutine and its provider wait for. -/
inductive Operation where
  /-- The first resumption, posted by `co_spawn`. -/
  | spawn
  | connect
  /-- The wait that `arm` starts. -/
  | wait
  deriving DecidableEq, Repr

inductive Result (X : Type) where
  | success
  | failed (ec : ErrorCode X)
  deriving DecidableEq, Repr

inductive Line (ε X : Type) where
  | connectionTakes (ep : ε) (milliseconds : Int)
  | errorConnected (ep : ε) (ec : ErrorCode X)
  | catchException
  deriving DecidableEq, Repr

inductive Phase where
  | spawned
  /-- It waits for `async_connect`; its socket and its provider exist. -/
  | connecting
  | finished
  deriving DecidableEq, Repr

/-- Where a coroutine throws: before or after it waits for the connection. -/
inductive Fault where
  | none
  | early
  | late
  deriving DecidableEq, Repr

structure Surroundings (X : Type) where
  /-- `system_clock::now()`. -/
  clock : Int
  openError : Option X
  fault : Fault
  deriving DecidableEq, Repr

/-- A coroutine with its locals. The log holds the steady time of each line. -/
structure Attempt (ε X : Type) where
  ep : ε
  phase : Phase
  connTime : Int
  /-- When `arm` was called. -/
  armedAt : Option Int
  /-- Of the timer, from `arm` on. -/
  expiry : Option Int
  lastFired : CancellationType
  log : List (Int × Line ε X)
  /-- The handler of its wait has used the provider after its end. -/
  dangling : Bool
  deriving DecidableEq, Repr

variable {ε X : Type}

def Line.endpoint : Line ε X → Option ε
  | .connectionTakes ep _ | .errorConnected ep _ => some ep
  | .catchException => none

def Line.errorCode : Line ε X → Option (ErrorCode X)
  | .errorConnected _ ec => some ec
  | .connectionTakes _ _ | .catchException => none

def isWait : Operation → Bool
  | .wait => true
  | .spawn | .connect => false

def isConnect : Operation → Bool
  | .connect => true
  | .spawn | .wait => false

def aborts (which : Operation → Bool) : Command Operation (Result X) :=
  .cancel which (.failed .operationAborted)

abbrev Resumed (ε X : Type) : Type := Attempt ε X × List (Command Operation (Result X))

namespace Attempt

def init (ep : ε) : Attempt ε X where
  ep := ep
  phase := .spawned
  connTime := 0
  armedAt := none
  expiry := none
  lastFired := typeNone
  log := []
  dangling := false

/-- The `try` block is left, and a line logged. -/
def finish (a : Attempt ε X) (now : Int) (line : Line ε X) : Attempt ε X :=
  { a with phase := .finished, log := a.log ++ [(now, line)] }

/-- Up to its `co_await`. A socket that cannot be opened completes at once, but
the timer is armed all the same. -/
def asyncConnect (a : Attempt ε X) (now : Int) (surroundings : Surroundings X) : Resumed ε X :=
  if surroundings.fault = .early then (a.finish now .catchException, [])
  else
    ({ a with
      phase := .connecting
      connTime := surroundings.clock
      armedAt := some now
      expiry := some (now + timeout.ttTotal)
      lastFired := typeNone },
      [.start .wait,
        match surroundings.openError with
        | none => .start .connect
        | some ec => .post .connect (.failed (.other ec))])

def line (a : Attempt ε X) (surroundings : Surroundings X) (result : Result X) : Line ε X :=
  if surroundings.fault = .late then .catchException
  else
    match result with
    | .success => .connectionTakes a.ep ((surroundings.clock - a.connTime).tdiv 1000000)
    | .failed ec => .errorConnected a.ep ec

/-- `with_timeout_binder::operator()` cancels the timer and resumes the
coroutine, which destroys its provider and its socket. -/
def resume (a : Attempt ε X) (now : Int) (surroundings : Surroundings X) (result : Result X) : Resumed ε X :=
  (a.finish now (a.line surroundings result), [aborts isWait, aborts isWait, aborts isConnect])

/-- The lambda of the wait. `fire_all` emits to the slot of the connection,
which any type cancels. -/
def waited (a : Attempt ε X) : Result X → Resumed ε X
  | .success =>
    if a.phase = .connecting then ({ a with lastFired := timeout.firstStage }, [aborts isConnect])
    else ({ a with dangling := true }, [])
  | .failed _ => (a, [])

def handle (a : Attempt ε X) (now : Int) (op : Operation) (result : Result X)
    (surroundings : Surroundings X) : Resumed ε X :=
  match op with
  | .spawn => a.asyncConnect now surroundings
  | .connect => a.resume now surroundings result
  | .wait => a.waited result

def completes (a : Attempt ε X) (now : Int) : Operation → Result X → Bool
  | .connect, .success | .connect, .failed (.other _) => true
  | .wait, .success => a.expiry.any (· ≤ now)
  | _, _ => false

end Attempt

/-- One coroutine. -/
def attempt : Program (Attempt ε X) Empty Operation (Result X) (Surroundings X) where
  call _ _ function := function.elim
  handle := Attempt.handle
  completes := Attempt.completes

/-- All coroutines. -/
def program : Program (List (Attempt ε X)) Empty (Nat × Operation) (Result X) (Surroundings X) :=
  attempt.family

/-- What one coroutine sees of the loop. -/
abbrev Solo (ε X : Type) : Type := View (Attempt ε X) Operation (Result X) (Surroundings X)

abbrev Loop (κ ε X : Type) : Type :=
  EventLoop (List (Attempt ε X)) κ (Nat × Operation) (Result X) (Surroundings X)

abbrev LoopView (ε X : Type) : Type :=
  View (List (Attempt ε X)) (Nat × Operation) (Result X) (Surroundings X)

abbrev Step (X : Type) : Type := Input Empty (Nat × Operation) (Result X) (Surroundings X)

/-- `sv`. -/
def names : List String :=
  ["www.baidu.com", "182.61.200.6", "103.235.47.188", "182.61.200.7", "103.235.47.96", "31.13.73.9"]

/-- The loop that fills `eps`; `resolver.resolve` may throw. -/
def lookUp (resolve : String → Except X (List ε)) : List String → List ε → Except X (List ε)
  | [], eps => .ok eps
  | i :: rest, eps =>
    match resolve i with
    | .ok results => lookUp resolve rest (eps ++ results)
    | .error ec => .error ec

/-- What `main` connects to: an exception leaves it before the first `co_spawn`. -/
def endpoints (resolve : String → Except X (List ε)) : List ε :=
  match lookUp resolve names [] with
  | .ok eps => eps
  | .error _ => []

def spawnAll (eps : List ε) : List (Attempt ε X) × List (Command (Nat × Operation) (Result X)) :=
  (eps.map .init, (List.range eps.length).map fun i => .post (i, .spawn) .success)

/-- `main` up to `io_ctx.run()`. -/
def main {κ : Type} [IoContext κ (Nat × Operation) (Result X)] (resolve : String → Except X (List ε))
    (now : Int) : Loop κ ε X :=
  let spawned := spawnAll (endpoints resolve)
  (EventLoop.init [] now).resume spawned (IoContext.performAll IoContext.fresh spawned.2)

section Guards
variable {κ : Type}

/-- No step follows the use of a destroyed provider. -/
def Defined (l : Loop κ ε X) (_ : Step X) : Prop := ∀ a ∈ l.program, a.dangling = false

instance (l : Loop κ ε X) (input : Step X) : Decidable (Defined l input) :=
  inferInstanceAs (Decidable (∀ a ∈ l.program, a.dangling = false))

variable [IoContext κ (Nat × Operation) (Result X)]

/-- The clock waits for the handlers that are ready and for the timers. -/
def Punctual (l : Loop κ ε X) : Step X → Prop
  | .tick time => l.observe.context.queued.isEmpty = true ∧
      ∀ op ∈ l.observe.context.outstanding, op.2 = .wait →
        ∀ a ∈ l.program[op.1]?, ∀ e ∈ a.expiry, time ≤ e
  | _ => True

instance (l : Loop κ ε X) (input : Step X) : Decidable (Punctual l input) :=
  match input with
  | .tick time => inferInstanceAs (Decidable (l.observe.context.queued.isEmpty = true ∧
      ∀ op ∈ l.observe.context.outstanding, op.2 = .wait →
        ∀ a ∈ l.program[op.1]?, ∀ e ∈ a.expiry, time ≤ e))
  | .call _ | .enter | .complete _ _ | .handle _ | .leave => .isTrue trivial

def Prompt (l : Loop κ ε X) (input : Step X) : Prop := Defined l input ∧ Punctual l input

instance (l : Loop κ ε X) (input : Step X) : Decidable (Prompt l input) :=
  inferInstanceAs (Decidable (Defined l input ∧ Punctual l input))

end Guards

/-- Any input of one coroutine. -/
def SoloAny (_ : Solo ε X) (_ : Input Empty Operation (Result X) (Surroundings X)) : Prop := True

/-- What a prompt loop is to one coroutine. -/
def SoloPrompt (k : Solo ε X) : Input Empty Operation (Result X) (Surroundings X) → Prop
  | .tick time => k.context.queued = [] ∧ (.wait ∈ k.context.outstanding → ∀ e ∈ k.program.expiry, time ≤ e)
  | _ => True

theorem attempt_separate : (attempt (ε := ε) (X := X)).Separate := by
  intro a now op result surroundings
  cases op with
  | spawn =>
    simp only [attempt, Attempt.handle, Attempt.asyncConnect]
    split
    · exact ⟨rfl, rfl⟩
    · cases surroundings.openError <;> exact ⟨rfl, rfl⟩
  | connect => exact ⟨rfl, rfl⟩
  | wait =>
    cases result with
    | success =>
      simp only [attempt, Attempt.handle, Attempt.waited]
      split <;> exact ⟨rfl, rfl⟩
    | failed ec => exact ⟨rfl, rfl⟩

/-- What `main` hands to the context for the coroutine `i`. -/
theorem spawns_own (size : Nat) (bound : i < size) :
    ((List.range size).map fun i => (Command.post (i, Operation.spawn) Result.success :
      Command (Nat × Operation) (Result X))).filterMap (Command.own i) = [.post .spawn .success] := by
  have mine : ∀ n, ((List.range n).map fun i => (Command.post (i, Operation.spawn) Result.success :
      Command (Nat × Operation) (Result X))).filterMap (Command.own i) =
        if i < n then [.post .spawn .success] else [] := by
    intro n
    induction n with
    | zero => rfl
    | succ n ih =>
      rw [List.range_succ, List.map_append, List.filterMap_append, ih]
      by_cases last : i = n
      · simp [last, Command.own]
      · have other : own i (n, Operation.spawn) = none := own_other _ (Ne.symm last)
        have below : i < n + 1 ↔ i < n := by omega
        simp [Command.own, other, below]
  rw [mine, if_pos bound]

/-- The coroutine `i` has been spawned and nothing else. -/
theorem main_part (κ : Type) [IoContext κ (Nat × Operation) (Result X)] (resolve : String → Except X (List ε))
    (now : Int) (found : (main resolve now : Loop κ ε X).program[i]? = some a) :
    ∃ ep, (endpoints resolve)[i]? = some ep ∧ a = .init ep ∧
      ((main resolve now : Loop κ ε X).observe.part i a).context = { queued := [(.spawn, .success)] } ∧
      (main resolve now : Loop κ ε X).returned = 0 := by
  obtain ⟨ep, spawned, rfl⟩ : ∃ ep, (endpoints resolve)[i]? = some ep ∧ Attempt.init ep = a := by
    simpa [main, spawnAll, EventLoop.resume] using found
  refine ⟨ep, spawned, rfl, ?_, rfl⟩
  have bound := (List.getElem?_eq_some_iff.mp spawned).1
  have performs := (IoContext.performsAll (IoContext.fresh : κ) (spawnAll (endpoints resolve)).2).part (i := i)
  rw [spawnAll, spawns_own _ bound, IoContext.observe_fresh] at performs
  exact performs.eq rfl

end BoostTest.ConnectorCo
