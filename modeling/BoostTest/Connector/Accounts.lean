import BoostTest.Connector.Shutdown

/-! What becomes of each endpoint. The endpoints that lookups have delivered
are outstanding, queued or handled, once each, unless an exception has cut a
loop short; and the timeout that ends a run is never reported, because it stops
the context before the handlers of what it has cancelled. -/
namespace BoostTest.Connector
open Asio Transition

variable {η ε X : Type}

/-- The endpoints that a handler has been given. -/
def resolved : Operation η ε × Result ε X × Surroundings → List ε
  | (.resolve _, .results eps, _) => eps
  | _ => []

/-- The error code that a line names. -/
def Line.errorCode : Line η ε X → Option (ErrorCode X)
  | .resolveFailed _ ec | .connectionFailed _ ec => some ec
  | .connectionTakes _ | .catchException => none

/-- What the loop of `_handle_resolve` starts, in any iteration. -/
theorem connectAll_starts (surroundings : Surroundings) (eps : List ε) (i : Nat) (p : AysncConnector η ε X) :
    (((AysncConnector.connectAll surroundings i p eps).2.filterMap Command.starts).filterMap
      Operation.endpoint).Sublist eps := by
  induction eps generalizing i p with
  | nil => simp [AysncConnector.connectAll]
  | cons ep rest ih =>
    simp only [AysncConnector.connectAll]
    split
    · simp
    · split
      · simp [List.filterMap_cons, Command.starts, closes, aborts, Operation.endpoint]
      · exact (ih (i + 1) _).cons_cons ep

/-- Without an exception it starts one connection for each endpoint, in order,
and does nothing else to the context. -/
theorem connectAll_faultless (surroundings : Surroundings) (faultless : surroundings.fault = .none)
    (eps : List ε) (i : Nat) (p : AysncConnector η ε X) :
    ∃ ops : List (Operation η ε), (AysncConnector.connectAll surroundings i p eps).2 = ops.map .start ∧
      ops.filterMap Operation.endpoint = eps := by
  induction eps generalizing i p with
  | nil => exact ⟨[], rfl, rfl⟩
  | cons ep rest ih =>
    obtain ⟨ops, commands, endpoints⟩ := ih (i + 1) { p with
      nextSocket := p.nextSocket + 1
      sockets := p.sockets ++ [⟨p.nextSocket, false⟩] }
    refine ⟨.connect p.nextSocket (surroundings.clock i) ep :: ops, ?_, ?_⟩
    · simp [AysncConnector.connectAll, faultless, commands]
    · simp [Operation.endpoint, endpoints]

theorem asyncConnect_starts (p : AysncConnector η ε X) (now : Int) (eps : List η) :
    ((p.asyncConnect now eps).2.filterMap Command.starts).filterMap Operation.endpoint = [] := by
  have starts : (p.asyncConnect now eps).2.filterMap Command.starts = .wait :: eps.map .resolve :=
    congrArg (List.cons Operation.wait) (starts_start eps Operation.resolve)
  rw [starts]
  simp [List.filterMap_cons, List.filterMap_map, Operation.endpoint]

theorem handleTimeout_starts (p : AysncConnector η ε X) (fault : Fault) :
    (p.handleTimeout fault).2.filterMap Command.starts = [] := by
  have closing : ∀ sockets : List Socket, (AysncConnector.cancelResolver ::
      sockets.map (closes ·.id) : List (Command (Operation η ε) (Result ε X))).filterMap
        Command.starts = [] :=
    fun sockets => starts_cancel sockets (Operation.on ·.id) _
  rcases handleTimeout_cases p fault with ⟨i, _, _, outcome⟩ | outcome
  · rw [outcome]
    exact closing _
  · rw [outcome, List.filterMap_append, closing]
    rfl

/-- A handler starts connections to endpoints it has been given. -/
theorem handle_starts (p : AysncConnector η ε X) (op : Operation η ε) (result : Result ε X)
    (surroundings : Surroundings) :
    (((p.handle op result surroundings).2.filterMap Command.starts).filterMap
      Operation.endpoint).Sublist (resolved (op, result, surroundings)) := by
  cases op with
  | wait => cases result <;> simp [AysncConnector.handle, handleTimeout_starts]
  | resolve hostname =>
    cases result with
    | results eps => exact connectAll_starts surroundings eps 0 p
    | _ => simp [AysncConnector.handle, AysncConnector.handleResolve]
  | connect id connStartTime ep =>
    cases result <;> simp [AysncConnector.handle, AysncConnector.handleConnect]

theorem handle_starts_faultless (p : AysncConnector η ε X) (op : Operation η ε) (result : Result ε X)
    (surroundings : Surroundings) (faultless : surroundings.fault = .none) :
    ((p.handle op result surroundings).2.filterMap Command.starts).filterMap Operation.endpoint =
      resolved (op, result, surroundings) := by
  cases op with
  | wait => cases result <;> simp [AysncConnector.handle, handleTimeout_starts, resolved]
  | resolve hostname =>
    cases result with
    | results eps =>
      obtain ⟨ops, commands, endpoints⟩ := connectAll_faultless surroundings faultless eps 0 p
      simp only [AysncConnector.handle, AysncConnector.handleResolve, commands, resolved]
      exact (congrArg _ ((starts_start ops fun op => op).trans (List.map_id' ops))).trans endpoints
    | _ => simp [AysncConnector.handle, AysncConnector.handleResolve, resolved]
  | connect id connStartTime ep =>
    cases result <;> simp [AysncConnector.handle, AysncConnector.handleConnect, resolved]

/-- The accounts of endpoints: what has been started is what was delivered,
less what an exception has cut off. -/
structure Accounted (l : LoopView η ε X) : Prop where
  conserved : l.Conserved
  started : (l.started.filterMap Operation.endpoint).Sublist (l.handled.flatMap resolved)

theorem Accounted.step {l m : LoopView η ε X} (accounted : Accounted l)
    (stepped : EventLoop.Stepped program l input m) : Accounted m := by
  refine ⟨accounted.conserved.step stepped, ?_⟩
  cases stepped with
  | call outside performs =>
    simp only [EventLoop.resume, program, List.filterMap_append, asyncConnect_starts, List.append_nil]
    exact accounted.started
  | @handle before op result after surroundings x running going found performs =>
    simp only [EventLoop.handle, EventLoop.resume, program, List.filterMap_append, List.flatMap_append]
    exact accounted.started.append (by simpa using handle_starts l.program op result surroundings)
  | enter | complete | leave | tick => exact accounted.started

/-- Without an exception no connection is left out. -/
theorem started_step {l m : LoopView η ε X} (faultless : Faultless l input)
    (same : l.started.filterMap Operation.endpoint = l.handled.flatMap resolved)
    (stepped : EventLoop.Stepped program l input m) :
    m.started.filterMap Operation.endpoint = m.handled.flatMap resolved := by
  cases stepped with
  | call outside performs =>
    simp only [EventLoop.resume, program, List.filterMap_append, asyncConnect_starts, List.append_nil]
    exact same
  | @handle before op result after surroundings x running going found performs =>
    simp only [EventLoop.handle, EventLoop.resume, program, List.filterMap_append, List.flatMap_append,
      same, handle_starts_faultless _ _ _ _ faultless]
    simp
  | enter | complete | leave | tick => exact same

/-- Until the context is stopped nothing but waits has been cancelled, and no
line names a cancellation. -/
structure Silent (l : LoopView η ε X) : Prop where
  queued : l.context.stopped = false → ∀ item ∈ l.context.queued,
    item.2 = .failed .operationAborted → item.1.isWait = true
  log : ∀ line ∈ l.program.log, line.errorCode ≠ some .operationAborted

namespace Silent
variable {l m : LoopView η ε X} {x : Observed (Operation η ε) (Result ε X)}

theorem asyncConnect (silent : Silent l)
    (performs : l.context.PerformsAll (l.program.asyncConnect l.now eps).2 x) :
    Silent (l.resume (l.program.asyncConnect l.now eps) x) := by
  cases asyncConnect_eq performs
  refine ⟨fun going item waiting aborted => ?_, silent.log⟩
  rcases List.mem_append.mp waiting with earlier | cancelled
  · exact silent.queued going item earlier aborted
  · obtain ⟨op, member, rfl⟩ := List.mem_map.mp cancelled
    exact (List.mem_filter.mp member).2

theorem reported (silent : Silent l) (line : Line η ε X) (other : line.errorCode ≠ some .operationAborted) :
    ∀ line' ∈ (l.program.report line).log, line'.errorCode ≠ some .operationAborted := by
  intro line' logged
  rcases List.mem_append.mp logged with earlier | new
  · exact silent.log line' earlier
  · cases List.mem_singleton.mp new
    exact other

/-- What a handler adds to the log and to the queue, if nothing throws. -/
theorem handle (silent : Silent l) (going : l.context.stopped = false)
    (found : l.context.queued = before ++ (op, result) :: after) (faultless : surroundings.fault = .none)
    (performs : (l.context.dequeue (before ++ after)).PerformsAll
      (l.program.handle op result surroundings).2 x) :
    Silent (l.handle program op result surroundings x) := by
  have aborted : result = .failed .operationAborted → op.isWait = true :=
    silent.queued going (op, result) (by simp [found])
  have later : ∀ item ∈ before ++ after, item.2 = .failed .operationAborted → item.1.isWait = true :=
    fun item waiting => silent.queued going item (mem_of_taken found waiting)
  have idle : (l.context.dequeue (before ++ after)).PerformsAll [] x →
      ∀ item ∈ x.queued, item.2 = .failed .operationAborted → item.1.isWait = true := by
    intro performs
    cases performs
    exact later
  cases op with
  | wait =>
    cases result with
    | success =>
      have outcome : l.program.handle .wait .success surroundings = _ :=
        faultless ▸ handleTimeout_faultless l.program
      have stopped : x.stopped = true := by
        rw [performs.stopped, outcome]
        simp [Command.stops]
      refine ⟨fun going => absurd (stopped.symm.trans going) (by decide), ?_⟩
      have log : (l.handle program .wait .success surroundings x).program.log = l.program.log :=
        congrArg (·.1.log) outcome
      rw [log]
      exact silent.log
    | _ => exact ⟨fun _ => idle performs, silent.log⟩
  | resolve hostname =>
    cases result with
    | results eps =>
      obtain ⟨ops, commands, _⟩ := connectAll_faultless surroundings faultless eps 0 l.program
      have starts : (l.program.handle (.resolve hostname) (.results eps) surroundings).2 = ops.map .start :=
        commands
      rw [starts] at performs
      have waiting : x.queued = before ++ after := by
        rw [performs.eq (certain_start ops fun op => op), Observed.performAll_start _ ops fun op => op]
        rfl
      have log : (l.handle program (.resolve hostname) (.results eps) surroundings x).program.log =
          l.program.log := by
        change (AysncConnector.connectAll surroundings 0 l.program eps).1.log = l.program.log
        rw [connectAll_opens surroundings faultless]
      refine ⟨fun _ item member => later item (waiting ▸ member), ?_⟩
      rw [log]
      exact silent.log
    | failed ec =>
      refine ⟨fun _ => idle performs, silent.reported _ ?_⟩
      intro named
      cases Option.some.inj named
      cases aborted rfl
    | success => exact ⟨fun _ => idle performs, silent.log⟩
  | connect id connStartTime ep =>
    cases result with
    | failed ec =>
      refine ⟨fun _ => idle performs, silent.reported _ ?_⟩
      intro named
      cases Option.some.inj named
      cases aborted rfl
    | success => exact ⟨fun _ => idle performs, silent.reported _ (by simp [Line.errorCode])⟩
    | results eps => exact ⟨fun _ => idle performs, silent.log⟩

theorem step (silent : Silent l) (faultless : Faultless l input)
    (stepped : EventLoop.Stepped program l input m) : Silent m := by
  cases stepped with
  | call outside performs => exact silent.asyncConnect performs
  | @complete before op after result found completes =>
    refine ⟨fun going item waiting aborted => ?_, silent.log⟩
    rcases List.mem_append.mp waiting with earlier | new
    · exact silent.queued going item earlier aborted
    · cases List.mem_singleton.mp new
      subst aborted
      cases op <;> simp [program, AysncConnector.completes] at completes
  | handle running going found performs => exact silent.handle going found faultless performs
  | leave => exact ⟨fun going => (by cases going), silent.log⟩
  | enter | tick => exact ⟨silent.queued, silent.log⟩

end Silent

section Reports
variable {κ : Type} [IoContext κ (Operation η ε) (Result ε X)] [DecidableEq η] [DecidableEq ε]
  {l : Loop κ η ε X} {time : Int}

/-- Every endpoint that a lookup has delivered is outstanding, queued or
handled, as often as it was delivered; an exception may only leave some out. -/
theorem endpoints_accounted
    (path : Run (EventLoop.step program) Any (EventLoop.init .init time) inputs l) :
    ((l.observe.context.work ++ l.handled.map Prod.fst).filterMap Operation.endpoint).Subperm
        (l.handled.flatMap resolved) ∧
      (Run (EventLoop.step program) Faultless (EventLoop.init .init time) inputs l →
        ((l.observe.context.work ++ l.handled.map Prod.fst).filterMap Operation.endpoint).Perm
          (l.handled.flatMap resolved)) := by
  have accounted : Accounted l.observe := by
    refine EventLoop.invariant (G := Any) id (fun accounted _ stepped => accounted.step stepped) path ?_
    rw [EventLoop.observe_init]
    exact ⟨.init _ _, .slnil⟩
  have moved := accounted.conserved.filterMap Operation.endpoint
  refine ⟨moved.symm.subperm.trans accounted.started.subperm, fun faultless => ?_⟩
  have started : l.observe.started.filterMap Operation.endpoint = l.observe.handled.flatMap resolved := by
    refine EventLoop.invariant (G := Faultless)
      (I := fun v : LoopView η ε X => v.started.filterMap Operation.endpoint = v.handled.flatMap resolved)
      id (fun same faultless stepped => started_step faultless same stepped) faultless rfl
  exact moved.symm.trans (.of_eq started)

/-- No line ever says that an operation was cancelled: what the timeout cuts
off is not reported at all. -/
theorem timeout_is_silent
    (path : Run (EventLoop.step program) Faultless (EventLoop.init .init time) inputs l) :
    ∀ line ∈ l.program.log, line.errorCode ≠ some .operationAborted := by
  have silent : Silent l.observe := by
    refine EventLoop.invariant (G := Faultless) id
      (fun silent faultless stepped => silent.step faultless stepped) path ?_
    rw [EventLoop.observe_init]
    exact ⟨by simp [EventLoop.init, IoContext.fresh], by simp [EventLoop.init, AysncConnector.init]⟩
  exact silent.log

end Reports

theorem endpoints_accounted_two_endpoints : ∃ l : PlainLoop,
    Run (EventLoop.step program) Any (EventLoop.init .init 0) (.call [1] :: twoEndpoints) l ∧
    l.context.queued = [(.connect 1 101 8, .failed .operationAborted)] ∧
    (((l.observe.context.work ++ l.handled.map Prod.fst).filterMap Operation.endpoint).Subperm
        (l.handled.flatMap resolved) ∧
      (Run (EventLoop.step program) Faultless (EventLoop.init .init 0) (.call [1] :: twoEndpoints) l →
        ((l.observe.context.work ++ l.handled.map Prod.fst).filterMap Operation.endpoint).Perm
          (l.handled.flatMap resolved))) :=
  Run.instance_of_execute ⟨_, rfl, rfl⟩ fun _ path _ => endpoints_accounted path

theorem timeout_is_silent_two_endpoints : ∃ l : PlainLoop,
    Run (EventLoop.step program) Faultless (EventLoop.init .init 0)
      (.call [1] :: twoEndpoints ++ [.leave]) l ∧
    l.context.queued = [(.connect 1 101 8, .failed .operationAborted)] ∧
    ∀ line ∈ l.program.log, line.errorCode ≠ some .operationAborted :=
  Run.instance_of_execute ⟨_, rfl, rfl⟩ fun _ path _ => timeout_is_silent path

end BoostTest.Connector
