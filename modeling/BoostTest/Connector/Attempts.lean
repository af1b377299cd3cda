import BoostTest.Connector.Coroutines

/-! How a coroutine ends. Each reports once, whatever completes, times out or
throws; it reports a cancellation only when three seconds have passed since it
armed its timer, and only a report that late leaves a handler behind that uses
the destroyed provider. Where clock and context are prompt, no report comes
later. -/
namespace BoostTest.ConnectorCo
open Asio Transition Timeout
open Connector (ErrorCode)

variable {ε X : Type}

theorem taken_one {item other : α} {before after : List α} (found : [item] = before ++ other :: after) :
    other = item ∧ before ++ after = [] := by
  rcases List.singleton_eq_append_iff.mp found with ⟨rfl, rest⟩ | ⟨_, rest⟩
  · cases rest
    exact ⟨rfl, rfl⟩
  · cases rest

theorem taken_two {first second other : α} {before after : List α}
    (found : [first, second] = before ++ other :: after) :
    other = first ∧ before ++ after = [second] ∨ other = second ∧ before ++ after = [first] := by
  rcases List.cons_eq_append_iff.mp found with ⟨rfl, rest⟩ | ⟨before, rfl, rest⟩
  · cases rest
    exact .inl ⟨rfl, rfl⟩
  · obtain ⟨rfl, none⟩ := taken_one rest
    exact .inr ⟨rfl, congrArg (first :: ·) none⟩

/-- It waits for its connection, with its timer armed at `s`. -/
structure Attempt.Awaits (a : Attempt ε X) (s : Int) : Prop where
  phase : a.phase = .connecting
  armedAt : a.armedAt = some s
  expiry : a.expiry = some (s + timeout.ttTotal)
  log : a.log = []
  dangling : a.dangling = false

/-- It has come back from its wait and reported. -/
structure Attempt.Reported (a : Attempt ε X) (s t : Int) (line : Line ε X) : Prop where
  phase : a.phase = .finished
  armedAt : a.armedAt = some s
  expiry : a.expiry = some (s + timeout.ttTotal)
  log : a.log = [(t, line)]
  endpoint : ∀ ep ∈ line.endpoint, ep = a.ep
  aborted : line.errorCode = some .operationAborted → s + timeout.ttTotal ≤ t
  dangling : a.dangling = true → s + timeout.ttTotal ≤ t

/-- All that a coroutine can be in, with the operations it has outstanding and
the handlers it has queued. -/
inductive Stage (now : Int) : Attempt ε X → List Operation → List (Operation × Result X) → Prop where
  | spawned (ep : ε) : Stage now (.init ep) [] [(.spawn, .success)]
  | awaiting (awaits : a.Awaits s) : Stage now a [.wait, .connect] []
  | connected (awaits : a.Awaits s) (own : result ≠ .failed .operationAborted) :
      Stage now a [.wait] [(.connect, result)]
  | expired (awaits : a.Awaits s) (past : s + timeout.ttTotal ≤ now) :
      Stage now a [.connect] [(.wait, .success)]
  /-- The timer expires between the connection and its handler. -/
  | connectedFirst (awaits : a.Awaits s) (past : s + timeout.ttTotal ≤ now) :
      Stage now a [] [(.connect, result), (.wait, .success)]
  | expiredFirst (awaits : a.Awaits s) (past : s + timeout.ttTotal ≤ now) :
      Stage now a [] [(.wait, .success), (.connect, result)]
  /-- The timer's handler has run. -/
  | told (awaits : a.Awaits s) (past : s + timeout.ttTotal ≤ now) : Stage now a [] [(.connect, result)]
  | thrown (ep : ε) (t : Int) : Stage now ((Attempt.init ep).finish t .catchException) [] []
  | discarding (reported : a.Reported s t line) : Stage now a [] [(.wait, .failed .operationAborted)]
  /-- The timer's handler will run without its provider. -/
  | late (reported : a.Reported s t line) (past : s + timeout.ttTotal ≤ t) : Stage now a [] [(.wait, .success)]
  | ended (reported : a.Reported s t line) : Stage now a [] []

namespace Stage
variable {now : Int} {a : Attempt ε X} {outstanding : List Operation} {queued : List (Operation × Result X)}

theorem tick (stage : Stage now a outstanding queued) (later : now ≤ time) :
    Stage time a outstanding queued := by
  cases stage with
  | spawned ep => exact .spawned ep
  | awaiting awaits => exact .awaiting awaits
  | connected awaits own => exact .connected awaits own
  | expired awaits past => exact .expired awaits (Int.le_trans past later)
  | connectedFirst awaits past => exact .connectedFirst awaits (Int.le_trans past later)
  | expiredFirst awaits past => exact .expiredFirst awaits (Int.le_trans past later)
  | told awaits past => exact .told awaits (Int.le_trans past later)
  | thrown ep t => exact .thrown ep t
  | discarding reported => exact .discarding reported
  | late reported past => exact .late reported past
  | ended reported => exact .ended reported

theorem completes_connect (completes : a.completes now .connect result = true) :
    result ≠ .failed .operationAborted := by
  intro aborted
  subst aborted
  cases completes

theorem completes_wait (awaits : a.Awaits s) (completes : a.completes now .wait result = true) :
    result = .success ∧ s + timeout.ttTotal ≤ now := by
  cases result with
  | success =>
    simp only [Attempt.completes, awaits.expiry, Option.any_some, decide_eq_true_eq] at completes
    exact ⟨rfl, completes⟩
  | failed ec => cases completes

theorem complete (stage : Stage now a outstanding queued) (found : outstanding = before ++ op :: after)
    (completes : a.completes now op result = true) :
    Stage now a (before ++ after) (queued ++ [(op, result)]) := by
  cases stage with
  | awaiting awaits =>
    rcases taken_two found with ⟨rfl, rest⟩ | ⟨rfl, rest⟩
    · obtain ⟨rfl, past⟩ := completes_wait awaits completes
      exact rest ▸ .expired awaits past
    · exact rest ▸ .connected awaits (completes_connect completes)
  | connected awaits own =>
    obtain ⟨rfl, rest⟩ := taken_one found
    obtain ⟨rfl, past⟩ := completes_wait awaits completes
    exact rest ▸ .connectedFirst awaits past
  | expired awaits past =>
    obtain ⟨rfl, rest⟩ := taken_one found
    exact rest ▸ .expiredFirst awaits past
  | _ => simp at found

end Stage

namespace Attempt
variable (a : Attempt ε X) (surroundings : Surroundings X)

theorem line_endpoint (result : Result X) : ∀ ep ∈ (a.line surroundings result).endpoint, ep = a.ep := by
  unfold line
  split
  · simp [Line.endpoint]
  · cases result <;> simp [Line.endpoint]

theorem line_aborted (named : (a.line surroundings result).errorCode = some .operationAborted) :
    result = .failed .operationAborted := by
  unfold line at named
  split at named
  · cases named
  · cases result with
    | success => cases named
    | failed ec =>
      cases Option.some.inj named
      rfl

/-- It comes back from its wait: an error that its own timer has not caused is
no cancellation. -/
theorem Awaits.finish {a : Attempt ε X} (awaits : a.Awaits s) (now : Int) (result : Result X)
    (own : result = .failed .operationAborted → s + timeout.ttTotal ≤ now) :
    (a.finish now (a.line surroundings result)).Reported s now (a.line surroundings result) where
  phase := rfl
  armedAt := awaits.armedAt
  expiry := awaits.expiry
  log := congrArg (· ++ [(now, a.line surroundings result)]) awaits.log
  endpoint := a.line_endpoint surroundings result
  aborted := fun named => own (a.line_aborted surroundings named)
  dangling := fun used => absurd (awaits.dangling.symm.trans used) (by decide)

/-- The timer's handler tells the connection to stop. -/
theorem Awaits.waited {a : Attempt ε X} (awaits : a.Awaits s) :
    a.waited (.success : Result X) = ({ a with lastFired := timeout.firstStage }, [aborts isConnect]) :=
  if_pos awaits.phase

theorem Awaits.fired {a : Attempt ε X} (awaits : a.Awaits s) (fired : CancellationType) :
    ({ a with lastFired := fired } : Attempt ε X).Awaits s :=
  ⟨awaits.phase, awaits.armedAt, awaits.expiry, awaits.log, awaits.dangling⟩

/-- Without its provider it uses what is left of it. -/
theorem Reported.waited {a : Attempt ε X} {report : Line ε X} (reported : a.Reported s t report) :
    a.waited (.success : Result X) = ({ a with dangling := true }, []) :=
  if_neg (by simp [reported.phase])

end Attempt

namespace Stage
variable {now : Int} {a : Attempt ε X} {x : Observed Operation (Result X)}

/-- The first resumption arms the timer, unless the coroutine throws. -/
theorem asyncConnect (ep : ε) (surroundings : Surroundings X) (outstanding : x.outstanding = [])
    (queued : x.queued = []) :
    Stage now ((Attempt.init ep).asyncConnect now surroundings).1
      (x.performAll ((Attempt.init ep).asyncConnect now surroundings).2).outstanding
      (x.performAll ((Attempt.init ep).asyncConnect now surroundings).2).queued := by
  unfold Attempt.asyncConnect
  split
  · simp only [Observed.performAll_nil, outstanding, queued]
    exact .thrown ep now
  · have awaits : ({ (Attempt.init ep : Attempt ε X) with
        phase := .connecting
        connTime := surroundings.clock
        armedAt := some now
        expiry := some (now + timeout.ttTotal)
        lastFired := CancellationType.typeNone } : Attempt ε X).Awaits now :=
      ⟨rfl, rfl, rfl, rfl, rfl⟩
    cases surroundings.openError with
    | none =>
      simp only [Observed.performAll_cons, Observed.performAll_nil, Observed.perform, outstanding,
        queued]
      exact .awaiting awaits
    | some ec =>
      simp only [Observed.performAll_cons, Observed.performAll_nil, Observed.perform, outstanding,
        queued]
      exact .connected awaits (by simp)

theorem handle (stage : Stage now a x.outstanding queued) (found : queued = before ++ (op, result) :: after)
    (rest : x.queued = before ++ after) (surroundings : Surroundings X) :
    Stage now (a.handle now op result surroundings).1
      (x.performAll (a.handle now op result surroundings).2).outstanding
      (x.performAll (a.handle now op result surroundings).2).queued := by
  obtain ⟨outstanding, waiting, stopped⟩ := x
  dsimp only at rest stage
  subst rest
  cases stage with
  | spawned ep =>
    obtain ⟨same, rest⟩ := taken_one found
    cases same
    exact asyncConnect ep surroundings rfl rest
  | connected awaits own =>
    obtain ⟨same, rest⟩ := taken_one found
    cases same
    rw [rest]
    exact .discarding (awaits.finish surroundings now _ fun aborted => absurd aborted own)
  | expired awaits past =>
    obtain ⟨same, rest⟩ := taken_one found
    cases same
    rw [rest]
    simp only [Attempt.handle, awaits.waited]
    exact .told (awaits.fired _) past
  | connectedFirst awaits past =>
    rcases taken_two found with ⟨same, rest⟩ | ⟨same, rest⟩
    · cases same
      rw [rest]
      exact .late (awaits.finish surroundings now _ fun _ => past) past
    · cases same
      rw [rest]
      simp only [Attempt.handle, awaits.waited]
      exact .told (awaits.fired _) past
  | expiredFirst awaits past =>
    rcases taken_two found with ⟨same, rest⟩ | ⟨same, rest⟩
    · cases same
      rw [rest]
      simp only [Attempt.handle, awaits.waited]
      exact .told (awaits.fired _) past
    · cases same
      rw [rest]
      exact .late (awaits.finish surroundings now _ fun _ => past) past
  | told awaits past =>
    obtain ⟨same, rest⟩ := taken_one found
    cases same
    rw [rest]
    exact .ended (awaits.finish surroundings now _ fun _ => past)
  | discarding reported =>
    obtain ⟨same, rest⟩ := taken_one found
    cases same
    rw [rest]
    exact .ended reported
  | late reported past =>
    obtain ⟨same, rest⟩ := taken_one found
    cases same
    rw [rest]
    simp only [Attempt.handle, reported.waited]
    exact .ended { reported with dangling := fun _ => past }
  | _ => simp at found

end Stage
namespace Stage
variable {now : Int} {a : Attempt ε X} {outstanding : List Operation} {queued : List (Operation × Result X)}

/-- The timer that it has armed. -/
theorem expiry (stage : Stage now a outstanding queued) (armed : a.armedAt = some s) :
    a.expiry = some (s + timeout.ttTotal) := by
  have of_armed : ∀ {r}, a.armedAt = some r → a.expiry = some (r + timeout.ttTotal) →
      a.expiry = some (s + timeout.ttTotal) := by
    intro r set expiry
    cases Option.some.inj (armed.symm.trans set)
    exact expiry
  cases stage with
  | spawned ep => cases armed
  | thrown ep t => cases armed
  | awaiting awaits => exact of_armed awaits.armedAt awaits.expiry
  | connected awaits own => exact of_armed awaits.armedAt awaits.expiry
  | expired awaits past => exact of_armed awaits.armedAt awaits.expiry
  | connectedFirst awaits past => exact of_armed awaits.armedAt awaits.expiry
  | expiredFirst awaits past => exact of_armed awaits.armedAt awaits.expiry
  | told awaits past => exact of_armed awaits.armedAt awaits.expiry
  | discarding reported => exact of_armed reported.armedAt reported.expiry
  | late reported past => exact of_armed reported.armedAt reported.expiry
  | ended reported => exact of_armed reported.armedAt reported.expiry

/-- Its first resumption is queued only while it is as `main` has left it. -/
theorem of_spawn (stage : Stage now a outstanding queued) (member : (.spawn, result) ∈ queued) :
    ∃ ep, a = .init ep ∧ outstanding = [] ∧ queued = [(.spawn, result)] := by
  cases stage with
  | spawned ep =>
    cases List.mem_singleton.mp member
    exact ⟨ep, rfl, rfl, rfl⟩
  | _ => simp at member

theorem of_connect (stage : Stage now a outstanding queued) (member : (.connect, result) ∈ queued) :
    a.phase = .connecting := by
  cases stage with
  | connected awaits own => exact awaits.phase
  | connectedFirst awaits past => exact awaits.phase
  | expiredFirst awaits past => exact awaits.phase
  | told awaits past => exact awaits.phase
  | _ => simp at member

end Stage

/-- The invariant of one coroutine on its own. -/
structure Staged (ep : ε) (k : Solo ε X) : Prop where
  endpoint : k.program.ep = ep
  stage : Stage k.now k.program k.context.outstanding k.context.queued
  stopped : k.context.stopped = true → k.context.work = []
  returned : k.returned ≠ 0 → k.context.stopped = true

theorem handle_ep (a : Attempt ε X) (now : Int) (op : Operation) (result : Result X)
    (surroundings : Surroundings X) : (a.handle now op result surroundings).1.ep = a.ep := by
  cases op with
  | spawn =>
    simp only [Attempt.handle, Attempt.asyncConnect]
    split <;> rfl
  | connect => rfl
  | wait =>
    cases result with
    | success =>
      simp only [Attempt.handle, Attempt.waited]
      split <;> rfl
    | failed ec => rfl

/-- The state in which `main` leaves it. -/
structure Spawned (ep : ε) (k : Solo ε X) : Prop where
  program : k.program = .init ep
  context : k.context = { queued := [(.spawn, .success)] }
  returned : k.returned = 0

namespace Staged
variable {ep : ε} {k m : Solo ε X}

theorem init (spawned : Spawned ep k) : Staged ep k where
  endpoint := by rw [spawned.program]; rfl
  stage := by
    rw [spawned.program, spawned.context]
    exact .spawned ep
  stopped := by simp [spawned.context]
  returned := fun returned => absurd spawned.returned returned

theorem step (staged : Staged ep k) (stepped : EventLoop.Stepped attempt k input m) : Staged ep m := by
  cases stepped with
  | @call function x outside performs => exact function.elim
  | enter outside => exact ⟨staged.endpoint, staged.stage, staged.stopped, staged.returned⟩
  | tick later => exact ⟨staged.endpoint, staged.stage.tick later, staged.stopped, staged.returned⟩
  | leave running ended =>
    exact ⟨staged.endpoint, staged.stage, fun _ => ended.elim staged.stopped id, fun _ => rfl⟩
  | complete found completes =>
    refine ⟨staged.endpoint, staged.stage.complete found completes, fun stopped => ?_, staged.returned⟩
    have none := (List.append_eq_nil_iff.mp (staged.stopped stopped)).1
    simp [found] at none
  | @handle before op result after surroundings x running going found performs =>
    obtain ⟨certain, stopless⟩ := attempt_separate k.program k.now op result surroundings
    have stopped : x.stopped = false := by
      rw [performs.stopped, stopless]
      exact (Bool.or_false _).trans going
    refine ⟨(handle_ep _ _ _ _ _).trans staged.endpoint, ?_, fun ended => ?_, fun returned => ?_⟩
    · cases performs.eq certain
      exact Stage.handle (x := k.context.dequeue (before ++ after)) staged.stage found rfl surroundings
    · exact absurd (ended.symm.trans stopped) (by decide)
    · exact absurd ((staged.returned returned).symm.trans going) (by decide)

/-- When `run` has returned, the coroutine has ended. -/
theorem reported (staged : Staged ep k) (returned : k.returned ≠ 0) :
    ∃ t line, k.program.log = [(t, line)] ∧ ∀ ep' ∈ line.endpoint, ep' = ep := by
  have none := staged.stopped (staged.returned returned)
  obtain ⟨outstanding, queued⟩ := List.append_eq_nil_iff.mp none
  have stage := staged.stage
  rw [outstanding, List.map_eq_nil_iff.mp queued] at stage
  generalize attempt : k.program = a at stage
  cases stage with
  | thrown ep' t => exact ⟨t, .catchException, rfl, by simp [Line.endpoint]⟩
  | ended reported =>
    refine ⟨_, _, reported.log, ?_⟩
    rw [← staged.endpoint, attempt]
    exact reported.endpoint

end Staged

section Program
variable {κ : Type} [IoContext κ (Nat × Operation) (Result X)] {resolve : String → Except X (List ε)}
  {time : Int} {l : Loop κ ε X} {admits : Loop κ ε X → Step X → Prop}

/-- What the steps of one coroutine preserve holds of all of them. -/
theorem each_run {W : LoopView ε X → Step X → Prop}
    {G : Solo ε X → Input Empty Operation (Result X) (Surroundings X) → Prop}
    {I : Nat → Solo ε X → Prop} (observed : ∀ {l input}, admits l input → W l.observe input)
    (carries : ∀ {v i a mine}, W v (Input.tag i mine) → v.program[i]? = some a → G (v.part i a) mine)
    (preserves : ∀ {i k mine m}, I i k → G k mine → EventLoop.Stepped attempt k mine m → I i m)
    (initial : ∀ i ep k, (endpoints resolve)[i]? = some ep → Spawned ep k → I i k)
    (path : Run (EventLoop.step program) admits (main resolve time) inputs l) :
    EventLoop.Each I l.observe := by
  refine EventLoop.invariant observed (fun each admitted stepped => ?_) path ?_
  · exact each.step attempt_separate stepped
      (fun i a mine found tagged => carries (tagged ▸ admitted) found) preserves
  · intro i a found
    obtain ⟨ep, spawned, rfl, context, returned⟩ := main_part κ resolve time found
    exact initial i ep _ spawned ⟨rfl, context, returned⟩

theorem attempts_staged (path : Run (EventLoop.step program) admits (main resolve time) inputs l) :
    EventLoop.Each (fun i k => ∃ ep, (endpoints resolve)[i]? = some ep ∧ Staged ep k) l.observe :=
  each_run (W := fun _ _ => True) (G := SoloAny) (fun _ => trivial) (fun _ _ => trivial)
    (fun ⟨ep, spawned, staged⟩ _ stepped => ⟨ep, spawned, staged.step stepped⟩)
    (fun _ ep _ found spawned => ⟨ep, found, .init spawned⟩) path

theorem attempts_length (path : Run (EventLoop.step program) admits (main resolve time) inputs l) :
    l.program.length = (endpoints resolve).length := by
  refine EventLoop.invariant (G := fun _ _ => True)
    (I := fun v : LoopView ε X => v.program.length = (endpoints resolve).length)
    (fun _ => trivial) (fun same _ stepped => stepped.length.trans same) path ?_
  simp [main, spawnAll, EventLoop.resume, EventLoop.observe]

end Program

/-- What happens only when its three seconds are over: a report of a
cancellation, and a handler that uses the destroyed provider. -/
structure Attempt.OnlyLate (a : Attempt ε X) : Prop where
  aborted : ∀ t line, (t, line) ∈ a.log → line.errorCode = some .operationAborted →
    ∃ s, a.armedAt = some s ∧ s + timeout.ttTotal ≤ t
  dangling : a.dangling = true → ∃ t line s, a.log = [(t, line)] ∧ a.armedAt = some s ∧
    s + timeout.ttTotal ≤ t

namespace Attempt
variable {a : Attempt ε X}

theorem Awaits.onlyLate (awaits : a.Awaits s) : a.OnlyLate where
  aborted := by simp [awaits.log]
  dangling := fun used => absurd (awaits.dangling.symm.trans used) (by decide)

theorem Reported.onlyLate {report : Line ε X} (reported : a.Reported s t report) : a.OnlyLate where
  aborted := by
    intro t' line' logged named
    rw [reported.log] at logged
    cases List.mem_singleton.mp logged
    exact ⟨s, reported.armedAt, reported.aborted named⟩
  dangling := fun used => ⟨t, report, s, reported.log, reported.armedAt, reported.dangling used⟩

end Attempt

theorem Stage.onlyLate (stage : Stage now a outstanding queued) : (a : Attempt ε X).OnlyLate := by
  cases stage with
  | spawned ep => exact ⟨by simp [Attempt.init], fun used => by cases used⟩
  | awaiting awaits => exact awaits.onlyLate
  | connected awaits own => exact awaits.onlyLate
  | expired awaits past => exact awaits.onlyLate
  | connectedFirst awaits past => exact awaits.onlyLate
  | expiredFirst awaits past => exact awaits.onlyLate
  | told awaits past => exact awaits.onlyLate
  | thrown ep t =>
    refine ⟨fun t' line logged named => ?_, fun used => by cases used⟩
    cases List.mem_singleton.mp logged
    cases named
  | discarding reported => exact reported.onlyLate
  | late reported past => exact reported.onlyLate
  | ended reported => exact reported.onlyLate

/-- Neither its wait nor its report outlasts its timer. -/
structure Attempt.Within (a : Attempt ε X) (now : Int) : Prop where
  waits : ∀ e ∈ a.expiry, a.phase = .connecting → now ≤ e
  reports : ∀ e ∈ a.expiry, ∀ t line, (t, line) ∈ a.log → t ≤ e

namespace Attempt
variable {a : Attempt ε X} {now : Int}

theorem Within.asyncConnect (ep : ε) (surroundings : Surroundings X) :
    ((Attempt.init ep).asyncConnect now surroundings).1.Within now := by
  unfold Attempt.asyncConnect
  split
  · exact ⟨fun e set => (by cases set), fun e set => (by cases set)⟩
  · refine ⟨fun e set _ => ?_, fun e set t line logged => (by cases logged)⟩
    cases Option.some.inj set
    have positive : (0 : Int) ≤ timeout.ttTotal := by decide
    omega

theorem Within.finish (within : a.Within now) (connecting : a.phase = .connecting) (line : Line ε X) :
    (a.finish now line).Within now where
  waits := fun _ _ finished => (by cases finished)
  reports := by
    intro e set t line' logged
    rcases List.mem_append.mp logged with earlier | new
    · exact within.reports e set t line' earlier
    · cases List.mem_singleton.mp new
      exact within.waits e set connecting

theorem Within.waited (within : a.Within now) (result : Result X) : (a.waited result).1.Within now := by
  cases result with
  | success =>
    simp only [Attempt.waited]
    split <;> exact ⟨within.waits, within.reports⟩
  | failed ec => exact within

theorem Within.handle (within : a.Within now) (stage : Stage now a outstanding queued)
    (found : queued = before ++ (op, result) :: after)
    (surroundings : Surroundings X) : (a.handle now op result surroundings).1.Within now := by
  cases op with
  | spawn =>
    obtain ⟨ep, rfl, _⟩ := stage.of_spawn (found ▸ List.mem_append_right _ List.mem_cons_self)
    exact .asyncConnect ep surroundings
  | connect =>
    exact within.finish (stage.of_connect (found ▸ List.mem_append_right _ List.mem_cons_self)) _
  | wait => exact within.waited result

/-- While the coroutine waits and nothing is queued, so does its timer. -/
theorem Within.tick {time : Int} (within : a.Within now) (stage : Stage now a outstanding [])
    (ahead : .wait ∈ outstanding → ∀ e ∈ a.expiry, time ≤ e) : a.Within time := by
  refine ⟨fun e set connecting => ?_, within.reports⟩
  cases stage with
  | awaiting awaits => exact ahead List.mem_cons_self e set
  | thrown ep t => cases connecting
  | ended reported => exact absurd (reported.phase.symm.trans connecting) (by decide)

end Attempt

theorem within_step {k m : Solo ε X} (staged : Staged ep k) (within : k.program.Within k.now)
    (prompt : SoloPrompt k input) (stepped : EventLoop.Stepped attempt k input m) :
    m.program.Within m.now := by
  have stage := staged.stage
  cases stepped with
  | @call function x outside performs => exact function.elim
  | enter | complete | leave => exact within
  | handle running going found performs => exact within.handle stage found _
  | tick later =>
    rw [prompt.1] at stage
    exact within.tick stage prompt.2

/-- A prompt loop is prompt for each coroutine. -/
theorem prompt_carries {v : LoopView ε X} {i : Nat} {a : Attempt ε X}
    {mine : Input Empty Operation (Result X) (Surroundings X)} (prompt : Punctual v (Input.tag i mine))
    (found : v.program[i]? = some a) : SoloPrompt (v.part i a) mine := by
  cases mine with
  | tick time =>
    obtain ⟨idle, ahead⟩ := prompt
    have none : v.context.queued = [] := List.isEmpty_iff.mp idle
    refine ⟨by simp [EventLoop.part, Observed.part, none], fun waiting => ?_⟩
    obtain ⟨tagged, pending, mine⟩ := List.mem_filterMap.mp waiting
    cases own_eq mine
    exact ahead _ pending rfl a found
  | _ => trivial

section Program
variable {κ : Type} [IoContext κ (Nat × Operation) (Result X)] {resolve : String → Except X (List ε)}
  {time : Int} {l : Loop κ ε X}

/-- When `run` has returned, each coroutine has logged one line, which names its
own endpoint or is that of an exception. -/
theorem endpoints_reported (path : Run (EventLoop.step program) Defined (main resolve time) inputs l)
    (returned : l.returned ≠ 0) :
    List.Forall₂ (fun ep a => ∃ t line, a.log = [(t, line)] ∧ ∀ ep' ∈ line.endpoint, ep' = ep)
      (endpoints resolve) l.program := by
  apply List.forall₂_iff_get.mpr
  refine ⟨(attempts_length path).symm, fun i spawned bound => ?_⟩
  obtain ⟨ep, found, staged⟩ := attempts_staged path i _ (List.getElem?_eq_getElem bound)
  cases Option.some.inj ((List.getElem?_eq_getElem spawned).symm.trans found)
  exact staged.reported returned

/-- No coroutine reports a cancellation before three seconds have passed since
it armed its timer, and none that reports earlier is used by the handler of its
timer. -/
theorem cancelled_only_late (path : Run (EventLoop.step program) Defined (main resolve time) inputs l)
    (found : a ∈ l.program) :
    (∀ t line, (t, line) ∈ a.log → line.errorCode = some .operationAborted →
      ∃ s, a.armedAt = some s ∧ s + 3000000000 ≤ t) ∧
    (a.dangling = true → ∃ t line s, a.log = [(t, line)] ∧ a.armedAt = some s ∧ s + 3000000000 ≤ t) := by
  obtain ⟨i, found⟩ := List.mem_iff_getElem?.mp found
  obtain ⟨ep, _, staged⟩ := attempts_staged path i a found
  exact ⟨staged.stage.onlyLate.aborted, staged.stage.onlyLate.dangling⟩

/-- Where the clock waits for what is due, no coroutine waits for longer than
three seconds from the time it armed its timer, and none reports later. -/
theorem reported_in_time (path : Run (EventLoop.step program) Prompt (main resolve time) inputs l)
    (found : a ∈ l.program) (armed : a.armedAt = some s) :
    (a.phase = .connecting → l.now ≤ s + 3000000000) ∧
      ∀ t line, (t, line) ∈ a.log → t ≤ s + 3000000000 := by
  obtain ⟨i, found⟩ := List.mem_iff_getElem?.mp found
  have each := each_run (I := fun _ k => ∃ ep, Staged ep k ∧ k.program.Within k.now)
    (W := Punctual) (G := SoloPrompt) (fun prompt => prompt.2) prompt_carries
    (fun ⟨ep, staged, within⟩ prompt stepped =>
      ⟨ep, staged.step stepped, within_step staged within prompt stepped⟩) ?_ path
  · obtain ⟨ep, staged, within⟩ := each i a found
    have expiry : a.expiry = some (s + 3000000000) := staged.stage.expiry armed
    exact ⟨within.waits _ expiry, within.reports _ expiry⟩
  · intro i ep k found spawned
    refine ⟨ep, .init spawned, ?_⟩
    rw [spawned.program]
    exact ⟨fun e set => (by cases set), fun e set => (by cases set)⟩

end Program

/-- The last name has two addresses, and no other name has any. -/
def twoAddresses : String → Except Nat (List Nat)
  | "31.13.73.9" => .ok [7, 8]
  | _ => .ok []

abbrev PlainLoop : Type := Loop (Observed (Nat × Operation) (Result Nat)) Nat Nat

/-- The first is reached, and the second takes too long. -/
def oneReached : List (Step Nat) :=
  [.enter, .handle ⟨100, none, .none⟩, .handle ⟨101, none, .none⟩, .complete (0, .connect) .success,
    .handle ⟨20000100, none, .none⟩, .handle ⟨0, none, .none⟩, .tick 3000000000,
    .complete (1, .wait) .success, .handle ⟨0, none, .none⟩, .handle ⟨0, none, .none⟩]

/-- The second is reached when its timer has expired, but before its handler. -/
def reachedLate : List (Step Nat) :=
  [.enter, .handle ⟨100, some 5, .none⟩, .handle ⟨101, none, .none⟩, .handle ⟨0, none, .none⟩,
    .handle ⟨0, none, .none⟩, .tick 3000000000, .complete (1, .connect) .success,
    .complete (1, .wait) .success, .handle ⟨3000000101, none, .none⟩, .handle ⟨0, none, .none⟩]

theorem endpoints_reported_one_reached : ∃ l : PlainLoop,
    Run (EventLoop.step program) Defined (main twoAddresses 0) (oneReached ++ [.leave]) l ∧
    (l.returned ≠ 0 ∧ l.program.map Attempt.log =
      [[(0, .connectionTakes 7 20)], [(3000000000, .errorConnected 8 .operationAborted)]]) ∧
    List.Forall₂ (fun ep a => ∃ t line, a.log = [(t, line)] ∧ ∀ ep' ∈ line.endpoint, ep' = ep)
      (endpoints twoAddresses) l.program :=
  Run.instance_of_execute ⟨_, rfl, by decide, rfl⟩ fun _ path reached =>
    endpoints_reported path reached.1

theorem cancelled_only_late_reached_late : ∃ l : PlainLoop,
    Run (EventLoop.step program) Defined (main twoAddresses 0) reachedLate l ∧
    (∃ a ∈ l.program, a.dangling = true ∧ a.log = [(3000000000, .connectionTakes 8 3000)]) ∧
    ∀ a ∈ l.program,
      (∀ t line, (t, line) ∈ a.log → line.errorCode = some .operationAborted →
        ∃ s, a.armedAt = some s ∧ s + 3000000000 ≤ t) ∧
      (a.dangling = true → ∃ t line s, a.log = [(t, line)] ∧ a.armedAt = some s ∧ s + 3000000000 ≤ t) :=
  Run.instance_of_execute
    ⟨_, rfl, _, List.mem_cons_of_mem _ List.mem_cons_self, rfl, rfl⟩
    fun _ path _ _ found => cancelled_only_late path found

theorem reported_in_time_one_reached : ∃ l : PlainLoop,
    Run (EventLoop.step program) Prompt (main twoAddresses 0) oneReached l ∧
    (∃ a ∈ l.program, a.armedAt = some 0 ∧
      a.log = [(3000000000, .errorConnected 8 .operationAborted)]) ∧
    ∀ a ∈ l.program, a.armedAt = some 0 →
      (a.phase = .connecting → l.now ≤ 0 + 3000000000) ∧
        ∀ t line, (t, line) ∈ a.log → t ≤ 0 + 3000000000 :=
  Run.instance_of_execute
    ⟨_, rfl, _, List.mem_cons_of_mem _ List.mem_cons_self, rfl, rfl⟩
    fun _ path _ _ found armed => reported_in_time path found armed

end BoostTest.ConnectorCo
