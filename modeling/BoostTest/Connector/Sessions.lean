import BoostTest.Connector.Attempts
import BoostTest.Timeout.TimeLimit

/-! Each coroutine drives its provider as the provider expects to be driven.
Whatever runs on the context meanwhile, the operation and the timer of one
coroutine go through a run of a session, in which operations go one at a time
and the provider outlives them; and the session is prompt where the context is. -/
namespace BoostTest.ConnectorCo
open Asio Transition Timeout SteadyTimer

variable {ε X τ σ ι : Type}

/-- The lambda and the error code that a queued handler of the timer has. -/
def timerItem : Operation × Result X → Option (WaitBody × WaitStatus)
  | (.wait, .success) => some (.arm, .success)
  | (.wait, .failed _) => some (.arm, .operationAborted)
  | (.spawn, _) | (.connect, _) => none

/-- The waits that are over, as the coroutine's context has them. -/
theorem timerItem_waits (ops : List Operation) (ended : timerItem (.wait, result) = some (.arm, status)) :
    ((ops.filter isWait).map (·, (result : Result X))).filterMap timerItem =
      ((ops.filter isWait).map fun _ => WaitBody.arm).map (·, status) := by
  induction ops with
  | nil => rfl
  | cons op rest ih =>
    cases op with
    | spawn | connect => exact ih
    | wait =>
      have head : (Operation.wait :: rest).filter isWait = .wait :: rest.filter isWait := rfl
      rw [head, List.map_cons, List.filterMap_cons_some ended, ih]
      rfl

/-- Ending a connection ends no wait. -/
theorem timerItem_connects (ops : List Operation) (result : Result X) :
    ((ops.filter isConnect).map (·, result)).filterMap timerItem = [] := by
  induction ops with
  | nil => rfl
  | cons op rest ih => cases op <;> exact ih

theorem Attempt.waited_armedAt (a : Attempt ε X) (result : Result X) :
    (a.waited result).1.armedAt = a.armedAt := by
  cases result with
  | success =>
    simp only [waited]
    split <;> rfl
  | failed ec => rfl

/-- A coroutine has one wait at most, so its handlers may run in any order. -/
theorem Stage.timer_first {now : Int} {a : Attempt ε X} {queued : List (Operation × Result X)}
    (stage : Stage now a outstanding queued) (found : queued = before ++ item :: after) :
    (item :: (before ++ after)).filterMap timerItem = queued.filterMap timerItem := by
  have short : (queued.filterMap timerItem).length ≤ 1 := by
    cases stage <;> first | exact Nat.le_refl 1 | exact Nat.zero_le 1
  have perm : queued.Perm (item :: (before ++ after)) := found ▸ List.perm_middle
  exact (perm_short short (perm.filterMap timerItem)).symm

theorem filter_connects (ops : List Operation) :
    (ops.filter fun op => !isConnect op).filter isWait = ops.filter isWait := by
  rw [List.filter_filter]
  congr 1
  funext op
  cases op <;> rfl

variable [SteadyTimer τ (WaitHandler Provenance)]

/-- A coroutine and a session of its provider, after the same history. -/
structure Follows (now : Int) (a : Attempt ε X) (outstanding : List Operation)
    (queued : List (Operation × Result X)) (s : Session τ σ ι) : Prop where
  now : s.now = now
  idle : s.firing = none
  alive : s.alive = decide (a.phase = .connecting)
  operation : s.outstanding.isSome = decide (a.phase = .connecting)
  configured : timeout.Configures s.provider
  parent : s.provider.parent = none
  lastFired : s.provider.lastFired = a.lastFired
  expiry : SteadyTimer.expiry s.provider.tim = a.expiry
  pending : (SteadyTimer.pending s.provider.tim).map WaitHandler.body =
    (outstanding.filter isWait).map fun _ => .arm
  queued : (SteadyTimer.queued s.provider.tim).map (fun item => (item.1.body, item.2)) =
    queued.filterMap timerItem

namespace Follows
variable {now : Int} {a : Attempt ε X} {outstanding : List Operation} {queued : List (Operation × Result X)}
  {s : Session τ σ ι}

/-- Steps of the context that leave the timer alone. -/
theorem other (follows : Follows now a outstanding queued s)
    (waits : outstanding'.filter isWait = outstanding.filter isWait)
    (items : queued'.filterMap timerItem = queued.filterMap timerItem) :
    Follows now a outstanding' queued' s :=
  { follows with
    pending := waits ▸ follows.pending
    queued := items ▸ follows.queued }

theorem tick (follows : Follows now a outstanding queued s) (time : Int) :
    Follows time a outstanding queued { s with now := time } :=
  { follows with now := rfl }

/-- Both sides end all waits in the same way. -/
theorem ended (follows : Follows now a outstanding queued s)
    (ended : timerItem (.wait, result) = some (.arm, status)) :
    (SteadyTimer.queued s.provider.tim ++ (SteadyTimer.pending s.provider.tim).map (·, status)).map
        (fun item => (item.1.body, item.2)) =
      (queued ++ (outstanding.filter isWait).map (·, result)).filterMap timerItem := by
  have waits : ((SteadyTimer.pending s.provider.tim).map (·, status)).map
      (fun item => (item.1.body, item.2)) =
        ((SteadyTimer.pending s.provider.tim).map WaitHandler.body).map (·, status) := by
    simp only [List.map_map, Function.comp_def]
  rw [List.map_append, List.filterMap_append, follows.queued, waits, follows.pending,
    timerItem_waits outstanding ended]

theorem expire (follows : Follows now a outstanding queued s) :
    Follows now a (outstanding.filter fun op => !isWait op)
      (queued ++ (outstanding.filter isWait).map (·, .success)) s.expire where
  now := follows.now
  idle := follows.idle
  alive := follows.alive
  operation := follows.operation
  configured := follows.configured.keep _ _ _
  parent := follows.parent
  lastFired := follows.lastFired
  expiry := (expiry_expire _).trans follows.expiry
  pending := by simp [Session.expire, List.filter_filter]
  queued := by
    rw [Session.expire, queued_expire]
    exact follows.ended rfl

/-- The handler of the connection, up to the end of the coroutine. -/
theorem finish [CancellationSlots σ (Slot ι) (Callback ι)] (follows : Follows now a outstanding queued s)
    (line : Line ε X) : Follows now (a.finish now line) (outstanding.filter fun op => !isWait op)
      (queued ++ (outstanding.filter isWait).map (·, .failed .operationAborted)) s.complete.destroy where
  now := follows.now
  idle := follows.idle
  alive := rfl
  operation := rfl
  configured := follows.configured.keep _ _ _
  parent := follows.parent
  lastFired := follows.lastFired
  expiry := by
    simp only [Session.destroy, TimeoutProvider.destroy, Session.complete, TimeoutProvider.binderCancel,
      expiry_cancel]
    exact follows.expiry
  pending := by simp [Session.destroy, TimeoutProvider.destroy, List.filter_filter]
  queued := by
    simp only [Session.destroy, TimeoutProvider.destroy, Session.complete, TimeoutProvider.binderCancel,
      queued_cancel, pending_cancel, List.map_nil, List.append_nil]
    exact follows.ended rfl

/-- The first handler of the timer is the first of the session's. -/
theorem head (follows : Follows now a outstanding (item :: rest) s)
    (timer : timerItem item = some (.arm, status)) :
    ∃ h more, SteadyTimer.queued s.provider.tim = (h, status) :: more ∧ h.body = .arm ∧
      more.map (fun item => (item.1.body, item.2)) = rest.filterMap timerItem := by
  have queued := follows.queued
  rw [List.filterMap_cons_some timer] at queued
  obtain ⟨⟨h, s⟩, more, head, same, tail⟩ := List.map_eq_cons_iff.mp queued
  obtain ⟨body, rfl⟩ := Prod.mk.inj same
  exact ⟨h, more, head, body, tail⟩

theorem discard (follows : Follows now a outstanding ((.wait, .failed ec) :: rest) s) :
    ∃ h more, SteadyTimer.queued s.provider.tim = (h, .operationAborted) :: more ∧
      Follows now a outstanding rest s.discard := by
  obtain ⟨h, more, head, _, tail⟩ := follows.head rfl
  refine ⟨h, more, head, { follows with configured := ?_, expiry := ?_, pending := ?_, queued := ?_ }⟩
  · exact follows.configured.keep _ _ _
  · exact (expiry_pop _).trans follows.expiry
  · simpa only [Session.discard, pending_pop] using follows.pending
  · simpa only [Session.discard, queued_pop, head, List.tail_cons] using tail

/-- `fire_all` while the coroutine waits: it starts no further wait. -/
theorem fire (follows : Follows now a outstanding ((.wait, .success) :: rest) s) :
    ∃ h more, SteadyTimer.queued s.provider.tim = (h, .success) :: more ∧
      (s.provider.onWait h.body).rearm = none ∧
      Follows now { a with lastFired := timeout.firstStage } outstanding rest
        { s.fire h with firing := none } := by
  obtain ⟨h, more, head, body, tail⟩ := follows.head rfl
  have single : s.provider.onWait h.body = TimeoutProvider.fireAll := by
    rw [body]
    exact if_pos follows.configured.emitAll
  refine ⟨h, more, head, by rw [single]; rfl,
    { follows with idle := rfl, configured := ?_, lastFired := ?_, expiry := ?_, pending := ?_, queued := ?_ }⟩
  · exact follows.configured.keep _ _ _
  · simp only [Session.fire, TimeoutProvider.beginFire, single]
    rfl
  · exact (expiry_pop _).trans follows.expiry
  · simpa only [Session.fire, TimeoutProvider.beginFire, pending_pop] using follows.pending
  · simpa only [Session.fire, TimeoutProvider.beginFire, queued_pop, head, List.tail_cons] using tail

/-- The same handler when the coroutine has gone on. -/
theorem dangle (follows : Follows now a outstanding ((.wait, .success) :: rest) s) :
    ∃ h more, SteadyTimer.queued s.provider.tim = (h, .success) :: more ∧
      Follows now { a with dangling := true } outstanding rest (s.dangle h) := by
  obtain ⟨h, more, head, _, tail⟩ := follows.head rfl
  refine ⟨h, more, head, { follows with configured := ?_, expiry := ?_, pending := ?_, queued := ?_ }⟩
  · exact follows.configured.keep _ _ _
  · exact (expiry_pop _).trans follows.expiry
  · simpa only [Session.dangle, pending_pop] using follows.pending
  · simpa only [Session.dangle, queued_pop, head, List.tail_cons] using tail

/-- The first resumption constructs a provider and starts its operation. -/
theorem start [CancellationSlots σ (Slot ι) (Callback ι)] (self : ι) (slots : σ) (now : Int)
    (connecting : a.phase = .connecting) (armed : a.expiry = some (now + timeout.ttTotal))
    (lastFired : a.lastFired = CancellationType.typeNone) (waits : outstanding.filter isWait = [.wait])
    (items : queued.filterMap timerItem = []) :
    Follows now a outstanding queued ((Session.init timeout slots now : Session τ σ ι).start self none) where
  now := rfl
  idle := rfl
  alive := by simp [Session.start, Session.init, connecting]
  operation := by simp [Session.start, connecting]
  configured := by
    rw [Session.start_provider]
    exact (Construction.build_configures timeout).keep _ _ _
  parent := by simp [Session.start_provider, Session.init, TimeoutProvider.nextParent]
  lastFired := by rw [Session.start_provider, lastFired]
  expiry := by
    simp only [Session.start_provider, expiry_asyncWait, expiry_expiresAfter, armed]
    rfl
  pending := by
    rw [Session.start_pending, waits]
    rfl
  queued := by simp [Session.start_provider, Session.init, items]

end Follows

/-- `finer` asks of the callers to go one at a time, and more only of the clock. -/
def Calm (finer : Session τ σ ι → Event ι → Prop) : Prop :=
  ∀ s event, s.OneAtATime event → (∀ time, event ≠ .tick time) → finer s event

section Steps
variable [DecidableEq ι] [CancellationSlots σ (Slot ι) (Callback ι)]
  {now : Int} {a : Attempt ε X} {outstanding : List Operation} {queued : List (Operation × Result X)}
  {s : Session τ σ ι} {finer : Session τ σ ι → Event ι → Prop} {self : ι}

omit [DecidableEq ι] in
/-- The first resumption arms the timer, if it does not throw. -/
theorem Follows.asyncConnect (self : ι) (slots : σ) (x : Observed Operation (Result X))
    {surroundings : Surroundings X} (outstanding : x.outstanding = []) (queued : x.queued = [])
    (armed : ((Attempt.init ep).asyncConnect now surroundings).1.armedAt = some t) :
    t = now ∧
      Follows now ((Attempt.init ep).asyncConnect now surroundings).1
        (x.performAll ((Attempt.init ep).asyncConnect now surroundings).2).outstanding
        (x.performAll ((Attempt.init ep).asyncConnect now surroundings).2).queued
        ((Session.init timeout slots now : Session τ σ ι).start self none) := by
  unfold Attempt.asyncConnect at armed ⊢
  split at armed
  · cases armed
  · rename_i calmly
    simp only [if_neg calmly]
    cases Option.some.inj armed
    refine ⟨rfl, .start self slots now rfl rfl rfl ?_ ?_⟩
    · cases surroundings.openError <;>
        simp only [Observed.performAll_cons, Observed.performAll_nil, Observed.perform, outstanding] <;> rfl
    · cases surroundings.openError <;>
        simp only [Observed.performAll_cons, Observed.performAll_nil, Observed.perform, queued] <;> rfl

/-- What the platform completes is what expires in the session. -/
theorem Follows.complete (calm : Calm finer) (follows : Follows now a outstanding queued s)
    (stage : Stage now a outstanding queued) (found : outstanding = before ++ op :: after)
    (completes : a.completes now op result = true) :
    ∃ events t, Run (Session.step self) finer s events t ∧
      Follows now a (before ++ after) (queued ++ [(op, result)]) t := by
  have expires : ∀ r, a.Awaits r → r + timeout.ttTotal ≤ now →
      Run (Session.step self) finer s [.expire] s.expire := by
    intro r awaits past
    have alive : s.alive = true := follows.alive.trans (decide_eq_true awaits.phase)
    have armed := follows.expiry.trans awaits.expiry
    refine .single (calm _ _ trivial nofun) (Session.stepped_iff.mpr (.expire alive armed ?_))
    exact follows.now ▸ past
  cases stage with
  | awaiting awaits =>
    rcases taken_two found with ⟨rfl, rest⟩ | ⟨rfl, rest⟩
    · obtain ⟨rfl, past⟩ := Stage.completes_wait awaits completes
      exact ⟨[.expire], _, expires _ awaits past, rest ▸ follows.expire⟩
    · exact ⟨[], s, .refl _, rest ▸ follows.other rfl (by simp [timerItem])⟩
  | connected awaits own =>
    obtain ⟨rfl, rest⟩ := taken_one found
    obtain ⟨rfl, past⟩ := Stage.completes_wait awaits completes
    exact ⟨[.expire], _, expires _ awaits past, rest ▸ follows.expire⟩
  | expired awaits past =>
    obtain ⟨rfl, rest⟩ := taken_one found
    exact ⟨[], s, .refl _, rest ▸ follows.other rfl (by simp [timerItem])⟩
  | _ => simp at found

/-- The handler of the connection completes the operation and destroys the
provider. -/
theorem Follows.resume (calm : Calm finer) {x : Observed Operation (Result X)}
    (follows : Follows now a x.outstanding ((.connect, result) :: x.queued) s)
    (connecting : a.phase = .connecting) (surroundings : Surroundings X) :
    ∃ events t, Run (Session.step self) finer s events t ∧
      Follows now (a.handle now .connect result surroundings).1
        (x.performAll (a.handle now .connect result surroundings).2).outstanding
        (x.performAll (a.handle now .connect result surroundings).2).queued t := by
  have alive : s.alive = true := follows.alive.trans (decide_eq_true connecting)
  have busy : s.outstanding.isSome = true := follows.operation.trans (decide_eq_true connecting)
  have taken : Follows now a x.outstanding x.queued s := follows.other rfl rfl
  have after := taken.finish (a.line surroundings result)
  refine ⟨[.complete, .destroy], _, .next (calm _ _ busy nofun) (Session.stepped_iff.mpr (.complete alive))
    (.single (calm _ _ rfl nofun) (Session.stepped_iff.mpr (.destroy alive))), after.other ?_ ?_⟩
  · simp only [Attempt.handle, Attempt.resume, aborts, Observed.performAll_cons,
      Observed.performAll_nil, Observed.perform, filter_connects]
    simp [List.filter_filter]
  · simp only [Attempt.handle, Attempt.resume, aborts, Observed.performAll_cons,
      Observed.performAll_nil, Observed.perform, List.filterMap_append, timerItem_connects]
    simp [List.filter_filter]

/-- Every other handler is one of the timer's, or the first resumption. -/
theorem Follows.waited (calm : Calm finer) {x : Observed Operation (Result X)}
    (follows : Follows now a x.outstanding ((.wait, result) :: x.queued) s) :
    ∃ events t, Run (Session.step self) finer s events t ∧
      Follows now (a.waited result).1 (x.performAll (a.waited result).2).outstanding
        (x.performAll (a.waited result).2).queued t := by
  cases result with
  | failed ec =>
    obtain ⟨h, more, head, after⟩ := follows.discard
    exact ⟨[.runHandler], _, .single (calm _ _ trivial nofun)
      (Session.stepped_iff.mpr (.discard follows.idle head)), after⟩
  | success =>
    by_cases connecting : a.phase = .connecting
    · have alive : s.alive = true := follows.alive.trans (decide_eq_true connecting)
      obtain ⟨h, more, head, last, after⟩ := follows.fire
      refine ⟨[.runHandler, .emitReturn], _, .next (calm _ _ trivial nofun)
        (Session.stepped_iff.mpr (.fire follows.idle head alive)) (.single (calm _ _ trivial nofun)
          (Session.stepped_iff.mpr (.finish rfl last))), ?_⟩
      have told : a.waited (.success : Result X) =
          ({ a with lastFired := timeout.firstStage }, [aborts isConnect]) := if_pos connecting
      rw [told]
      refine after.other (filter_connects x.outstanding) ?_
      simp only [aborts, Observed.performAll_cons, Observed.performAll_nil, Observed.perform,
        List.filterMap_append, timerItem_connects, List.append_nil]
    · have dead : s.alive = false := follows.alive.trans (decide_eq_false connecting)
      obtain ⟨h, more, head, after⟩ := follows.dangle
      refine ⟨[.runHandler], _, .single (calm _ _ trivial nofun)
        (Session.stepped_iff.mpr (.dangle follows.idle head dead)), ?_⟩
      simp only [Attempt.waited, if_neg connecting, Observed.performAll_nil]
      exact after

end Steps

section Sessions
variable [DecidableEq ι] [CancellationSlots σ (Slot ι) (Callback ι)] {self : ι} {slots : σ}
  {finer : Session τ σ ι → Event ι → Prop}
  {admits : Solo ε X → Input Empty Operation (Result X) (Surroundings X) → Prop}

/-- The session that began when the timer was armed. -/
def Driven (self : ι) (slots : σ) (finer : Session τ σ ι → Event ι → Prop) (k : Solo ε X) : Prop :=
  ∀ t, k.program.armedAt = some t → ∃ events s,
    Run (Session.step self) finer (Session.init timeout slots t) (.start none :: events) s ∧
    Follows k.now k.program k.context.outstanding k.context.queued s

namespace Driven
variable {k m : Solo ε X}

/-- What the session has done since. -/
theorem go_on (driven : Driven self slots finer k) (armedAt : m.program.armedAt = k.program.armedAt)
    (simulated : ∀ s : Session τ σ ι,
      Follows k.now k.program k.context.outstanding k.context.queued s → ∃ events t,
        Run (Session.step self) finer s events t ∧
        Follows m.now m.program m.context.outstanding m.context.queued t) :
    Driven self slots finer m := by
  intro t armed
  obtain ⟨events, s, path, follows⟩ := driven t (armedAt ▸ armed)
  obtain ⟨more, t, rest, after⟩ := simulated s follows
  exact ⟨events ++ more, t, path.trans rest, after⟩

theorem handle (calm : Calm finer) (driven : Driven self slots finer k)
    (stage : Stage k.now k.program k.context.outstanding k.context.queued)
    (found : k.context.queued = before ++ (op, result) :: after) (surroundings : Surroundings X) :
    Driven self slots finer (k.handle attempt op result surroundings
      ((k.context.dequeue (before ++ after)).performAll (k.program.handle k.now op result surroundings).2)) := by
  have member : (op, result) ∈ k.context.queued := found ▸ List.mem_append_right _ List.mem_cons_self
  have first : ∀ {s : Session τ σ ι}, Follows k.now k.program k.context.outstanding k.context.queued s →
      Follows k.now k.program k.context.outstanding ((op, result) :: (before ++ after)) s :=
    fun follows => follows.other rfl (stage.timer_first found)
  cases op with
  | spawn =>
    obtain ⟨ep, fresh, outstanding, queued⟩ := stage.of_spawn member
    obtain ⟨_, none⟩ := taken_one (queued.symm.trans found)
    obtain ⟨now, program, context, running, returned, started, handled⟩ := k
    dsimp only at fresh
    subst fresh
    intro t armed
    obtain ⟨rfl, follows⟩ := Follows.asyncConnect (τ := τ) self slots (context.dequeue (before ++ after))
      outstanding none armed
    exact ⟨[], _, .single (calm _ _ rfl nofun) (Session.stepped_iff.mpr (.start rfl)), follows⟩
  | connect =>
    refine driven.go_on rfl fun s follows => ?_
    exact (first follows).resume calm (x := k.context.dequeue (before ++ after)) (stage.of_connect member)
      surroundings
  | wait =>
    refine driven.go_on (k.program.waited_armedAt result) fun s follows => ?_
    exact (first follows).waited calm (x := k.context.dequeue (before ++ after))

theorem step (calm : Calm finer) (driven : Driven self slots finer k)
    (ticks : ∀ s : Session τ σ ι, ∀ time,
      Follows k.now k.program k.context.outstanding k.context.queued s → admits k (.tick time) →
        finer s (.tick time))
    (staged : Staged ep k) (admitted : admits k input) (stepped : EventLoop.Stepped attempt k input m) :
    Driven self slots finer m := by
  cases stepped with
  | @call function x outside performs => exact function.elim
  | enter | leave => exact driven
  | @handle before op result after surroundings x running going found performs =>
    cases performs.eq (attempt_separate k.program k.now op result surroundings).1
    exact driven.handle calm staged.stage found surroundings
  | complete found completes =>
    exact driven.go_on rfl fun s follows => follows.complete calm staged.stage found completes
  | @tick time later =>
    refine driven.go_on rfl fun s follows => ⟨[.tick time], _, ?_, follows.tick time⟩
    have onward : s.now ≤ time := follows.now ▸ later
    exact .single (ticks s time follows admitted) (Session.stepped_iff.mpr (.tick onward))

theorem init (spawned : Spawned ep k) : Driven self slots finer k := by
  intro t armed
  rw [spawned.program] at armed
  cases armed

end Driven
end Sessions

/-- Where the context is prompt, so is the session. -/
theorem Follows.prompt {k : Solo ε X} {s : Session τ σ ι}
    (follows : Follows k.now k.program k.context.outstanding k.context.queued s)
    (prompt : SoloPrompt k (.tick time)) : s.Prompt (.tick time) := by
  obtain ⟨idle, ahead⟩ := prompt
  refine ⟨?_, follows.idle, fun e armed => ?_⟩
  · have none : SteadyTimer.queued s.provider.tim = [] := by
      have queued := follows.queued
      rwa [idle, List.filterMap_nil, List.map_eq_nil_iff] at queued
    simp [ready, none]
  · by_cases waiting : .wait ∈ k.context.outstanding
    · exact .inr (ahead waiting e (follows.expiry ▸ armed))
    · left
      have none : k.context.outstanding.filter isWait = [] := by
        apply List.filter_eq_nil_iff.mpr
        intro op member isWaiting
        cases op with
        | wait => exact waiting member
        | spawn | connect => cases isWaiting
      have pending := follows.pending
      rwa [none, List.map_nil, List.map_eq_nil_iff] at pending

section Program
variable [DecidableEq ι] [CancellationSlots σ (Slot ι) (Callback ι)] {κ : Type}
  [IoContext κ (Nat × Operation) (Result X)] {resolve : String → Except X (List ε)} {time : Int}
  {l : Loop κ ε X}

/-- Each coroutine that has armed its timer and its provider have gone through a
run of a session, one operation at a time; and through a prompt one, where the
context is prompt. -/
theorem attempts_follow_sessions (self : ι) (slots : σ)
    (path : Run (EventLoop.step program) Defined (main resolve time) inputs l)
    (found : l.program[i]? = some a) (armed : a.armedAt = some t) :
    (∃ events, ∃ s : Session τ σ ι, Run (Session.step self) Session.OneAtATime
        (Session.init timeout slots t) (.start none :: events) s ∧
      Follows l.now a (l.observe.context.part i).outstanding (l.observe.context.part i).queued s) ∧
    (Run (EventLoop.step program) Prompt (main resolve time) inputs l →
      ∃ events, ∃ s : Session τ σ ι, Run (Session.step self) Session.Orderly
          (Session.init timeout slots t) (.start none :: events) s ∧
        Follows l.now a (l.observe.context.part i).outstanding (l.observe.context.part i).queued s) := by
  refine ⟨?_, fun prompt => ?_⟩
  · have each := each_run (I := fun _ k => ∃ ep, Staged ep k ∧
        Driven (τ := τ) self slots Session.OneAtATime k)
      (W := Defined) (G := SoloAny) id (fun _ _ => trivial)
      (fun ⟨ep, staged, driven⟩ any stepped => ⟨ep, staged.step stepped,
        driven.step (fun _ _ one _ => one) (fun _ _ _ _ => trivial) staged any stepped⟩)
      (fun _ ep _ _ spawned => ⟨ep, .init spawned, .init spawned⟩) path
    obtain ⟨_, _, driven⟩ := each i a found
    exact driven t armed
  · have calm : Calm (Session.Orderly : Session τ σ ι → Event ι → Prop) := by
      intro s event one still
      refine ⟨one, ?_⟩
      cases event with
      | tick time => exact absurd rfl (still time)
      | _ => trivial
    have each := each_run (I := fun _ k => ∃ ep, Staged ep k ∧
        Driven (τ := τ) self slots Session.Orderly k)
      (W := Punctual) (G := SoloPrompt) (fun prompt => prompt.2) prompt_carries
      (fun ⟨ep, staged, driven⟩ prompt stepped => ⟨ep, staged.step stepped,
        driven.step calm (fun s time follows prompt => ⟨trivial, follows.prompt prompt⟩) staged prompt stepped⟩)
      (fun _ ep _ _ spawned => ⟨ep, .init spawned, .init spawned⟩) prompt
    obtain ⟨_, _, driven⟩ := each i a found
    exact driven t armed

end Program

/-- The timer of the second coroutine expires before its connection is handled. -/
theorem attempts_follow_sessions_reached_late : ∃ l : PlainLoop,
    Run (EventLoop.step program) Defined (main twoAddresses 0) reachedLate l ∧
    ∃ a, (l.program[1]? = some a ∧ a.armedAt = some 0 ∧ a.dangling = true) ∧
      ((∃ events, ∃ s : PlainSession, Run (Session.step ()) Session.OneAtATime
          (Session.init timeout (fun _ => none) 0) (.start none :: events) s ∧
        Follows l.now a (l.observe.context.part 1).outstanding (l.observe.context.part 1).queued s) ∧
      (Run (EventLoop.step program) Prompt (main twoAddresses 0) reachedLate l →
        ∃ events, ∃ s : PlainSession, Run (Session.step ()) Session.Orderly
            (Session.init timeout (fun _ => none) 0) (.start none :: events) s ∧
          Follows l.now a (l.observe.context.part 1).outstanding (l.observe.context.part 1).queued s)) := by
  have late : ∃ l : PlainLoop,
      Run (EventLoop.step program) Defined (main twoAddresses 0) reachedLate l ∧
      ∃ a, l.program[1]? = some a ∧ a.armedAt = some 0 ∧ a.dangling = true :=
    Run.exists_of_execute ⟨_, rfl, _, rfl, rfl, rfl⟩
  obtain ⟨l, path, a, found, armed, dangling⟩ := late
  exact ⟨l, path, a, ⟨found, armed, dangling⟩, attempts_follow_sessions () _ path found armed⟩

end BoostTest.ConnectorCo
