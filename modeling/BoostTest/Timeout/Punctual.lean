import BoostTest.Timeout.Coverage
import BoostTest.Timeout.Deadline

/-! The escalation under a prompt reactor and executor: the clock does not pass
the expiry of a pending wait, nor move while a wait handler is queued with a
clear error code or a `fire_*` function is running. The bounds of the
escalation are then exact, and no operation outlives its timeouts. -/
namespace BoostTest.Timeout
open Asio Asio.CancellationType SteadyTimer TimeoutProvider Transition Trace

variable {τ σ ι : Type} [SteadyTimer τ (WaitHandler Provenance)]

namespace Session

/-- The clock waits for what is due. -/
def Prompt (s : Session τ σ ι) : Event ι → Prop
  | .tick time => ready s.provider.tim = [] ∧ s.firing = none ∧
      ∀ e ∈ expiry s.provider.tim, pending s.provider.tim = [] ∨ time ≤ e
  | _ => True

instance [DecidableEq ι] (s : Session τ σ ι) (event : Event ι) : Decidable (s.Prompt event) :=
  match event with
  | .tick time => inferInstanceAs (Decidable (ready s.provider.tim = [] ∧ s.firing = none ∧
      ∀ e ∈ expiry s.provider.tim, pending s.provider.tim = [] ∨ time ≤ e))
  | .start _ | .expire | .runHandler | .emitReturn | .complete | .emitOn _ _ | .destroy =>
    .isTrue trivial

theorem Prompt.tick_le {s : Session τ σ ι} (prompt : s.Prompt (.tick time))
    (armed : expiry s.provider.tim = some e) (waiting : h ∈ pending s.provider.tim) : time ≤ e := by
  rcases prompt.2.2 e armed with none | bound
  · simp [none] at waiting
  · exact bound

end Session

/-- What this entry makes the timer emit next, and when. -/
def Entry.next (c : Construction) : Entry ι → Option (CancellationType × Int)
  | .armed armedAt _ => some (c.firstStage, max armedAt (armedAt + c.ttTotal))
  | .emitted emittedAt ct _ _ =>
    if ct = typeTotal then some (typePartial, max emittedAt (emittedAt + c.ttPartial))
    else if ct = typePartial then some (typeTerminal, max emittedAt (emittedAt + c.ttTerminal))
    else none
  | _ => none

/-- The `arm` that the entry at position `k` descends from. -/
def Entry.root (k : Nat) : Entry ι → Nat
  | .emitted _ _ source _ => source.origin
  | _ => k

/-- The entry that `source` names makes the timer emit `ct` at `time`. -/
def Scheduled (c : Construction) (log : List (Entry ι)) (ct : CancellationType) (source : Provenance)
    (time : Int) : Prop :=
  ∃ e, log[source.cause]? = some e ∧ e.next c = some (ct, time) ∧ e.root source.cause = source.origin

/-- Each emission happens at the time its predecessor made it happen, and
descends from the same `arm`. -/
def Entry.Starts (c : Construction) (earlier : Entry ι) : Entry ι → Prop
  | .emitted time ct source _ =>
    earlier.next c = some (ct, time) ∧ earlier.root source.cause = source.origin
  | _ => True

theorem Scheduled.append {c : Construction} {log more : List (Entry ι)} {source : Provenance}
    (scheduled : Scheduled c log ct source time) : Scheduled c (log ++ more) ct source time := by
  obtain ⟨e, found, next⟩ := scheduled
  exact ⟨e, getElem?_append_some found, next⟩

section Rearm
omit [SteadyTimer τ (WaitHandler Provenance)]
variable {c : Construction} {p : TimeoutProvider τ ι}

/-- The two `fire_*` functions that start a wait. -/
theorem onWait_rearm (wait : (p.onWait lambda).rearm = some (duration, following)) :
    (lambda = .arm ∧ p.emitAll = false ∧ duration = p.ttPartial ∧ following = .fireTotal) ∨
      (lambda = .fireTotal ∧ duration = p.ttTerminal ∧ following = .firePartial) := by
  cases lambda with
  | arm =>
    cases single : p.emitAll with
    | true => simp [onWait, single, fireAll] at wait
    | false =>
      simp only [onWait, single, Bool.false_eq_true, if_false, fireTotal, Option.some.injEq,
        Prod.mk.injEq] at wait
      exact .inl ⟨rfl, rfl, wait.1.symm, wait.2.symm⟩
  | fireTotal =>
    simp only [onWait, firePartial, Option.some.injEq, Prod.mk.injEq] at wait
    exact .inr ⟨rfl, wait.1.symm, wait.2.symm⟩
  | firePartial => simp [onWait, fireTerminal] at wait

/-- A stage that starts a wait makes the next stage happen when that wait ends. -/
theorem onWait_next (configured : c.Configures p)
    (wait : (p.onWait lambda).rearm = some (duration, following)) (now : Int)
    (source : Provenance) (during : Option (Operation ι)) :
    (Entry.emitted now (p.onWait lambda).emits source during).next c =
      some (c.stage following, max now (now + duration)) := by
  rcases onWait_rearm wait with ⟨rfl, escalating, rfl, rfl⟩ | ⟨rfl, rfl, rfl⟩
  · simp [onWait, escalating, fireTotal, Entry.next, Construction.stage, configured.ttPartial]
  · have apart : typePartial ≠ typeTotal := by decide
    simp [onWait, firePartial, Entry.next, Construction.stage, configured.ttTerminal, apart]

end Rearm

/-- The invariant: every wait is for the emission that its entry makes happen,
and a wait that is over is run before the clock moves. -/
structure OnSchedule (c : Construction) (s : Session τ σ ι) : Prop where
  traced : Traced c s
  pending : ∀ h ∈ pending s.provider.tim, ∃ e, expiry s.provider.tim = some e ∧
    Scheduled c s.log (c.stage h.body) h.tag (max s.now e)
  ready : ∀ h ∈ ready s.provider.tim, Scheduled c s.log (c.stage h.body) h.tag s.now
  firing : ∀ f, s.firing = some f → ∃ source during,
    s.log[f.entry]? = some (.emitted s.now f.body.emits source during) ∧ source.origin = f.origin
  grounded : Grounded Entry.cause (Entry.Starts c) s.log

namespace OnSchedule
variable {c : Construction} {s : Session τ σ ι}

theorem init (c : Construction) (slots : σ) (now : Int) :
    OnSchedule c (Session.init c slots now : Session τ σ ι) where
  traced := .init c slots now
  pending := by simp [Session.init]
  ready := by simp [Session.init]
  firing := by simp [Session.init]
  grounded := .nil

/-- Steps that start the only wait that is then pending. -/
theorem renew {t : Session τ σ ι} {hooked : Option (Slot ι)} {fired : CancellationType}
    (schedule : OnSchedule c s) (traced : Traced c t) (new : WaitHandler Provenance) (duration : Int)
    (e : Entry ι)
    (provider : t.provider = { s.provider with
      parent := hooked
      lastFired := fired
      tim := asyncWait (expiresAfter s.provider.tim s.now duration) new })
    (now : t.now = s.now) (log : t.log = s.log ++ [e]) (plain : e.cause = none)
    (scheduled : Scheduled c t.log (c.stage new.body) new.tag (max s.now (s.now + duration)))
    (inside : ∀ f, t.firing = some f → s.firing = some f) : OnSchedule c t := by
  constructor
  case traced => exact traced
  case pending =>
    rw [provider, now]
    intro h waiting
    simp only [pending_asyncWait, pending_expiresAfter, List.nil_append, List.mem_singleton] at waiting
    subst waiting
    exact ⟨_, by simp only [expiry_asyncWait, expiry_expiresAfter], scheduled⟩
  case ready =>
    rw [provider, log, now]
    intro h waiting
    simp only [ready_asyncWait, ready_expiresAfter] at waiting
    exact (schedule.ready h waiting).append
  case firing =>
    rw [log, now]
    intro f firing
    obtain ⟨source, during, found, root⟩ := schedule.firing f (inside f firing)
    exact ⟨source, during, getElem?_append_some found, root⟩
  case grounded => exact log ▸ schedule.grounded.snoc_plain plain

theorem start [CancellationSlots σ (Slot ι) (Callback ι)] (schedule : OnSchedule c s) (self : ι)
    (slot : Option (Slot ι)) : OnSchedule c (s.start self slot) := by
  have log : (s.start self slot).log = s.log ++ [.armed s.now slot] := rfl
  refine schedule.renew (schedule.traced.start self slot) _ _ _ (s.start_provider self slot) rfl log
    rfl ?_ (fun _ inside => inside)
  refine ⟨.armed s.now slot, by simp [log], ?_, rfl⟩
  rw [Entry.next, schedule.traced.configured.ttTotal, Construction.stage]

theorem fire (schedule : OnSchedule c s) (idle : s.firing = none)
    (head : queued s.provider.tim = (h, .success) :: rest) : OnSchedule c (s.fire h) := by
  have awaited : h ∈ SteadyTimer.ready s.provider.tim := by
    rw [ready_of_success head]
    exact List.mem_cons_self
  obtain ⟨e, found, next, root⟩ := schedule.ready h awaited
  have emits := onWait_emits schedule.traced.configured h.body
  constructor
  case traced => exact schedule.traced.fire idle head
  case pending =>
    intro h' waiting
    simp only [Session.fire, beginFire, pending_pop] at waiting
    obtain ⟨e, armed, scheduled⟩ := schedule.pending h' waiting
    exact ⟨e, by simpa only [Session.fire, beginFire, expiry_pop] using armed, scheduled.append⟩
  case ready =>
    intro h' waiting
    have earlier : h' ∈ SteadyTimer.ready s.provider.tim := by
      rw [ready_of_success head]
      exact List.mem_cons_of_mem _ waiting
    exact (schedule.ready h' earlier).append
  case firing =>
    intro f inside
    cases Option.some.inj inside
    exact ⟨h.tag, s.outstanding, by simp [Session.fire], rfl⟩
  case grounded =>
    exact schedule.grounded.snoc rfl found ⟨emits ▸ next, root⟩ (schedule.traced.not_spent head)

/-- No time has passed since the emission began, so the next stage is counted
from the beginning of this one. -/
theorem rearm (schedule : OnSchedule c s) (inside : s.firing = some f)
    (wait : f.body.rearm = some (duration, lambda)) : OnSchedule c (s.rearm f) := by
  obtain ⟨⟨origin, stage⟩, _⟩ := schedule.traced.firing f inside
  obtain ⟨source, during, found, root⟩ := schedule.firing f inside
  have log : (s.rearm f).log = s.log ++ [.rearmed f.origin s.outstanding] := rfl
  refine schedule.renew (schedule.traced.rearm inside wait) _ _ _ (s.rearm_provider wait) rfl log rfl ?_
    (by simp [Session.rearm])
  rw [stage] at found wait
  have next := onWait_next schedule.traced.configured wait s.now source during
  exact ⟨_, log ▸ getElem?_append_some found, next, root⟩

/-- Steps at which no time passes, nothing is emitted and no wait is started. -/
theorem quiet {t : Session τ σ ι} (schedule : OnSchedule c s) (traced : Traced c t) (tim : τ)
    (more : List (Entry ι)) (provider : t.provider = { s.provider with tim := tim })
    (still : t.now = s.now) (log : t.log = s.log ++ more) (plain : ∀ e ∈ more, e.cause = none)
    (waits : ∀ h ∈ SteadyTimer.pending tim, h ∈ SteadyTimer.pending s.provider.tim ∧
      expiry tim = expiry s.provider.tim)
    (due : ∀ h ∈ SteadyTimer.ready tim, h ∈ SteadyTimer.ready s.provider.tim ∨
      h ∈ SteadyTimer.pending s.provider.tim ∧ ∃ e, expiry s.provider.tim = some e ∧ e ≤ s.now)
    (inside : ∀ f, t.firing = some f → s.firing = some f) : OnSchedule c t := by
  constructor
  case traced => exact traced
  case pending =>
    rw [provider, log, still]
    intro h waiting
    obtain ⟨waited, same⟩ := waits h waiting
    obtain ⟨e, armed, scheduled⟩ := schedule.pending h waited
    exact ⟨e, same.trans armed, scheduled.append⟩
  case ready =>
    rw [provider, log, still]
    intro h waiting
    rcases due h waiting with waited | ⟨waited, e, armed, passed⟩
    · exact (schedule.ready h waited).append
    · obtain ⟨e', armed', scheduled⟩ := schedule.pending h waited
      cases Option.some.inj (armed.symm.trans armed')
      rw [Int.max_eq_left passed] at scheduled
      exact scheduled.append
  case firing =>
    rw [log, still]
    intro f firing
    obtain ⟨source, during, found, root⟩ := schedule.firing f (inside f firing)
    exact ⟨source, during, getElem?_append_some found, root⟩
  case grounded => exact log ▸ schedule.grounded.append_plain plain

theorem tick {time : Int} (schedule : OnSchedule c s) (traced : Traced c { s with now := time })
    (later : s.now ≤ time) (prompt : s.Prompt (.tick time)) : OnSchedule c { s with now := time } where
  traced := traced
  pending := by
    intro h waiting
    obtain ⟨e, armed, scheduled⟩ := schedule.pending h waiting
    have bound := prompt.tick_le armed waiting
    refine ⟨e, armed, ?_⟩
    have same : max time e = max s.now e := by omega
    rwa [same]
  ready := by simp [prompt.1]
  firing := by simp [prompt.2.1]
  grounded := schedule.grounded

variable [DecidableEq ι] [CancellationSlots σ (Slot ι) (Callback ι)] {self : ι} {t : Session τ σ ι}

theorem step (schedule : OnSchedule c s) (prompt : s.Prompt event)
    (stepped : s.step self event = some t) : OnSchedule c t := by
  have traced := schedule.traced.step stepped
  cases Session.Stepped.of_step stepped with
  | start alive => exact schedule.start self _
  | fire idle head alive => exact schedule.fire idle head
  | rearm inside wait alive => exact schedule.rearm inside wait
  | tick later => exact schedule.tick traced later prompt
  | expire alive armed due =>
    refine schedule.quiet traced (SteadyTimer.expire s.provider.tim) [] rfl rfl
      (by simp [Session.expire]) (by simp) (by simp) ?_ (fun _ inside => inside)
    intro h waiting
    simp only [ready_expire, List.mem_append] at waiting
    exact waiting.imp_right fun waited => ⟨waited, _, armed, due⟩
  | discard idle head =>
    refine schedule.quiet traced (pop s.provider.tim) [] rfl rfl
      (by simp [Session.discard]) (by simp) (by simp) ?_ (fun _ inside => inside)
    intro h waiting
    exact .inl (ready_pop_aborted head ▸ waiting)
  | dangle idle head dead =>
    refine schedule.quiet traced (pop s.provider.tim) _ rfl rfl rfl (by simp [Entry.cause]) (by simp) ?_
      (fun _ inside => inside)
    intro h waiting
    rw [ready_of_success head]
    exact .inl (List.mem_cons_of_mem _ waiting)
  | rearmDangling inside wait dead =>
    exact schedule.quiet traced s.provider.tim _ rfl rfl rfl (by simp [Entry.cause])
      (by simp +contextual) (by simp +contextual) (by simp)
  | finish inside last =>
    exact schedule.quiet traced s.provider.tim [] rfl rfl (by simp) (by simp)
      (by simp +contextual) (by simp +contextual) (by simp)
  | complete alive =>
    exact schedule.quiet traced (cancel s.provider.tim) [] rfl rfl (by simp [Session.complete])
      (by simp) (by simp) (by simp +contextual) (fun _ inside => inside)
  | forward hooked =>
    exact schedule.quiet traced s.provider.tim _ rfl rfl rfl (by simp [Entry.cause])
      (by simp +contextual) (by simp +contextual) (fun _ inside => inside)
  | ignore free => exact schedule
  | destroy alive =>
    exact schedule.quiet traced (cancel s.provider.tim) [] rfl rfl (by simp [Session.destroy])
      (by simp) (by simp) (by simp +contextual) (fun _ inside => inside)

theorem run (path : Run (Session.step self) Session.Prompt (Session.init c slots now) events t) :
    OnSchedule c (t : Session τ σ ι) :=
  path.invariant (fun schedule prompt stepped => schedule.step prompt stepped) (.init c slots now)

end OnSchedule

section Exact
variable [DecidableEq ι] [CancellationSlots σ (Slot ι) (Callback ι)] {self : ι} {u : Timeouts}
  {slots : σ} {now : Int} {t : Session τ σ ι}

/-- Each emission has an earlier entry of its own: its `arm`, or the emission
of the stage before, with exactly the duration configured for the stage between
the two, or none if that is negative. -/
theorem emissions_on_schedule (fits : u.Fits)
    (path : Run (Session.step self) Session.Prompt (Session.init u.converted slots now) events t) :
    ∃ predecessor : Nat → Nat,
      (∀ i time ct, EmittedAt t.log i time ct →
        predecessor i < i ∧ ∃ e, t.log[predecessor i]? = some e ∧ e.next u.configured = some (ct, time)) ∧
      ∀ i j time ct time' ct', EmittedAt t.log i time ct → EmittedAt t.log j time' ct' →
        predecessor i = predecessor j → i = j := by
  rw [fits.converted] at path
  obtain ⟨predecessor, earlier, injective⟩ := (OnSchedule.run path).grounded.matching
  refine ⟨predecessor, ?_, ?_⟩
  · rintro i time ct ⟨source, during, present⟩
    obtain ⟨before, e, found, next, _⟩ := earlier i _ present rfl
    exact ⟨before, e, found, next⟩
  · rintro i j time ct time' ct' ⟨_, _, first⟩ ⟨_, _, second⟩ same
    exact injective i j _ _ first second rfl rfl same

end Exact

/-- A wait of negative duration is over when it starts, and the emission comes
at that time, not before. -/
theorem emissions_on_schedule_negative : ∃ t : PlainSession,
    Run (Session.step ()) Session.Prompt (PlainSession.init (Timeouts.escalating 5 (-3) 2).converted)
      [.start none, .tick 5000000, .expire, .runHandler, .emitReturn, .expire, .runHandler, .emitReturn,
        .tick 7000000, .expire, .runHandler, .emitReturn] t ∧
    (EmittedAt t.log 3 5000000 typePartial ∧ EmittedAt t.log 5 7000000 typeTerminal) ∧
    ∃ predecessor : Nat → Nat,
      (∀ i time ct, EmittedAt t.log i time ct → predecessor i < i ∧ ∃ e,
        t.log[predecessor i]? = some e ∧
          e.next (Timeouts.escalating 5 (-3) 2).configured = some (ct, time)) ∧
      ∀ i j time ct time' ct', EmittedAt t.log i time ct → EmittedAt t.log j time' ct' →
        predecessor i = predecessor j → i = j :=
  Run.instance_of_execute ⟨_, rfl, ⟨_, _, rfl⟩, _, _, rfl⟩
    fun _ path _ => emissions_on_schedule (by decide) path

end BoostTest.Timeout
