import BoostTest.Timeout.Session

/-! Which operation a wait handler acts on. Cancelling the timer aborts the
pending wait, but a handler that is already queued with a clear error code still
runs, and a `fire_*` function that is inside its emission still starts its wait.
Completions at such a moment are exactly those that break the isolation. -/
namespace BoostTest.Timeout
open Asio SteadyTimer TimeoutProvider Transition

variable {τ σ ι : Type} [SteadyTimer τ (WaitHandler Provenance)]

/-- A `fire_*` body acts only while the operation that its chain of waits
descends from is outstanding. -/
def Entry.Isolated : Entry ι → Prop
  | .emitted _ _ source during => during.map Operation.serial = some source.origin
  | .rearmed origin during => during.map Operation.serial = some origin
  | .dangling _ => False
  | _ => True

instance : DecidablePred (Entry.Isolated (ι := ι)) := fun e => by
  cases e <;> simp only [Entry.Isolated] <;> infer_instance

def Isolated (log : List (Entry ι)) : Prop := ∀ e ∈ log, e.Isolated

instance (log : List (Entry ι)) : Decidable (Isolated log) := inferInstanceAs (Decidable (∀ e ∈ log, _))

theorem Isolated.snoc {log : List (Entry ι)} (isolated : Isolated log) (last : e.Isolated) :
    Isolated (log ++ [e]) := by
  rw [Isolated, List.forall_mem_append, List.forall_mem_singleton]
  exact ⟨isolated, last⟩

/-- No wait handler is queued with a clear error code, and no `fire_*` function
has a wait still to start. -/
def Session.Settled (s : Session τ σ ι) : Prop :=
  ready s.provider.tim = [] ∧ s.firing.bind (·.body.rearm) = none

instance (s : Session τ σ ι) : Decidable s.Settled := inferInstanceAs (Decidable (_ ∧ _))

/-- Operations go one at a time and complete in settled states only. -/
def Session.CompletesSettled (s : Session τ σ ι) (event : Event ι) : Prop :=
  s.OneAtATime event ∧ (event = .complete → s.Settled)

instance [DecidableEq ι] (s : Session τ σ ι) (event : Event ι) :
    Decidable (s.CompletesSettled event) := inferInstanceAs (Decidable (_ ∧ _))

/-- No further operation starts. -/
def Session.WindsDown (s : Session τ σ ι) (event : Event ι) : Prop :=
  s.OneAtATime event ∧ ∀ slot, event ≠ .start slot

/-- Whatever may still emit or start a wait belongs to the outstanding operation. -/
structure Owned (s : Session τ σ ι) : Prop where
  isolated : Isolated s.log
  pending : ∀ h ∈ pending s.provider.tim, s.outstanding.map Operation.serial = some h.tag.origin
  ready : ∀ h ∈ ready s.provider.tim, s.outstanding.map Operation.serial = some h.tag.origin
  firing : ∀ f, s.firing = some f → f.body.rearm ≠ none →
    s.outstanding.map Operation.serial = some f.origin
  alive : s.alive = false → s.outstanding = none

namespace Owned
variable {s : Session τ σ ι}

theorem init (c : Construction) (slots : σ) (now : Int) :
    Owned (Session.init c slots now : Session τ σ ι) where
  isolated := by simp [Isolated, Session.init]
  pending := by simp [Session.init]
  ready := by simp [Session.init]
  firing := by simp [Session.init]
  alive := by simp [Session.init]

/-- Without an outstanding operation nothing is left that could act. -/
theorem settled (owned : Owned s) (free : s.outstanding = none) : s.Settled := by
  constructor
  · apply List.eq_nil_iff_forall_not_mem.mpr
    intro h waiting
    simpa [free] using owned.ready h waiting
  · cases inside : s.firing with
    | none => rfl
    | some f =>
      cases wait : f.body.rearm with
      | none => exact wait
      | some pair => simpa [free] using owned.firing f inside (by simp [wait])

variable [DecidableEq ι] [CancellationSlots σ (Slot ι) (Callback ι)] {self : ι} {t : Session τ σ ι}

theorem step (owned : Owned s) (admitted : s.CompletesSettled event)
    (stepped : s.step self event = some t) : Owned t := by
  cases Session.Stepped.of_step stepped with
  | start alive =>
    obtain ⟨unqueued, finished⟩ := owned.settled admitted.1
    constructor
    case isolated => exact owned.isolated.snoc trivial
    case pending =>
      intro h waiting
      rw [Session.start_pending, List.mem_singleton] at waiting
      subst waiting
      rfl
    case ready =>
      intro h waiting
      rw [Session.start_ready, unqueued] at waiting
      cases waiting
    case firing =>
      intro f inside wait
      exact absurd (by simpa [show s.firing = some f from inside] using finished) wait
    case alive =>
      intro dead
      exact absurd (dead.symm.trans alive) (by decide)
  | expire alive armed due =>
    refine ⟨owned.isolated, ?_, ?_, owned.firing, owned.alive⟩
    · simp [Session.expire]
    · intro h waiting
      simp only [Session.expire, ready_expire, List.mem_append] at waiting
      rcases waiting with waiting | waiting
      · exact owned.ready h waiting
      · exact owned.pending h waiting
  | discard idle head =>
    refine ⟨owned.isolated, ?_, ?_, owned.firing, owned.alive⟩
    · simpa [Session.discard] using owned.pending
    · simpa [Session.discard, ready_pop_aborted head] using owned.ready
  | @fire h rest idle head alive =>
    have current := owned.ready h (ready_of_success head ▸ List.mem_cons_self)
    constructor
    case isolated => exact owned.isolated.snoc current
    case pending => simpa [Session.fire, beginFire] using owned.pending
    case ready =>
      intro h' waiting
      exact owned.ready h' (ready_of_success head ▸ List.mem_cons_of_mem _ waiting)
    case firing =>
      intro f inside _
      cases Option.some.inj inside
      exact current
    case alive => exact owned.alive
  | @dangle h rest idle head dead =>
    have current := owned.ready h (ready_of_success head ▸ List.mem_cons_self)
    simp [owned.alive dead] at current
  | @rearm f duration lambda inside wait alive =>
    have current := owned.firing f inside (by simp [wait])
    constructor
    case isolated => exact owned.isolated.snoc current
    case pending =>
      intro h waiting
      rw [s.rearm_pending wait, List.mem_singleton] at waiting
      subst waiting
      exact current
    case ready =>
      rw [s.rearm_ready wait]
      exact owned.ready
    case firing => simp [Session.rearm]
    case alive => exact owned.alive
  | @rearmDangling f duration lambda inside wait dead =>
    have current := owned.firing f inside (by simp [wait])
    simp [owned.alive dead] at current
  | finish inside last =>
    exact ⟨owned.isolated, owned.pending, owned.ready, by simp, owned.alive⟩
  | complete alive =>
    obtain ⟨unqueued, finished⟩ := admitted.2 rfl
    constructor
    case isolated => exact owned.isolated
    case pending => simp [Session.complete, binderCancel]
    case ready => simp [Session.complete, binderCancel, unqueued]
    case firing =>
      intro f inside wait
      exact absurd (by simpa [show s.firing = some f from inside] using finished) wait
    case alive => exact fun _ => rfl
  | forward hooked =>
    exact ⟨owned.isolated.snoc trivial, owned.pending, owned.ready, owned.firing, owned.alive⟩
  | ignore free => exact owned
  | tick later => exact ⟨owned.isolated, owned.pending, owned.ready, owned.firing, owned.alive⟩
  | destroy alive =>
    refine ⟨owned.isolated, ?_, ?_, owned.firing, fun _ => admitted.1⟩
    · simp [Session.destroy, TimeoutProvider.destroy]
    · simpa [Session.destroy, TimeoutProvider.destroy] using owned.ready

end Owned

section Isolation
variable [DecidableEq ι] [CancellationSlots σ (Slot ι) (Callback ι)] {self : ι} {c : Construction}
  {slots : σ} {now : Int} {s t : Session τ σ ι}

/-- If every completion comes in a settled state, every emission and every new
wait belongs to the operation outstanding at that moment, and no body of a
`fire_*` function runs on after the provider is gone. -/
theorem timer_isolation
    (path : Run (Session.step self) Session.CompletesSettled (Session.init c slots now) events t) :
    Isolated t.log :=
  (path.invariant (fun owned admitted stepped => owned.step admitted stepped)
    (Owned.init c slots now)).isolated

/-- With no operation outstanding, the first handler that runs with a clear
error code breaks the isolation, however many aborted ones come before it. -/
theorem stale_handler_breaks (self : ι) (s : Session τ σ ι) (idle : s.firing = none) (free : s.outstanding = none)
    (due : ready s.provider.tim ≠ []) :
    ∃ events t, Run (Session.step self) Session.WindsDown s events t ∧ ¬ Isolated t.log := by
  induction queue : queued s.provider.tim generalizing s with
  | nil => simp [ready, queue] at due
  | cons head rest ih =>
    obtain ⟨h, status⟩ := head
    cases status with
    | operationAborted =>
      have next : s.step self .runHandler = some s.discard :=
        Session.stepped_iff.mpr (.discard idle queue)
      obtain ⟨events, t, path, broken⟩ := ih s.discard idle free
        (by simpa [Session.discard, ready_pop_aborted queue] using due)
        (by simp [Session.discard, queue])
      exact ⟨.runHandler :: events, t, .next ⟨trivial, by simp⟩ next path, broken⟩
    | success =>
      cases alive : s.alive with
      | true =>
        refine ⟨[.runHandler], s.fire h, .single ⟨trivial, by simp⟩
          (Session.stepped_iff.mpr (.fire idle queue alive)), ?_⟩
        intro isolated
        have last := isolated _ (List.mem_append_right _ List.mem_cons_self)
        simp [Entry.Isolated, free] at last
      | false =>
        refine ⟨[.runHandler], s.dangle h, .single ⟨trivial, by simp⟩
          (Session.stepped_iff.mpr (.dangle idle queue alive)), ?_⟩
        intro isolated
        exact isolated _ (List.mem_append_right _ List.mem_cons_self)

/-- After a completion in an unsettled state, what is left of the operation can
break the isolation, though no further one starts. -/
theorem unsettled_completion_breaks (alive : s.alive = true) (unsettled : ¬ s.Settled) :
    ∃ events t, Run (Session.step self) Session.WindsDown s.complete events t ∧ ¬ Isolated t.log := by
  have free : s.complete.outstanding = none := rfl
  cases inside : s.firing with
  | none =>
    have due : ready s.provider.tim ≠ [] := fun unqueued => unsettled ⟨unqueued, by simp [inside]⟩
    exact stale_handler_breaks self _ inside free (by simpa [Session.complete, binderCancel] using due)
  | some f =>
    cases wait : f.body.rearm with
    | none =>
      have due : ready s.provider.tim ≠ [] :=
        fun unqueued => unsettled ⟨unqueued, by simp [inside, wait]⟩
      have next : s.complete.step self .emitReturn = some { s.complete with firing := none } :=
        Session.stepped_iff.mpr (.finish inside wait)
      obtain ⟨events, t, path, broken⟩ := stale_handler_breaks self
        { s.complete with firing := none } rfl free
        (by simpa [Session.complete, binderCancel] using due)
      exact ⟨.emitReturn :: events, t, .next ⟨trivial, by simp⟩ next path, broken⟩
    | some pair =>
      refine ⟨[.emitReturn], s.complete.rearm f, .single ⟨trivial, by simp⟩
        (Session.stepped_iff.mpr (.rearm inside wait alive)), ?_⟩
      intro isolated
      have last := isolated _ (List.mem_append_right _ List.mem_cons_self)
      simp [Entry.Isolated, free] at last

end Isolation

/-- A run of two operations in settled states, with one emission for each. -/
theorem timer_isolation_two_operations : ∃ t : PlainSession,
    Run (Session.step ()) Session.CompletesSettled (PlainSession.init (.single 3))
      [.start none, .tick 3, .expire, .runHandler, .emitReturn, .complete,
        .start none, .tick 6, .expire, .runHandler, .emitReturn, .complete] t ∧
    t.log.length = 4 ∧ Isolated t.log :=
  Run.instance_of_execute ⟨_, rfl, rfl⟩ fun _ path _ => timer_isolation path

/-- The first operation completes while its expired wait is queued; the handler
then cancels the second operation, which has had no timeout of its own. -/
theorem stale_handler_reaches_next_operation :
    ¬ ∀ (events : List (Event Unit)) (t : PlainSession),
      Run (Session.step ()) Session.OneAtATime (PlainSession.init (.single 3)) events t →
      Isolated t.log := by
  intro isolated
  obtain ⟨t, path, broken⟩ : ∃ t, Run (Session.step ()) Session.OneAtATime
      (PlainSession.init (.single 3))
      [.start none, .tick 3, .expire, .complete, .start none, .runHandler] t ∧ ¬ Isolated t.log :=
    Run.exists_of_execute ⟨_, rfl, by decide⟩
  exact broken (isolated _ t path)

end BoostTest.Timeout
