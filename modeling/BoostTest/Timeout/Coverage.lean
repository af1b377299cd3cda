import BoostTest.Timeout.Escalation

/-! An outstanding operation always has a timeout ahead of it or behind it, for
either constructor and every interleaving of operations one at a time. A wait
handler left over from an earlier operation may abort the wait of the current
one, but it never does so without starting or finishing an escalation. -/
namespace BoostTest.Timeout
open Asio Asio.CancellationType SteadyTimer TimeoutProvider Transition Trace

variable {τ σ ι : Type} [SteadyTimer τ (WaitHandler Provenance)]

/-- The last stage was emitted after the `arm` at position `serial`. -/
def FinishedSince (c : Construction) (log : List (Entry ι)) (serial : Nat) : Prop :=
  ∃ i time, serial < i ∧ EmittedAt log i time c.lastStage

/-- A timeout lies ahead of the operation, or all of it lies behind. -/
def Covered (c : Construction) (s : Session τ σ ι) (op : Operation ι) : Prop :=
  (pending s.provider.tim).length = 1 ∨ ready s.provider.tim ≠ [] ∨ FinishedSince c s.log op.serial

theorem FinishedSince.append {c : Construction} {log more : List (Entry ι)}
    (finished : FinishedSince c log serial) : FinishedSince c (log ++ more) serial := by
  obtain ⟨i, time, after, source, during, present⟩ := finished
  exact ⟨i, time, after, source, during, getElem?_append_some present⟩

/-- With one duration only the lambda of `arm` is ever waiting. -/
theorem Traced.single_lambda {c : Construction} {s : Session τ σ ι} (traced : Traced c s)
    (single : c.emitAll = true) (allowed : Allowed c s.log (c.stage lambda) k time) : lambda = .arm := by
  obtain ⟨e, found, allows⟩ := allowed
  cases e with
  | armed armedAt slot =>
    have first : c.stage lambda = c.firstStage := allows.1
    rw [Construction.firstStage, if_pos single] at first
    cases lambda with
    | arm => rfl
    | fireTotal => exact absurd first (by decide : typePartial ≠ typeAll)
    | firePartial => exact absurd first (by decide : typeTerminal ≠ typeAll)
  | emitted begun previous source during =>
    have all := traced.stages k begun previous ⟨source, during, found⟩
    rw [if_pos single] at all
    subst all
    rcases allows with ⟨was, _⟩ | ⟨was, _⟩ <;> exact absurd was (by decide)
  | _ => cases allows

/-- A handler that starts no wait emits the last stage. -/
theorem Traced.last_stage {c : Construction} {s : Session τ σ ι} (traced : Traced c s)
    (head : queued s.provider.tim = (h, .success) :: rest)
    (last : (s.provider.onWait h.body).rearm = none) :
    (s.provider.onWait h.body).emits = c.lastStage := by
  have allowed := traced.ready h (ready_of_success head ▸ List.mem_cons_self)
  rw [onWait_emits traced.configured, Construction.lastStage]
  cases single : c.emitAll with
  | true =>
    rw [traced.single_lambda single allowed, if_pos rfl, Construction.stage,
      Construction.firstStage, if_pos single]
  | false =>
    rw [if_neg (by decide)]
    have escalating := traced.configured.emitAll.trans single
    cases lambda : h.body with
    | arm => simp [lambda, onWait, escalating, fireTotal] at last
    | fireTotal => simp [lambda, onWait, firePartial] at last
    | firePartial => rfl

/-- The invariant. Inside a `fire_*` function that will start a wait nothing is
claimed; any other state covers the outstanding operation. -/
structure Watched (c : Construction) (s : Session τ σ ι) : Prop where
  traced : Traced c s
  dead : s.alive = false → s.outstanding = none
  armed : ∀ op, s.outstanding = some op → op.serial < s.log.length
  covered : (∀ f, s.firing = some f → f.body.rearm = none) →
    ∀ op, s.outstanding = some op → Covered c s op

namespace Watched
variable {c : Construction} {s : Session τ σ ι}

theorem init (c : Construction) (slots : σ) (now : Int) :
    Watched c (Session.init c slots now : Session τ σ ι) where
  traced := .init c slots now
  dead := by simp [Session.init]
  armed := by simp [Session.init]
  covered := by simp [Session.init]

/-- Steps after which the outstanding operation is as well covered as before. -/
theorem keep {t : Session τ σ ι} (watched : Watched c s) (more : List (Entry ι)) (traced : Traced c t)
    (alive : t.alive = s.alive) (outstanding : t.outstanding = s.outstanding)
    (log : t.log = s.log ++ more)
    (inside : (∀ f, t.firing = some f → f.body.rearm = none) → ∀ f, s.firing = some f → f.body.rearm = none)
    (covered : ∀ op, s.outstanding = some op → Covered c s op → Covered c t op) : Watched c t where
  traced := traced
  dead := by
    rw [alive, outstanding]
    exact watched.dead
  armed := by
    rw [outstanding, log, List.length_append]
    intro op current
    have before := watched.armed op current
    omega
  covered := by
    rw [outstanding]
    intro last op current
    exact covered op current (watched.covered (inside last) op current)

theorem idle {t : Session τ σ ι} (traced : Traced c t) (none : t.outstanding = none) : Watched c t where
  traced := traced
  dead := fun _ => none
  armed := by simp [none]
  covered := by simp [none]

theorem fire (watched : Watched c s) (idle : s.firing = none) (alive : s.alive = true)
    (head : queued s.provider.tim = (h, .success) :: rest) : Watched c (s.fire h) where
  traced := watched.traced.fire idle head
  dead := by
    intro dead
    exact absurd (dead.symm.trans alive) (by decide)
  armed := by
    intro op current
    have before := watched.armed op current
    simp only [Session.fire, List.length_append, List.length_singleton]
    omega
  covered := by
    intro last op current
    have stage := watched.traced.last_stage head (last _ rfl)
    refine .inr (.inr ⟨s.log.length, s.now, watched.armed op current, h.tag, s.outstanding, ?_⟩)
    simp [Session.fire, stage]

variable [DecidableEq ι] [CancellationSlots σ (Slot ι) (Callback ι)] {self : ι} {t : Session τ σ ι}

theorem step (watched : Watched c s) (admitted : s.OneAtATime event)
    (stepped : s.step self event = some t) : Watched c t := by
  have traced := watched.traced.step stepped
  cases Session.Stepped.of_step stepped with
  | start alive =>
    constructor
    case traced => exact traced
    case dead =>
      intro dead
      exact absurd (dead.symm.trans alive) (by decide)
    case armed =>
      rintro op current
      cases Option.some.inj current
      simp [Session.start]
    case covered =>
      intro _ op _
      left
      simp [Session.start_pending]
  | expire alive armed due =>
    refine watched.keep [] traced rfl rfl (by simp [Session.expire]) id ?_
    rintro op - (waiting | due | finished)
    · right
      left
      simp only [Session.expire, ready_expire]
      intro none
      rw [(List.append_eq_nil_iff.mp none).2] at waiting
      contradiction
    · right
      left
      simp only [Session.expire, ready_expire]
      exact fun none => due (List.append_eq_nil_iff.mp none).1
    · exact .inr (.inr finished)
  | discard idle head =>
    refine watched.keep [] traced rfl rfl (by simp [Session.discard]) id ?_
    rintro op - covered
    simpa only [Covered, Session.discard, pending_pop, ready_pop_aborted head] using covered
  | fire idle head alive => exact watched.fire idle alive head
  | dangle idle head dead => exact Watched.idle traced (watched.dead dead)
  | rearm inside wait alive =>
    constructor
    case traced => exact traced
    case dead => exact watched.dead
    case armed =>
      intro op current
      have before := watched.armed op current
      simp only [Session.rearm, List.length_append, List.length_singleton]
      omega
    case covered =>
      intro _ op _
      left
      simp [s.rearm_pending wait]
  | rearmDangling inside wait dead => exact Watched.idle traced (watched.dead dead)
  | @finish f inside last =>
    refine watched.keep [] traced rfl rfl (by simp) ?_ (fun _ _ covered => covered)
    intro _ g firing
    cases Option.some.inj (inside.symm.trans firing)
    exact last
  | complete alive => exact Watched.idle traced rfl
  | forward hooked =>
    refine watched.keep _ traced rfl rfl rfl id ?_
    rintro op - (waiting | due | finished)
    · exact .inl waiting
    · exact .inr (.inl due)
    · exact .inr (.inr finished.append)
  | ignore free => exact watched
  | tick later => exact watched.keep [] traced rfl rfl (by simp) id (fun _ _ covered => covered)
  | destroy alive => exact Watched.idle traced admitted

theorem run (path : Run (Session.step self) Session.OneAtATime (Session.init c slots now) events t) :
    Watched c (t : Session τ σ ι) :=
  path.invariant (fun watched admitted stepped => watched.step admitted stepped) (.init c slots now)

end Watched

section NeverLost
variable [DecidableEq ι] [CancellationSlots σ (Slot ι) (Callback ι)] {self : ι} {c : Construction}
  {slots : σ} {now : Int} {t : Session τ σ ι}

/-- Between handler executions an outstanding operation has exactly one wait
pending, or a wait of the timer already due, or the last stage was emitted
since its `arm`. -/
theorem timeout_never_lost
    (path : Run (Session.step self) Session.OneAtATime (Session.init c slots now) events t)
    (between : t.firing = none) (busy : t.outstanding = some op) :
    (pending t.provider.tim).length = 1 ∨ (∃ h, (h, .success) ∈ queued t.provider.tim) ∨
      ∃ i time, op.serial < i ∧ EmittedAt t.log i time c.lastStage := by
  rcases (Watched.run path).covered (by simp [between]) op busy with waiting | due | finished
  · exact .inl waiting
  · obtain ⟨h, waiting⟩ := List.exists_mem_of_ne_nil _ due
    exact .inr (.inl ⟨h, mem_ready.mp waiting⟩)
  · exact .inr (.inr finished)

end NeverLost

/-- The wait of the first operation is due when it completes, and its handler
replaces the wait of the second one. -/
theorem timeout_never_lost_stale_handler : ∃ t : PlainSession,
    Run (Session.step ()) Session.OneAtATime (PlainSession.init (.escalating 5 3 2))
      [.start none, .tick 5, .expire, .complete, .start none, .runHandler, .emitReturn] t ∧
    (t.firing = none ∧ t.outstanding = some ⟨1, none⟩) ∧
    ((pending t.provider.tim).length = 1 ∨ (∃ h, (h, .success) ∈ queued t.provider.tim) ∨
      ∃ i time, 1 < i ∧ EmittedAt t.log i time (Construction.escalating 5 3 2).lastStage) :=
  Run.instance_of_execute ⟨_, rfl, rfl, rfl⟩ fun _ path reached =>
    timeout_never_lost path reached.1 reached.2

end BoostTest.Timeout
