import BoostTest.Timeout.Punctual

/-! No operation outlives its timeouts: where one operation goes at a time and
the platform is prompt, the last stage of the escalation is emitted by the end
of all three durations, counted from the operation's own `arm`, even where a
handler left over from an earlier operation takes the timer over. -/
namespace BoostTest.Timeout
open Asio Asio.CancellationType SteadyTimer TimeoutProvider Transition Trace

variable {τ σ ι : Type} [SteadyTimer τ (WaitHandler Provenance)]

namespace Construction

/-- What the documentation of the constructors takes for granted. -/
def Nonnegative (c : Construction) : Prop := 0 ≤ c.ttTotal ∧ 0 ≤ c.ttPartial ∧ 0 ≤ c.ttTerminal

instance (c : Construction) : Decidable c.Nonnegative :=
  inferInstanceAs (Decidable (0 ≤ c.ttTotal ∧ 0 ≤ c.ttPartial ∧ 0 ≤ c.ttTerminal))

/-- How long the stages after this wait take, at most. -/
def remaining (c : Construction) : WaitBody → Int
  | .arm => c.ttPartial + c.ttTerminal
  | .fireTotal => c.ttTerminal
  | .firePartial => 0

/-- From `arm` to the end of the last stage, at most. -/
def limit (c : Construction) : Int := c.ttTotal + c.ttPartial + c.ttTerminal

/-- From `arm` to the emission of this type, where the platform is prompt. -/
def offset (c : Construction) (ct : CancellationType) : Int :=
  if ct = c.firstStage then c.ttTotal
  else if ct = typePartial then c.ttTotal + c.ttPartial
  else c.limit

theorem Nonnegative.remaining {c : Construction} (nonnegative : c.Nonnegative) (lambda : WaitBody) :
    0 ≤ c.remaining lambda := by
  obtain ⟨total, partially, terminal⟩ := nonnegative
  cases lambda <;> simp only [Construction.remaining] <;> omega

theorem Nonnegative.remaining_le {c : Construction} (nonnegative : c.Nonnegative) (lambda : WaitBody) :
    c.remaining lambda ≤ c.limit := by
  obtain ⟨total, partially, terminal⟩ := nonnegative
  cases lambda <;> simp only [Construction.remaining, limit] <;> omega

end Construction

section Rearm
omit [SteadyTimer τ (WaitHandler Provenance)]
variable {c : Construction} {p : TimeoutProvider τ ι}

/-- The wait that a stage starts and the stages after it take no longer than
what remained after the wait for this stage. -/
theorem onWait_remaining (configured : c.Configures p)
    (wait : (p.onWait lambda).rearm = some (duration, following)) :
    duration + c.remaining following = c.remaining lambda := by
  rcases onWait_rearm wait with ⟨rfl, _, rfl, rfl⟩ | ⟨rfl, rfl, rfl⟩
  · simp only [Construction.remaining, configured.ttPartial]
  · simp only [Construction.remaining, configured.ttTerminal, Int.add_zero]

theorem onWait_duration (configured : c.Configures p) (nonnegative : c.Nonnegative)
    (wait : (p.onWait lambda).rearm = some (duration, following)) : 0 ≤ duration := by
  obtain ⟨total, partially, terminal⟩ := nonnegative
  rcases onWait_rearm wait with ⟨_, _, rfl, _⟩ | ⟨_, rfl, _⟩
  · exact configured.ttPartial ▸ partially
  · exact configured.ttTerminal ▸ terminal

end Rearm

/-- Where an emission comes from: the `arm` that started its wait, or the stage
before. -/
theorem Entry.next_cases {c : Construction} {e : Entry ι} (next : e.next c = some (ct, time)) :
    (∃ armedAt slot, e = .armed armedAt slot ∧ ct = c.firstStage ∧
      time = max armedAt (armedAt + c.ttTotal)) ∨
    (∃ begun source during, e = .emitted begun typeTotal source during ∧ ct = typePartial ∧
      time = max begun (begun + c.ttPartial)) ∨
    ∃ begun source during, e = .emitted begun typePartial source during ∧ ct = typeTerminal ∧
      time = max begun (begun + c.ttTerminal) := by
  cases e with
  | armed armedAt slot =>
    simp only [Entry.next, Option.some.injEq, Prod.mk.injEq] at next
    exact .inl ⟨armedAt, slot, rfl, next.1.symm, next.2.symm⟩
  | emitted begun previous source during =>
    simp only [Entry.next] at next
    split at next
    · rename_i total
      simp only [Option.some.injEq, Prod.mk.injEq] at next
      exact .inr (.inl ⟨begun, source, during, by rw [total], next.1.symm, next.2.symm⟩)
    · split at next
      · rename_i partially
        simp only [Option.some.injEq, Prod.mk.injEq] at next
        exact .inr (.inr ⟨begun, source, during, by rw [partially], next.1.symm, next.2.symm⟩)
      · contradiction
  | _ => simp [Entry.next] at next

/-- Two stages follow each other only where there are three durations. -/
theorem Traced.escalating {c : Construction} {s : Session τ σ ι} (traced : Traced c s)
    (emitted : EmittedAt s.log i time ct) (stage : ct ≠ typeAll) : c.emitAll = false := by
  cases single : c.emitAll with
  | false => rfl
  | true =>
    have all := traced.stages i time ct emitted
    rw [if_pos single] at all
    exact absurd all stage

/-- By strong induction on the position: the stage before descends from the
same `arm`, and its own offset is known. -/
theorem OnSchedule.offset {c : Construction} {s : Session τ σ ι} (schedule : OnSchedule c s)
    (nonnegative : c.Nonnegative) (i : Nat) : ∀ time ct source during,
    s.log[i]? = some (.emitted time ct source during) →
      ∃ slot, s.log[source.origin]? = some (.armed (time - c.offset ct) slot) := by
  obtain ⟨total, partially, terminal⟩ := nonnegative
  induction i using Nat.strongRecOn with
  | ind i ih =>
    intro time ct source during present
    obtain ⟨before, e, found, next, root⟩ := schedule.grounded.earlier i _ _ present rfl
    have notPartial : typePartial ≠ typeTotal := by decide
    have notTotal : typeTerminal ≠ typeTotal := by decide
    have notSecond : typeTerminal ≠ typePartial := by decide
    rcases Entry.next_cases next with ⟨armedAt, slot, rfl, rfl, rfl⟩ |
      ⟨begun, source', during', rfl, rfl, rfl⟩ | ⟨begun, source', during', rfl, rfl, rfl⟩
    · have origin : source.cause = source.origin := root
      have offset : c.offset c.firstStage = c.ttTotal := if_pos rfl
      refine ⟨slot, ?_⟩
      rw [← origin, found, offset]
      congr 2
      omega
    · have escalating := schedule.traced.escalating ⟨source', during', found⟩ (by decide)
      obtain ⟨slot, armed⟩ := ih source.cause before _ _ _ _ found
      have origin : source'.origin = source.origin := root
      have first : c.firstStage = typeTotal := by simp [Construction.firstStage, escalating]
      refine ⟨slot, ?_⟩
      rw [← origin, armed]
      simp only [Construction.offset, first, if_true, if_neg notPartial, Option.some.injEq,
        Entry.armed.injEq, and_true]
      omega
    · have escalating := schedule.traced.escalating ⟨source', during', found⟩ (by decide)
      obtain ⟨slot, armed⟩ := ih source.cause before _ _ _ _ found
      have origin : source'.origin = source.origin := root
      have first : c.firstStage = typeTotal := by simp [Construction.firstStage, escalating]
      refine ⟨slot, ?_⟩
      rw [← origin, armed]
      simp only [Construction.offset, first, if_true, if_neg notPartial, if_neg notTotal,
        if_neg notSecond, Construction.limit, Option.some.injEq, Entry.armed.injEq, and_true]
      omega

/-- Whatever the timer still does ends by `bound`, and so did what it has
emitted after position `serial`. -/
structure EndsBy (c : Construction) (s : Session τ σ ι) (serial : Nat) (bound : Int) : Prop where
  pending : ∀ h ∈ pending s.provider.tim, ∃ e, expiry s.provider.tim = some e ∧
    s.now ≤ e ∧ e + c.remaining h.body ≤ bound
  ready : ∀ h ∈ ready s.provider.tim, s.now + c.remaining h.body ≤ bound
  firing : ∀ f, s.firing = some f → ∀ duration following, f.body.rearm = some (duration, following) →
    s.now + (duration + c.remaining following) ≤ bound
  emitted : ∀ i time ct, serial < i → EmittedAt s.log i time ct → time ≤ bound

namespace EndsBy
variable {c : Construction} {s : Session τ σ ι}

/-- Steps at which no time passes, nothing is emitted and no wait is started. -/
theorem quiet {t : Session τ σ ι} (ends : EndsBy c s serial bound) (tim : τ) (more : List (Entry ι))
    (provider : t.provider = { s.provider with tim := tim })
    (still : t.now = s.now) (log : t.log = s.log ++ more) (plain : ∀ e ∈ more, e.cause = none)
    (waits : ∀ h ∈ SteadyTimer.pending tim, h ∈ SteadyTimer.pending s.provider.tim ∧
      expiry tim = expiry s.provider.tim)
    (due : ∀ h ∈ SteadyTimer.ready tim, h ∈ SteadyTimer.ready s.provider.tim ∨
      h ∈ SteadyTimer.pending s.provider.tim)
    (inside : ∀ f, t.firing = some f → s.firing = some f) : EndsBy c t serial bound := by
  constructor
  case pending =>
    rw [provider, still]
    intro h waiting
    obtain ⟨waited, same⟩ := waits h waiting
    obtain ⟨e, armed, within⟩ := ends.pending h waited
    exact ⟨e, same.trans armed, within⟩
  case ready =>
    rw [provider, still]
    intro h waiting
    rcases due h waiting with waited | waited
    · exact ends.ready h waited
    · obtain ⟨e, _, passed, within⟩ := ends.pending h waited
      omega
  case firing =>
    rw [still]
    exact fun f firing => ends.firing f (inside f firing)
  case emitted =>
    rintro i time ct after ⟨source, during, present⟩
    rw [log] at present
    rcases Nat.lt_or_ge i s.log.length with old | new
    · rw [List.getElem?_append_left old] at present
      exact ends.emitted i time ct after ⟨source, during, present⟩
    · rw [List.getElem?_append_right new] at present
      have none := plain _ (List.mem_of_getElem? present)
      simp [Entry.cause] at none

theorem fire (ends : EndsBy c s serial bound) (nonnegative : c.Nonnegative)
    (configured : c.Configures s.provider)
    (head : queued s.provider.tim = (h, .success) :: rest) : EndsBy c (s.fire h) serial bound where
  pending := by
    intro h' waiting
    simp only [Session.fire, beginFire, pending_pop] at waiting
    simpa only [Session.fire, beginFire, expiry_pop] using ends.pending h' waiting
  ready := by
    intro h' waiting
    apply ends.ready h'
    rw [ready_of_success head]
    exact List.mem_cons_of_mem _ waiting
  firing := by
    intro f inside duration following wait
    cases Option.some.inj inside
    rw [onWait_remaining configured wait]
    exact ends.ready h (ready_of_success head ▸ List.mem_cons_self)
  emitted := by
    rintro i time ct after ⟨source, during, present⟩
    rcases getElem?_snoc present with present | ⟨_, same⟩
    · exact ends.emitted i time ct after ⟨source, during, present⟩
    · cases same
      have within := ends.ready h (ready_of_success head ▸ List.mem_cons_self)
      have rest := nonnegative.remaining h.body
      omega

theorem rearm (ends : EndsBy c s serial bound) (inside : s.firing = some f)
    (wait : f.body.rearm = some (duration, following)) (nonnegative : 0 ≤ duration) :
    EndsBy c (s.rearm f) serial bound where
  pending := by
    rw [s.rearm_provider wait]
    intro h waiting
    simp only [pending_asyncWait, pending_expiresAfter, List.nil_append, List.mem_singleton] at waiting
    subst waiting
    have within := ends.firing f inside _ _ wait
    refine ⟨s.now + duration, by simp only [expiry_asyncWait, expiry_expiresAfter], ?_, ?_⟩
    · exact Int.le_add_of_nonneg_right nonnegative
    · simpa only [Int.add_assoc] using within
  ready := by
    rw [s.rearm_ready wait]
    exact ends.ready
  firing := by simp [Session.rearm]
  emitted := by
    rintro i time ct after ⟨source, during, present⟩
    rcases getElem?_snoc present with present | ⟨_, same⟩
    · exact ends.emitted i time ct after ⟨source, during, present⟩
    · cases same

/-- Whatever runs when an operation starts is over before its own limit. -/
theorem start [CancellationSlots σ (Slot ι) (Callback ι)] (traced : Traced c s)
    (nonnegative : c.Nonnegative) (self : ι) (slot : Option (Slot ι)) :
    EndsBy c (s.start self slot) s.log.length (s.now + c.limit) where
  pending := by
    rw [s.start_pending, s.start_provider]
    intro h waiting
    cases List.mem_singleton.mp waiting
    refine ⟨s.now + s.provider.ttTotal, by simp only [expiry_asyncWait, expiry_expiresAfter], ?_, ?_⟩
    · rw [traced.configured.ttTotal]
      exact Int.le_add_of_nonneg_right nonnegative.1
    · simp only [traced.configured.ttTotal, Construction.remaining, Construction.limit]
      omega
  ready := fun h _ => Int.add_le_add_left (nonnegative.remaining_le h.body) s.now
  firing := by
    intro f inside duration following wait
    obtain ⟨⟨lambda, stage⟩, _⟩ := traced.firing f inside
    rw [stage] at wait
    rw [onWait_remaining traced.configured wait]
    exact Int.add_le_add_left (nonnegative.remaining_le lambda) s.now
  emitted := by
    rintro i time ct after ⟨source, during, present⟩
    have bound := (List.getElem?_eq_some_iff.mp present).1
    simp only [Session.start, List.length_append, List.length_singleton] at bound
    omega

theorem tick {time : Int} (ends : EndsBy c s serial bound) (prompt : s.Prompt (.tick time)) :
    EndsBy c { s with now := time } serial bound where
  pending := by
    intro h waiting
    obtain ⟨e, armed, _, within⟩ := ends.pending h waiting
    exact ⟨e, armed, prompt.tick_le armed waiting, within⟩
  ready := by simp [prompt.1]
  firing := by simp [prompt.2.1]
  emitted := ends.emitted

end EndsBy

namespace Session

/-- The callers and the platform behave: one operation at a time, and prompt. -/
def Orderly (s : Session τ σ ι) (event : Event ι) : Prop := s.OneAtATime event ∧ s.Prompt event

instance [DecidableEq ι] (s : Session τ σ ι) (event : Event ι) : Decidable (s.Orderly event) :=
  inferInstanceAs (Decidable (s.OneAtATime event ∧ s.Prompt event))

end Session

/-- The invariant: the timeouts of the outstanding operation end within the
limit counted from its `arm`. -/
structure Limited (c : Construction) (s : Session τ σ ι) : Prop where
  watched : Watched c s
  ends : ∀ op, s.outstanding = some op → ∃ armedAt slot,
    s.log[op.serial]? = some (.armed armedAt slot) ∧ EndsBy c s op.serial (armedAt + c.limit)

namespace Limited
variable {c : Construction} {s : Session τ σ ι}

theorem init (c : Construction) (slots : σ) (now : Int) :
    Limited c (Session.init c slots now : Session τ σ ι) where
  watched := .init c slots now
  ends := by simp [Session.init]

theorem idle {t : Session τ σ ι} (watched : Watched c t) (none : t.outstanding = none) : Limited c t where
  watched := watched
  ends := by simp [none]

/-- Steps that keep the outstanding operation and what bounds it. -/
theorem keep {t : Session τ σ ι} (limited : Limited c s) (more : List (Entry ι)) (watched : Watched c t)
    (outstanding : t.outstanding = s.outstanding) (log : t.log = s.log ++ more)
    (ends : ∀ serial bound, EndsBy c s serial bound → EndsBy c t serial bound) : Limited c t where
  watched := watched
  ends := by
    rw [outstanding]
    intro op busy
    obtain ⟨armedAt, slot, found, within⟩ := limited.ends op busy
    exact ⟨armedAt, slot, log ▸ getElem?_append_some found, ends _ _ within⟩

variable [DecidableEq ι] [CancellationSlots σ (Slot ι) (Callback ι)] {self : ι} {t : Session τ σ ι}

theorem step (limited : Limited c s) (nonnegative : c.Nonnegative) (admitted : s.Orderly event)
    (stepped : s.step self event = some t) : Limited c t := by
  obtain ⟨one, prompt⟩ := admitted
  have traced := limited.watched.traced
  have watched := limited.watched.step one stepped
  cases Session.Stepped.of_step stepped with
  | @start slot alive =>
    refine ⟨watched, fun op busy => ?_⟩
    cases Option.some.inj busy
    exact ⟨s.now, slot, by simp [Session.start], EndsBy.start traced nonnegative self slot⟩
  | fire idle head alive =>
    exact limited.keep _ watched rfl rfl fun _ _ ends => ends.fire nonnegative traced.configured head
  | rearm inside wait alive =>
    obtain ⟨⟨lambda, stage⟩, _⟩ := traced.firing _ inside
    have duration := onWait_duration traced.configured nonnegative (stage ▸ wait)
    exact limited.keep _ watched rfl rfl fun _ _ ends => ends.rearm inside wait duration
  | tick later =>
    exact limited.keep [] watched rfl (by simp) fun _ _ ends => ends.tick prompt
  | expire alive armed due =>
    refine limited.keep [] watched rfl (by simp [Session.expire]) fun _ _ ends => ?_
    refine ends.quiet (SteadyTimer.expire s.provider.tim) [] rfl rfl
      (by simp [Session.expire]) (by simp) (by simp) ?_ (fun _ inside => inside)
    intro h waiting
    simpa only [ready_expire, List.mem_append] using waiting
  | discard idle head =>
    refine limited.keep [] watched rfl (by simp [Session.discard]) fun _ _ ends => ?_
    refine ends.quiet (pop s.provider.tim) [] rfl rfl (by simp [Session.discard]) (by simp) (by simp) ?_
      (fun _ inside => inside)
    intro h waiting
    exact .inl (ready_pop_aborted head ▸ waiting)
  | dangle idle head dead => exact Limited.idle watched (limited.watched.dead dead)
  | rearmDangling inside wait dead => exact Limited.idle watched (limited.watched.dead dead)
  | finish inside last =>
    refine limited.keep [] watched rfl (by simp) fun _ _ ends => ?_
    exact ends.quiet s.provider.tim [] rfl rfl (by simp) (by simp) (by simp +contextual)
      (fun _ waiting => .inl waiting) (by simp)
  | complete alive => exact Limited.idle watched rfl
  | forward hooked =>
    refine limited.keep _ watched rfl rfl fun _ _ ends => ?_
    exact ends.quiet s.provider.tim _ rfl rfl rfl (by simp [Entry.cause]) (by simp +contextual)
      (fun _ waiting => .inl waiting) (fun _ inside => inside)
  | ignore free => exact limited
  | destroy alive => exact Limited.idle watched one

theorem run (nonnegative : c.Nonnegative)
    (path : Run (Session.step self) Session.Orderly (Session.init c slots now) events t) :
    Limited c (t : Session τ σ ι) :=
  path.invariant (fun limited admitted stepped => limited.step nonnegative admitted stepped)
    (.init c slots now)

end Limited

section Kept
variable [DecidableEq ι] [CancellationSlots σ (Slot ι) (Callback ι)] {self : ι} {u : Timeouts}
  {slots : σ} {now : Int} {t : Session τ σ ι}

/-- Every emission happens exactly at its stage's offset from the `arm` it
descends from, whatever the callers do meanwhile. -/
theorem emitted_at_offset (fits : u.Fits) (nonnegative : u.configured.Nonnegative)
    (path : Run (Session.step self) Session.Prompt (Session.init u.converted slots now) events t) :
    ∀ (i : Nat) time ct source during, t.log[i]? = some (.emitted time ct source during) →
      ∃ slot, t.log[source.origin]? = some (.armed (time - u.configured.offset ct) slot) := by
  rw [fits.converted] at path
  exact fun i => (OnSchedule.run path).offset nonnegative i

/-- An operation that is still outstanding beyond the limit has been told to
stop for good, by the limit at the latest. -/
theorem limit_kept (fits : u.Fits) (nonnegative : u.configured.Nonnegative)
    (path : Run (Session.step self) Session.Orderly (Session.init u.converted slots now) events t)
    (busy : t.outstanding = some op) :
    ∃ armedAt slot, t.log[op.serial]? = some (.armed armedAt slot) ∧
      (t.now ≤ armedAt + u.configured.limit ∨
        ∃ i time, op.serial < i ∧ EmittedAt t.log i time u.configured.lastStage ∧
          time ≤ armedAt + u.configured.limit) := by
  rw [fits.converted] at path
  have limited := Limited.run nonnegative path
  obtain ⟨armedAt, slot, found, ends⟩ := limited.ends op busy
  refine ⟨armedAt, slot, found, ?_⟩
  by_cases between : ∀ f, t.firing = some f → f.body.rearm = none
  · rcases limited.watched.covered between op busy with waiting | due | ⟨i, time, after, last⟩
    · obtain ⟨h, only⟩ := List.length_eq_one_iff.mp waiting
      obtain ⟨e, _, future, within⟩ := ends.pending h (by rw [only]; exact List.mem_singleton_self h)
      have rest := nonnegative.remaining h.body
      exact .inl (by omega)
    · obtain ⟨h, waiting⟩ := List.exists_mem_of_ne_nil _ due
      have within := ends.ready h waiting
      have rest := nonnegative.remaining h.body
      exact .inl (by omega)
    · exact .inr ⟨i, time, after, last, ends.emitted i time _ after last⟩
  · -- Inside a stage that will start a wait, the rest of the escalation lies ahead.
    simp only [not_forall] at between
    obtain ⟨f, inside, wait⟩ := between
    obtain ⟨⟨duration, following⟩, wait⟩ := Option.ne_none_iff_exists'.mp wait
    obtain ⟨⟨lambda, stage⟩, _⟩ := limited.watched.traced.firing f inside
    have within := ends.firing f inside duration following wait
    have later := onWait_duration limited.watched.traced.configured nonnegative (stage ▸ wait)
    have rest := nonnegative.remaining following
    exact .inl (by omega)

end Kept

/-- A run through all three stages, five, three and two milliseconds apart. -/
theorem emitted_at_offset_three_stages : ∃ t : PlainSession,
    Run (Session.step ()) Session.Prompt (PlainSession.init (Timeouts.escalating 5 3 2).converted)
      [.tick 4000000, .start none, .tick 9000000, .expire, .runHandler, .emitReturn, .tick 12000000,
        .expire, .runHandler, .emitReturn, .tick 14000000, .expire, .runHandler, .emitReturn] t ∧
    t.log[5]? = some (.emitted 14000000 typeTerminal ⟨0, 3⟩ (some ⟨0, none⟩)) ∧
    ∀ (i : Nat) time ct source during, t.log[i]? = some (.emitted time ct source during) →
      ∃ slot, t.log[source.origin]? =
        some (.armed (time - (Timeouts.escalating 5 3 2).configured.offset ct) slot) :=
  Run.instance_of_execute ⟨_, rfl, rfl⟩ fun _ path _ => emitted_at_offset (by decide) (by decide) path

/-- The handler of the first operation's wait replaces the wait of the second,
which is told to stop for good four milliseconds before its own limit. -/
theorem limit_kept_stale_handler : ∃ t : PlainSession,
    Run (Session.step ()) Session.Orderly (PlainSession.init (Timeouts.escalating 5 3 2).converted)
      [.start none, .tick 5000000, .expire, .complete, .start none, .runHandler, .emitReturn,
        .runHandler, .tick 8000000, .expire, .runHandler, .emitReturn, .tick 10000000, .expire,
        .runHandler, .emitReturn, .tick 16000000] t ∧
    t.outstanding = some ⟨1, none⟩ ∧
    ∃ armedAt slot, t.log[1]? = some (.armed armedAt slot) ∧
      (t.now ≤ armedAt + (Timeouts.escalating 5 3 2).configured.limit ∨ ∃ i time, 1 < i ∧
        EmittedAt t.log i time (Timeouts.escalating 5 3 2).configured.lastStage ∧
        time ≤ armedAt + (Timeouts.escalating 5 3 2).configured.limit) :=
  Run.instance_of_execute ⟨_, rfl, rfl⟩ fun _ path busy => limit_kept (by decide) (by decide) path busy

end BoostTest.Timeout
