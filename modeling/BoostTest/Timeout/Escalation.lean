import BoostTest.Trace
import BoostTest.Timeout.Session

/-! The order and the spacing of the emissions of one provider, over every run.
No discipline of the callers is assumed here: operations may overlap, `arm` and
the cancellation of the timer may come at any time. Time is an exact integer. -/
namespace BoostTest.Timeout
open Asio Asio.CancellationType SteadyTimer TimeoutProvider Transition Trace

variable {ι : Type}

namespace Entry

/-- The entry that started the wait whose handler made this emission. -/
def cause : Entry ι → Option Nat
  | .emitted _ _ source _ => some source.cause
  | _ => none

/-- After this entry an emission of type `ct` may begin at `time`. -/
def Allows (c : Construction) (ct : CancellationType) (time : Int) : Entry ι → Prop
  | .armed armedAt _ => ct = c.firstStage ∧ armedAt + c.ttTotal ≤ time
  | .emitted emittedAt previous _ _ =>
      previous = typeTotal ∧ ct = typePartial ∧ emittedAt + c.ttPartial ≤ time ∨
      previous = typePartial ∧ ct = typeTerminal ∧ emittedAt + c.ttTerminal ≤ time
  | _ => False

def Precedes (c : Construction) (earlier : Entry ι) : Entry ι → Prop
  | .emitted time ct _ _ => earlier.Allows c ct time
  | _ => True

/-- The emissions begun since the latest `arm`, given those before this entry. -/
def sinceArm (emissions : List CancellationType) : Entry ι → List CancellationType
  | .armed _ _ => []
  | .emitted _ ct _ _ => emissions ++ [ct]
  | _ => emissions

end Entry

/-- The types the timer has emitted since the latest `arm`, oldest first. -/
def sinceArm (log : List (Entry ι)) : List CancellationType := log.foldl Entry.sinceArm []

@[simp] theorem sinceArm_snoc (log : List (Entry ι)) (e : Entry ι) :
    sinceArm (log ++ [e]) = e.sinceArm (sinceArm log) := by
  simp [sinceArm]

theorem sinceArm_append_plain (log : List (Entry ι)) {more : List (Entry ι)}
    (plain : ∀ e ∈ more, ∀ l, e.sinceArm l = l) : sinceArm (log ++ more) = sinceArm log := by
  induction more generalizing log with
  | nil => rw [List.append_nil]
  | cons e rest ih =>
    rw [List.append_cons, ih _ fun e member => plain e (List.mem_cons_of_mem _ member),
      sinceArm_snoc, plain e List.mem_cons_self]

/-- Position `i` of the log is an emission of type `ct` begun at `time`. -/
def EmittedAt (log : List (Entry ι)) (i : Nat) (time : Int) (ct : CancellationType) : Prop :=
  ∃ source during, log[i]? = some (.emitted time ct source during)

/-- Every emission has an earlier entry of its own: its `arm`, or the emission
of the stage before, with at least that stage's duration between the two. -/
structure Escalates (c : Construction) (log : List (Entry ι)) : Prop where
  matching : ∃ predecessor : Nat → Nat,
    (∀ i time ct, EmittedAt log i time ct →
      predecessor i < i ∧ ∃ e, log[predecessor i]? = some e ∧ e.Allows c ct time) ∧
    ∀ i j t u ct du, EmittedAt log i t ct → EmittedAt log j u du → predecessor i = predecessor j → i = j
  stages : ∀ i time ct, EmittedAt log i time ct →
    if c.emitAll then ct = typeAll else ct = typeTotal ∨ ct = typePartial ∨ ct = typeTerminal

/-- The type emitted by the handler of a wait with this lambda. -/
def Construction.stage (c : Construction) : WaitBody → CancellationType
  | .arm => c.firstStage
  | .fireTotal => typePartial
  | .firePartial => typeTerminal

/-- The entry at position `k` allows an emission of type `ct` at `time`. -/
def Allowed (c : Construction) (log : List (Entry ι)) (ct : CancellationType) (k : Nat) (time : Int) : Prop :=
  ∃ e, log[k]? = some e ∧ e.Allows c ct time

section Allowed
variable {c : Construction} {log more : List (Entry ι)} {ct : CancellationType} {k : Nat}
  {time after : Int}

theorem Entry.Allows.later {e : Entry ι} (allows : e.Allows c ct time) (le : time ≤ after) :
    e.Allows c ct after := by
  cases e with
  | armed armedAt slot => exact ⟨allows.1, Int.le_trans allows.2 le⟩
  | emitted emittedAt previous source during =>
    rcases allows with ⟨was, now, spaced⟩ | ⟨was, now, spaced⟩
    · exact .inl ⟨was, now, Int.le_trans spaced le⟩
    · exact .inr ⟨was, now, Int.le_trans spaced le⟩
  | _ => exact allows

theorem Allowed.later (allowed : Allowed c log ct k time) (le : time ≤ after) :
    Allowed c log ct k after := by
  obtain ⟨e, found, allows⟩ := allowed
  exact ⟨e, found, allows.later le⟩

theorem Allowed.append (allowed : Allowed c log ct k time) : Allowed c (log ++ more) ct k time := by
  obtain ⟨e, found, allows⟩ := allowed
  exact ⟨e, getElem?_append_some found, allows⟩

theorem Allowed.lt (allowed : Allowed c log ct k time) : k < log.length := by
  obtain ⟨e, found, _⟩ := allowed
  exact (List.getElem?_eq_some_iff.mp found).1

end Allowed

section Stages
variable {τ : Type} {c : Construction} {p : TimeoutProvider τ ι}

theorem onWait_emits (configured : c.Configures p) (lambda : WaitBody) :
    (p.onWait lambda).emits = c.stage lambda := by
  cases lambda with
  | arm =>
    simp only [onWait, Construction.stage, Construction.firstStage, configured.emitAll]
    split <;> rfl
  | fireTotal => rfl
  | firePartial => rfl

/-- A stage that starts a wait allows the next stage once that wait succeeds. -/
theorem onWait_allows (configured : c.Configures p)
    (wait : (p.onWait lambda).rearm = some (duration, next)) (le : begun ≤ now)
    (source : Provenance) (during : Option (Operation ι)) :
    (Entry.emitted begun (p.onWait lambda).emits source during).Allows c (c.stage next)
      (now + duration) := by
  cases lambda with
  | arm =>
    cases single : p.emitAll with
    | true => simp [onWait, single, fireAll] at wait
    | false =>
      simp only [onWait, single, Bool.false_eq_true, if_false, fireTotal, Option.some.injEq,
        Prod.mk.injEq] at wait ⊢
      obtain ⟨rfl, rfl⟩ := wait
      refine .inl ⟨rfl, rfl, ?_⟩
      rw [configured.ttPartial]
      omega
  | fireTotal =>
    simp only [onWait, firePartial, Option.some.injEq, Prod.mk.injEq] at wait
    obtain ⟨rfl, rfl⟩ := wait
    refine .inr ⟨rfl, rfl, ?_⟩
    rw [configured.ttTerminal]
    omega
  | firePartial => simp [onWait, fireTerminal] at wait

end Stages

variable {τ σ : Type} [SteadyTimer τ (WaitHandler Provenance)]

/-- The log position that the wait of a running `fire_*` function will name. -/
def Firing.token (f : Firing) : List Nat := if f.body.rearm.isSome then [f.entry] else []

/-- Log positions that a wait names and no emission has named yet. -/
def Session.unspent (s : Session τ σ ι) : List Nat :=
  (pending s.provider.tim).map (·.tag.cause) ++ (ready s.provider.tim).map (·.tag.cause) ++
    s.firing.toList.flatMap Firing.token

structure Traced (c : Construction) (s : Session τ σ ι) : Prop where
  configured : c.Configures s.provider
  pending : ∀ h ∈ pending s.provider.tim, ∃ e, expiry s.provider.tim = some e ∧
    Allowed c s.log (c.stage h.body) h.tag.cause e
  ready : ∀ h ∈ ready s.provider.tim, Allowed c s.log (c.stage h.body) h.tag.cause s.now
  firing : ∀ f, s.firing = some f → (∃ lambda, f.body = s.provider.onWait lambda) ∧
    ∃ time source during, s.log[f.entry]? = some (.emitted time f.body.emits source during) ∧
      time ≤ s.now
  grounded : Grounded Entry.cause (Entry.Precedes c) s.log
  unique : ∀ k, (s.unspent ++ s.log.filterMap Entry.cause).count k ≤ 1
  lastFired : s.provider.lastFired = (sinceArm s.log).getLast?.getD typeNone

namespace Traced
variable {c : Construction} {s : Session τ σ ι}

theorem unspent_lt (traced : Traced c s) (member : k ∈ s.unspent) : k < s.log.length := by
  simp only [Session.unspent, List.mem_append, List.mem_map, List.mem_flatMap,
    Option.mem_toList] at member
  rcases member with (⟨h, waiting, rfl⟩ | ⟨h, waiting, rfl⟩) | ⟨f, inside, token⟩
  · obtain ⟨e, _, allowed⟩ := traced.pending h waiting
    exact allowed.lt
  · exact (traced.ready h waiting).lt
  · obtain ⟨_, time, source, during, found, _⟩ := traced.firing f inside
    unfold Firing.token at token
    split at token
    · cases List.mem_singleton.mp token
      exact (List.getElem?_eq_some_iff.mp found).1
    · cases token

theorem spent_lt (traced : Traced c s) (member : k ∈ s.log.filterMap Entry.cause) :
    k < s.log.length := by
  obtain ⟨e, logged, named⟩ := List.mem_filterMap.mp member
  obtain ⟨i, present⟩ := List.getElem?_of_mem logged
  obtain ⟨_, c, found, _⟩ := traced.grounded.earlier i e k present named
  exact (List.getElem?_eq_some_iff.mp found).1

/-- The next log position is nobody's cause yet. -/
theorem fresh (traced : Traced c s) :
    (s.unspent ++ s.log.filterMap Entry.cause).count s.log.length = 0 := by
  apply List.count_eq_zero_of_not_mem
  intro member
  rcases List.mem_append.mp member with member | member
  · exact Nat.lt_irrefl _ (traced.unspent_lt member)
  · exact Nat.lt_irrefl _ (traced.spent_lt member)

theorem not_spent (traced : Traced c s) (head : queued s.provider.tim = (h, .success) :: rest) :
    h.tag.cause ∉ s.log.filterMap Entry.cause := by
  intro spent
  have once := traced.unique h.tag.cause
  have used := List.count_pos_iff.mpr spent
  simp only [Session.unspent, ready_of_success head, List.map_cons, List.count_append,
    List.count_cons_self] at once
  omega

theorem init (c : Construction) (slots : σ) (now : Int) :
    Traced c (Session.init c slots now : Session τ σ ι) where
  configured := c.build_configures
  pending := by simp [Session.init]
  ready := by simp [Session.init]
  firing := by simp [Session.init]
  grounded := .nil
  unique := by simp [Session.init, Session.unspent]
  lastFired := by simp [Session.init, sinceArm]

/-- Steps that set the expiry anew and start the only wait that is then pending. -/
theorem renew {t : Session τ σ ι} {hooked : Option (Slot ι)} {fired : CancellationType}
    (traced : Traced c s) (new : WaitHandler Provenance) (duration : Int) (e : Entry ι)
    (provider : t.provider = { s.provider with
      parent := hooked
      lastFired := fired
      tim := asyncWait (expiresAfter s.provider.tim s.now duration) new })
    (now : t.now = s.now) (log : t.log = s.log ++ [e]) (plain : e.cause = none)
    (allowed : Allowed c t.log (c.stage new.body) new.tag.cause (s.now + duration))
    (inside : ∀ f, t.firing = some f → s.firing = some f)
    (unique : ∀ k, (t.unspent ++ t.log.filterMap Entry.cause).count k ≤ 1)
    (last : fired = (sinceArm t.log).getLast?.getD typeNone) : Traced c t := by
  constructor
  case configured =>
    rw [provider]
    exact traced.configured.keep _ _ _
  case pending =>
    rw [provider]
    intro h waiting
    simp only [pending_asyncWait, pending_expiresAfter, List.nil_append, List.mem_singleton] at waiting
    subst waiting
    exact ⟨_, by simp only [expiry_asyncWait, expiry_expiresAfter], allowed⟩
  case ready =>
    rw [provider, log, now]
    intro h waiting
    simp only [ready_asyncWait, ready_expiresAfter] at waiting
    exact (traced.ready h waiting).append
  case firing =>
    rw [provider, log, now]
    intro f firing
    obtain ⟨stage, time, source, during, found, le⟩ := traced.firing f (inside f firing)
    exact ⟨stage, time, source, during, getElem?_append_some found, le⟩
  case grounded => exact log ▸ traced.grounded.snoc_plain plain
  case unique => exact unique
  case lastFired =>
    rw [provider]
    exact last

theorem start [CancellationSlots σ (Slot ι) (Callback ι)] (traced : Traced c s) (self : ι)
    (slot : Option (Slot ι)) : Traced c (s.start self slot) := by
  have log : (s.start self slot).log = s.log ++ [.armed s.now slot] := rfl
  apply traced.renew _ _ _ (s.start_provider self slot) rfl log rfl
  case allowed =>
    refine ⟨.armed s.now slot, by simp [log], rfl, ?_⟩
    exact Int.le_of_eq (by rw [traced.configured.ttTotal])
  case inside => exact fun _ inside => inside
  case unique =>
    intro k
    have once := traced.unique k
    have fresh := traced.fresh
    have firing : (s.start self slot).firing = s.firing := rfl
    simp only [Session.unspent, Session.start_pending, Session.start_ready, log, firing,
      List.filterMap_append,
      List.count_append, List.map_cons, List.map_nil, List.filterMap_cons,
      Entry.cause, List.filterMap_nil, List.count_nil, List.count_singleton] at once fresh ⊢
    split
    · rename_i same
      rw [eq_of_beq same] at fresh
      omega
    · omega
  case last =>
    rw [log, sinceArm_snoc]
    rfl

theorem fire (traced : Traced c s) (idle : s.firing = none)
    (head : queued s.provider.tim = (h, .success) :: rest) : Traced c (s.fire h) := by
  have awaited : h ∈ SteadyTimer.ready s.provider.tim := by
    rw [ready_of_success head]
    exact List.mem_cons_self
  obtain ⟨e, found, allows⟩ := traced.ready h awaited
  have emits := onWait_emits traced.configured h.body
  constructor
  case configured => exact traced.configured.keep _ _ _
  case pending =>
    intro h' waiting
    simp only [Session.fire, beginFire, pending_pop] at waiting
    obtain ⟨e, set, allowed⟩ := traced.pending h' waiting
    exact ⟨e, by simpa only [Session.fire, beginFire, expiry_pop] using set, allowed.append⟩
  case ready =>
    intro h' waiting
    have earlier : h' ∈ SteadyTimer.ready s.provider.tim := by
      rw [ready_of_success head]
      exact List.mem_cons_of_mem _ waiting
    exact (traced.ready h' earlier).append
  case firing =>
    intro f inside
    cases Option.some.inj inside
    exact ⟨⟨h.body, rfl⟩, s.now, h.tag, s.outstanding, by simp [Session.fire], Int.le_refl _⟩
  case grounded => exact traced.grounded.snoc rfl found (emits ▸ allows) (traced.not_spent head)
  case unique =>
    intro k
    have once := traced.unique k
    have fresh := traced.fresh
    simp only [Session.unspent, Session.fire, beginFire, pending_pop, ready_of_success head, idle,
      List.filterMap_append, List.count_append, List.map_cons, List.filterMap_cons, Entry.cause,
      List.filterMap_nil, Option.toList_none, Option.toList_some, List.flatMap_nil,
      List.flatMap_cons, List.append_nil, List.count_nil, List.count_cons,
      Firing.token] at once fresh ⊢
    split
    · rw [List.count_singleton]
      split
      · rename_i same
        rw [eq_of_beq same] at fresh
        omega
      · omega
    · simp only [List.count_nil]
      omega
  case lastFired => simp [Session.fire, beginFire, Entry.sinceArm]

theorem rearm (traced : Traced c s) (inside : s.firing = some f)
    (wait : f.body.rearm = some (duration, lambda)) : Traced c (s.rearm f) := by
  obtain ⟨⟨origin, stage⟩, time, source, during, found, le⟩ := traced.firing f inside
  have log : (s.rearm f).log = s.log ++ [.rearmed f.origin s.outstanding] := rfl
  apply traced.renew _ _ _ (s.rearm_provider wait) rfl log rfl
  case allowed =>
    rw [stage] at found wait
    exact ⟨_, getElem?_append_some found, onWait_allows traced.configured wait le source during⟩
  case inside => exact nofun
  case unique =>
    intro k
    have once := traced.unique k
    have firing : (s.rearm f).firing = none := rfl
    simp only [Session.unspent, s.rearm_pending wait, s.rearm_ready wait, log, firing, inside,
      List.filterMap_append,
      List.count_append, List.map_cons, List.map_nil, List.filterMap_cons,
      Entry.cause, List.filterMap_nil, Option.toList_some, Option.toList_none,
      List.flatMap_cons, List.flatMap_nil, List.append_nil, Firing.token, wait,
      Option.isSome_some, if_true] at once ⊢
    omega
  case last =>
    rw [log, sinceArm_snoc]
    exact traced.lastFired

/-- Steps that emit nothing and start no wait: they may drop waits, find them
due, let time pass and log entries that are nobody's effect. -/
theorem quiet {t : Session τ σ ι} (traced : Traced c s) (tim : τ) (more : List (Entry ι))
    (provider : t.provider = { s.provider with tim := tim }) (later : s.now ≤ t.now)
    (log : t.log = s.log ++ more) (plain : ∀ e ∈ more, e.cause = none ∧ ∀ l, e.sinceArm l = l)
    (waits : ∀ h ∈ SteadyTimer.pending tim, h ∈ SteadyTimer.pending s.provider.tim ∧
      expiry tim = expiry s.provider.tim)
    (due : ∀ h ∈ SteadyTimer.ready tim, h ∈ SteadyTimer.ready s.provider.tim ∨
      h ∈ SteadyTimer.pending s.provider.tim ∧ ∃ e, expiry s.provider.tim = some e ∧ e ≤ s.now)
    (inside : ∀ f, t.firing = some f → s.firing = some f)
    (fewer : ∀ k, t.unspent.count k ≤ s.unspent.count k) : Traced c t := by
  have causes : more.filterMap Entry.cause = [] :=
    List.filterMap_eq_nil_iff.mpr fun e member => (plain e member).1
  constructor
  case configured =>
    rw [provider]
    exact traced.configured.keep _ _ _
  case pending =>
    rw [provider, log]
    intro h waiting
    obtain ⟨waited, same⟩ := waits h waiting
    obtain ⟨e, set, allowed⟩ := traced.pending h waited
    exact ⟨e, same.trans set, allowed.append⟩
  case ready =>
    rw [provider, log]
    intro h waiting
    rcases due h waiting with waited | ⟨waited, e, set, passed⟩
    · exact ((traced.ready h waited).later later).append
    · obtain ⟨e', set', allowed⟩ := traced.pending h waited
      cases Option.some.inj (set.symm.trans set')
      exact (allowed.later (Int.le_trans passed later)).append
  case firing =>
    rw [provider, log]
    intro f firing
    obtain ⟨stage, time, source, during, found, le⟩ := traced.firing f (inside f firing)
    exact ⟨stage, time, source, during, getElem?_append_some found, Int.le_trans le later⟩
  case grounded =>
    rw [log]
    exact traced.grounded.append_plain fun e member => (plain e member).1
  case unique =>
    intro k
    have once := traced.unique k
    have less := fewer k
    rw [log, List.filterMap_append, causes, List.append_nil]
    simp only [List.count_append] at once ⊢
    omega
  case lastFired =>
    rw [provider, log, sinceArm_append_plain _ fun e member => (plain e member).2]
    exact traced.lastFired

variable [DecidableEq ι] [CancellationSlots σ (Slot ι) (Callback ι)] {self : ι} {t : Session τ σ ι}

theorem step (traced : Traced c s) (stepped : s.step self event = some t) : Traced c t := by
  cases Session.Stepped.of_step stepped with
  | start alive => exact traced.start self _
  | fire idle head alive => exact traced.fire idle head
  | rearm inside wait alive => exact traced.rearm inside wait
  | expire alive armed due =>
    refine traced.quiet (SteadyTimer.expire s.provider.tim) [] rfl (Int.le_refl _)
      (by simp [Session.expire]) (by simp) (by simp) ?_ (fun _ inside => inside) ?_
    · intro h waiting
      simp only [ready_expire, List.mem_append] at waiting
      exact waiting.imp_right fun waited => ⟨waited, _, armed, due⟩
    · intro k
      simp only [Session.unspent, Session.expire, pending_expire, ready_expire, List.map_nil,
        List.map_append, List.count_append, List.count_nil]
      omega
  | discard idle head =>
    refine traced.quiet (pop s.provider.tim) [] rfl (Int.le_refl _)
      (by simp [Session.discard]) (by simp) (by simp) ?_ (fun _ inside => inside) ?_
    · intro h waiting
      exact .inl (ready_pop_aborted head ▸ waiting)
    · intro k
      simp only [Session.unspent, Session.discard, pending_pop, ready_pop_aborted head]
      exact Nat.le_refl _
  | @dangle h rest idle head dead =>
    refine traced.quiet (pop s.provider.tim) [.dangling h.tag.origin] rfl
      (Int.le_refl _) rfl (by simp [Entry.cause, Entry.sinceArm]) (by simp) ?_
      (fun _ inside => inside) ?_
    · intro h' waiting
      rw [ready_of_success head]
      exact .inl (List.mem_cons_of_mem _ waiting)
    · intro k
      simp only [Session.unspent, Session.dangle, pending_pop, ready_of_success head, List.map_cons,
        List.count_append, List.count_cons]
      omega
  | @rearmDangling f _ _ inside wait dead =>
    refine traced.quiet s.provider.tim [.dangling f.origin] rfl (Int.le_refl _)
      rfl (by simp [Entry.cause, Entry.sinceArm]) (by simp) (by simp +contextual) (by simp) ?_
    intro k
    simp only [Session.unspent, Option.toList_none, List.flatMap_nil, List.count_append,
      List.count_nil]
    omega
  | finish inside last =>
    refine traced.quiet s.provider.tim [] rfl (Int.le_refl _) (by simp)
      (by simp) (by simp) (by simp +contextual) (by simp) ?_
    intro k
    simp only [Session.unspent, Option.toList_none, List.flatMap_nil, List.count_append,
      List.count_nil]
    omega
  | complete alive =>
    refine traced.quiet (cancel s.provider.tim) [] rfl (Int.le_refl _)
      (by simp [Session.complete]) (by simp) (by simp) (by simp +contextual)
      (fun _ inside => inside) ?_
    intro k
    simp only [Session.unspent, Session.complete, binderCancel, pending_cancel, ready_cancel,
      List.map_nil, List.count_append, List.count_nil]
    omega
  | forward hooked =>
    exact traced.quiet s.provider.tim _ rfl (Int.le_refl _) rfl
      (by simp [Entry.cause, Entry.sinceArm]) (by simp +contextual) (by simp +contextual)
      (fun _ inside => inside) (fun _ => Nat.le_refl _)
  | ignore free => exact traced
  | tick later =>
    exact traced.quiet s.provider.tim [] rfl later (by simp) (by simp)
      (by simp +contextual) (by simp +contextual) (fun _ inside => inside) (fun _ => Nat.le_refl _)
  | destroy alive =>
    refine traced.quiet (cancel s.provider.tim) [] rfl (Int.le_refl _)
      (by simp [Session.destroy]) (by simp) (by simp) (by simp +contextual)
      (fun _ inside => inside) ?_
    intro k
    simp only [Session.unspent, Session.destroy, TimeoutProvider.destroy, pending_cancel,
      ready_cancel, List.map_nil, List.count_append, List.count_nil]
    omega

theorem run (path : Run (Session.step self) Session.Unrestricted (Session.init c slots now) events t) :
    Traced c (t : Session τ σ ι) :=
  path.invariant (fun traced _ stepped => traced.step stepped) (.init c slots now)

omit [DecidableEq ι] [CancellationSlots σ (Slot ι) (Callback ι)] in
theorem stages (traced : Traced c s) (i : Nat) : ∀ time ct, EmittedAt s.log i time ct →
    if c.emitAll then ct = typeAll else ct = typeTotal ∨ ct = typePartial ∨ ct = typeTerminal := by
  induction i using Nat.strongRecOn with
  | ind i ih =>
    rintro time ct ⟨source, during, present⟩
    obtain ⟨before, e, found, allows⟩ := traced.grounded.earlier i _ _ present rfl
    cases single : c.emitAll with
    | true =>
      simp only [if_true]
      cases e with
      | armed armedAt slot =>
        have first : ct = c.firstStage := allows.1
        simpa only [Construction.firstStage, single, if_true] using first
      | emitted begun previous source' during' =>
        have all := ih source.cause before begun previous ⟨source', during', found⟩
        simp only [single, if_true] at all
        subst all
        rcases allows with ⟨was, _⟩ | ⟨was, _⟩ <;> exact absurd was (by decide)
      | _ => cases allows
    | false =>
      simp only [Bool.false_eq_true, if_false]
      cases e with
      | armed armedAt slot =>
        have first : ct = c.firstStage := allows.1
        simp only [Construction.firstStage, single, Bool.false_eq_true, if_false] at first
        exact .inl first
      | emitted begun previous source' during' =>
        rcases allows with ⟨_, is, _⟩ | ⟨_, is, _⟩
        · exact .inr (.inl is)
        · exact .inr (.inr is)
      | _ => cases allows

omit [DecidableEq ι] [CancellationSlots σ (Slot ι) (Callback ι)] in
theorem escalates (traced : Traced c s) : Escalates c s.log := by
  obtain ⟨predecessor, earlier, injective⟩ := traced.grounded.matching
  refine ⟨⟨predecessor, ?_, ?_⟩, traced.stages⟩
  · rintro i time ct ⟨source, during, present⟩
    exact earlier i _ present rfl
  · rintro i j t u ct du ⟨_, _, first⟩ ⟨_, _, second⟩ same
    exact injective i j _ _ first second rfl rfl same

end Traced

section Discipline
variable [DecidableEq ι] [CancellationSlots σ (Slot ι) (Callback ι)] {self : ι} {c : Construction}
  {slots : σ} {now : Int} {t : Session τ σ ι}

/-- In every reachable state the emissions of the timer are matched with their
predecessors, and `last_fired` is the latest emission begun since `arm`. -/
theorem escalation_discipline
    (path : Run (Session.step self) Session.Unrestricted (Session.init c slots now) events t) :
    Escalates c t.log ∧ t.provider.lastFired = (sinceArm t.log).getLast?.getD typeNone :=
  ⟨(Traced.run path).escalates, (Traced.run path).lastFired⟩

end Discipline

/-- A run through all three stages, with the waits 5, 3 and 2 milliseconds long. -/
theorem escalation_discipline_three_stages : ∃ t : PlainSession,
    Run (Session.step ()) Session.Unrestricted (PlainSession.init (.escalating 5 3 2))
      [.start none, .tick 5, .expire, .runHandler, .emitReturn, .tick 8, .expire, .runHandler,
        .emitReturn, .tick 10, .expire, .runHandler, .emitReturn] t ∧
    sinceArm t.log = [typeTotal, typePartial, typeTerminal] ∧
    Escalates (.escalating 5 3 2) t.log ∧
    t.provider.lastFired = (sinceArm t.log).getLast?.getD typeNone :=
  Run.instance_of_execute ⟨_, rfl, rfl⟩ fun _ path _ => escalation_discipline path

end BoostTest.Timeout
