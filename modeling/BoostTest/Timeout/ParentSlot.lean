import BoostTest.Timeout.Session

/-! Which cancellations of the parent slots reach the provider. `arm` installs a
forwarder in the current parent slot, only the destructor removes one, and only
from the latest parent slot. The forwarders are therefore those of all slots
that operations have had so far, which decides every emission exactly. -/
namespace BoostTest.Timeout
open Asio SteadyTimer CancellationSlots TimeoutProvider Transition

variable {τ σ ι : Type}

/-- The slots of the handlers that have started operations, oldest first. -/
def hookedSlots (log : List (Entry ι)) : List (Slot ι) :=
  log.filterMap fun
    | .armed _ slot => slot
    | _ => none

/-- A forwarded cancellation came from the slot of the outstanding operation. -/
def Entry.FromOwnSlot : Entry ι → Prop
  | .forwarded slot _ during => during.bind Operation.slot = some slot
  | _ => True

instance [DecidableEq ι] : DecidablePred (Entry.FromOwnSlot (ι := ι))
  | .forwarded _ _ _ => decEq _ _
  | .armed _ _ | .emitted _ _ _ _ | .rearmed _ _ | .dangling _ => .isTrue trivial

section Hooked
variable [CancellationSlots σ (Slot ι) (Callback ι)]

/-- Only the slot of the outstanding operation forwards, and no slot still
forwards to a provider that has been destroyed. -/
structure ParentIsolated (owner : ι) (s : Session τ σ ι) : Prop where
  forwarded : ∀ e ∈ s.log, e.FromOwnSlot
  destroyed : s.alive = false → ∀ slot, handler s.slots slot ≠ some (.forward owner)

/-- No emission on the slot of an earlier operation unless the current one has
it too, and no destruction after operations with two different slots. -/
def Session.SlotsKept (s : Session τ σ ι) (event : Event ι) : Prop :=
  s.OneAtATime event ∧ match event with
  | .emitOn slot _ => s.alive = true → slot ∈ hookedSlots s.log →
      s.outstanding.bind Operation.slot = some slot
  | .destroy => ∀ a ∈ hookedSlots s.log, ∀ b ∈ hookedSlots s.log, a = b
  | _ => True

instance [DecidableEq ι] (s : Session τ σ ι) : DecidablePred s.SlotsKept
  | .emitOn _ _ | .destroy => inferInstanceAs (Decidable (_ ∧ _))
  | .start _ | .expire | .runHandler | .emitReturn | .complete | .tick _ =>
    inferInstanceAs (Decidable (_ ∧ True))

/-- Exactly the slots of past and present operations hold a forwarder, except
the one that the destructor has cleared. -/
structure Hooked (owner : ι) (s : Session τ σ ι) : Prop where
  parent : s.provider.parent = (hookedSlots s.log).getLast?
  forwarders : ∀ slot, handler s.slots slot = some (.forward owner) ↔
    slot ∈ hookedSlots s.log ∧ (s.alive = false → s.provider.parent ≠ some slot)

end Hooked

theorem hookedSlots_armed (log : List (Entry ι)) (time : Int) (slot : Option (Slot ι)) :
    hookedSlots (log ++ [.armed time slot]) = hookedSlots log ++ slot.toList := by
  cases slot <;> simp [hookedSlots]

theorem hookedSlots_other (log : List (Entry ι)) {e : Entry ι}
    (other : ∀ time slot, e ≠ .armed time slot) : hookedSlots (log ++ [e]) = hookedSlots log := by
  cases e with
  | armed time slot => exact absurd rfl (other time slot)
  | _ => simp [hookedSlots]

namespace Hooked
variable [CancellationSlots σ (Slot ι) (Callback ι)] {self : ι} {s : Session τ σ ι}

theorem init [SteadyTimer τ (WaitHandler Provenance)] (c : Construction) (slots : σ) (now : Int)
    (fresh : ∀ slot, handler slots slot ≠ some (.forward self)) :
    Hooked self (Session.init c slots now : Session τ σ ι) where
  parent := by simp [Session.init, hookedSlots]
  forwarders := by simpa [Session.init, hookedSlots] using fresh

/-- Steps that touch no slot. -/
theorem keep {t : Session τ σ ι} (hooked : Hooked self s)
    (parent : t.provider.parent = s.provider.parent) (slots : t.slots = s.slots)
    (alive : t.alive = s.alive) (same : hookedSlots t.log = hookedSlots s.log) : Hooked self t where
  parent := by rw [parent, same, hooked.parent]
  forwarders := by
    rw [parent, slots, alive, same]
    exact hooked.forwarders

variable [SteadyTimer τ (WaitHandler Provenance)] [DecidableEq ι]

theorem start (hooked : Hooked self s) (alive : s.alive = true) (slot : Option (Slot ι)) :
    Hooked self (s.start self slot) := by
  have log : (s.start self slot).log = s.log ++ [.armed s.now slot] := rfl
  have parent : (s.start self slot).provider.parent = (hookedSlots (s.start self slot).log).getLast? := by
    rw [Session.start_provider, log, hookedSlots_armed]
    cases slot with
    | none => simpa [nextParent] using hooked.parent
    | some slot => simp [nextParent]
  refine ⟨parent, ?_⟩
  intro target
  have living : (s.start self slot).alive = true := alive
  have before := hooked.forwarders target
  simp only [alive, Bool.true_eq_false, false_implies, and_true] at before
  have installed : handler (s.start self slot).slots target =
      if (s.start self slot).provider.parent = some target then some (.forward self)
      else handler s.slots target := by
    rw [Session.start_provider]
    exact initWrapper_handler self s.provider s.slots slot s.now
      (Provenance.mk s.log.length s.log.length) target
  simp only [installed, living, Bool.true_eq_false, false_implies, and_true]
  constructor
  · intro forwards
    split at forwards
    · rename_i hooks
      exact List.mem_of_getLast? (parent ▸ hooks)
    · rw [log, hookedSlots_armed]
      exact List.mem_append_left _ (before.mp forwards)
  · intro member
    rw [log, hookedSlots_armed] at member
    split
    · rfl
    · rename_i unhooked
      rcases List.mem_append.mp member with earlier | last
      · exact before.mpr earlier
      · rw [Session.start_provider] at unhooked
        cases Option.mem_toList.mp last
        simp [nextParent] at unhooked

theorem destroy (hooked : Hooked self s) (alive : s.alive = true) : Hooked self s.destroy := by
  refine ⟨hooked.parent, ?_⟩
  intro target
  have before := hooked.forwarders target
  simp only [alive, Bool.true_eq_false, false_implies, and_true] at before
  have cleared : handler s.destroy.slots target =
      if s.provider.parent = some target then none else handler s.slots target :=
    destroy_handler s.provider s.slots target
  have parent : s.destroy.provider.parent = s.provider.parent := rfl
  have dead : s.destroy.alive = false := rfl
  have log : s.destroy.log = s.log := rfl
  rw [cleared, parent, dead, log]
  split
  · rename_i same
    simp [same]
  · rename_i different
    simpa [different] using before

theorem step (hooked : Hooked self s) (stepped : s.step self event = some t) : Hooked self t := by
  cases Session.Stepped.of_step stepped with
  | start alive => exact hooked.start alive _
  | destroy alive => exact hooked.destroy alive
  | fire idle head alive => exact hooked.keep rfl rfl rfl (hookedSlots_other _ (by simp))
  | dangle idle head dead => exact hooked.keep rfl rfl rfl (hookedSlots_other _ (by simp))
  | rearm inside wait alive =>
    exact hooked.keep (finishFire_parent ..) rfl rfl (hookedSlots_other _ (by simp))
  | rearmDangling inside wait dead => exact hooked.keep rfl rfl rfl (hookedSlots_other _ (by simp))
  | forward hooks => exact hooked.keep rfl rfl rfl (hookedSlots_other _ (by simp))
  | ignore free => exact hooked
  | expire | discard | finish | complete | tick => exact hooked.keep rfl rfl rfl rfl

/-- One step in a run that keeps its slots apart. -/
theorem isolated_step (hooked : Hooked self s) (isolated : ParentIsolated self s)
    (kept : s.SlotsKept event) (stepped : s.step self event = some t) : ParentIsolated self t := by
  have snoc : ∀ {e : Entry ι}, e.FromOwnSlot → ∀ e' ∈ s.log ++ [e], e'.FromOwnSlot := by
    intro e last
    rw [List.forall_mem_append, List.forall_mem_singleton]
    exact ⟨isolated.forwarded, last⟩
  cases Session.Stepped.of_step stepped with
  | start alive =>
    refine ⟨snoc trivial, ?_⟩
    intro dead
    exact absurd (dead.symm.trans alive) (by decide)
  | destroy alive =>
    refine ⟨isolated.forwarded, ?_⟩
    intro dead slot forwards
    obtain ⟨member, different⟩ := ((hooked.destroy alive).forwarders slot).mp forwards
    have last := List.getLast?_eq_some_getLast (List.ne_nil_of_mem member)
    apply different dead
    rw [(hooked.destroy alive).parent, last]
    exact congrArg some (kept.2 _ (List.getLast_mem _) _ member)
  | @forward slot ct hooks =>
    refine ⟨snoc ?_, isolated.destroyed⟩
    cases alive : s.alive with
    | true => exact kept.2 alive ((hooked.forwarders slot).mp hooks).1
    | false => exact absurd hooks (isolated.destroyed alive slot)
  | ignore free => exact isolated
  | fire | dangle | rearm | rearmDangling => exact ⟨snoc trivial, isolated.destroyed⟩
  | expire | discard | finish | complete | tick => exact ⟨isolated.forwarded, isolated.destroyed⟩

/-- The isolation of the state after a step shows that the step kept the slots. -/
theorem isolated_back (hooked : Hooked self s) (admitted : s.OneAtATime event)
    (stepped : s.step self event = some t) (isolated : ParentIsolated self t) :
    s.SlotsKept event ∧ ParentIsolated self s := by
  have init : ∀ {e : Entry ι}, (∀ e' ∈ s.log ++ [e], e'.FromOwnSlot) → ∀ e' ∈ s.log, e'.FromOwnSlot :=
    fun all e' member => all e' (List.mem_append_left _ member)
  cases Session.Stepped.of_step stepped with
  | start alive =>
    refine ⟨⟨admitted, trivial⟩, init isolated.forwarded, ?_⟩
    intro dead
    exact absurd (dead.symm.trans alive) (by decide)
  | destroy alive =>
    have only : ∀ slot ∈ hookedSlots s.log, s.provider.parent = some slot := by
      intro slot member
      by_cases same : s.provider.parent = some slot
      · exact same
      · exact absurd (((hooked.destroy alive).forwarders slot).mpr ⟨member, fun _ => same⟩)
          (isolated.destroyed rfl slot)
    refine ⟨⟨admitted, ?_⟩, isolated.forwarded, ?_⟩
    · intro a first b second
      exact Option.some.inj ((only a first).symm.trans (only b second))
    · intro dead
      exact absurd (dead.symm.trans alive) (by decide)
  | @forward slot ct hooks =>
    refine ⟨⟨admitted, ?_⟩, init isolated.forwarded, isolated.destroyed⟩
    intro _ _
    exact isolated.forwarded _ (List.mem_append_right _ List.mem_cons_self)
  | @ignore slot ct free =>
    refine ⟨⟨admitted, ?_⟩, isolated⟩
    intro alive member
    exact absurd ((hooked.forwarders slot).mpr ⟨member, by simp [alive]⟩) free
  | fire | dangle | rearm | rearmDangling =>
    exact ⟨⟨admitted, trivial⟩, init isolated.forwarded, isolated.destroyed⟩
  | expire | discard | finish | complete | tick =>
    exact ⟨⟨admitted, trivial⟩, isolated.forwarded, isolated.destroyed⟩

end Hooked

section ParentSlots
variable [SteadyTimer τ (WaitHandler Provenance)] [CancellationSlots σ (Slot ι) (Callback ι)]
  [DecidableEq ι] {self : ι} {c : Construction} {slots : σ} {now : Int} {t : Session τ σ ι}

/-- A run isolates its parent slots exactly if each of its steps keeps them. -/
theorem parent_slot_isolation (fresh : ∀ slot, handler slots slot ≠ some (.forward self))
    (path : Run (Session.step self) Session.OneAtATime (Session.init c slots now) events t) :
    ParentIsolated self t ↔
      Run (Session.step self) Session.SlotsKept (Session.init c slots now) events t := by
  have start : Hooked self (Session.init c slots now : Session τ σ ι) := .init c slots now fresh
  constructor
  · intro isolated
    exact (path.backward (fun hooked _ stepped => hooked.step stepped)
      (fun hooked admitted stepped => hooked.isolated_back admitted stepped) start isolated).1
  · intro kept
    have both := kept.invariant (P := fun s => Hooked self s ∧ ParentIsolated self s)
      (fun held kept stepped => ⟨held.1.step stepped, held.1.isolated_step held.2 kept stepped⟩)
      ⟨start, by simp [Session.init], by simp [Session.init]⟩
    exact both.2

end ParentSlots

/-- Three operations: with a slot, with the same slot, and then with none while
nothing is emitted. -/
theorem parent_slot_isolation_one_slot : ∃ t : PlainSession,
    Run (Session.step ()) Session.OneAtATime (PlainSession.init (.single 3))
      [.start (some (.external 0)), .emitOn (.external 0) .typeAll, .complete,
        .start (some (.external 0)), .emitOn (.external 0) .typeTotal, .complete,
        .start none, .complete, .destroy] t ∧
    t.log.length = 5 ∧
    (ParentIsolated () t ↔ Run (Session.step ()) Session.SlotsKept (PlainSession.init (.single 3))
      [.start (some (.external 0)), .emitOn (.external 0) .typeAll, .complete,
        .start (some (.external 0)), .emitOn (.external 0) .typeTotal, .complete,
        .start none, .complete, .destroy] t) :=
  Run.instance_of_execute ⟨_, rfl, rfl⟩ fun _ path _ => parent_slot_isolation (by simp [handler]) path

/-- The slot of a finished operation cancels the one that follows it. -/
theorem finished_slot_cancels_next_operation :
    ¬ ∀ (events : List (Event Unit)) (t : PlainSession),
      Run (Session.step ()) Session.OneAtATime (PlainSession.init (.single 3)) events t →
      ParentIsolated () t := by
  intro isolated
  obtain ⟨t, path, broken⟩ : ∃ t, Run (Session.step ()) Session.OneAtATime
      (PlainSession.init (.single 3))
      [.start (some (.external 0)), .complete, .start (some (.external 1)),
        .emitOn (.external 0) .typeAll] t ∧ ¬ ∀ e ∈ t.log, e.FromOwnSlot :=
    Run.exists_of_execute ⟨_, rfl, by decide⟩
  exact broken (isolated _ t path).forwarded

end BoostTest.Timeout
