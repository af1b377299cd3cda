import BoostTest.Token.Stack

/-! Initiations that throw. A layer arms its provider and hooks its parent slot
before it calls the next initiation, and nothing undoes this when the exception
passes: every layer that was entered stays armed. -/
namespace BoostTest.Token
open Asio Timeout SteadyTimer CancellationSlots

variable {τ σ ι E A : Type} [DecidableEq ι] [SteadyTimer τ (WaitHandler Unit)]
  [CancellationSlots σ (Slot ι) (Callback ι)]

/-- No wait of a provider of the stack is pending and no slot forwards to it. -/
structure Disarmed (token : CompletionToken ι E A) (w : World τ σ ι) : Prop where
  idle : ∀ provider ∈ token.providers, pending (w.providers provider).tim = []
  unhooked : ∀ provider ∈ token.providers, ∀ slot,
    handler w.slots slot ≠ some (.forward provider)

def World.Armed (w : World τ σ ι) (provider : ι) : Prop :=
  pending (w.providers provider).tim ≠ []

theorem World.prepare_armed (w : World τ σ ι) (provider : ι) (handler : Handler ι E A) :
    (w.prepare provider handler).Armed provider := by
  simp [Armed, prepare_provider]

theorem World.Armed.prepare {w : World τ σ ι} (armed : w.Armed provider) (other : ι)
    (handler : Handler ι E A) : (w.prepare other handler).Armed provider := by
  by_cases same : provider = other
  · subst same
    exact w.prepare_armed provider handler
  · unfold Armed at armed ⊢
    rwa [prepare_other _ _ same]

omit [DecidableEq ι] in
theorem World.Armed.install {w : World τ σ ι} (armed : w.Armed provider) (id : Nat)
    [DecidableEq ι] (handler : Handler ι E A) : (w.install id handler).Armed provider := by
  unfold World.install
  split <;> exact armed

namespace CompletionToken

/-- The layers that run, up to the first one from the base that throws. -/
def entered (faults : Faults ι) : CompletionToken ι E A → List ι
  | .base _ => []
  | .withTimeout provider token =>
    if token.providers.any faults.layer then token.entered faults
    else provider :: token.entered faults
  | .asResult token_ => token_.entered faults

def enter (faults : Faults ι) : CompletionToken ι E A → World τ σ ι → World τ σ ι
  | .base _, w => w
  | .withTimeout provider token, w =>
    if token.providers.any faults.layer then token.enter faults w
    else (token.enter faults w).prepare provider token.handler
  | .asResult token_, w => token_.enter faults w

/-- An initiation with faults: an exception skips the remaining layers. -/
theorem initiate_enter (faults : Faults ι) (token : CompletionToken ι E A)
    (init : Initiation τ σ ι E A) (w : World τ σ ι) :
    token.initiate faults init w =
      if token.providers.any faults.layer then (.threw, token.enter faults w)
      else init token.handler (token.enter faults w) := by
  induction token generalizing init with
  | base handler => rfl
  | withTimeout provider token ih =>
    rw [initiate, ih]
    cases inner : token.providers.any faults.layer with
    | true => simp [providers, enter, inner]
    | false =>
      cases here : faults.layer provider <;>
        simp [providers, enter, handler, initWrapper, inner, here]
  | asResult token_ ih => exact ih _

theorem enter_armed (faults : Faults ι) (token : CompletionToken ι E A) (w : World τ σ ι)
    (member : provider ∈ token.entered faults) : (token.enter faults w).Armed provider := by
  induction token with
  | base handler => cases member
  | withTimeout outer token ih =>
    rw [entered] at member
    rw [enter]
    split at member
    · rw [if_pos ‹_›]
      exact ih member
    · rw [if_neg ‹_›]
      obtain rfl | member := List.mem_cons.mp member
      · exact World.prepare_armed _ _ _
      · exact (ih member).prepare outer _
  | asResult token_ ih => exact ih member

omit [DecidableEq ι] in
theorem entered_subset (faults : Faults ι) (token : CompletionToken ι E A) :
    token.entered faults ⊆ token.providers := by
  induction token with
  | base handler => exact List.Subset.refl _
  | withTimeout provider token ih =>
    rw [entered]
    split
    · exact List.Subset.trans ih (List.subset_cons_self provider _)
    · exact List.cons_subset_cons provider ih
  | asResult token_ ih => exact ih

omit [DecidableEq ι] in
/-- The layer nearest the base is always entered. -/
theorem entered_ne_nil (faults : Faults ι) (token : CompletionToken ι E A)
    (layered : token.providers ≠ []) : token.entered faults ≠ [] := by
  induction token with
  | base handler => exact absurd rfl layered
  | withTimeout provider token ih =>
    rw [entered]
    split
    · apply ih
      intro bare
      simp [bare] at *
    · exact List.cons_ne_nil _ _
  | asResult token_ ih => exact ih layered

end CompletionToken

theorem start_entered {id : Nat} {w w' : World τ σ ι} (token : CompletionToken ι E A)
    (started : token.start faults id w = (exit, w')) (member : provider ∈ token.entered faults) :
    w'.Armed provider := by
  have armed := token.enter_armed faults w member
  rw [CompletionToken.start, CompletionToken.initiate_enter] at started
  split at started
  · cases started
    exact armed
  · rw [startOperation] at started
    split at started
    · cases started
      exact armed
    · cases started
      exact armed.install id _

/-- Whichever initiation throws, the stack is not disarmed afterwards. -/
theorem failed_initiation_armed {w w' : World τ σ ι} (token : CompletionToken ι E A)
    (layered : token.providers ≠ []) (faults : Faults ι) (id : Nat)
    (failed : token.start faults id w = (.threw, w')) : ¬ Disarmed token w' := by
  intro disarmed
  obtain ⟨provider, member⟩ := List.exists_mem_of_ne_nil _ (token.entered_ne_nil faults layered)
  apply start_entered token failed member
  exact disarmed.idle provider (token.entered_subset faults member)

/-- The outer of two layers throws after the inner one has been entered. -/
theorem failed_initiation_armed_two_layers :
    ¬ Disarmed (.withTimeout 0 (.withTimeout 1 connectedBase))
      ((CompletionToken.withTimeout 0 (.withTimeout 1 connectedBase)).start
        ⟨fun provider => provider = 0, false, false⟩ 7 PlainWorld.init).2 :=
  failed_initiation_armed _ (by decide) ⟨fun provider => provider = 0, false, false⟩ 7 rfl

/-- An operation throws instead of starting; the wait of the timeout stays
pending, later runs, and emits a cancellation. -/
theorem thrown_operation_times_out : ∃ w',
    (CompletionToken.withTimeout 0 connectedBase).start ⟨fun _ => false, true, false⟩ 7
      PlainWorld.init = (.threw, w') ∧
    Disarmed (.withTimeout 0 connectedBase) PlainWorld.init ∧
    ¬ Disarmed (.withTimeout 0 connectedBase) w' ∧
    handler w'.slots (.external 0) = some (.forward 0) ∧
    ∃ events later, Transition.Run World.step World.Always w' events later ∧
      (later.providers 0).lastFired = CancellationType.typeAll := by
  refine ⟨_, rfl, ⟨?_, ?_⟩, ?_, rfl, [.tick 3, .expire 0, .runHandler 0], ?_⟩
  · exact fun _ _ => rfl
  · exact fun _ _ _ => nofun
  · intro disarmed
    cases disarmed.idle 0 List.mem_cons_self
  · exact Transition.Run.exists_of_execute ⟨_, rfl, rfl⟩

end BoostTest.Token
