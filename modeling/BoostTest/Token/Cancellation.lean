import BoostTest.Token.Stack

/-! Which cancellations reach an operation started through a stack. Each
`with_timeout` layer hooks the slot that the handler below it offers and offers
the slot of its own signal, so forwarders lead from every slot of the stack to
the outermost one. An `as_result` layer offers no slot, and the way ends there. -/
namespace BoostTest.Token
open Asio Timeout SteadyTimer CancellationSlots

variable {τ σ ι E A : Type} [DecidableEq ι] [SteadyTimer τ (WaitHandler Unit)]
  [CancellationSlots σ (Slot ι) (Callback ι)]

/-- Every cancellation emitted on this slot is delivered to the operation once
and with its type. -/
def Delivers (w : World τ σ ι) (slot : Slot ι) (id : Nat) : Prop :=
  ∀ ct, Emits Callback.invoke w.slots slot ct [(id, ct)]

/-- The slot of the base handler and the signals of all timeouts deliver. -/
def Transparent (token : CompletionToken ι E A) (parent : Slot ι) (id : Nat) (w : World τ σ ι) :
    Prop :=
  Delivers w parent id ∧ ∀ provider ∈ token.providers, Delivers w (.timeout provider) id

/-- The parent slot is not a signal of the stack itself, nothing forwards to
its providers yet and the operation is a new one. -/
structure Unused (token : CompletionToken ι E A) (parent : Slot ι) (id : Nat) (w : World τ σ ι) :
    Prop where
  foreign : ∀ provider ∈ token.providers, parent ≠ .timeout provider
  orphaned : ∀ provider ∈ token.providers, (w.providers provider).parent = none
  unhooked : ∀ provider ∈ token.providers, ∀ slot,
    handler w.slots slot ≠ some (.forward provider)
  unstarted : ∀ slot, handler w.slots slot ≠ some (.operation id)

namespace CompletionToken

/-- The slots on which a cancellation can arrive. -/
def Entrance (token : CompletionToken ι E A) (parent slot : Slot ι) : Prop :=
  slot = parent ∨ ∃ provider ∈ token.providers, slot = .timeout provider

omit [DecidableEq ι] in
/-- Without `as_result` every layer offers a slot to the next one. -/
theorem outermost_slot (token : CompletionToken ι E A) (bare : token.asResults = 0)
    (connected : token.baseHandler.slot = some parent) :
    ∃ slot, token.handler.associatedCancellationSlot = some slot ∧ token.Entrance parent slot := by
  cases token with
  | base handler => exact ⟨parent, connected, .inl rfl⟩
  | withTimeout provider token =>
    exact ⟨.timeout provider, rfl, .inr ⟨provider, List.mem_cons_self, rfl⟩⟩
  | asResult token_ => simp [asResults] at bare

/-- Forwarders lead from every entrance to the slot that the operation is offered. -/
theorem arm_leads (token : CompletionToken ι E A) (w : World τ σ ι) (bare : token.asResults = 0)
    (connected : token.baseHandler.slot = some parent) (entrance : token.Entrance parent slot)
    (offered : token.handler.associatedCancellationSlot = some target) :
    Leads Callback.invoke (token.arm w).slots slot target := by
  induction token generalizing slot target with
  | base handler =>
    obtain rfl | ⟨_, member, _⟩ := entrance
    · cases connected.symm.trans offered
      exact .here
    · cases member
  | withTimeout provider token ih =>
    cases offered
    obtain ⟨inner, offers, _⟩ := token.outermost_slot bare connected
    have hooked : (arm (.withTimeout provider token) w).slots =
        assign (token.arm w).slots inner (.forward provider) := by
      rw [arm, World.prepare, offers]
      rfl
    by_cases own : slot = .timeout provider
    · subst own
      exact .here
    · have below : token.Entrance parent slot := by
        obtain same | ⟨other, member, rfl⟩ := entrance
        · exact .inl same
        · obtain rfl | member := List.mem_cons.mp member
          · exact absurd rfl own
          · exact .inr ⟨other, member, rfl⟩
      rw [hooked]
      apply Leads.trans ((ih bare connected below offers).assign (.forward provider))
      exact .forward (handler_assign _ _ _) (fun _ => rfl) .here
  | asResult token_ => simp [asResults] at bare

theorem start_transparent (token : CompletionToken ι E A) (w : World τ σ ι)
    (bare : token.asResults = 0) (connected : token.baseHandler.slot = some parent) (id : Nat) :
    Transparent token parent id (token.start .none id w).2 := by
  obtain ⟨target, offered, _⟩ := token.outermost_slot bare connected
  have delivers : ∀ slot, token.Entrance parent slot →
      Delivers (token.start .none id w).2 slot id := by
    intro slot entrance ct
    have installed : (token.start .none id w).2.slots =
        assign (token.arm w).slots target (.operation id) := by
      rw [start_eq, World.install, offered]
    have leads := (token.arm_leads w bare connected entrance offered).assign (.operation id)
    rw [installed]
    exact leads.emits (.receive (handler_assign _ _ _) rfl)
  exact ⟨delivers _ (.inl rfl), fun provider member => delivers _ (.inr ⟨provider, member, rfl⟩)⟩

/-- The providers of the layers around the outermost `as_result`. -/
def severed : CompletionToken ι E A → List ι
  | .base _ => []
  | .withTimeout provider token => provider :: token.severed
  | .asResult _ => []

omit [DecidableEq ι] in
theorem severed_subset (token : CompletionToken ι E A) : token.severed ⊆ token.providers := by
  induction token with
  | base handler => exact List.Subset.refl _
  | withTimeout provider token ih => exact List.cons_subset_cons provider ih
  | asResult token_ => exact List.nil_subset _

/-- A slot from which no emission gets past the outermost `as_result`. -/
def Outside (token : CompletionToken ι E A) (slot : Slot ι) : Prop :=
  ∀ provider ∈ token.severed, slot ≠ .timeout provider

omit [DecidableEq ι] in
theorem offered_severed (token : CompletionToken ι E A) (wrapped : token.asResults ≠ 0)
    (offered : token.handler.associatedCancellationSlot = some slot) :
    ∃ provider ∈ token.severed, slot = .timeout provider := by
  cases token with
  | base handler => exact absurd rfl wrapped
  | withTimeout provider token =>
    cases offered
    exact ⟨provider, List.mem_cons_self, rfl⟩
  | asResult token_ => cases offered

/-- No slot outside forwards to a provider that the `as_result` cuts off. -/
theorem arm_severs (token : CompletionToken ι E A) (w : World τ σ ι)
    (distinct : token.providers.Nodup) (wrapped : token.asResults ≠ 0)
    (orphaned : ∀ provider ∈ token.providers, (w.providers provider).parent = none)
    (unhooked : ∀ provider ∈ token.providers, ∀ slot,
      CancellationSlots.handler w.slots slot ≠ some (.forward provider))
    (outside : token.Outside slot) (cut : provider ∈ token.severed) :
    CancellationSlots.handler (token.arm w).slots slot ≠ some (.forward provider) := by
  induction token with
  | base handler => cases cut
  | withTimeout outer token ih =>
    obtain ⟨fresh, distinct⟩ := List.nodup_cons.mp distinct
    obtain ⟨orphan, orphaned⟩ := List.forall_mem_cons.mp orphaned
    obtain ⟨free, unhooked⟩ := List.forall_mem_cons.mp unhooked
    obtain ⟨_, outside⟩ := List.forall_mem_cons.mp outside
    rw [arm, World.prepare_handler]
    split
    · rename_i hooks
      cases offered : token.handler.associatedCancellationSlot with
      | none =>
        simp [TimeoutProvider.nextParent, offered, arm_provider token w fresh, orphan] at hooks
      | some inner =>
        rw [offered] at hooks
        cases hooks
        obtain ⟨other, member, same⟩ := token.offered_severed wrapped offered
        exact absurd same (outside other member)
    · obtain rfl | cut := List.mem_cons.mp cut
      · obtain ⟨other, member, forwards⟩ | kept := token.arm_handler w slot
        · rw [forwards]
          rintro ⟨⟩
          exact fresh member
        · rw [kept]
          exact free slot
      · exact ih distinct wrapped orphaned unhooked outside cut
  | asResult token_ => cases cut

theorem start_opaque {id : Nat} (token : CompletionToken ι E A) (w : World τ σ ι)
    (distinct : token.providers.Nodup) (wrapped : token.asResults ≠ 0)
    (unused : Unused token parent id w) (outside : token.Outside slot) :
    ¬ Delivers (token.start .none id w).2 slot id := by
  intro delivers
  have emits := delivers CancellationType.typeAll
  rw [start_eq] at emits
  have offset : ∀ {slot : Slot ι}, token.Outside slot →
      CancellationSlots.handler ((token.arm w).install id token.handler).slots slot =
        CancellationSlots.handler (token.arm w).slots slot := by
    intro slot outside
    rw [World.install_handler]
    apply if_neg
    intro offered
    obtain ⟨provider, member, same⟩ := token.offered_severed wrapped offered
    exact outside provider member same
  refine emits.confined (K := token.Outside) (P := (· ≠ id)) ?_ ?_ outside
    (id, CancellationType.typeAll) List.mem_cons_self rfl
  · intro slot f c next c' outside installed forwards
    rw [offset outside] at installed
    cases f with
    | operation other => cases forwards
    | forward target =>
      cases forwards
      rintro provider cut ⟨⟩
      exact token.arm_severs w distinct wrapped unused.orphaned unused.unhooked outside cut installed
  · intro slot f c r c' outside installed receives
    rw [offset outside] at installed
    cases f with
    | forward target => cases receives
    | operation other =>
      cases receives
      rintro rfl
      obtain ⟨_, _, forwards⟩ | kept := token.arm_handler w slot
      · cases forwards.symm.trans installed
      · exact unused.unstarted slot (kept.symm.trans installed)

end CompletionToken

omit [DecidableEq ι] [SteadyTimer τ (WaitHandler Unit)] in
theorem Delivers.exclusive {id : Nat} {w : World τ σ ι} (delivers : Delivers w slot id)
    (ct : CancellationType) (emits : Emits Callback.invoke w.slots slot ct received) : received = [(id, ct)] :=
  emits.unique (delivers ct)

omit [DecidableEq ι] [SteadyTimer τ (WaitHandler Unit)] in
theorem Transparent.of_slots {id : Nat} {w w' : World τ σ ι} {token : CompletionToken ι E A}
    (transparent : Transparent token parent id w) (kept : w'.slots = w.slots) :
    Transparent token parent id w' := by
  unfold Transparent Delivers at *
  rwa [kept]

/-- Cancellation transparency, at every moment while the operation is
outstanding. The stack has it exactly if no layer of it is `as_result`; with
one, providers used before could pass for connected through an old forwarder. -/
theorem cancellation_transparency (token : CompletionToken ι E A) (w : World τ σ ι) (id : Nat)
    (parent : Slot ι) (connected : token.baseHandler.slot = some parent)
    (distinct : token.providers.Nodup)
    (unused : token.asResults = 0 ∨ Unused token parent id w) :
    (∀ events w', Transition.Run World.step World.Always (token.start .none id w).2 events w' →
      Transparent token parent id w') ↔ token.asResults = 0 := by
  constructor
  · intro always
    by_cases bare : token.asResults = 0
    · exact bare
    · have unused := unused.resolve_left bare
      have outside : token.Outside parent := fun provider cut =>
        unused.foreign provider (token.severed_subset cut)
      have transparent := always [] _ (.refl _)
      exact absurd transparent.1 (token.start_opaque w distinct bare unused outside)
  · intro bare events w' run
    apply (token.start_transparent w bare connected id).of_slots
    exact run.invariant (P := fun reached => reached.slots = (token.start .none id w).2.slots)
      (fun kept _ stepped => (World.step_slots stepped).trans kept) rfl

/-- Two layers of `with_timeout`, after the timeout of the inner one has fired. -/
theorem cancellation_transparency_two_timeouts : ∃ w',
    Transition.Run World.step World.Always
      ((CompletionToken.withTimeout 0 (.withTimeout 1 connectedBase)).start .none 7
        PlainWorld.init).2 [.tick 3, .expire 1, .runHandler 1] w' ∧
    (w'.providers 1).lastFired = CancellationType.typeAll ∧
    Transparent (.withTimeout 0 (.withTimeout 1 connectedBase)) (.external 0) 7 w' :=
  Transition.Run.instance_of_execute ⟨_, rfl, rfl⟩ fun w' run _ =>
    (cancellation_transparency _ PlainWorld.init 7 (.external 0) rfl (by decide) (.inl rfl)).mpr rfl
      _ w' run

/-- Inside `as_result(timeout(t))` the operation is cancelled by nobody, and
inside `timeout(as_result(t))` not by the parent. -/
theorem as_result_cuts_off_parent :
    ¬ Transparent (.asResult (.withTimeout 0 connectedBase)) (.external 0) 7
      ((CompletionToken.asResult (.withTimeout 0 connectedBase)).start .none 7
        PlainWorld.init).2 ∧
    ¬ Transparent (.withTimeout 0 (.asResult connectedBase)) (.external 0) 7
      ((CompletionToken.withTimeout 0 (.asResult connectedBase)).start .none 7
        PlainWorld.init).2 := by
  constructor
  · intro transparent
    have nobody := transparent.2 0 List.mem_cons_self
    cases nobody.exclusive CancellationType.typeAll (.empty rfl)
  · intro transparent
    cases transparent.1.exclusive CancellationType.typeAll (.empty rfl)

end BoostTest.Token
