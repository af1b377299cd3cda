import BoostTest.Transition
import BoostTest.Timeout.Provider

/-! Stacks of the completion token adapters `with_timeout` and `as_result`.
The initiation given to the inner token is wrapped by each layer in turn, so
the layer nearest the base token runs first, and the handler that reaches the
operation is assembled from the base token's handler outwards. -/
namespace BoostTest.Token
open Asio Timeout SteadyTimer CancellationSlots

/-- The handler that a base token produces, by what is associated with it. -/
structure BaseHandler (ι E A : Type) where
  slot : Option (Slot ι)
  executor : Option E
  allocator : Option A
  deriving DecidableEq, Repr

inductive CompletionToken (ι E A : Type) where
  | base (handler : BaseHandler ι E A)
  | withTimeout (provider : ι) (token : CompletionToken ι E A)
  | asResult (token_ : CompletionToken ι E A)
  deriving DecidableEq, Repr

inductive Handler (ι E A : Type) where
  | base (handler : BaseHandler ι E A)
  | withTimeoutBinder (provider : ι) (handler : Handler ι E A)
  | outcomeResultHandler (handler_ : Handler ι E A)
  deriving DecidableEq, Repr

variable {τ σ ι E A D : Type}

namespace Handler

/-- An associator that each adapter forwards to the handler it holds; the
default candidate is used where the base handler has nothing of its own. -/
def associated (own : BaseHandler ι E A → Option D) : Handler ι E A → D → D
  | .base handler, c => (own handler).getD c
  | .withTimeoutBinder _ handler, c => handler.associated own c
  | .outcomeResultHandler handler_, c => handler_.associated own c

def associatedExecutor : Handler ι E A → E → E := associated BaseHandler.executor

def associatedAllocator : Handler ι E A → A → A := associated BaseHandler.allocator

/-- `get_associated_cancellation_slot`. The trait is specialized for
`with_timeout_binder` and not for `outcome_result_handler`, whose slot is
therefore the unconnected default. -/
def associatedCancellationSlot : Handler ι E A → Option (Slot ι)
  | .base handler => handler.slot
  | .withTimeoutBinder provider _ => some (.timeout provider)
  | .outcomeResultHandler _ => none

end Handler

namespace CompletionToken

def baseHandler : CompletionToken ι E A → BaseHandler ι E A
  | .base handler => handler
  | .withTimeout _ token => token.baseHandler
  | .asResult token_ => token_.baseHandler

/-- The providers of the stack, outermost layer first. -/
def providers : CompletionToken ι E A → List ι
  | .base _ => []
  | .withTimeout provider token => provider :: token.providers
  | .asResult token_ => token_.providers

def asResults : CompletionToken ι E A → Nat
  | .base _ => 0
  | .withTimeout _ token => token.asResults
  | .asResult token_ => token_.asResults + 1

/-- The handler that the operation is given. -/
def handler : CompletionToken ι E A → Handler ι E A
  | .base handler => .base handler
  | .withTimeout provider token => .withTimeoutBinder provider token.handler
  | .asResult token_ => .outcomeResultHandler token_.handler

end CompletionToken

/-- All providers of the program and the handlers installed in its slots. -/
structure World (τ σ ι : Type) where
  now : Int
  providers : ι → TimeoutProvider τ ι
  slots : σ

inductive Exit where
  | returned
  | threw
  deriving DecidableEq, Repr

/-- Where an initiation throws: in a layer on the way into the next
initiation, or in that of the operation, before or after it has installed its
cancellation handler. -/
structure Faults (ι : Type) where
  layer : ι → Bool
  beforeInstall : Bool
  afterInstall : Bool

def Faults.none : Faults ι := ⟨fun _ => false, false, false⟩

namespace World
variable [DecidableEq ι]

def setProvider (w : World τ σ ι) (provider : ι) (p : TimeoutProvider τ ι) : World τ σ ι :=
  { w with providers := fun other => if other = provider then p else w.providers other }

@[simp] theorem setProvider_slots (w : World τ σ ι) (provider : ι) (p : TimeoutProvider τ ι) :
    (w.setProvider provider p).slots = w.slots := rfl

@[simp] theorem setProvider_same (w : World τ σ ι) (provider : ι) (p : TimeoutProvider τ ι) :
    (w.setProvider provider p).providers provider = p := if_pos rfl

theorem setProvider_other (w : World τ σ ι) (p : TimeoutProvider τ ι) (different : other ≠ provider) :
    (w.setProvider provider p).providers other = w.providers other := if_neg different

/-- The operation installs its cancellation handler in the associated slot. -/
def install [CancellationSlots σ (Slot ι) (Callback ι)] (w : World τ σ ι) (id : Nat)
    (handler : Handler ι E A) : World τ σ ι :=
  match handler.associatedCancellationSlot with
  | some slot => { w with slots := assign w.slots slot (.operation id) }
  | none => w

theorem install_handler [CancellationSlots σ (Slot ι) (Callback ι)] (w : World τ σ ι) (id : Nat)
    (handler : Handler ι E A) (slot : Slot ι) :
    CancellationSlots.handler (w.install id handler).slots slot =
      if handler.associatedCancellationSlot = some slot then some (.operation id)
      else CancellationSlots.handler w.slots slot := by
  unfold install
  cases associated : handler.associatedCancellationSlot with
  | none => simp
  | some target => simp only [handler_assign_eq, Option.some.injEq]

end World

variable [DecidableEq ι] [SteadyTimer τ (WaitHandler Unit)]
  [CancellationSlots σ (Slot ι) (Callback ι)]

/-- `init_wrapper::operator()` up to the inner initiation. -/
def World.prepare (w : World τ σ ι) (provider : ι) (handler : Handler ι E A) : World τ σ ι :=
  let (p, slots) := (w.providers provider).initWrapper provider w.slots
    handler.associatedCancellationSlot w.now ()
  { w.setProvider provider p with slots }

/-- An initiation: what it does with the handler it is given. -/
abbrev Initiation (τ σ ι E A : Type) := Handler ι E A → World τ σ ι → Exit × World τ σ ι

def initWrapper (faults : Faults ι) (provider : ι) (initiation : Initiation τ σ ι E A) :
    Initiation τ σ ι E A :=
  fun handler w =>
    let w := w.prepare provider handler
    if faults.layer provider then (.threw, w)
    else initiation (.withTimeoutBinder provider handler) w

/-- `async_result::initiate` of each token; the base token runs the initiation
with its own handler. -/
def CompletionToken.initiate (faults : Faults ι) :
    CompletionToken ι E A → Initiation τ σ ι E A → World τ σ ι → Exit × World τ σ ι
  | .base handler, init => init (.base handler)
  | .withTimeout provider token, init => token.initiate faults (initWrapper faults provider init)
  | .asResult token_, init =>
    token_.initiate faults fun handler => init (.outcomeResultHandler handler)

/-- The initiation of an operation that can be cancelled. -/
def startOperation (faults : Faults ι) (id : Nat) : Initiation τ σ ι E A := fun handler w =>
  if faults.beforeInstall then (.threw, w)
  else (if faults.afterInstall then .threw else .returned, w.install id handler)

def CompletionToken.start (token : CompletionToken ι E A) (faults : Faults ι) (id : Nat)
    (w : World τ σ ι) : Exit × World τ σ ι :=
  token.initiate faults (startOperation faults id) w

inductive Event (ι : Type) where
  | tick (time : Int)
  /-- The reactor finds that the expiry of this provider's timer has passed. -/
  | expire (provider : ι)
  /-- The executor runs the first queued wait handler of this provider. -/
  | runHandler (provider : ι)
  deriving DecidableEq, Repr

namespace World

/-- The lambda of a wait, emission included. What the emission reaches depends
on the slots alone. -/
def runHandler (w : World τ σ ι) (provider : ι) (h : WaitHandler Unit) :
    WaitStatus → World τ σ ι
  | .success =>
    let p := w.providers provider
    let body := p.onWait h.body
    let p := { p with tim := pop p.tim }
    w.setProvider provider ((p.beginFire body).finishFire body w.now ())
  | .operationAborted =>
    let p := w.providers provider
    w.setProvider provider { p with tim := pop p.tim }

/-- What can happen while no operation starts or completes. -/
def step (w : World τ σ ι) : Event ι → Option (World τ σ ι)
  | .tick time => if w.now ≤ time then some { w with now := time } else none
  | .expire provider =>
    let p := w.providers provider
    match expiry p.tim with
    | some expiry =>
      if expiry ≤ w.now then some (w.setProvider provider { p with tim := SteadyTimer.expire p.tim })
      else none
    | none => none
  | .runHandler provider =>
    match queued (w.providers provider).tim with
    | (h, status) :: _ => some (w.runHandler provider h status)
    | [] => none

def Always (_ : World τ σ ι) (_ : Event ι) : Prop := True

instance (w : World τ σ ι) (event : Event ι) : Decidable (w.Always event) := .isTrue trivial

omit [CancellationSlots σ (Slot ι) (Callback ι)] in
/-- Only initiations change the handlers in the slots. -/
theorem step_slots {w w' : World τ σ ι} (stepped : w.step event = some w') :
    w'.slots = w.slots := by
  cases event with
  | tick time =>
    simp only [step, Option.ite_none_right_eq_some, Option.some.injEq] at stepped
    rw [← stepped.2]
  | expire provider =>
    simp only [step] at stepped
    split at stepped
    · simp only [Option.ite_none_right_eq_some, Option.some.injEq] at stepped
      rw [← stepped.2, setProvider_slots]
    · contradiction
  | runHandler provider =>
    simp only [step] at stepped
    split at stepped
    · rename_i h status rest head
      cases Option.some.inj stepped
      cases status <;> rfl
    · contradiction

section Prepare
variable (w : World τ σ ι) (handler : Handler ι E A)

theorem prepare_provider (provider : ι) : (w.prepare provider handler).providers provider =
    { w.providers provider with
      parent := (w.providers provider).nextParent handler.associatedCancellationSlot
      lastFired := CancellationType.typeNone
      tim := asyncWait (expiresAfter (w.providers provider).tim w.now (w.providers provider).ttTotal)
        ⟨.arm, ()⟩ } := by
  rw [← TimeoutProvider.initWrapper_fst provider _ w.slots]
  exact if_pos rfl

theorem prepare_other (different : other ≠ provider) :
    (w.prepare provider handler).providers other = w.providers other := if_neg different

theorem prepare_handler (provider : ι) (slot : Slot ι) :
    CancellationSlots.handler (w.prepare provider handler).slots slot =
      if (w.providers provider).nextParent handler.associatedCancellationSlot = some slot then
        some (.forward provider)
      else CancellationSlots.handler w.slots slot :=
  TimeoutProvider.initWrapper_handler provider _ w.slots _ w.now () slot

end Prepare

end World

namespace CompletionToken

/-- What all layers together do before the operation's own initiation. -/
def arm : CompletionToken ι E A → World τ σ ι → World τ σ ι
  | .base _, w => w
  | .withTimeout provider token, w => (token.arm w).prepare provider token.handler
  | .asResult token_, w => token_.arm w

/-- The nested wrappers unfold into the layers in order, base first. -/
theorem initiate_eq (faults : Faults ι) (token : CompletionToken ι E A)
    (sound : ∀ provider ∈ token.providers, faults.layer provider = false)
    (init : Initiation τ σ ι E A) (w : World τ σ ι) :
    token.initiate faults init w = init token.handler (token.arm w) := by
  induction token generalizing init with
  | base handler => rfl
  | withTimeout provider token ih =>
    obtain ⟨here, below⟩ := List.forall_mem_cons.mp sound
    rw [initiate, ih below]
    simp [initWrapper, here, handler, arm]
  | asResult token_ ih => exact ih sound _

theorem start_eq (token : CompletionToken ι E A) (id : Nat) (w : World τ σ ι) :
    token.start .none id w = (.returned, (token.arm w).install id token.handler) :=
  initiate_eq .none token (fun _ _ => rfl) _ w

theorem arm_provider (token : CompletionToken ι E A) (w : World τ σ ι)
    (outside : provider ∉ token.providers) :
    (token.arm w).providers provider = w.providers provider := by
  induction token with
  | base handler => rfl
  | withTimeout inner token ih =>
    obtain ⟨different, outside⟩ := List.ne_and_not_mem_of_not_mem_cons outside
    exact (World.prepare_other _ _ different).trans (ih outside)
  | asResult token_ ih => exact ih outside

/-- The layers install nothing but forwarders to their own providers. -/
theorem arm_handler (token : CompletionToken ι E A) (w : World τ σ ι) (slot : Slot ι) :
    (∃ provider ∈ token.providers,
      CancellationSlots.handler (token.arm w).slots slot = some (.forward provider)) ∨
    CancellationSlots.handler (token.arm w).slots slot = CancellationSlots.handler w.slots slot := by
  induction token with
  | base handler => exact .inr rfl
  | withTimeout provider token ih =>
    rw [arm, World.prepare_handler]
    split
    · exact .inl ⟨provider, List.mem_cons_self, rfl⟩
    · obtain ⟨other, member, forwards⟩ | kept := ih
      · exact .inl ⟨other, List.mem_cons_of_mem _ member, forwards⟩
      · exact .inr kept
  | asResult token_ ih => exact ih

end CompletionToken

/-- A world that evaluates, with providers named by numbers. -/
abbrev PlainWorld : Type := World (QueueTimer (WaitHandler Unit)) (Slot Nat → Option (Callback Nat)) Nat

/-- New providers with a total timeout of three, and no handler in any slot. -/
def PlainWorld.init : PlainWorld := ⟨0, fun _ => (Construction.single 3).build, fun _ => none⟩

/-- A base token whose handler is connected to a signal of the program. -/
def connectedBase : CompletionToken Nat Unit Unit := .base ⟨some (.external 0), none, none⟩

end BoostTest.Token
