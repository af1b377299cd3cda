import BoostTest.Asio.Timer
import BoostTest.Asio.Cancellation

/-! `timeout_provider` and its completion handler from asio_timeout.hpp. Each
member function is a function of the provider and of the handlers installed in
cancellation slots. A `fire_*` function is cut at its call of `timeout.emit`,
because the operation may complete and the next one start inside that call. -/
namespace BoostTest.Timeout
open Asio Asio.CancellationType

/-- The slots a program has: those of signals of its own, and that of the
`timeout` member of each provider. -/
inductive Slot (ι : Type) where
  | external (id : Nat)
  | timeout (provider : ι)
  deriving DecidableEq, Repr

/-- What is installed in a slot: the lambda `arm` assigns to the parent slot,
or the cancellation handler of an operation. -/
inductive Callback (ι : Type) where
  | forward (provider : ι)
  | operation (id : Nat)
  deriving DecidableEq, Repr

def Callback.invoke : Callback ι → CancellationType → (Slot ι × CancellationType) ⊕ (Nat × CancellationType)
  | .forward provider, ct => .inl (.timeout provider, ct)
  | .operation id, ct => .inr (id, ct)

/-- The three lambdas passed to `async_wait`, named by the enclosing function. -/
inductive WaitBody where
  | arm
  | fireTotal
  | firePartial
  deriving DecidableEq, Repr

/-- The tag records where a wait comes from. No function below reads it. -/
structure WaitHandler (γ : Type) where
  body : WaitBody
  tag : γ
  deriving DecidableEq, Repr

structure TimeoutProvider (τ ι : Type) where
  tim : τ
  ttTotal : Int
  ttPartial : Int
  ttTerminal : Int
  emitAll : Bool
  parent : Option (Slot ι)
  lastFired : CancellationType

/-- The two constructors, without the executor. -/
inductive Construction where
  | escalating (ttTotal ttPartial ttTerminal : Int)
  | single (ttTotal : Int)
  deriving DecidableEq, Repr

/-- A `fire_*` function: the type it assigns to `last_fired` and emits, and
the duration and lambda of the wait it starts after the emission, if any. -/
structure FireBody where
  emits : CancellationType
  rearm : Option (Int × WaitBody)
  deriving DecidableEq, Repr

variable {τ γ σ ι : Type} [SteadyTimer τ (WaitHandler γ)]
  [CancellationSlots σ (Slot ι) (Callback ι)]

open SteadyTimer CancellationSlots

def Construction.build : Construction → TimeoutProvider τ ι
  | .escalating ttTotal ttPartial ttTerminal =>
    { tim := fresh, ttTotal, ttPartial, ttTerminal, emitAll := false,
      parent := none, lastFired := typeNone }
  | .single ttTotal =>
    { tim := fresh, ttTotal, ttPartial := 0, ttTerminal := 0, emitAll := true,
      parent := none, lastFired := typeNone }

namespace Construction

def ttTotal : Construction → Int
  | .escalating ttTotal _ _ | .single ttTotal => ttTotal

def ttPartial : Construction → Int
  | .escalating _ ttPartial _ => ttPartial
  | .single _ => 0

def ttTerminal : Construction → Int
  | .escalating _ _ ttTerminal => ttTerminal
  | .single _ => 0

def emitAll : Construction → Bool
  | .escalating _ _ _ => false
  | .single _ => true

/-- The type that the wait started by `arm` emits. -/
def firstStage (c : Construction) : CancellationType :=
  if c.emitAll then typeAll else typeTotal

/-- The type after which no wait is started. -/
def lastStage (c : Construction) : CancellationType :=
  if c.emitAll then typeAll else typeTerminal

/-- The members that no function changes after construction. -/
structure Configures (c : Construction) (p : TimeoutProvider τ ι) : Prop where
  ttTotal : p.ttTotal = c.ttTotal
  ttPartial : p.ttPartial = c.ttPartial
  ttTerminal : p.ttTerminal = c.ttTerminal
  emitAll : p.emitAll = c.emitAll

theorem Configures.keep {c : Construction} {p : TimeoutProvider τ ι} (configured : c.Configures p)
    (tim : τ) (parent : Option (Slot ι)) (lastFired : CancellationType) :
    c.Configures { p with tim, parent, lastFired } :=
  ⟨configured.ttTotal, configured.ttPartial, configured.ttTerminal, configured.emitAll⟩

theorem build_configures (c : Construction) : c.Configures (c.build : TimeoutProvider τ ι) := by
  cases c <;> exact ⟨rfl, rfl, rfl, rfl⟩

@[simp] theorem build_tim (c : Construction) : (c.build : TimeoutProvider τ ι).tim = fresh := by
  cases c <;> rfl

@[simp] theorem build_parent (c : Construction) : (c.build : TimeoutProvider τ ι).parent = none := by
  cases c <;> rfl

@[simp] theorem build_lastFired (c : Construction) :
    (c.build : TimeoutProvider τ ι).lastFired = typeNone := by
  cases c <;> rfl

end Construction

namespace TimeoutProvider

def fireTotal (p : TimeoutProvider τ ι) : FireBody :=
  ⟨typeTotal, some (p.ttPartial, .fireTotal)⟩

def firePartial (p : TimeoutProvider τ ι) : FireBody :=
  ⟨typePartial, some (p.ttTerminal, .firePartial)⟩

def fireTerminal : FireBody := ⟨typeTerminal, none⟩

def fireAll : FireBody := ⟨typeAll, none⟩

/-- What the lambda of a wait calls when its error code is clear. -/
def onWait (p : TimeoutProvider τ ι) : WaitBody → FireBody
  | .arm => if p.emitAll then fireAll else p.fireTotal
  | .fireTotal => p.firePartial
  | .firePartial => fireTerminal

/-- The assignment that is the argument of `timeout.emit`. -/
def beginFire (p : TimeoutProvider τ ι) (body : FireBody) : TimeoutProvider τ ι :=
  { p with lastFired := body.emits }

/-- The rest of a `fire_*` function, after `timeout.emit` has returned. -/
def finishFire (p : TimeoutProvider τ ι) (body : FireBody) (now : Int) (tag : γ) :
    TimeoutProvider τ ι :=
  match body.rearm with
  | some (duration, lambda) =>
    { p with tim := asyncWait (expiresAfter p.tim now duration) ⟨lambda, tag⟩ }
  | none => p

def arm (self : ι) (p : TimeoutProvider τ ι) (slots : σ) (now : Int) (tag : γ) :
    TimeoutProvider τ ι × σ :=
  let p := { p with lastFired := typeNone, tim := expiresAfter p.tim now p.ttTotal }
  let slots := match p.parent with
    | some parent => assign slots parent (.forward self)
    | none => slots
  ({ p with tim := asyncWait p.tim ⟨.arm, tag⟩ }, slots)

/-- `init_wrapper::operator()` up to the call of the inner initiation; `sl` is
the cancellation slot associated with the handler it is given. -/
def initWrapper (self : ι) (p : TimeoutProvider τ ι) (slots : σ) (sl : Option (Slot ι))
    (now : Int) (tag : γ) : TimeoutProvider τ ι × σ :=
  let p := if sl.isSome then { p with parent := sl } else p
  p.arm self slots now tag

/-- `with_timeout_binder::operator()` up to the call of the inner handler. -/
def binderCancel (p : TimeoutProvider τ ι) : TimeoutProvider τ ι :=
  { p with tim := cancel p.tim }

/-- The destructor: its body, then that of the timer. -/
def destroy (p : TimeoutProvider τ ι) (slots : σ) : TimeoutProvider τ ι × σ :=
  let slots := match p.parent with
    | some parent => clear slots parent
    | none => slots
  ({ p with tim := cancel p.tim }, slots)

section Observations
variable (self : ι) (p : TimeoutProvider τ ι) (slots : σ) (sl : Option (Slot ι)) (now : Int) (tag : γ)

/-- The slot that the next `arm` hooks. -/
def nextParent : Option (Slot ι) := if sl.isSome then sl else p.parent

theorem initWrapper_fst : (p.initWrapper self slots sl now tag).1 =
    { p with
      parent := p.nextParent sl
      lastFired := typeNone
      tim := asyncWait (expiresAfter p.tim now p.ttTotal) ⟨.arm, tag⟩ } := by
  cases sl <;> rfl

theorem initWrapper_snd : (p.initWrapper self slots sl now tag).2 =
    match p.nextParent sl with
    | some parent => assign slots parent (.forward self)
    | none => slots := by
  cases sl <;> rfl

theorem initWrapper_handler (slot : Slot ι) [DecidableEq ι] :
    handler (p.initWrapper self slots sl now tag).2 slot =
      if p.nextParent sl = some slot then some (.forward self) else handler slots slot := by
  rw [initWrapper_snd]
  cases parent : p.nextParent sl with
  | none => simp
  | some target => simp only [handler_assign_eq, Option.some.injEq]

theorem destroy_handler (slot : Slot ι) [DecidableEq ι] :
    handler (p.destroy slots).2 slot =
      if p.parent = some slot then none else handler slots slot := by
  unfold destroy
  cases parent : p.parent with
  | none => simp
  | some target => simp only [handler_clear_eq, Option.some.injEq]

@[simp] theorem finishFire_parent (body : FireBody) :
    (p.finishFire body now tag).parent = p.parent := by
  unfold finishFire; split <;> rfl

theorem finishFire_rearm {body : FireBody} (rearms : body.rearm = some (duration, lambda)) :
    p.finishFire body now tag =
      { p with tim := asyncWait (expiresAfter p.tim now duration) ⟨lambda, tag⟩ } := by
  simp only [finishFire, rearms]

end Observations
end TimeoutProvider
end BoostTest.Timeout
