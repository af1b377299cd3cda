import BoostTest.Transition
import BoostTest.Timeout.Provider

/-! All interleavings of one `timeout_provider` with its operations, its timer
and the parent slots. Wait handlers run one at a time, never inside another
handler; everything else may happen inside the emission of a `fire_*` function.
The log and the tags of waits record the history and never decide a step. -/
namespace BoostTest.Timeout
open Asio SteadyTimer CancellationSlots TimeoutProvider

/-- Log positions: of the `arm` a wait descends from, and of the entry that
started this wait. -/
structure Provenance where
  origin : Nat
  cause : Nat
  deriving DecidableEq, Repr

/-- An operation is named by the log position of its `arm`. -/
structure Operation (ι : Type) where
  serial : Nat
  slot : Option (Slot ι)
  deriving DecidableEq, Repr

inductive Entry (ι : Type) where
  | armed (time : Int) (slot : Option (Slot ι))
  | emitted (time : Int) (ct : CancellationType) (source : Provenance) (during : Option (Operation ι))
  | rearmed (origin : Nat) (during : Option (Operation ι))
  | forwarded (slot : Slot ι) (ct : CancellationType) (during : Option (Operation ι))
  /-- A `fire_*` body ran on, after the provider it belongs to was destroyed. -/
  | dangling (origin : Nat)
  deriving DecidableEq, Repr

/-- A `fire_*` function inside its call of `timeout.emit`. -/
structure Firing where
  body : FireBody
  origin : Nat
  entry : Nat
  deriving DecidableEq, Repr

structure Session (τ σ ι : Type) where
  now : Int
  provider : TimeoutProvider τ ι
  slots : σ
  alive : Bool
  firing : Option Firing
  outstanding : Option (Operation ι)
  log : List (Entry ι)

inductive Event (ι : Type) where
  /-- The next operation is initiated by a handler with this associated slot. -/
  | start (slot : Option (Slot ι))
  /-- The reactor finds that the expiry has passed. -/
  | expire
  /-- The executor runs the first queued wait handler. -/
  | runHandler
  /-- `timeout.emit` returns to the `fire_*` function that called it. -/
  | emitReturn
  | complete
  | emitOn (slot : Slot ι) (ct : CancellationType)
  | tick (time : Int)
  | destroy
  deriving DecidableEq, Repr

variable {τ σ ι : Type} [DecidableEq ι] [SteadyTimer τ (WaitHandler Provenance)]
  [CancellationSlots σ (Slot ι) (Callback ι)]

namespace Session

def init (c : Construction) (slots : σ) (now : Int) : Session τ σ ι :=
  { now, provider := c.build, slots, alive := true, firing := none, outstanding := none, log := [] }

def start (self : ι) (s : Session τ σ ι) (slot : Option (Slot ι)) : Session τ σ ι :=
  let serial := s.log.length
  let (provider, slots) := s.provider.initWrapper self s.slots slot s.now (Provenance.mk serial serial)
  { s with
    provider, slots
    outstanding := some ⟨serial, slot⟩
    log := s.log ++ [.armed s.now slot] }

def expire (s : Session τ σ ι) : Session τ σ ι :=
  { s with provider := { s.provider with tim := SteadyTimer.expire s.provider.tim } }

/-- A wait handler with a clear error code, up to `timeout.emit`. -/
def fire (s : Session τ σ ι) (h : WaitHandler Provenance) : Session τ σ ι :=
  let body := s.provider.onWait h.body
  let provider := { s.provider with tim := pop s.provider.tim }
  { s with
    provider := provider.beginFire body
    firing := some ⟨body, h.tag.origin, s.log.length⟩
    log := s.log ++ [.emitted s.now body.emits h.tag s.outstanding] }

/-- The same handler when `this` no longer exists. -/
def dangle (s : Session τ σ ι) (h : WaitHandler Provenance) : Session τ σ ι :=
  { s with
    provider := { s.provider with tim := pop s.provider.tim }
    log := s.log ++ [.dangling h.tag.origin] }

/-- A wait handler whose error code is set returns at once. -/
def discard (s : Session τ σ ι) : Session τ σ ι :=
  { s with provider := { s.provider with tim := pop s.provider.tim } }

def runHandler (s : Session τ σ ι) (h : WaitHandler Provenance) : WaitStatus → Session τ σ ι
  | .success => if s.alive then s.fire h else s.dangle h
  | .operationAborted => s.discard

/-- The continuation of a `fire_*` function with a wait to start. -/
def rearm (s : Session τ σ ι) (f : Firing) : Session τ σ ι :=
  { s with
    provider := s.provider.finishFire f.body s.now (Provenance.mk f.origin f.entry)
    firing := none
    log := s.log ++ [.rearmed f.origin s.outstanding] }

def emitReturn (s : Session τ σ ι) (f : Firing) : Session τ σ ι :=
  if f.body.rearm.isSome then
    if s.alive then s.rearm f
    else { s with firing := none, log := s.log ++ [.dangling f.origin] }
  else { s with firing := none }

def complete (s : Session τ σ ι) : Session τ σ ι :=
  { s with provider := s.provider.binderCancel, outstanding := none }

def emitOn (self : ι) (s : Session τ σ ι) (slot : Slot ι) (ct : CancellationType) : Session τ σ ι :=
  if handler s.slots slot = some (.forward self) then
    { s with log := s.log ++ [.forwarded slot ct s.outstanding] }
  else s

def destroy (s : Session τ σ ι) : Session τ σ ι :=
  let (provider, slots) := s.provider.destroy s.slots
  { s with provider, slots, alive := false }

def step (self : ι) (s : Session τ σ ι) : Event ι → Option (Session τ σ ι)
  | .start slot => if s.alive then some (s.start self slot) else none
  | .expire =>
    match expiry s.provider.tim with
    | some expiry => if s.alive ∧ expiry ≤ s.now then some s.expire else none
    | none => none
  | .runHandler =>
    match s.firing, queued s.provider.tim with
    | none, (h, status) :: _ => some (s.runHandler h status)
    | _, _ => none
  | .emitReturn => s.firing.map s.emitReturn
  | .complete => if s.alive then some s.complete else none
  | .emitOn slot ct => some (s.emitOn self slot ct)
  | .tick time => if s.now ≤ time then some { s with now := time } else none
  | .destroy => if s.alive then some s.destroy else none

/-- Nothing is assumed of the callers. -/
def Unrestricted (_ : Session τ σ ι) (_ : Event ι) : Prop := True

instance (s : Session τ σ ι) (event : Event ι) : Decidable (s.Unrestricted event) := .isTrue trivial

/-- Operations go through the provider one at a time, and it outlives them. -/
def OneAtATime (s : Session τ σ ι) : Event ι → Prop
  | .start _ => s.outstanding = none
  | .complete => s.outstanding.isSome = true
  | .destroy => s.outstanding = none
  | _ => True

instance (s : Session τ σ ι) (event : Event ι) : Decidable (s.OneAtATime event) := by
  cases event <;> simp only [OneAtATime] <;> infer_instance

omit [DecidableEq ι] in
/-- The timer and the wait that `start` leaves behind. -/
theorem start_provider (self : ι) (s : Session τ σ ι) (slot : Option (Slot ι)) :
    (s.start self slot).provider =
      { s.provider with
        parent := s.provider.nextParent slot
        lastFired := CancellationType.typeNone
        tim := asyncWait (expiresAfter s.provider.tim s.now s.provider.ttTotal)
          ⟨.arm, ⟨s.log.length, s.log.length⟩⟩ } :=
  initWrapper_fst self s.provider s.slots slot s.now _

omit [DecidableEq ι] in
/-- One wait is pending after `start`, whatever was pending before. -/
theorem start_pending (self : ι) (s : Session τ σ ι) (slot : Option (Slot ι)) :
    pending (s.start self slot).provider.tim = [⟨.arm, ⟨s.log.length, s.log.length⟩⟩] := by
  rw [start_provider, pending_asyncWait, pending_expiresAfter, List.nil_append]

omit [DecidableEq ι] in
theorem start_ready (self : ι) (s : Session τ σ ι) (slot : Option (Slot ι)) :
    ready (s.start self slot).provider.tim = ready s.provider.tim := by
  rw [start_provider, ready_asyncWait, ready_expiresAfter]

section Rearm
variable (s : Session τ σ ι) {f : Firing}

omit [DecidableEq ι] [CancellationSlots σ (Slot ι) (Callback ι)] in
theorem rearm_provider (wait : f.body.rearm = some (duration, lambda)) :
    (s.rearm f).provider =
      { s.provider with
        tim := asyncWait (expiresAfter s.provider.tim s.now duration) ⟨lambda, ⟨f.origin, f.entry⟩⟩ } :=
  finishFire_rearm s.provider s.now _ wait

omit [DecidableEq ι] [CancellationSlots σ (Slot ι) (Callback ι)] in
theorem rearm_pending (wait : f.body.rearm = some (duration, lambda)) :
    pending (s.rearm f).provider.tim = [⟨lambda, ⟨f.origin, f.entry⟩⟩] := by
  rw [s.rearm_provider wait, pending_asyncWait, pending_expiresAfter, List.nil_append]

omit [DecidableEq ι] [CancellationSlots σ (Slot ι) (Callback ι)] in
theorem rearm_ready (wait : f.body.rearm = some (duration, lambda)) :
    ready (s.rearm f).provider.tim = ready s.provider.tim := by
  rw [s.rearm_provider wait, ready_asyncWait, ready_expiresAfter]

end Rearm

/-- What one step can do, one rule for each way through the code. -/
inductive Stepped (self : ι) (s : Session τ σ ι) : Event ι → Session τ σ ι → Prop where
  | start (alive : s.alive = true) : Stepped self s (.start slot) (s.start self slot)
  | expire (alive : s.alive = true) (armed : expiry s.provider.tim = some e) (due : e ≤ s.now) :
      Stepped self s .expire s.expire
  | discard (idle : s.firing = none)
      (head : queued s.provider.tim = (h, .operationAborted) :: rest) :
      Stepped self s .runHandler s.discard
  | fire (idle : s.firing = none) (head : queued s.provider.tim = (h, .success) :: rest)
      (alive : s.alive = true) : Stepped self s .runHandler (s.fire h)
  | dangle (idle : s.firing = none) (head : queued s.provider.tim = (h, .success) :: rest)
      (dead : s.alive = false) : Stepped self s .runHandler (s.dangle h)
  | rearm (inside : s.firing = some f) (wait : f.body.rearm = some (duration, lambda))
      (alive : s.alive = true) : Stepped self s .emitReturn (s.rearm f)
  | rearmDangling (inside : s.firing = some f) (wait : f.body.rearm = some (duration, lambda))
      (dead : s.alive = false) : Stepped self s .emitReturn
        { s with firing := none, log := s.log ++ [.dangling f.origin] }
  | finish (inside : s.firing = some f) (last : f.body.rearm = none) :
      Stepped self s .emitReturn { s with firing := none }
  | complete (alive : s.alive = true) : Stepped self s .complete s.complete
  | forward (hooked : handler s.slots slot = some (.forward self)) :
      Stepped self s (.emitOn slot ct) { s with log := s.log ++ [.forwarded slot ct s.outstanding] }
  | ignore (free : handler s.slots slot ≠ some (.forward self)) : Stepped self s (.emitOn slot ct) s
  | tick (later : s.now ≤ time) : Stepped self s (.tick time) { s with now := time }
  | destroy (alive : s.alive = true) : Stepped self s .destroy s.destroy

theorem Stepped.of_step {self : ι} {s t : Session τ σ ι} (stepped : step self s event = some t) :
    Stepped self s event t := by
  cases event with
  | start slot =>
    simp only [step, Option.ite_none_right_eq_some, Option.some.injEq] at stepped
    obtain ⟨alive, rfl⟩ := stepped
    exact .start alive
  | expire =>
    simp only [step] at stepped
    split at stepped
    · rename_i e armed
      simp only [Option.ite_none_right_eq_some, Option.some.injEq] at stepped
      obtain ⟨⟨alive, due⟩, rfl⟩ := stepped
      exact .expire alive armed due
    · contradiction
  | runHandler =>
    simp only [step] at stepped
    split at stepped
    · rename_i h status rest idle head
      cases Option.some.inj stepped
      cases status with
      | operationAborted => exact .discard idle head
      | success =>
        cases alive : s.alive with
        | true => simpa only [runHandler, alive, if_true] using Stepped.fire idle head alive
        | false =>
          simpa only [runHandler, alive, Bool.false_eq_true, if_false] using
            Stepped.dangle idle head alive
    · contradiction
  | emitReturn =>
    simp only [step, Option.map_eq_some_iff] at stepped
    obtain ⟨f, inside, rfl⟩ := stepped
    cases wait : f.body.rearm with
    | none => simpa [emitReturn, wait] using Stepped.finish inside wait
    | some pair =>
      cases alive : s.alive with
      | true => simpa [emitReturn, wait, alive] using Stepped.rearm inside wait alive
      | false => simpa [emitReturn, wait, alive] using Stepped.rearmDangling inside wait alive
  | complete =>
    simp only [step, Option.ite_none_right_eq_some, Option.some.injEq] at stepped
    obtain ⟨alive, rfl⟩ := stepped
    exact .complete alive
  | emitOn slot ct =>
    simp only [step, Option.some.injEq] at stepped
    subst stepped
    by_cases hooked : handler s.slots slot = some (.forward self)
    · simpa only [emitOn, if_pos hooked] using Stepped.forward hooked
    · simpa only [emitOn, if_neg hooked] using Stepped.ignore hooked
  | tick time =>
    simp only [step, Option.ite_none_right_eq_some, Option.some.injEq] at stepped
    obtain ⟨later, rfl⟩ := stepped
    exact .tick later
  | destroy =>
    simp only [step, Option.ite_none_right_eq_some, Option.some.injEq] at stepped
    obtain ⟨alive, rfl⟩ := stepped
    exact .destroy alive

/-- The rules describe the step function exactly. -/
theorem stepped_iff {self : ι} {s t : Session τ σ ι} :
    step self s event = some t ↔ Stepped self s event t := by
  refine ⟨Stepped.of_step, ?_⟩
  intro stepped
  cases stepped with
  | start alive => simp [step, alive]
  | expire alive armed due => simp [step, alive, armed, due]
  | discard idle head => simp [step, idle, head, runHandler]
  | fire idle head alive => simp [step, idle, head, runHandler, alive]
  | dangle idle head dead => simp [step, idle, head, runHandler, dead]
  | rearm inside wait alive => simp [step, inside, emitReturn, wait, alive]
  | rearmDangling inside wait dead => simp [step, inside, emitReturn, wait, dead]
  | finish inside last => simp [step, inside, emitReturn, last]
  | complete alive => simp [step, alive]
  | forward hooked => simp [step, emitOn, hooked]
  | ignore free => simp [step, emitOn, free]
  | tick later => simp [step, later]
  | destroy alive => simp [step, alive]

end Session

/-- A session that evaluates: the timer and the slots are their own observations. -/
abbrev PlainSession : Type :=
  Session (QueueTimer (WaitHandler Provenance)) (Slot Unit → Option (Callback Unit)) Unit

/-- A new provider at time zero, with no handler in any slot. -/
def PlainSession.init (c : Construction) : PlainSession := Session.init c (fun _ => none) 0

end BoostTest.Timeout
