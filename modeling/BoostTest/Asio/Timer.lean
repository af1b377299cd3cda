/-! Waitable timers as Asio documents them. The library itself is outside the
repository, so an implementation is an arbitrary type with these operations and
laws. One executor runs the completed wait handlers in the order they were
queued; handlers of several outstanding waits share the timer's expiry. -/
namespace BoostTest.Asio

/-- The `error_code` passed to a wait handler. -/
inductive WaitStatus where
  | success
  | operationAborted
  deriving DecidableEq, Repr

/-- `τ` is the state of one timer with its part of the executor's queue, `H`
the type of wait handlers. An expiry of `none` is `time_point::max()`. -/
class SteadyTimer (τ : Type) (H : outParam Type) where
  fresh : τ
  expiry : τ → Option Int
  pending : τ → List H
  queued : τ → List (H × WaitStatus)
  /-- `expires_after(d)` called at the given time: cancels, then sets the expiry. -/
  expiresAfter : τ → Int → Int → τ
  asyncWait : τ → H → τ
  /-- Also what the destructor does to the outstanding waits. -/
  cancel : τ → τ
  /-- The reactor finds the expiry reached and queues the waits. -/
  expire : τ → τ
  /-- The executor takes the oldest completed wait off its queue. -/
  pop : τ → τ
  expiry_fresh : expiry fresh = none
  pending_fresh : pending fresh = []
  queued_fresh : queued fresh = []
  expiry_expiresAfter : ∀ t now d, expiry (expiresAfter t now d) = some (now + d)
  pending_expiresAfter : ∀ t now d, pending (expiresAfter t now d) = []
  queued_expiresAfter : ∀ t now d, queued (expiresAfter t now d) =
    queued t ++ (pending t).map (·, .operationAborted)
  expiry_asyncWait : ∀ t h, expiry (asyncWait t h) = expiry t
  pending_asyncWait : ∀ t h, pending (asyncWait t h) = pending t ++ [h]
  queued_asyncWait : ∀ t h, queued (asyncWait t h) = queued t
  expiry_cancel : ∀ t, expiry (cancel t) = expiry t
  pending_cancel : ∀ t, pending (cancel t) = []
  queued_cancel : ∀ t, queued (cancel t) = queued t ++ (pending t).map (·, .operationAborted)
  expiry_expire : ∀ t, expiry (expire t) = expiry t
  pending_expire : ∀ t, pending (expire t) = []
  queued_expire : ∀ t, queued (expire t) = queued t ++ (pending t).map (·, .success)
  expiry_pop : ∀ t, expiry (pop t) = expiry t
  pending_pop : ∀ t, pending (pop t) = pending t
  queued_pop : ∀ t, queued (pop t) = (queued t).tail

namespace SteadyTimer

attribute [simp] expiry_fresh pending_fresh queued_fresh
  expiry_expiresAfter pending_expiresAfter queued_expiresAfter
  expiry_asyncWait pending_asyncWait queued_asyncWait
  expiry_cancel pending_cancel queued_cancel
  expiry_expire pending_expire queued_expire
  expiry_pop pending_pop queued_pop

variable {τ H : Type} [SteadyTimer τ H]

/-- The wait handlers that the executor will call with a clear error code. -/
def ready (t : τ) : List H :=
  (queued t).filterMap fun (h, status) => if status = .success then some h else none

theorem mem_ready {t : τ} {h : H} : h ∈ ready t ↔ (h, .success) ∈ queued t := by
  simp only [ready, List.mem_filterMap]
  constructor
  · rintro ⟨⟨other, status⟩, member, kept⟩
    split at kept
    · rename_i succeeded
      dsimp only at succeeded
      subst succeeded
      cases kept
      exact member
    · contradiction
  · exact fun member => ⟨_, member, if_pos rfl⟩

private theorem filterMap_aborted (handlers : List H) :
    (handlers.map (·, WaitStatus.operationAborted)).filterMap
      (fun (h, status) => if status = .success then some h else none) = [] := by
  induction handlers with
  | nil => rfl
  | cons h rest ih => exact ih

private theorem filterMap_success (handlers : List H) :
    (handlers.map (·, WaitStatus.success)).filterMap
      (fun (h, status) => if status = .success then some h else none) = handlers := by
  induction handlers with
  | nil => rfl
  | cons h rest ih => exact congrArg (h :: ·) ih

@[simp] theorem ready_fresh : ready (fresh : τ) = [] := by simp [ready]

@[simp] theorem ready_expiresAfter (t : τ) (now d : Int) :
    ready (expiresAfter t now d) = ready t := by
  simp only [ready, queued_expiresAfter, List.filterMap_append, filterMap_aborted, List.append_nil]

@[simp] theorem ready_asyncWait (t : τ) (h : H) : ready (asyncWait t h) = ready t := by
  simp only [ready, queued_asyncWait]

@[simp] theorem ready_cancel (t : τ) : ready (cancel t) = ready t := by
  simp only [ready, queued_cancel, List.filterMap_append, filterMap_aborted, List.append_nil]

@[simp] theorem ready_expire (t : τ) : ready (expire t) = ready t ++ pending t := by
  simp only [ready, queued_expire, List.filterMap_append, filterMap_success]

theorem ready_pop_aborted {t : τ} (head : queued t = (h, .operationAborted) :: rest) :
    ready (pop t) = ready t := by
  simp [ready, queued_pop, head]

theorem ready_of_success {t : τ} (head : queued t = (h, .success) :: rest) :
    ready t = h :: ready (pop t) := by
  simp [ready, queued_pop, head]

end SteadyTimer

/-- The laws are satisfiable: the timer that is its own observations. -/
structure QueueTimer (H : Type) where
  expiry : Option Int := none
  pending : List H := []
  queued : List (H × WaitStatus) := []

instance : SteadyTimer (QueueTimer H) H where
  fresh := {}
  expiry := QueueTimer.expiry
  pending := QueueTimer.pending
  queued := QueueTimer.queued
  expiresAfter t now d := ⟨some (now + d), [], t.queued ++ t.pending.map (·, .operationAborted)⟩
  asyncWait t h := { t with pending := t.pending ++ [h] }
  cancel t := { t with pending := [], queued := t.queued ++ t.pending.map (·, .operationAborted) }
  expire t := { t with pending := [], queued := t.queued ++ t.pending.map (·, .success) }
  pop t := { t with queued := t.queued.tail }
  expiry_fresh := rfl
  pending_fresh := rfl
  queued_fresh := rfl
  expiry_expiresAfter _ _ _ := rfl
  pending_expiresAfter _ _ _ := rfl
  queued_expiresAfter _ _ _ := rfl
  expiry_asyncWait _ _ := rfl
  pending_asyncWait _ _ := rfl
  queued_asyncWait _ _ := rfl
  expiry_cancel _ := rfl
  pending_cancel _ := rfl
  queued_cancel _ := rfl
  expiry_expire _ := rfl
  pending_expire _ := rfl
  queued_expire _ := rfl
  expiry_pop _ := rfl
  pending_pop _ := rfl
  queued_pop _ := rfl

end BoostTest.Asio
