import BoostTest.Token.Stack

/-! Completions of an operation started through a stack. The handler it was
given unwinds from the outermost layer to the base handler: each
`with_timeout_binder` cancels its timer and passes the arguments on, an
`outcome_result_handler` replaces them by a result. -/
namespace BoostTest.Token
open Asio Timeout SteadyTimer

/-- The completions `as_result` admits: `X` error codes, `P` exceptions, `T`
values. A null `exception_ptr` is `none`. -/
inductive Completion (X P T : Type) where
  | errorCode (ec : X)
  | exceptionPtr (ex : Option P)
  | errorCodeValue (ec : X) (t : T)
  | exceptionPtrValue (ex : Option P) (t : T)
  deriving DecidableEq, Repr

/-- The results it turns them into, by error and value type. -/
inductive Result (X P T : Type) where
  | errorCode (result : Except X Unit)
  | exceptionPtr (result : Except (Option P) Unit)
  | errorCodeValue (result : Except X T)
  | exceptionPtrValue (result : Except (Option P) T)

inductive Arguments (X P T : Type) where
  | plain (completion : Completion X P T)
  | result (result : Result X P T)

/-- What the layers of a stack do on the way to the base handler. -/
inductive Call (ι E A X P T : Type) where
  | cancel (provider : ι)
  | invoke (handler : BaseHandler ι E A) (arguments : Arguments X P T)

def Call.cancels [DecidableEq ι] (provider : ι) : Call ι E A X P T → Bool
  | .cancel other => other = provider
  | .invoke _ _ => false

variable {τ σ ι E A X P T D : Type} [DecidableEq ι] [SteadyTimer τ (WaitHandler Unit)]

/-- `Result{e}` if the error is set and `Result{t}` otherwise. -/
def resultOf (set : X → Bool) (e : X) (t : T) : Except X T := if set e then .error e else .ok t

/-- The four overloads of `outcome_result_handler::operator()`; `failed` is the
conversion of an error code to `bool`. -/
def outcomeResult (failed : X → Bool) : Completion X P T → Result X P T
  | .errorCode ec => .errorCode (resultOf failed ec ())
  | .exceptionPtr ex => .exceptionPtr (resultOf Option.isSome ex ())
  | .errorCodeValue ec t => .errorCodeValue (resultOf failed ec t)
  | .exceptionPtrValue ex t => .exceptionPtrValue (resultOf Option.isSome ex t)

/-- The call operator of a handler. `none` means that no overload takes the
arguments, as when a result reaches a second `outcome_result_handler`. -/
def Handler.complete (failed : X → Bool) : Handler ι E A → Arguments X P T → World τ σ ι →
    Option (World τ σ ι × List (Call ι E A X P T))
  | .base handler, arguments, w => some (w, [.invoke handler arguments])
  | .withTimeoutBinder provider handler, arguments, w =>
    let w := w.setProvider provider (w.providers provider).binderCancel
    (handler.complete failed arguments w).map fun (w, calls) => (w, .cancel provider :: calls)
  | .outcomeResultHandler handler_, .plain completion, w =>
    handler_.complete failed (.result (outcomeResult failed completion)) w
  | .outcomeResultHandler _, .result _, _ => none

/-- What a result has to say about a completion. -/
inductive Reports (failed : X → Bool) : Completion X P T → Result X P T → Prop where
  | code (set : failed ec = true) : Reports failed (.errorCode ec) (.errorCode (.error ec))
  | success (clear : failed ec = false) : Reports failed (.errorCode ec) (.errorCode (.ok ()))
  | exception : Reports failed (.exceptionPtr (some ex)) (.exceptionPtr (.error (some ex)))
  | noException : Reports failed (.exceptionPtr none) (.exceptionPtr (.ok ()))
  | codeNotValue (set : failed ec = true) :
      Reports failed (.errorCodeValue ec t) (.errorCodeValue (.error ec))
  | value (clear : failed ec = false) :
      Reports failed (.errorCodeValue ec t) (.errorCodeValue (.ok t))
  | exceptionNotValue :
      Reports failed (.exceptionPtrValue (some ex) t) (.exceptionPtrValue (.error (some ex)))
  | exceptionFreeValue : Reports failed (.exceptionPtrValue none t) (.exceptionPtrValue (.ok t))

/-- Without `as_result` the arguments arrive as they are. -/
def Transmits (failed : X → Bool) (token : CompletionToken ι E A) (completion : Completion X P T)
    (arguments : Arguments X P T) : Prop :=
  if token.asResults = 0 then arguments = .plain completion
  else ∃ result, arguments = .result result ∧ Reports failed completion result

/-- The calls that a completion causes, up to that of the base handler, and the
world in which it is called. -/
structure Completes (failed : X → Bool) (token : CompletionToken ι E A)
    (completion : Completion X P T) (w : World τ σ ι) (calls : List (Call ι E A X P T)) : Prop where
  invoked : ∃ before arguments, calls = before ++ [.invoke token.baseHandler arguments] ∧
    (∀ call ∈ before, ∃ provider, call = .cancel provider) ∧
    Transmits failed token completion arguments
  cancelled : ∀ provider ∈ token.providers, calls.countP (Call.cancels provider) = 1
  disarmed : ∀ provider ∈ token.providers, pending (w.providers provider).tim = []

omit [DecidableEq ι] [SteadyTimer τ (WaitHandler Unit)] in
theorem outcomeResult_reports (failed : X → Bool) (completion : Completion X P T) :
    Reports failed completion (outcomeResult failed completion) := by
  cases completion with
  | errorCode ec =>
    cases set : failed ec with
    | true => simpa [outcomeResult, resultOf, set] using Reports.code set
    | false => simpa [outcomeResult, resultOf, set] using Reports.success set
  | exceptionPtr ex =>
    cases ex with
    | some ex => exact .exception
    | none => exact .noException
  | errorCodeValue ec t =>
    cases set : failed ec with
    | true => simpa [outcomeResult, resultOf, set] using Reports.codeNotValue set
    | false => simpa [outcomeResult, resultOf, set] using Reports.value set
  | exceptionPtrValue ex t =>
    cases ex with
    | some ex => exact .exceptionNotValue
    | none => exact .exceptionFreeValue

namespace CompletionToken

/-- The arguments after all conversions on the way to the base handler. -/
def deliver (failed : X → Bool) : CompletionToken ι E A → Arguments X P T →
    Option (Arguments X P T)
  | .base _, arguments => some arguments
  | .withTimeout _ token, arguments => token.deliver failed arguments
  | .asResult token_, .plain completion =>
    token_.deliver failed (.result (outcomeResult failed completion))
  | .asResult _, .result _ => none

def disarm : CompletionToken ι E A → World τ σ ι → World τ σ ι
  | .base _, w => w
  | .withTimeout provider token, w =>
    token.disarm (w.setProvider provider (w.providers provider).binderCancel)
  | .asResult token_, w => token_.disarm w

theorem complete_eq (failed : X → Bool) (token : CompletionToken ι E A)
    (arguments : Arguments X P T) (w : World τ σ ι) :
    token.handler.complete failed arguments w =
      (token.deliver failed arguments).map fun delivered =>
        (token.disarm w,
          token.providers.map Call.cancel ++ [Call.invoke token.baseHandler delivered]) := by
  induction token generalizing arguments w with
  | base handler => rfl
  | withTimeout provider token ih =>
    simp only [handler, Handler.complete, ih, deliver, Option.map_map]
    rfl
  | asResult token_ ih =>
    cases arguments with
    | plain completion => exact ih _ w
    | result result => rfl

omit [DecidableEq ι] [SteadyTimer τ (WaitHandler Unit)] in
theorem deliver_bare (failed : X → Bool) (token : CompletionToken ι E A)
    (bare : token.asResults = 0) (arguments : Arguments X P T) :
    token.deliver failed arguments = some arguments := by
  induction token with
  | base handler => rfl
  | withTimeout provider token ih => exact ih bare
  | asResult token_ => cases bare

omit [DecidableEq ι] [SteadyTimer τ (WaitHandler Unit)] in
theorem deliver_once (failed : X → Bool) (token : CompletionToken ι E A)
    (once : token.asResults = 1) (completion : Completion X P T) :
    token.deliver failed (.plain completion) =
      some (.result (outcomeResult failed completion)) := by
  induction token with
  | base handler => cases once
  | withTimeout provider token ih => exact ih once
  | asResult token_ => exact token_.deliver_bare failed (Nat.succ.inj once) _

theorem disarm_keeps (token : CompletionToken ι E A) {w : World τ σ ι}
    (disarmed : pending (w.providers provider).tim = []) :
    pending ((token.disarm w).providers provider).tim = [] := by
  induction token generalizing w with
  | base handler => exact disarmed
  | withTimeout other token ih =>
    apply ih
    by_cases same : provider = other
    · subst same
      simp [TimeoutProvider.binderCancel]
    · rw [World.setProvider_other _ _ same]
      exact disarmed
  | asResult token_ ih => exact ih disarmed

theorem disarm_pending (token : CompletionToken ι E A) (w : World τ σ ι)
    (member : provider ∈ token.providers) :
    pending ((token.disarm w).providers provider).tim = [] := by
  induction token generalizing w with
  | base handler => cases member
  | withTimeout other token ih =>
    obtain rfl | member := List.mem_cons.mp member
    · apply token.disarm_keeps
      simp [TimeoutProvider.binderCancel]
    · exact ih _ member
  | asResult token_ ih => exact ih w member

omit [SteadyTimer τ (WaitHandler Unit)] in
theorem countP_cancels (providers : List ι) (distinct : providers.Nodup)
    (member : provider ∈ providers) :
    (providers.map (Call.cancel (E := E) (A := A) (X := X) (P := P) (T := T))).countP
      (Call.cancels provider) = 1 := by
  rw [List.countP_map]
  calc providers.countP (Call.cancels provider ∘ Call.cancel)
      = providers.countP (· == provider) := List.countP_congr fun _ _ => by simp [Call.cancels]
    _ = 1 := by rw [← List.count, distinct.count, if_pos member]

omit [DecidableEq ι] in
theorem associated_handler (own : BaseHandler ι E A → Option D) (token : CompletionToken ι E A)
    (c : D) : token.handler.associated own c = (own token.baseHandler).getD c := by
  induction token with
  | base handler => rfl
  | withTimeout provider token ih => exact ih
  | asResult token_ ih => exact ih

end CompletionToken

/-- Completion transparency. The handler an operation is given has the executor
and the allocator of the base handler, or the candidate where that has none;
and completing it, whatever has happened since, cancels every timer once and
then calls the base handler once. -/
theorem completion_transparency [CancellationSlots σ (Slot ι) (Callback ι)] (failed : X → Bool)
    (token : CompletionToken ι E A) (distinct : token.providers.Nodup)
    (once : token.asResults ≤ 1) :
    ∃ handler : Handler ι E A,
      (∀ (init : Initiation τ σ ι E A) w,
        token.initiate .none init w = init handler (token.arm w)) ∧
      (∀ ex, handler.associatedExecutor ex = token.baseHandler.executor.getD ex) ∧
      (∀ a, handler.associatedAllocator a = token.baseHandler.allocator.getD a) ∧
      ∀ (completion : Completion X P T) (w : World τ σ ι),
        ∃ w' calls, handler.complete failed (.plain completion) w = some (w', calls) ∧
          Completes failed token completion w' calls := by
  refine ⟨token.handler, token.initiate_eq .none (fun _ _ => rfl),
    token.associated_handler BaseHandler.executor, token.associated_handler BaseHandler.allocator, ?_⟩
  intro completion w
  have transmitted : ∃ delivered, token.deliver failed (.plain completion) = some delivered ∧
      Transmits failed token completion delivered := by
    by_cases bare : token.asResults = 0
    · exact ⟨_, token.deliver_bare failed bare _, by simp [Transmits, bare]⟩
    · refine ⟨_, token.deliver_once failed (by omega) completion, ?_⟩
      rw [Transmits, if_neg bare]
      exact ⟨_, rfl, outcomeResult_reports failed completion⟩
  obtain ⟨delivered, reached, transmits⟩ := transmitted
  refine ⟨_, _, by rw [token.complete_eq, reached, Option.map_some], ?_, ?_, ?_⟩
  · refine ⟨_, _, rfl, ?_, transmits⟩
    intro call member
    obtain ⟨provider, _, rfl⟩ := List.mem_map.mp member
    exact ⟨provider, rfl⟩
  · intro provider member
    rw [List.countP_append, CompletionToken.countP_cancels _ distinct member]
    rfl
  · exact fun provider member => token.disarm_pending w member

/-- `with_timeout` around `as_result` around `with_timeout`, with a base handler
that has an executor and an allocator. -/
def sandwich : CompletionToken Nat Nat String :=
  .withTimeout 0 (.asResult (.withTimeout 1 (.base ⟨some (.external 0), some 3, some "pool"⟩)))

theorem completion_transparency_sandwich : ∃ handler : Handler Nat Nat String,
    (∀ (init : Initiation (QueueTimer (WaitHandler Unit)) (Slot Nat → Option (Callback Nat)) _ _ _) w,
        sandwich.initiate .none init w = init handler (sandwich.arm w)) ∧
      (∀ ex, handler.associatedExecutor ex = 3) ∧ (∀ a, handler.associatedAllocator a = "pool") ∧
      ∀ (completion : Completion Nat Unit String) (w : PlainWorld), ∃ w' calls,
        handler.complete (· ≠ 0) (.plain completion) w = some (w', calls) ∧
        Completes (· ≠ 0) sandwich completion w' calls :=
  completion_transparency (fun ec : Nat => decide (ec ≠ 0)) sandwich (by decide) (by decide)

end BoostTest.Token
