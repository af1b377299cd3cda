import BoostTest.Connector.AysncConnector

/-! How `run_context` ends. Nothing but the timer stops the context, so the
first call returns no earlier than three seconds after the latest
`async_connect`, and by then no connection is being made. Where nothing throws,
the sockets are closed by the timeout and by nothing else. -/
namespace BoostTest.Connector
open Asio Transition

variable {η ε X : Type}

/-- Whose socket is still in `_sockets` and open. -/
def Owned (sockets : List Socket) (outstanding : List (Operation η ε)) : Prop :=
  ∀ id connStartTime ep, Operation.connect id connStartTime ep ∈ outstanding → ⟨id, false⟩ ∈ sockets

/-- A handler that leaves the timer alone. -/
structure Untimed (p q : AysncConnector η ε X) (x y : Observed (Operation η ε) (Result ε X)) : Prop where
  expiry : q.expiry = p.expiry
  waits : y.outstanding.countP Operation.isWait = x.outstanding.countP Operation.isWait
  due : y.queued.countP isDue = x.queued.countP isDue
  stopped : y.stopped = x.stopped
  owned : Owned p.sockets x.outstanding → Owned q.sockets y.outstanding

theorem certain_closes (closed : List Socket) :
    (closed.map (closes ·.id) : List (Command (Operation η ε) (Result ε X))).all Command.certain = true := by
  simp [closes, aborts, Command.certain]

namespace Untimed
variable {p q r : AysncConnector η ε X} {x y z : Observed (Operation η ε) (Result ε X)}

theorem refl (expiry : q.expiry = p.expiry) (sockets : q.sockets = p.sockets) : Untimed p q x x :=
  ⟨expiry, rfl, rfl, rfl, fun owned => sockets ▸ owned⟩

theorem trans (first : Untimed p q x y) (second : Untimed q r y z) : Untimed p r x z where
  expiry := second.expiry.trans first.expiry
  waits := second.waits.trans first.waits
  due := second.due.trans first.due
  stopped := second.stopped.trans first.stopped
  owned := second.owned ∘ first.owned

/-- Starting to connect a socket that is then in the list. -/
theorem connect {id : Nat} (connStartTime : Int) (ep : ε) (nextSocket : Nat) :
    Untimed p { p with nextSocket, sockets := p.sockets ++ [⟨id, false⟩] } x
      (x.perform (.start (.connect id connStartTime ep))) where
  expiry := rfl
  waits := by simp [Observed.perform, Operation.isWait]
  due := rfl
  stopped := rfl
  owned := by
    intro owned id' connStartTime' ep' pending
    simp only [Observed.perform, List.mem_append, List.mem_singleton] at pending ⊢
    rcases pending with earlier | new
    · exact .inl (owned _ _ _ earlier)
    · cases new
      exact .inr rfl

/-- Whatever `_resolver.cancel()` reaches. -/
theorem request {kept gone : List (Operation η ε)} (split : x.outstanding.Perm (kept ++ gone))
    (chosen : ∀ op ∈ gone, op.isResolve = true) :
    Untimed p p x { x with
      outstanding := kept
      queued := x.queued ++ gone.map (·, .failed .operationAborted) } where
  expiry := rfl
  waits := by
    have none : gone.countP Operation.isWait = 0 := by
      apply List.countP_eq_zero.mpr
      intro op member
      have resolve := chosen op member
      cases op <;> simp [Operation.isResolve, Operation.isWait] at resolve ⊢
    rw [split.countP_eq, List.countP_append, none, Nat.add_zero]
  due := by simp [List.countP_append, List.countP_map, Function.comp_def, isDue]
  stopped := rfl
  owned owned id connStartTime ep pending :=
    owned id connStartTime ep (split.symm.subset (List.mem_append_left _ pending))

/-- Closing some of the sockets. -/
theorem close (closed kept : List Socket) (split : p.sockets = closed ++ kept) :
    Untimed p { p with sockets := closed.map Socket.close ++ kept } x
      (x.performAll (closed.map (closes ·.id))) := by
  obtain ⟨cancelled, same⟩ := x.performAll_cancel closed
    (Operation.on ·.id) (.failed .operationAborted)
  have performed : x.performAll (closed.map (closes ·.id)) = _ := same
  rw [performed]
  constructor
  case expiry => rfl
  case waits =>
    simp only [List.countP_filter]
    apply List.countP_congr
    intro op _
    cases op <;> simp [Operation.isWait, Operation.on]
  case due => simp [List.countP_append, List.countP_map, Function.comp_def, isDue]
  case stopped => rfl
  case owned =>
    intro owned id connStartTime ep pending
    simp only [List.mem_filter, List.all_eq_true, Operation.on, Bool.not_eq_true',
      beq_eq_false_iff_ne] at pending
    obtain ⟨pending, apart⟩ := pending
    have member := owned _ _ _ pending
    rw [split] at member
    rcases List.mem_append.mp member with wasClosed | kept
    · exact absurd rfl (apart _ wasClosed)
    · exact List.mem_append_right _ kept

/-- Both. -/
theorem closing {kept : List Socket} (closed : List Socket) (split : p.sockets = closed ++ kept)
    (performs : x.PerformsAll (AysncConnector.cancelResolver :: closed.map (closes ·.id)) y) :
    Untimed p { p with sockets := closed.map Socket.close ++ kept } x y := by
  obtain ⟨going, gone, divided, chosen, rfl⟩ := performs.eq_request (certain_closes closed)
  exact (Untimed.request divided chosen).trans (.close closed kept split)

/-- An exception destroys the socket whose operation has just been started. -/
theorem abandon {id : Nat} (connStartTime : Int) (ep : ε) (expiry : q.expiry = p.expiry)
    (sockets : q.sockets = p.sockets) :
    Untimed p q x (x.performAll [.start (.connect id connStartTime ep), closes id]) where
  expiry := expiry
  waits := by
    simp only [closes, aborts, Observed.performAll_cons, Observed.performAll_nil, Observed.perform,
      List.countP_filter]
    rw [List.countP_append]
    have same : ∀ op ∈ x.outstanding, (Operation.isWait op && !Operation.on id op) = true ↔
        Operation.isWait op = true := by
      intro op _
      cases op <;> simp [Operation.isWait, Operation.on]
    rw [List.countP_congr same]
    simp [Operation.isWait]
  due := by
    simp [closes, aborts, Observed.perform, List.countP_append, List.countP_map, Function.comp_def, isDue]
  stopped := rfl
  owned := by
    intro owned id' connStartTime' ep' pending
    simp only [closes, aborts, Observed.performAll_cons, Observed.performAll_nil, Observed.perform,
      List.mem_filter, List.mem_append, List.mem_singleton] at pending
    rw [sockets]
    obtain ⟨earlier | new, apart⟩ := pending
    · exact owned _ _ _ earlier
    · cases new
      simp [Operation.on] at apart

theorem connectAll (surroundings : Surroundings) (eps : List ε) (i : Nat) (p : AysncConnector η ε X)
    (x : Observed (Operation η ε) (Result ε X)) :
    (AysncConnector.connectAll surroundings i p eps).2.all Command.certain = true ∧
      Untimed p (AysncConnector.connectAll surroundings i p eps).1 x
        (x.performAll (AysncConnector.connectAll surroundings i p eps).2) := by
  induction eps generalizing i p x with
  | nil => exact ⟨rfl, .refl rfl rfl⟩
  | cons ep rest ih =>
    simp only [AysncConnector.connectAll]
    split
    · exact ⟨rfl, .refl rfl rfl⟩
    · split
      · exact ⟨rfl, .abandon _ _ rfl rfl⟩
      · obtain ⟨certain, untimed⟩ := ih (i + 1) { p with
          nextSocket := p.nextSocket + 1
          sockets := p.sockets ++ [⟨p.nextSocket, false⟩] }
          (x.perform (.start (.connect p.nextSocket (surroundings.clock i) ep)))
        exact ⟨certain, (Untimed.connect _ ep _).trans untimed⟩

/-- Every handler but that of a wait that is over. -/
theorem handle {p : AysncConnector η ε X} {surroundings : Surroundings} (other : isDue (op, result) = false)
    (performs : x.PerformsAll (p.handle op result surroundings).2 y) :
    Untimed p (p.handle op result surroundings).1 x y := by
  have simple : ∀ {q : AysncConnector η ε X}, q.expiry = p.expiry → q.sockets = p.sockets →
      x.PerformsAll [] y → Untimed p q x y := by
    intro q expiry sockets performs
    cases performs
    exact .refl expiry sockets
  cases op with
  | wait =>
    cases result with
    | success => simp [isDue] at other
    | _ => exact simple rfl rfl performs
  | resolve hostname =>
    cases result with
    | results eps =>
      obtain ⟨certain, untimed⟩ := Untimed.connectAll surroundings eps 0 p x
      cases performs.eq certain
      exact untimed
    | _ => exact simple rfl rfl performs
  | connect id connStartTime ep => cases result <;> exact simple rfl rfl performs

end Untimed

/-- The timer's handler closes some sockets and throws, or closes all of them
and stops the context. -/
theorem handleTimeout_cases (p : AysncConnector η ε X) (fault : Fault) :
    (∃ i, fault = .close i ∧ i < p.sockets.length ∧ p.handleTimeout fault =
      ({ p with
          sockets := (p.sockets.take (i + 1)).map Socket.close ++ p.sockets.drop (i + 1)
          log := p.log ++ [.catchException] },
        AysncConnector.cancelResolver :: (p.sockets.take (i + 1)).map (closes ·.id))) ∨
    p.handleTimeout fault = ({ p with sockets := p.sockets.map Socket.close },
      AysncConnector.cancelResolver :: p.sockets.map (closes ·.id) ++ [.stop]) := by
  cases fault with
  | close i =>
    by_cases within : i < p.sockets.length
    · exact .inl ⟨i, rfl, within, by simp [AysncConnector.handleTimeout, within, AysncConnector.report]⟩
    · exact .inr (by simp [AysncConnector.handleTimeout, within, AysncConnector.handleTimeout.timeout])
  | _ => exact .inr rfl

theorem handleTimeout_faultless (p : AysncConnector η ε X) :
    p.handleTimeout .none = ({ p with sockets := p.sockets.map Socket.close },
      AysncConnector.cancelResolver :: p.sockets.map (closes ·.id) ++ [.stop]) := by
  rcases handleTimeout_cases p .none with ⟨i, closing, _⟩ | outcome
  · cases closing
  · exact outcome

theorem due_iff {op : Operation η ε} {result : Result ε X} :
    isDue (op, result) = true ↔ op = .wait ∧ result = .success := by
  cases op <;> cases result <;> simp [isDue]

/-- The platform ends a wait in one way only, and no earlier than its expiry. -/
theorem completes_due {p : AysncConnector η ε X} {now : Int} (completes : p.completes now op result = true) :
    op.isWait = isDue (op, result) ∧
      (isDue (op, result) = true → ∃ e, p.expiry = some e ∧ e ≤ now) := by
  cases op with
  | wait =>
    cases result with
    | success =>
      refine ⟨rfl, fun _ => ?_⟩
      simpa [AysncConnector.completes, Option.any_eq_true] using completes
    | _ => cases completes
  | resolve hostname => exact ⟨rfl, fun due => by cases due⟩
  | connect id connStartTime ep => exact ⟨rfl, fun due => by cases due⟩

theorem asyncConnect_eq {l : LoopView η ε X} {eps : List η} {x : Observed (Operation η ε) (Result ε X)}
    (performs : l.context.PerformsAll (l.program.asyncConnect l.now eps).2 x) :
    x = { l.context with
      outstanding := (l.context.outstanding.filter fun op => !op.isWait) ++ [.wait] ++ eps.map .resolve
      queued := l.context.queued ++
        (l.context.outstanding.filter Operation.isWait).map (·, .failed .operationAborted) } := by
  have certain : (l.program.asyncConnect l.now eps).2.all Command.certain = true := by
    simp only [AysncConnector.asyncConnect, List.all_cons, certain_start]
    rfl
  rw [performs.eq certain]
  simp only [AysncConnector.asyncConnect, Observed.performAll_cons, Observed.performAll_start, aborts,
    Observed.perform]

/-- The waits that an `async_connect` leaves outstanding. -/
theorem asyncConnect_waits (ops : List (Operation η ε)) (eps : List η) :
    ((ops.filter fun op : Operation η ε => !op.isWait) ++ [Operation.wait] ++
      eps.map Operation.resolve).countP Operation.isWait = 1 := by
  have none : (ops.filter fun op => !op.isWait).countP Operation.isWait = 0 := by
    simp [List.countP_filter]
  have one : [(Operation.wait : Operation η ε)].countP Operation.isWait = 1 := rfl
  have resolves : (eps.map (Operation.resolve : η → Operation η ε)).countP Operation.isWait = 0 := by
    simp [Operation.isWait]
  simp only [List.countP_append, none, one, resolves]

theorem asyncConnect_due (ops : List (Operation η ε)) (queued : List (Operation η ε × Result ε X)) :
    (queued ++ (ops.filter Operation.isWait).map
      (·, (.failed .operationAborted : Result ε X))).countP isDue = queued.countP isDue := by
  simp [List.countP_append, List.countP_map, Function.comp_def, isDue]

/-- Completing an operation, as the counts of waits and of due waits see it. -/
theorem complete_counts {l : LoopView η ε X} (found : l.context.outstanding = before ++ op :: after)
    (completes : l.program.completes l.now op result = true) :
    (before ++ after).countP Operation.isWait + (l.context.queued ++ [(op, result)]).countP isDue =
      l.context.outstanding.countP Operation.isWait + l.context.queued.countP isDue := by
  have kind := (completes_due completes).1
  simp only [found, List.countP_append, List.countP_cons, List.countP_nil, kind]
  omega

theorem dequeue_due {queued : List (Operation η ε × Result ε X)} (found : queued = before ++ item :: after) :
    queued.countP isDue = (before ++ after).countP isDue + if isDue item then 1 else 0 := by
  rw [found, List.countP_append, List.countP_append, List.countP_cons]
  omega

/-- Before the first return of `run`: one wait is ahead of the latest expiry,
and nothing but its end stops the context. -/
structure Sound (l : LoopView η ε X) : Prop where
  armed : ∀ e, l.program.expiry = some e →
    0 < l.context.outstanding.countP Operation.isWait ∨ e ≤ l.now
  due : 0 < l.context.queued.countP isDue → ∃ e, l.program.expiry = some e ∧ e ≤ l.now
  once : l.context.outstanding.countP Operation.isWait + l.context.queued.countP isDue ≤ 1
  stopped : l.context.stopped = true → (∀ op ∈ l.context.outstanding, op.isResolve = true) ∧
    ∃ e, l.program.expiry = some e ∧ e ≤ l.now
  owned : Owned l.program.sockets l.context.outstanding

namespace Sound
variable {l m : LoopView η ε X} {x : Observed (Operation η ε) (Result ε X)}

theorem init [DecidableEq η] [DecidableEq ε] (time : Int) :
    Sound (EventLoop.init .init time : LoopView η ε X) where
  armed := by simp [EventLoop.init, AysncConnector.init]
  due := by simp [EventLoop.init, IoContext.fresh]
  once := by simp [EventLoop.init, IoContext.fresh]
  stopped := by simp [EventLoop.init, IoContext.fresh]
  owned := by simp [Owned, EventLoop.init, IoContext.fresh]

theorem asyncConnect (sound : Sound l) (renews : ∀ e ∈ l.program.expiry, l.now < e)
    (performs : l.context.PerformsAll (l.program.asyncConnect l.now eps).2 x) :
    Sound (l.resume (l.program.asyncConnect l.now eps) x) := by
  have early : ¬ ∃ e, l.program.expiry = some e ∧ e ≤ l.now := by
    rintro ⟨e, set, passed⟩
    exact absurd (renews e set) (Int.not_lt.mpr passed)
  have waiting : l.context.queued.countP isDue = 0 :=
    Nat.eq_zero_of_not_pos fun due => early (sound.due due)
  cases asyncConnect_eq performs
  constructor
  case armed =>
    intro e _
    left
    simp only [EventLoop.resume, asyncConnect_waits]
    exact Nat.one_pos
  case due =>
    simp only [EventLoop.resume, asyncConnect_due, waiting]
    exact fun due => absurd due (Nat.lt_irrefl 0)
  case once => simp only [EventLoop.resume, asyncConnect_waits, asyncConnect_due, waiting, Nat.le_refl]
  case stopped => exact fun stopped => absurd (sound.stopped stopped).2 early
  case owned =>
    intro id connStartTime ep pending
    have earlier : .connect id connStartTime ep ∈ l.context.outstanding := by
      simpa [EventLoop.resume, Operation.isWait] using pending
    exact sound.owned id connStartTime ep earlier

theorem complete (sound : Sound l) (found : l.context.outstanding = before ++ op :: after)
    (completes : l.program.completes l.now op result = true) :
    Sound { l with context := { l.context with
      outstanding := before ++ after
      queued := l.context.queued ++ [(op, result)] } } := by
  have counts := complete_counts found completes
  have once := sound.once
  obtain ⟨kind, expired⟩ := completes_due completes
  have due : (l.context.queued ++ [(op, result)]).countP isDue =
      l.context.queued.countP isDue + if isDue (op, result) then 1 else 0 := by
    rw [List.countP_append, List.countP_singleton]
  have kept : ∀ op ∈ before ++ after, op ∈ l.context.outstanding := fun _ member => mem_of_taken found member
  constructor
  case armed =>
    intro e set
    rcases sound.armed e set with ahead | passed
    · cases done : isDue (op, result) with
      | true =>
        obtain ⟨e', set', passed⟩ := expired done
        cases Option.some.inj (set.symm.trans set')
        exact .inr passed
      | false =>
        left
        simp only [done, Bool.false_eq_true, if_false] at due
        dsimp only
        omega
    · exact .inr passed
  case due =>
    intro positive
    cases done : isDue (op, result) with
    | true => exact expired done
    | false =>
      simp only [due, done, Bool.false_eq_true, if_false, Nat.add_zero] at positive
      exact sound.due positive
  case once => exact counts ▸ once
  case stopped =>
    intro stopped
    obtain ⟨none, passed⟩ := sound.stopped stopped
    exact ⟨fun op member => none op (kept op member), passed⟩
  case owned => exact fun id connStartTime ep member => sound.owned id connStartTime ep (kept _ member)

/-- A handler that leaves the timer alone. -/
theorem untimed {q : AysncConnector η ε X} {rest : List (Operation η ε × Result ε X)} (sound : Sound l)
    (going : l.context.stopped = false) (fewer : rest.countP isDue ≤ l.context.queued.countP isDue)
    (untimed : Untimed l.program q (l.context.dequeue rest) x)
    (program : m.program = q) (context : m.context = x) (now : m.now = l.now) : Sound m := by
  have waits : x.outstanding.countP Operation.isWait = l.context.outstanding.countP Operation.isWait :=
    untimed.waits
  have due : x.queued.countP isDue = rest.countP isDue := untimed.due
  constructor
  case armed =>
    rw [program, context, now, untimed.expiry, waits]
    exact sound.armed
  case due =>
    rw [program, context, now, untimed.expiry]
    exact fun expired => sound.due (by omega)
  case once =>
    have once := sound.once
    rw [context]
    omega
  case stopped =>
    rw [context, untimed.stopped]
    exact fun stopped => absurd (stopped.symm.trans going) (by decide)
  case owned =>
    rw [program, context]
    exact untimed.owned sound.owned

/-- The handler that stops the context: all but lookups was of closed sockets. -/
theorem timeout {rest : List (Operation η ε × Result ε X)} (sound : Sound l)
    (taken : l.context.queued.countP isDue = rest.countP isDue + 1)
    (performs : (l.context.dequeue rest).PerformsAll
      (AysncConnector.cancelResolver :: l.program.sockets.map (closes ·.id) ++ [.stop]) x)
    (program : m.program = { l.program with sockets := l.program.sockets.map Socket.close })
    (context : m.context = x) (now : m.now = l.now) : Sound m := by
  obtain ⟨e, set, passed⟩ := sound.due (by omega)
  have once := sound.once
  have certain : (l.program.sockets.map (closes ·.id) ++ [.stop] :
      List (Command (Operation η ε) (Result ε X))).all Command.certain = true := by
    rw [List.all_append, certain_closes]
    rfl
  obtain ⟨kept, gone, divided, chosen, rfl⟩ := performs.eq_request certain
  have closed := (Untimed.request (p := l.program) divided chosen).trans
    (.close l.program.sockets [] (List.append_nil _).symm)
  rw [Observed.performAll_append] at context
  generalize Observed.performAll _ (l.program.sockets.map (closes ·.id)) = y at context closed
  have waits : y.outstanding.countP Operation.isWait = l.context.outstanding.countP Operation.isWait :=
    closed.waits
  have due : y.queued.countP isDue = rest.countP isDue := closed.due
  have lookups : ∀ op ∈ y.outstanding, op.isResolve = true := by
    intro op pending
    cases op with
    | wait =>
      have positive := List.countP_pos_iff.mpr ⟨_, pending, (rfl : Operation.isWait .wait = true)⟩
      omega
    | resolve hostname => rfl
    | connect id connStartTime ep =>
      have owned := closed.owned sound.owned id connStartTime ep pending
      simp [Socket.close] at owned
  have stopped : m.context = { y with stopped := true } := context
  constructor
  case armed =>
    rw [program, now]
    intro e' set'
    cases Option.some.inj (set.symm.trans set')
    exact .inr passed
  case due =>
    rw [program, now]
    exact fun _ => ⟨e, set, passed⟩
  case once =>
    rw [stopped]
    dsimp only
    omega
  case stopped =>
    rw [program, now, stopped]
    exact fun _ => ⟨lookups, e, set, passed⟩
  case owned =>
    rw [stopped]
    intro id connStartTime ep pending
    cases lookups _ pending

theorem step (sound : l.returned = 0 → Sound l) (renews : Renews l input)
    (stepped : EventLoop.Stepped program l input m) (first : m.returned = 0) : Sound m := by
  cases stepped with
  | call outside performs => exact (sound first).asyncConnect renews performs
  | enter outside =>
    have sound := sound first
    exact ⟨sound.armed, sound.due, sound.once, sound.stopped, sound.owned⟩
  | complete found completes => exact (sound first).complete found completes
  | @handle before op result after surroundings x running going found performs =>
    have sound := sound first
    have taken := dequeue_due found
    cases expired : isDue (op, result) with
    | false =>
      exact sound.untimed going (by omega) (Untimed.handle expired performs) rfl rfl rfl
    | true =>
      obtain ⟨rfl, rfl⟩ := due_iff.mp expired
      rw [expired, if_pos rfl] at taken
      have handled : (program.handle l.program l.now Operation.wait Result.success surroundings) =
        l.program.handleTimeout surroundings.fault := rfl
      rw [handled] at performs
      rcases handleTimeout_cases l.program surroundings.fault with ⟨i, _, _, outcome⟩ | outcome
      · rw [outcome] at performs
        have closed := Untimed.closing (p := l.program) (l.program.sockets.take (i + 1))
          (List.take_append_drop (i + 1) _).symm performs
        refine sound.untimed going (by omega) (closed.trans (.refl ?_ ?_))
          (congrArg Prod.fst (handled.trans outcome)) rfl rfl
        · rfl
        · rfl
      · rw [outcome] at performs
        exact sound.timeout taken performs (congrArg Prod.fst (handled.trans outcome)) rfl rfl
  | leave => exact absurd first (Nat.succ_ne_zero _)
  | tick later =>
    have sound := sound first
    refine ⟨?_, ?_, sound.once, ?_, sound.owned⟩
    · exact fun e set => (sound.armed e set).imp_right fun passed => Int.le_trans passed later
    · intro due
      obtain ⟨e, set, passed⟩ := sound.due due
      exact ⟨e, set, Int.le_trans passed later⟩
    · intro stopped
      obtain ⟨lookups, e, set, passed⟩ := sound.stopped stopped
      exact ⟨lookups, e, set, Int.le_trans passed later⟩

end Sound

/-- The sockets that the loop of `_handle_resolve` opens. -/
def opened (nextSocket size : Nat) : List Socket := (List.range' nextSocket size).map (⟨·, false⟩)

/-- What the loop does to the connector, if nothing throws. -/
theorem connectAll_opens (surroundings : Surroundings) (faultless : surroundings.fault = .none)
    (eps : List ε) (i : Nat) (p : AysncConnector η ε X) :
    (AysncConnector.connectAll surroundings i p eps).1 =
      { p with
        sockets := p.sockets ++ opened p.nextSocket eps.length
        nextSocket := p.nextSocket + eps.length } := by
  induction eps generalizing i p with
  | nil => simp [AysncConnector.connectAll, opened]
  | cons ep rest ih =>
    simp only [AysncConnector.connectAll, faultless, reduceCtorEq, if_false, ih, opened,
      List.length_cons, List.range'_succ, List.map_cons, List.append_assoc, List.singleton_append,
      AysncConnector.mk.injEq, true_and, and_true]
    omega

/-- Every handler but that of a wait that is over opens some sockets, if any. -/
theorem handle_opens (p : AysncConnector η ε X) {surroundings : Surroundings}
    (faultless : surroundings.fault = .none) (other : isDue (op, result) = false) :
    ∃ size log, (p.handle op result surroundings).1 =
      { p with
        sockets := p.sockets ++ opened p.nextSocket size
        nextSocket := p.nextSocket + size
        log := log } := by
  have none : ∀ log, ({ p with log := log } : AysncConnector η ε X) =
      { p with
        sockets := p.sockets ++ opened p.nextSocket 0
        nextSocket := p.nextSocket + 0
        log := log } := by
    simp [opened]
  cases op with
  | wait =>
    cases result with
    | success => cases other
    | _ => exact ⟨0, _, none p.log⟩
  | resolve hostname =>
    cases result with
    | results eps => exact ⟨eps.length, p.log, connectAll_opens surroundings faultless eps 0 p⟩
    | _ => exact ⟨0, _, none _⟩
  | connect id connStartTime ep => cases result <;> exact ⟨0, _, none _⟩

/-- A handler of a wait that is over. -/
def timesOut (item : Operation η ε × Result ε X × Surroundings) : Bool := isDue (item.1, item.2.1)

/-- Where nothing throws, the wait ahead will close every socket, and nothing
else does. -/
structure Closing (l : LoopView η ε X) : Prop where
  idle : l.program.expiry = none → l.program.sockets = [] ∧ l.context.work = []
  ahead : l.program.expiry ≠ none → l.context.stopped = true ∨
    0 < l.context.outstanding.countP Operation.isWait + l.context.queued.countP isDue
  stopped : l.context.stopped = true → l.returned = 0 → l.handled.any timesOut = true
  timedOut : l.handled.any timesOut = true → l.context.stopped = true
  closed : ∀ socket ∈ l.program.sockets, socket.closed = l.handled.any timesOut
  numbered : l.program.sockets.map Socket.id = List.range l.program.nextSocket
  last : ∀ before item after, l.handled = before ++ item :: after → timesOut item = true → after = []

namespace Closing
variable {l m : LoopView η ε X} {x : Observed (Operation η ε) (Result ε X)}

theorem init [DecidableEq η] [DecidableEq ε] (time : Int) :
    Closing (EventLoop.init .init time : LoopView η ε X) where
  idle := by simp [EventLoop.init, AysncConnector.init, IoContext.fresh, Observed.work]
  ahead := by simp [EventLoop.init, AysncConnector.init]
  stopped := by simp [EventLoop.init, IoContext.fresh]
  timedOut := by simp [EventLoop.init]
  closed := by simp [EventLoop.init, AysncConnector.init]
  numbered := by simp [EventLoop.init, AysncConnector.init]
  last := by simp [EventLoop.init]

theorem asyncConnect (closing : Closing l)
    (performs : l.context.PerformsAll (l.program.asyncConnect l.now eps).2 x) :
    Closing (l.resume (l.program.asyncConnect l.now eps) x) := by
  cases asyncConnect_eq performs
  refine ⟨fun unset => ?_, fun _ => .inr ?_, closing.stopped, closing.timedOut, closing.closed,
    closing.numbered, closing.last⟩
  · simp [EventLoop.resume, AysncConnector.asyncConnect] at unset
  · simp only [EventLoop.resume, asyncConnect_waits]
    omega

/-- Nothing is handled after a timeout. -/
theorem last_append (closing : Closing l) (going : l.context.stopped = false)
    (item : Operation η ε × Result ε X × Surroundings) :
    ∀ before other after, l.handled ++ [item] = before ++ other :: after → timesOut other = true →
      after = [] := by
  intro before other after split expired
  rcases List.eq_nil_or_concat after with rfl | ⟨rest, final, rfl⟩
  · rfl
  · rw [List.concat_eq_append, ← List.cons_append, ← List.append_assoc] at split
    have earlier := (List.append_inj' split rfl).1
    have stopped := closing.timedOut (List.any_eq_true.mpr ⟨other, by simp [earlier], expired⟩)
    exact absurd (stopped.symm.trans going) (by decide)

/-- A handler that opens sockets. -/
theorem opens (closing : Closing l) (going : l.context.stopped = false)
    (found : l.context.queued = before ++ (op, result) :: after) (faultless : surroundings.fault = .none)
    (other : isDue (op, result) = false)
    (performs : (l.context.dequeue (before ++ after)).PerformsAll
      (l.program.handle op result surroundings).2 x) :
    Closing (l.handle program op result surroundings x) := by
  have untimed := Untimed.handle other performs
  obtain ⟨size, log, outcome⟩ := handle_opens l.program faultless other
  have early : l.handled.any timesOut = false := by
    apply Bool.eq_false_iff.mpr
    intro timedOut
    exact absurd ((closing.timedOut timedOut).symm.trans going) (by decide)
  have handled : (l.handled ++ [(op, result, surroundings)]).any timesOut = false := by
    simp [List.any_append, early, timesOut, other]
  have set : l.program.expiry ≠ none := by
    intro unset
    have nothing := (closing.idle unset).2
    simp [Observed.work, found] at nothing
  have after : (l.handle program op result surroundings x).program =
    (l.program.handle op result surroundings).1 := rfl
  constructor
  case idle =>
    rw [after, untimed.expiry]
    exact fun unset => absurd unset set
  case ahead =>
    intro _
    have taken := dequeue_due found
    simp only [other, Bool.false_eq_true, if_false, Nat.add_zero] at taken
    rcases closing.ahead set with stopped | ahead
    · exact absurd (stopped.symm.trans going) (by decide)
    · right
      rw [taken] at ahead
      exact untimed.due ▸ untimed.waits ▸ ahead
  case stopped =>
    intro stopped
    exact absurd ((untimed.stopped.trans going).symm.trans stopped) (by decide)
  case timedOut => exact fun timedOut => absurd (handled.symm.trans timedOut) (by decide)
  case closed =>
    intro socket member
    rw [after, outcome] at member
    refine Eq.trans ?_ handled.symm
    rcases List.mem_append.mp member with earlier | new
    · exact (closing.closed socket earlier).trans early
    · obtain ⟨id, _, rfl⟩ := List.mem_map.mp new
      rfl
  case numbered =>
    rw [after, outcome]
    simp only [List.map_append, closing.numbered, opened, List.map_map, Function.comp_def, List.map_id',
      List.range_eq_range']
    simpa using @List.range'_append_1 0 l.program.nextSocket size
  case last => exact closing.last_append going _

/-- The timeout closes every socket and stops the context. -/
theorem timeout {rest : List (Operation η ε × Result ε X)} (closing : Closing l)
    (going : l.context.stopped = false) (faultless : surroundings.fault = .none)
    (found : l.context.queued = before ++ (.wait, .success) :: after)
    (performs : (l.context.dequeue rest).PerformsAll
      (l.program.handle .wait .success surroundings).2 x) :
    Closing (l.handle program .wait .success surroundings x) := by
  have outcome : l.program.handle .wait .success surroundings = _ :=
    faultless ▸ handleTimeout_faultless l.program
  have stopped : x.stopped = true := by
    rw [performs.stopped, outcome]
    simp [Command.stops]
  have program : (l.handle program .wait .success surroundings x).program =
      { l.program with sockets := l.program.sockets.map Socket.close } := congrArg Prod.fst outcome
  have timedOut : (l.handled ++ [((.wait : Operation η ε), (.success : Result ε X), surroundings)]).any
      timesOut = true := by
    simp [List.any_append, timesOut, isDue]
  have set : l.program.expiry ≠ none := by
    intro unset
    have nothing := (closing.idle unset).2
    simp [Observed.work, found] at nothing
  refine ⟨?_, fun _ => .inl stopped, fun _ _ => timedOut, fun _ => stopped, ?_, ?_, closing.last_append going _⟩
  · rw [program]
    exact fun unset => absurd unset set
  · rw [program]
    intro socket member
    obtain ⟨earlier, _, rfl⟩ := List.mem_map.mp member
    exact timedOut.symm
  · rw [program]
    simpa [Socket.close, Function.comp_def] using closing.numbered

theorem step (closing : Closing l) (faultless : Faultless l input)
    (stepped : EventLoop.Stepped program l input m) : Closing m := by
  cases stepped with
  | call outside performs => exact closing.asyncConnect performs
  | @complete before op after result found completes =>
    refine ⟨fun unset => ?_, fun set => (closing.ahead set).imp_right fun ahead => ?_, closing.stopped,
      closing.timedOut, closing.closed, closing.numbered, closing.last⟩
    · have nothing := (closing.idle unset).2
      simp [Observed.work, found] at nothing
    · exact (complete_counts found completes).symm ▸ ahead
  | @handle before op result after surroundings x running going found performs =>
    cases expired : isDue (op, result) with
    | false => exact closing.opens going found faultless expired performs
    | true =>
      obtain ⟨rfl, rfl⟩ := due_iff.mp expired
      exact closing.timeout going faultless found performs
  | leave =>
    exact ⟨closing.idle, fun _ => .inl rfl, fun _ first => absurd first (Nat.succ_ne_zero _),
      fun _ => rfl, closing.closed, closing.numbered, closing.last⟩
  | enter | tick =>
    exact ⟨closing.idle, closing.ahead, closing.stopped, closing.timedOut, closing.closed,
      closing.numbered, closing.last⟩

end Closing

theorem Quiet.renews {κ : Type} {l : Loop κ η ε X} (quiet : Quiet l input) : Renews l input := by
  cases input with
  | call => exact quiet.elim
  | _ => trivial

/-- Nothing but `async_connect` sets the timer. -/
theorem expiry_step {l m : LoopView η ε X} (quiet : Quiet l input)
    (stepped : EventLoop.Stepped program l input m) : m.program.expiry = l.program.expiry := by
  cases stepped with
  | call => exact quiet.elim
  | @handle before op result after surroundings x running going found performs =>
    cases expired : isDue (op, result) with
    | false => exact (Untimed.handle expired performs).expiry
    | true =>
      obtain ⟨rfl, rfl⟩ := due_iff.mp expired
      rcases handleTimeout_cases l.program surroundings.fault with ⟨_, _, _, outcome⟩ | outcome
      · exact congrArg (·.1.expiry) outcome
      · exact congrArg (·.1.expiry) outcome
  | enter | complete | leave | tick => rfl

section Return
variable {κ : Type} [IoContext κ (Operation η ε) (Result ε X)] [DecidableEq η] [DecidableEq ε]
  {k l m n : Loop κ η ε X} {time : Int}

/-- The first `run_context` returns no earlier than three seconds after the
latest `async_connect`, even if every connection has been made or has failed
long before, and leaves neither a wait nor a connection outstanding. -/
theorem run_context_returns (path : Run (EventLoop.step program) Renews (EventLoop.init .init time) inputs k)
    (renews : Renews k (.call eps)) (called : k.step program (.call eps) = some l)
    (later : Run (EventLoop.step program) Quiet l more m)
    (first : m.returned = 0) (stepped : m.step program .leave = some n) :
    k.now + timeOut ≤ n.now ∧ ∀ op ∈ n.observe.context.outstanding, op.isResolve = true := by
  have sound : Sound m.observe := by
    have whole := (path.trans (.single renews called)).trans (later.weaken Quiet.renews)
    refine EventLoop.invariant (I := fun v : LoopView η ε X => v.returned = 0 → Sound v)
      (G := Renews) id (fun sound renews stepped => Sound.step sound renews stepped) whole ?_ first
    rw [EventLoop.observe_init]
    exact fun _ => .init time
  have armed : m.observe.program.expiry = some (k.now + timeOut) := by
    refine EventLoop.invariant (I := fun v : LoopView η ε X => v.program.expiry = some (k.now + timeOut))
      (G := Quiet) id (fun same quiet stepped => (expiry_step quiet stepped).trans same) later ?_
    have set := EventLoop.Stepped.of_step called
    generalize l.observe = v at set ⊢
    cases set
    rfl
  obtain ⟨x, rfl, same, ended⟩ := EventLoop.of_leave stepped
  have left : (m.leave x).observe.context.outstanding = m.observe.context.outstanding := by
    simp only [EventLoop.observe, EventLoop.leave, same]
  rw [left]
  rcases ended with stopped | drained
  · obtain ⟨lookups, e, set, passed⟩ := sound.stopped stopped
    cases Option.some.inj (armed.symm.trans set)
    exact ⟨passed, lookups⟩
  · have none : m.observe.context.outstanding = [] := (List.append_eq_nil_iff.mp drained).1
    rcases sound.armed _ armed with ahead | passed
    · simp [none] at ahead
    · exact ⟨passed, by simp [none]⟩

theorem closing_run (path : Run (EventLoop.step program) Faultless (EventLoop.init .init time) inputs l) :
    Closing l.observe := by
  refine EventLoop.invariant (I := Closing) (G := Faultless) id
    (fun closing faultless stepped => closing.step faultless stepped) path ?_
  rw [EventLoop.observe_init]
  exact .init time

/-- Where nothing throws, every socket that has been opened is closed by then,
also those of connections that had been made. -/
theorem run_context_closes (path : Run (EventLoop.step program) Faultless (EventLoop.init .init time) inputs l)
    (first : l.returned = 0) (stepped : l.step program .leave = some m) :
    m.program.sockets.map Socket.id = List.range m.program.nextSocket ∧
      ∀ socket ∈ m.program.sockets, socket.closed = true := by
  have closing := closing_run path
  obtain ⟨x, rfl, _, ended⟩ := EventLoop.of_leave stepped
  refine ⟨closing.numbered, fun socket member => ?_⟩
  have shut : l.observe.context.stopped = true → socket.closed = true :=
    fun stopped => (closing.closed socket member).trans (closing.stopped stopped first)
  rcases ended with stopped | drained
  · exact shut stopped
  · cases set : l.observe.program.expiry with
    | none =>
      have none : l.program.sockets = [] := (closing.idle set).1
      simp [EventLoop.leave, none] at member
    | some e =>
      rcases closing.ahead (by simp [set]) with stopped | ahead
      · exact shut stopped
      · obtain ⟨pending, queued⟩ := List.append_eq_nil_iff.mp drained
        simp [pending, List.map_eq_nil_iff.mp queued] at ahead

/-- Where nothing throws, the timeout closes all sockets, nothing closes one
before it, and no handler runs after it, whatever is called later. -/
theorem timeout_closes_all (path : Run (EventLoop.step program) Faultless (EventLoop.init .init time) inputs l) :
    (∀ socket ∈ l.program.sockets, socket.closed = l.handled.any timesOut) ∧
      ∀ before item after, l.handled = before ++ item :: after → timesOut item = true → after = [] :=
  have closing := closing_run path
  ⟨closing.closed, closing.last⟩

end Return

abbrev PlainLoop : Type := Loop (Observed (Operation Nat Nat) (Result Nat Nat)) Nat Nat Nat

/-- Two endpoints, of which one is reached: the call still takes three seconds. -/
def twoEndpoints : List (Step Nat Nat Nat) :=
  [.enter, .complete (.resolve 1) (.results [7, 8]), .handle ⟨fun i => 100 + i, .none⟩,
    .complete (.connect 0 100 7) .success, .handle ⟨fun _ => 20000100, .none⟩, .tick 3000000000,
    .complete .wait .success, .handle ⟨fun _ => 0, .none⟩]

theorem run_context_returns_two_endpoints : ∃ l m n : PlainLoop,
    ((EventLoop.init .init 0).step program (.call [1]) = some l ∧
      Run (EventLoop.step program) Quiet l twoEndpoints m ∧ m.returned = 0 ∧
      m.step program .leave = some n ∧ m.program.log = [.connectionTakes 20]) ∧
    (0 + timeOut ≤ n.now ∧ ∀ op ∈ n.observe.context.outstanding, op.isResolve = true) := by
  have path : ∃ l : PlainLoop, (EventLoop.init .init 0).step program (.call [1]) = some l ∧
      ∃ m, execute (EventLoop.step program) Quiet l twoEndpoints = some m ∧ m.returned = 0 ∧
        m.program.log = [.connectionTakes 20] ∧ ∃ n, m.step program .leave = some n :=
    ⟨_, rfl, _, rfl, rfl, rfl, _, rfl⟩
  obtain ⟨l, called, m, executed, first, log, n, left⟩ := path
  have later := Run.of_execute executed
  exact ⟨l, m, n, ⟨called, later, first, left, log⟩,
    run_context_returns (.refl _) (fun e set => by cases set) called later first left⟩

theorem run_context_closes_two_endpoints : ∃ l : PlainLoop,
    Run (EventLoop.step program) Faultless (EventLoop.init .init 0) (.call [1] :: twoEndpoints) l ∧
    (l.returned = 0 ∧ l.program.sockets = [⟨0, true⟩, ⟨1, true⟩]) ∧
    ∃ m, l.step program .leave = some m ∧
      m.program.sockets.map Socket.id = List.range m.program.nextSocket ∧
      ∀ socket ∈ m.program.sockets, socket.closed = true := by
  have path : ∃ l : PlainLoop,
      Run (EventLoop.step program) Faultless (EventLoop.init .init 0) (.call [1] :: twoEndpoints) l ∧
      l.returned = 0 ∧ l.program.sockets = [⟨0, true⟩, ⟨1, true⟩] ∧ ∃ m, l.step program .leave = some m :=
    Run.exists_of_execute ⟨_, rfl, rfl, rfl, _, rfl⟩
  obtain ⟨l, path, first, sockets, m, left⟩ := path
  exact ⟨l, path, ⟨first, sockets⟩, m, left, run_context_closes path first left⟩

/-- A second `async_connect` after the first call has returned. -/
theorem timeout_closes_all_second_call : ∃ l : PlainLoop,
    Run (EventLoop.step program) Faultless (EventLoop.init .init 0)
      (.call [1] :: twoEndpoints ++ [.leave, .call [2], .enter, .tick 9000000000, .complete .wait .success]) l ∧
    (l.returned = 1 ∧ l.handled.length = 3) ∧
    ((∀ socket ∈ l.program.sockets, socket.closed = l.handled.any timesOut) ∧
      ∀ before item after, l.handled = before ++ item :: after → timesOut item = true → after = []) :=
  Run.instance_of_execute ⟨_, rfl, rfl, rfl⟩ fun _ path _ => timeout_closes_all path

end BoostTest.Connector
