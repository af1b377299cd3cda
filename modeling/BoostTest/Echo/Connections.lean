import BoostTest.Echo.Server

/-! Sessions side by side. In every run of the server each session waits for
one operation at a time, and its state is that of a session alone, resumed with
the completions of its own operations in the order they were handled. -/
namespace BoostTest.Echo
open Asio Transition

variable {X ε : Type} {codes : ErrorCodes X}

namespace Session
variable {s t : Session X}

/-- What a resumption does: it is cut short by its log statement, or goes a step
and possibly throws then. -/
theorem resume_cases {event : Event X × Fault} (resumed : s.resume codes event = some t) :
    s.interrupt codes event.1 = some t ∨
      ∃ u, s.step codes event.1 = some u ∧ (t = u ∨ u.step codes .throw = some t) := by
  obtain ⟨event, fault⟩ := event
  cases fault with
  | none | spawning => exact .inr ⟨t, resumed, .inl rfl⟩
  | logging => exact .inl resumed
  | initiating =>
    obtain ⟨u, stepped, same⟩ := Option.map_eq_some_iff.mp resumed
    refine .inr ⟨u, stepped, ?_⟩
    cases thrown : u.step codes .throw with
    | none =>
      rw [thrown, Option.getD_none] at same
      exact .inl same.symm
    | some v =>
      rw [thrown, Option.getD_some] at same
      exact .inr (congrArg some same)

/-- What the steps of a session preserve, and an exception that comes before a
line, a resumption preserves. -/
theorem resume_invariant {P : Session X → Prop} {event : Event X × Fault}
    (steps : ∀ {s event t}, P s → s.Delivers codes event → s.step codes event = some t → P t)
    (interrupts : ∀ {event t}, P s → s.Delivers codes event → s.interrupt codes event = some t → P t)
    (holds : P s) (receives : s.Receives codes event) (resumed : s.resume codes event = some t) : P t := by
  rcases resume_cases resumed with interrupted | ⟨u, stepped, rfl | thrown⟩
  · exact interrupts holds receives interrupted
  · exact steps holds receives stepped
  · have throws : u.Delivers codes .throw := trivial
    exact steps (steps holds receives stepped) throws thrown

/-- By what an exception before the line leaves. -/
theorem interrupt_cases (interrupted : s.interrupt codes event = some t) :
    (∃ ec chunk, event = .read ec chunk ∧ s.phase = .reading ∧
        t = (s.store chunk).close .catchException) ∨
      (∃ ec transferred, event = .write ec transferred ∧ s.phase ≠ .closed ∧
        t = (s.send transferred).close .catchException) ∨
      s.step codes .throw = some t := by
  cases event with
  | read ec chunk =>
    simp only [interrupt] at interrupted
    split at interrupted
    · cases interrupted
      exact .inl ⟨ec, chunk, rfl, ‹_›, rfl⟩
    · contradiction
  | write ec transferred =>
    simp only [interrupt] at interrupted
    split at interrupted
    · rename_i writing
      cases interrupted
      exact .inr (.inl ⟨ec, transferred, rfl, by rw [writing]; simp, rfl⟩)
    · contradiction
  | throw => exact .inr (.inr interrupted)

theorem Thinned.interrupt (thinned : s.Thinned) (interrupted : s.interrupt codes event = some t) :
    t.Thinned := by
  rcases interrupt_cases interrupted with ⟨ec, chunk, _, _, rfl⟩ | ⟨ec, transferred, _, _, rfl⟩ | thrown
  · have sublist : s.sent.Sublist s.received := by simpa [send] using thinned.sublist 0
    exact ⟨_, (List.append_nil _).symm, sublist.trans (List.sublist_append_left _ _)⟩
  · exact ⟨_, (List.append_nil _).symm, thinned.sublist transferred⟩
  · exact thinned.step thrown

/-- Nothing is repeated and nothing is reordered. -/
theorem sent_sublist {spawn : Spawn} (run : Run (resume codes) (Receives codes) (spawned spawn) events s) :
    s.sent.Sublist s.received := by
  have thinned : s.Thinned := by
    refine run.invariant (fun thinned receives resumed => resume_invariant
      (fun thinned _ stepped => thinned.step stepped) (fun thinned _ interrupted => thinned.interrupt interrupted)
      thinned receives resumed) ?_
    cases spawn <;> exact ⟨[], rfl, .slnil⟩
  simpa [send] using thinned.sublist 0

/-- The log shows what has been received, all of it unless it ends with an
exception. -/
structure Logged (s : Session X) : Prop where
  shown : s.log.flatMap Line.bytes <+: s.received
  calm : .catchException ∉ s.log → s.log.flatMap Line.bytes = s.received
  running : s.phase ≠ .closed → .catchException ∉ s.log

theorem Logged.of_eq (same : s.log.flatMap Line.bytes = s.received)
    (running : s.phase ≠ .closed → .catchException ∉ s.log) : s.Logged :=
  ⟨same ▸ List.prefix_rfl, fun _ => same, running⟩

theorem Logged.step (logged : s.Logged) (delivers : s.Delivers codes event)
    (stepped : s.step codes event = some t) : t.Logged := by
  have calm := logged.running (Stepped.of_step stepped).running
  refine .of_eq (logged_step (logged.calm calm) delivers stepped) fun running => ?_
  cases Stepped.of_step stepped with
  | receive => simpa [startWrite, store] using calm
  | echo => exact calm
  | stopReading | stopWriting | throw => exact absurd rfl running

theorem Logged.interrupt (logged : s.Logged) (interrupted : s.interrupt codes event = some t) : t.Logged := by
  rcases interrupt_cases interrupted with ⟨ec, chunk, _, reading, rfl⟩ | ⟨ec, transferred, _, going, rfl⟩ | thrown
  · have calm := logged.running (by rw [reading]; simp)
    have shown : ((s.store chunk).close .catchException).log.flatMap Line.bytes = s.received :=
      (logged_close _ rfl).trans (logged.calm calm)
    refine ⟨shown ▸ List.prefix_append _ _, fun caught => absurd ?_ caught, fun running => absurd rfl running⟩
    exact List.mem_append_right _ List.mem_cons_self
  · have shown : ((s.send transferred).close .catchException).log.flatMap Line.bytes = s.received :=
      (logged_close _ rfl).trans (logged.calm (logged.running going))
    exact .of_eq shown fun running => absurd rfl running
  · have throws : s.Delivers codes .throw := trivial
    exact logged.step throws thrown

theorem logged_run {spawn : Spawn} (run : Run (resume codes) (Receives codes) (spawned spawn) events s) :
    s.Logged := by
  refine run.invariant (fun logged receives resumed => resume_invariant
    (fun logged delivers stepped => logged.step delivers stepped)
    (fun logged _ interrupted => logged.interrupt interrupted) logged receives resumed) ?_
  cases spawn with
  | posted | started => exact .of_eq rfl fun _ => by simp [spawned, init]
  | thrown => exact .of_eq rfl fun running => absurd rfl running

end Session

/-- The operations of session `k` among those not handled yet. -/
def workOn (k : Nat) (x : Observed Operation (Outcome X ε)) : List Operation :=
  x.work.filter (Operation.on k)

/-- The session waits for these operations: the next one of its coroutine, or
the start of the coroutine. -/
def Session.Waits (s : Session X) (k : Nat) (ops : List Operation) : Prop :=
  ops = s.awaits k ∨ s = .init ∧ ops = [.echo k]

section Waits
variable {s t : Session X} {k : Nat} {ops more : List Operation}

theorem Session.awaits_on (s : Session X) (k : Nat) : ∀ op ∈ s.awaits k, op.on k = true := by
  unfold awaits
  split <;> simp [Operation.on]

theorem Session.awaits_length (s : Session X) (k : Nat) : (s.awaits k).length ≤ 1 := by
  unfold awaits
  split <;> simp

theorem Session.Waits.length (waits : s.Waits k ops) : ops.length ≤ 1 := by
  rcases waits with rfl | ⟨_, rfl⟩
  · exact s.awaits_length k
  · exact Nat.le_refl 1

theorem Session.Waits.perm (waits : s.Waits k ops) (perm : ops.Perm more) : s.Waits k more := by
  rw [← perm_short waits.length perm]
  exact waits

/-- A session that waits for something is not over. -/
theorem Session.Waits.running (waits : s.Waits k (op :: rest)) : s.phase ≠ .closed := by
  intro closed
  rcases waits with same | ⟨rfl, _⟩
  · simp [awaits, closed] at same
  · cases closed

end Waits

/-- A queued outcome is one that its operation can still have. -/
def Fits (codes : ErrorCodes X) (s : Server X ε) (item : Operation × Outcome X ε) : Prop :=
  s.Completes codes item.1 item.2 ∨ item.2 = .resumed ∧ (item.1 = .listen ∨ ∃ k, item.1 = .echo k)

/-- What an operation can complete with depends on its own session only. -/
theorem Fits.congr {s t : Server X ε} {item : Operation × Outcome X ε} (fits : Fits codes s item)
    (same : ∀ k, item.1.on k = true → t.sessions[k]? = s.sessions[k]?) : Fits codes t item := by
  refine fits.imp_left fun completes => ?_
  obtain ⟨op, outcome⟩ := item
  cases op with
  | read k =>
    cases outcome with
    | read ec chunk =>
      intro session present
      exact completes session (same k (by simp [Operation.on]) ▸ present)
    | _ => exact completes
  | write k =>
    cases outcome with
    | written ec transferred =>
      intro session present
      exact completes session (same k (by simp [Operation.on]) ▸ present)
    | _ => exact completes
  | accept => cases outcome <;> exact completes
  | signal => cases outcome <;> exact completes
  | listen | echo => cases completes

/-- The invariant. -/
structure Served (codes : ErrorCodes X) (l : ServerView X ε) : Prop where
  each : ∀ (k : Nat) peer s, l.program.sessions[k]? = some (peer, s) → s.Waits k (workOn k l.context)
  fresh : ∀ k, l.program.sessions.length ≤ k → workOn k l.context = []
  fits : ∀ item ∈ l.context.queued, Fits codes l.program item
  alone : ∀ (k : Nat) peer s, l.program.sessions[k]? = some (peer, s) → ∃ spawn,
    Run (Session.resume codes) (Session.Receives codes) (.spawned spawn) (l.handled.filterMap (eventOn k)) s
  unheard : ∀ k, l.program.sessions.length ≤ k → l.handled.filterMap (eventOn k) = []

namespace Served
variable {l m : ServerView X ε}

theorem init (time : Int) : Served codes (EventLoop.init .init time : ServerView X ε) where
  each := by simp [EventLoop.init, Server.init]
  fresh := by simp [EventLoop.init, workOn, IoContext.fresh, Observed.work]
  fits := by simp [EventLoop.init, IoContext.fresh]
  alone := by simp [EventLoop.init, Server.init]
  unheard := by simp [EventLoop.init]

/-- Steps that move work or add some that belongs to no session. -/
theorem keep (served : Served codes l) (program : m.program = l.program)
    (work : ∀ k, (workOn k l.context).Perm (workOn k m.context))
    (queued : ∀ item ∈ m.context.queued, item ∈ l.context.queued ∨ Fits codes l.program item)
    (handled : m.handled = l.handled) : Served codes m where
  each := by
    rw [program]
    exact fun k peer s present => (served.each k peer s present).perm (work k)
  fresh := by
    rw [program]
    intro k beyond
    have none := work k
    rw [served.fresh k beyond] at none
    exact List.nil_perm.mp none
  fits := by
    rw [program]
    exact fun item waiting => (queued item waiting).elim (served.fits item) id
  alone := by
    rw [program, handled]
    exact served.alone
  unheard := by
    rw [program, handled]
    exact served.unheard

/-- What is left of a session's work when a handler is taken off the queue. -/
theorem workOn_queued {x : Observed Operation (Outcome X ε)}
    (found : x.queued = before ++ (op, outcome) :: after) (k : Nat) : (workOn k x).Perm
      ((if op.on k then [op] else []) ++ workOn k (x.dequeue (before ++ after))) := by
  have taken := (Observed.work_queued found).filter (Operation.on k)
  rw [List.filter_cons] at taken
  refine taken.trans (.of_eq ?_)
  split <;> rfl

theorem workOn_performs {x y : Observed Operation (Outcome X ε)}
    {commands : List (Command Operation (Outcome X ε))} (performs : x.PerformsAll commands y) (k : Nat) :
    (workOn k y).Perm (workOn k x ++ (commands.filterMap Command.starts).filter (Operation.on k)) := by
  have moved := performs.work.filter (Operation.on k)
  rwa [List.filter_append] at moved

/-- No other operation of the session is left. -/
theorem workOn_rest (served : Served codes l) (chosen : l.context.queued = before ++ (op, outcome) :: after)
    (on : op.on k = true) (found : l.program.sessions[k]? = some (peer, s)) :
    s.Waits k [op] ∧ workOn k (l.context.dequeue (before ++ after)) = [] := by
  have waits := served.each k peer s found
  have taken := workOn_queued chosen k
  rw [if_pos on] at taken
  have short := waits.length
  rw [taken.length_eq, List.length_append, List.length_singleton] at short
  have none : workOn k (l.context.dequeue (before ++ after)) = [] := List.length_eq_zero_iff.mp (by omega)
  refine ⟨?_, none⟩
  rw [none] at taken
  exact waits.perm taken

theorem on_ne {op : Operation} (on : op.on k = true) (other : j ≠ k) : op.on j = false := by
  cases op <;> simp_all [Operation.on] <;> omega

/-- A session goes on: its operation has been handled, and it waits for the next. -/
theorem goOn (served : Served codes l) (chosen : l.context.queued = before ++ (op, outcome) :: after)
    (on : op.on k = true) (found : l.program.sessions[k]? = some (peer, s)) (t : Session X)
    (next : List Operation) (sessions : m.program.sessions = l.program.sessions.set k (peer, t))
    (performs : (l.context.dequeue (before ++ after)).PerformsAll (next.map fun op => .start op) m.context)
    (handled : m.handled = l.handled ++ [item]) (others : ∀ j, j ≠ k → eventOn j item = none)
    (waits : t.Waits k next) (nextOn : ∀ op ∈ next, op.on k = true)
    (alone : ∃ spawn, Run (Session.resume codes) (Session.Receives codes) (.spawned spawn)
      ((l.handled ++ [item]).filterMap (eventOn k)) t) : Served codes m := by
  obtain ⟨_, none⟩ := served.workOn_rest chosen on found
  have bound := (List.getElem?_eq_some_iff.mp found).1
  have elsewhere : ∀ j, j ≠ k → (workOn j l.context).Perm (workOn j m.context) := by
    intro j other
    have moved := workOn_performs performs j
    have taken := workOn_queued chosen j
    rw [on_ne on other] at taken
    have off : (next.filter (Operation.on j)) = [] := by
      apply List.filter_eq_nil_iff.mpr
      intro op member
      simp [on_ne (nextOn op member) other]
    rw [starts_start next fun op => op, List.map_id', off, List.append_nil] at moved
    exact taken.trans moved.symm
  constructor
  case each =>
    intro j peer' s' present
    rw [sessions] at present
    by_cases same : j = k
    · subst same
      rw [List.getElem?_set_self bound] at present
      cases present
      have moved := workOn_performs performs j
      rw [starts_start next fun op => op, List.map_id', none, List.nil_append,
        List.filter_eq_self.mpr nextOn] at moved
      exact waits.perm moved.symm
    · rw [List.getElem?_set_ne (Ne.symm same)] at present
      exact (served.each j peer' s' present).perm (elsewhere j same)
  case fresh =>
    intro j beyond
    rw [sessions, List.length_set] at beyond
    have empty := elsewhere j (by omega)
    rw [served.fresh j beyond] at empty
    exact List.nil_perm.mp empty
  case fits =>
    intro item waiting
    rw [performs.eq (certain_start next fun op => op), Observed.performAll_start _ next fun op => op] at waiting
    have earlier := served.fits item (mem_of_taken chosen waiting)
    refine earlier.congr fun j onJ => ?_
    have other : j ≠ k := by
      rintro rfl
      have member : item.1 ∈ workOn j (l.context.dequeue (before ++ after)) :=
        List.mem_filter.mpr ⟨List.mem_append_right _ (List.mem_map_of_mem waiting), onJ⟩
      simp [none] at member
    rw [sessions, List.getElem?_set_ne (Ne.symm other)]
  case alone =>
    intro j peer' s' present
    rw [sessions] at present
    by_cases same : j = k
    · subst same
      rw [List.getElem?_set_self bound] at present
      cases present
      exact handled ▸ alone
    · rw [List.getElem?_set_ne (Ne.symm same)] at present
      rw [handled, List.filterMap_append, List.filterMap_cons_none (others j same), List.filterMap_nil,
        List.append_nil]
      exact served.alone j peer' s' present
  case unheard =>
    intro j beyond
    rw [sessions, List.length_set] at beyond
    rw [handled, List.filterMap_append, List.filterMap_cons_none (others j (by omega)),
      List.filterMap_nil, List.append_nil]
    exact served.unheard j beyond

/-- What a session that has just been spawned waits for. -/
theorem waits_spawned (k : Nat) (spawn : Spawn) :
    (Session.spawned spawn : Session X).Waits k
        ((Server.coSpawn k spawn : List (Command Operation (Outcome X ε))).filterMap Command.starts) ∧
      ∀ op ∈ (Server.coSpawn k spawn : List (Command Operation (Outcome X ε))).filterMap Command.starts,
        op.on k = true := by
  cases spawn with
  | posted => exact ⟨.inr ⟨rfl, rfl⟩, by simp [Server.coSpawn, Command.starts, Operation.on]⟩
  | started => exact ⟨.inl rfl, by simp [Server.coSpawn, Command.starts, Operation.on]⟩
  | thrown => exact ⟨.inl rfl, by simp [Server.coSpawn]⟩

/-- A session is one of those before, or the one that has been spawned. -/
theorem session_cases {sessions : List (ε × Session X)} {new : Option ε}
    (present : (sessions ++ (new.map (·, .spawned spawn)).toList)[k]? = some (peer, s)) :
    sessions[k]? = some (peer, s) ∨ k = sessions.length ∧ new = some peer ∧ s = .spawned spawn := by
  rcases Nat.lt_or_ge k sessions.length with known | beyond
  · rw [List.getElem?_append_left known] at present
    exact .inl present
  · rw [List.getElem?_append_right beyond] at present
    cases new with
    | none => simp at present
    | some newPeer =>
      have position : k = sessions.length := by
        have bound := (List.getElem?_eq_some_iff.mp present).1
        simp only [Option.map_some, Option.toList_some, List.length_singleton] at bound
        omega
      simp only [position, Nat.sub_self, Option.map_some, Option.toList_some, List.getElem?_cons_zero,
        Option.some.injEq, Prod.mk.injEq] at present
      obtain ⟨rfl, rfl⟩ := present
      exact .inr ⟨position, rfl, rfl⟩

/-- What is queued for a session belongs to a known one. -/
theorem known (served : Served codes l) {item : Operation × Outcome X ε} (waiting : item ∈ l.context.queued)
    (on : item.1.on k = true) : k < l.program.sessions.length := by
  apply Nat.lt_of_not_le
  intro beyond
  have listed : item.1 ∈ workOn k l.context :=
    List.mem_filter.mpr ⟨List.mem_append_right _ (List.mem_map_of_mem waiting), on⟩
  simp [served.fresh k beyond] at listed

/-- A handler that belongs to no session; it may have spawned a new one. -/
theorem listener (served : Served codes l) (chosen : l.context.queued = before ++ (op, outcome) :: after)
    (off : ∀ k, op.on k = false) (new : Option ε) (spawn : Spawn)
    (commands : List (Command Operation (Outcome X ε)))
    (sessions : m.program.sessions = l.program.sessions ++ (new.map (·, .spawned spawn)).toList)
    (performs : (l.context.dequeue (before ++ after)).PerformsAll commands m.context)
    (started : ∀ k, (commands.filterMap Command.starts).filter (Operation.on k) =
      ((new.elim [] fun _ => Server.coSpawn l.program.sessions.length spawn :
        List (Command Operation (Outcome X ε))).filterMap Command.starts).filter (Operation.on k))
    (queued : ∀ item ∈ m.context.queued,
      item ∈ before ++ after ∨ item = (.echo l.program.sessions.length, .resumed))
    (handled : m.handled = l.handled ++ [item]) (silent : ∀ k, eventOn k item = none) :
    Served codes m := by
  have unheard : ∀ k, m.handled.filterMap (eventOn k) = l.handled.filterMap (eventOn k) := by
    intro k
    rw [handled, List.filterMap_append, List.filterMap_cons_none (silent k), List.filterMap_nil,
      List.append_nil]
  obtain ⟨waits, on⟩ := waits_spawned (X := X) (ε := ε) l.program.sessions.length spawn
  have work : ∀ k, (workOn k m.context).Perm (workOn k l.context ++
      ((new.elim [] fun _ => Server.coSpawn l.program.sessions.length spawn :
        List (Command Operation (Outcome X ε))).filterMap Command.starts).filter (Operation.on k)) := by
    intro k
    have moved := workOn_performs performs k
    have taken := workOn_queued chosen k
    rw [off k] at taken
    rw [started k] at moved
    exact moved.trans (taken.symm.append_right _)
  have old : ∀ k, k ≠ l.program.sessions.length →
      (workOn k l.context).Perm (workOn k m.context) := by
    intro k other
    have same := work k
    rw [List.filter_eq_nil_iff.mpr, List.append_nil] at same
    · exact same.symm
    · intro op member
      cases new with
      | none => cases member
      | some newPeer => simp [on_ne (on op member) other]
  constructor
  case each =>
    intro k peer s present
    rcases session_cases (sessions ▸ present) with before | ⟨rfl, rfl, rfl⟩
    · have bound := (List.getElem?_eq_some_iff.mp before).1
      exact (served.each k peer s before).perm (old k (by omega))
    · have alone := work l.program.sessions.length
      simp only [served.fresh _ (Nat.le_refl _), Option.elim_some, List.nil_append] at alone
      rw [List.filter_eq_self.mpr on] at alone
      exact waits.perm alone.symm
  case fresh =>
    intro k beyond
    rw [sessions, List.length_append] at beyond
    by_cases first : k = l.program.sessions.length
    · have none : new = none := by
        cases new with
        | none => rfl
        | some newPeer =>
          simp only [Option.map_some, Option.toList_some, List.length_singleton] at beyond
          omega
      have same := work k
      subst none
      rw [served.fresh k (by omega)] at same
      exact List.perm_nil.mp same
    · have same := old k first
      rw [served.fresh k (by omega)] at same
      exact List.nil_perm.mp same
  case fits =>
    intro item waiting
    rcases queued item waiting with earlier | rfl
    · have member : item ∈ l.context.queued := mem_of_taken chosen earlier
      refine (served.fits item member).congr fun k on => ?_
      rw [sessions, List.getElem?_append_left (served.known member on)]
    · exact .inr ⟨rfl, .inr ⟨_, rfl⟩⟩
  case alone =>
    intro k peer s present
    rw [unheard]
    rcases session_cases (sessions ▸ present) with before | ⟨rfl, _, rfl⟩
    · exact served.alone k peer s before
    · rw [served.unheard _ (Nat.le_refl _)]
      exact ⟨spawn, .refl _⟩
  case unheard =>
    intro k beyond
    rw [unheard]
    rw [sessions, List.length_append] at beyond
    exact served.unheard k (by omega)

/-- A coroutine that is resumed with an event of its session goes on. -/
theorem advance {event : Event X × Fault} {x : Observed Operation (Outcome X ε)} (served : Served codes l)
    (chosen : l.context.queued = before ++ (op, outcome) :: after)
    (on : op.on k = true) (found : l.program.sessions[k]? = some (peer, s))
    (means : ∀ j, eventOn j (op, outcome, surroundings) = if k = j then some event else none)
    (receives : s.Receives codes event) (resumed : s.resume codes event = some t)
    (handle : l.program.handle codes op outcome surroundings = l.program.advance codes k event)
    (performs : (l.context.dequeue (before ++ after)).PerformsAll
      (l.program.handle codes op outcome surroundings).2 x) :
    Served codes (l.handle (server codes) op outcome surroundings x) := by
  have result : l.program.handle codes op outcome surroundings =
      ({ l.program with sessions := l.program.sessions.set k (peer, t) },
        (t.awaits k).map fun op => .start op) := by
    rw [handle]
    simp [Server.advance, found, resumed]
  rw [result] at performs
  refine served.goOn chosen on found t (t.awaits k) (congrArg (·.1.sessions) result) performs rfl ?_ (.inl rfl)
    (t.awaits_on k) ?_
  · intro j other
    rw [means, if_neg (Ne.symm other)]
  · rw [List.filterMap_append]
    obtain ⟨spawn, alone⟩ := served.alone k peer s found
    refine ⟨spawn, alone.trans ?_⟩
    rw [List.filterMap_cons_some ((means k).trans (if_pos rfl))]
    exact .single receives resumed

/-- The session that a queued operation belongs to. -/
theorem session_of_queued (served : Served codes l) (chosen : l.context.queued = before ++ (op, outcome) :: after)
    (on : op.on k = true) : ∃ peer s, l.program.sessions[k]? = some (peer, s) ∧ s.Waits k [op] := by
  have waiting : (op, outcome) ∈ l.context.queued := chosen ▸ List.mem_append_right _ List.mem_cons_self
  have found := List.getElem?_eq_getElem (served.known waiting on)
  exact ⟨_, _, found, (served.workOn_rest chosen on found).1⟩

end Served

section Steps
variable {s : Session X}

theorem Session.resume_throw (running : s.phase ≠ .closed) :
    s.resume codes (.throw, .none) = some (s.close .catchException) := by
  simp only [resume, step]

theorem Session.exists_resume {event : Event X} (stepped : ∃ t, s.step codes event = some t)
    (interrupted : ∃ t, s.interrupt codes event = some t) (fault : Fault) :
    ∃ t, s.resume codes (event, fault) = some t := by
  obtain ⟨t, stepped⟩ := stepped
  cases fault with
  | none | spawning => exact ⟨t, stepped⟩
  | logging => exact interrupted
  | initiating => exact ⟨(t.step codes .throw).getD t, by simp only [resume, stepped, Option.map_some]⟩

theorem Session.resume_read (codes : ErrorCodes X) (reading : s.phase = .reading) (ec : X)
    (chunk : List UInt8) (fault : Fault) : ∃ t, s.resume codes (.read ec chunk, fault) = some t := by
  refine exists_resume ?_ ⟨_, by simp only [interrupt, reading]; rfl⟩ fault
  simp only [step, reading]
  split <;> exact ⟨_, rfl⟩

theorem Session.resume_write (codes : ErrorCodes X) (writing : s.phase = .writing svBuffer) (ec : X)
    (transferred : Nat) (fault : Fault) : ∃ t, s.resume codes (.write ec transferred, fault) = some t := by
  refine exists_resume ?_ ⟨_, by simp only [interrupt, writing]; rfl⟩ fault
  simp only [step, writing]
  split <;> exact ⟨_, rfl⟩

theorem Session.Waits.reading (waits : s.Waits k [.read k]) : s.phase = .reading := by
  rcases waits with same | ⟨rfl, _⟩
  · cases phase : s.phase <;> simp [awaits, phase] at same ⊢
  · rfl

theorem Session.Waits.writing (waits : s.Waits k [.write k]) : ∃ svBuffer, s.phase = .writing svBuffer := by
  rcases waits with same | ⟨_, other⟩
  · cases phase : s.phase <;> simp [awaits, phase] at same ⊢
  · simp at other

theorem Session.Waits.unstarted (waits : s.Waits k [.echo k]) : s = .init := by
  rcases waits with same | ⟨initial, _⟩
  · cases phase : s.phase <;> simp [awaits, phase] at same
  · exact initial

end Steps
namespace Served
variable {l m : ServerView X ε}

theorem handle_accept (served : Served codes l)
    (chosen : l.context.queued = before ++ (.accept, .accepted ec peer) :: after)
    (performs : (l.context.dequeue (before ++ after)).PerformsAll
      (l.program.accept codes ec peer surroundings).2 x) :
    Served codes (l.handle (server codes) .accept (.accepted ec peer) surroundings x) := by
  obtain ⟨again, waits, commands⟩ := Server.accept_commands codes l.program ec peer surroundings
  have sessions := Server.accept_sessions codes l.program ec peer surroundings
  generalize Server.newPeer codes ec peer surroundings.fault = new at commands sessions
  obtain ⟨fault, spawn⟩ := surroundings
  refine served.listener chosen (fun _ => rfl) new spawn _ sessions performs ?_ ?_ rfl (fun _ => rfl)
  · intro k
    rw [commands]
    rcases waits with ⟨rfl, _⟩ | ⟨rfl, _⟩ <;> cases new <;> cases spawn <;> rfl
  · intro item waiting
    have certain : (l.program.accept codes ec peer ⟨fault, spawn⟩).2.all Command.certain = true := by
      rw [commands]
      rcases waits with ⟨rfl, _⟩ | ⟨rfl, _⟩ <;> cases new <;> cases spawn <;> rfl
    have same : x.queued = _ := congrArg (fun y => y.queued) (performs.eq certain)
    have waiting : item ∈ x.queued := waiting
    rw [same, commands] at waiting
    rcases waits with ⟨rfl, _⟩ | ⟨rfl, _⟩ <;> cases new <;> cases spawn <;>
      simp [Server.coSpawn, Observed.perform, Observed.dequeue] at waiting ⊢ <;> tauto

/-- The coroutine of a session starts. -/
theorem handle_echo (served : Served codes l)
    (chosen : l.context.queued = before ++ (.echo k, .resumed) :: after)
    (performs : (l.context.dequeue (before ++ after)).PerformsAll
      (l.program.handle codes (.echo k) .resumed surroundings).2 x) :
    Served codes (l.handle (server codes) (.echo k) .resumed surroundings x) := by
  obtain ⟨peer, s, found, waits⟩ := served.session_of_queued chosen (beq_self_eq_true k)
  obtain rfl := waits.unstarted
  by_cases throws : surroundings.fault = .initiating
  · have receives : Session.init.Receives codes (.throw, .none) := trivial
    refine served.advance chosen (beq_self_eq_true k) found (fun j => ?_) receives
      (Session.resume_throw waits.running) (if_pos throws) performs
    simp [eventOn, throws]
  · have handle : l.program.handle codes (.echo k) .resumed surroundings = (l.program, [.start (.read k)]) :=
      if_neg throws
    have bound := (List.getElem?_eq_some_iff.mp found).1
    have same : l.program.sessions.set k (peer, .init) = l.program.sessions := by
      rw [List.getElem?_eq_some_iff.mp found |>.2.symm, List.set_getElem_self]
    rw [handle] at performs
    have sessions : (l.handle (server codes) (.echo k) .resumed surroundings x).program.sessions =
        l.program.sessions.set k (peer, .init) := (congrArg (·.1.sessions) handle).trans same.symm
    refine served.goOn chosen (beq_self_eq_true k) found .init [.read k] sessions performs rfl ?_ (.inl rfl)
      (by simp [Operation.on]) ?_
    · intro j _
      simp [eventOn, throws]
    · rw [List.filterMap_append, List.filterMap_cons_none (by simp [eventOn, throws]), List.filterMap_nil,
        List.append_nil]
      exact served.alone k peer .init found

/-- By cases on the operation whose handler runs. -/
theorem handle (served : Served codes l) (chosen : l.context.queued = before ++ (op, outcome) :: after)
    (performs : (l.context.dequeue (before ++ after)).PerformsAll
      (l.program.handle codes op outcome surroundings).2 x) :
    Served codes (l.handle (server codes) op outcome surroundings x) := by
  have fits : Fits codes l.program (op, outcome) :=
    served.fits _ (chosen ▸ List.mem_append_right _ List.mem_cons_self)
  obtain ⟨fault, spawn⟩ := surroundings
  cases op with
  | listen =>
    rcases fits with never | ⟨rfl, _⟩
    · cases never
    · have queued : ∀ item ∈ x.queued, item ∈ before ++ after := by
        cases fault <;> cases performs.eq rfl <;> exact fun item waiting => waiting
      have sessions : (l.program.listen fault).1.sessions = l.program.sessions := by
        cases fault <;> rfl
      refine served.listener chosen (fun _ => rfl) none spawn _ (sessions.trans (List.append_nil _).symm)
        performs (fun k => ?_) (fun item waiting => .inl (queued item waiting)) rfl (fun _ => rfl)
      cases fault <;> rfl
  | accept =>
    rcases fits with completes | ⟨_, starts | ⟨_, starts⟩⟩
    · cases outcome with
      | accepted ec peer => exact served.handle_accept chosen performs
      | _ => cases completes
    · cases starts
    · cases starts
  | signal =>
    rcases fits with completes | ⟨_, starts | ⟨_, starts⟩⟩
    · cases outcome with
      | resumed =>
        refine served.listener chosen (fun _ => rfl) none spawn [.stop] (List.append_nil _).symm performs
          (fun _ => rfl) (fun item waiting => .inl ?_) rfl (fun _ => rfl)
        cases performs.eq rfl
        exact waiting
      | _ => cases completes
    · cases starts
    · cases starts
  | echo k =>
    rcases fits with never | ⟨rfl, _⟩
    · cases never
    · exact served.handle_echo chosen performs
  | read k =>
    obtain ⟨peer, s, found, waits⟩ := served.session_of_queued chosen (beq_self_eq_true k)
    rcases fits with completes | ⟨rfl, starts | ⟨_, starts⟩⟩
    · cases outcome with
      | read ec chunk =>
        have receives : s.Receives codes (.read ec chunk, fault) := completes _ found
        obtain ⟨t, resumed⟩ := Session.resume_read codes waits.reading ec chunk fault
        exact served.advance chosen (beq_self_eq_true k) found (fun _ => rfl) receives resumed rfl performs
      | _ => cases completes
    · cases starts
    · cases starts
  | write k =>
    obtain ⟨peer, s, found, waits⟩ := served.session_of_queued chosen (beq_self_eq_true k)
    rcases fits with completes | ⟨rfl, starts | ⟨_, starts⟩⟩
    · cases outcome with
      | written ec transferred =>
        have receives : s.Receives codes (.write ec transferred, fault) := completes _ found
        obtain ⟨svBuffer, writing⟩ := waits.writing
        obtain ⟨t, resumed⟩ := Session.resume_write codes writing ec transferred fault
        exact served.advance chosen (beq_self_eq_true k) found (fun _ => rfl) receives resumed rfl performs
      | _ => cases completes
    · cases starts
    · cases starts

theorem step (served : Served codes l) (stepped : EventLoop.Stepped (server codes) l input m) :
    Served codes m := by
  cases stepped with
  | @call function x outside performs =>
    refine served.keep rfl (fun k => ?_) (fun item waiting => ?_) rfl
    · have moved := workOn_performs performs k
      exact (moved.trans (.of_eq (List.append_nil _))).symm
    · cases performs.eq rfl
      have earlier : item ∈ l.context.queued ∨ item = (.listen, .resumed) := by
        simpa [EventLoop.resume, server, Observed.perform] using waiting
      refine earlier.imp_right ?_
      rintro rfl
      exact .inr ⟨rfl, .inl rfl⟩
  | @complete before op after outcome found completes =>
    have can : l.program.Completes codes op outcome := by
      simpa only [server, decide_eq_true_eq] using completes
    refine served.keep rfl (fun k => (EventLoop.complete_work found outcome).symm.filter _)
      (fun item waiting => ?_) rfl
    refine (List.mem_append.mp waiting).imp_right fun new => ?_
    cases List.mem_singleton.mp new
    exact .inl can
  | handle running going chosen performs => exact served.handle chosen performs
  | enter | leave | tick =>
    exact served.keep rfl (fun k => .refl _) (fun _ waiting => .inl waiting) rfl

theorem run {κ : Type} [IoContext κ Operation (Outcome X ε)] {l : ServerLoop κ X ε} {time : Int}
    (path : Run (EventLoop.step (server codes)) Main (EventLoop.init .init time) inputs l) :
    Served codes l.observe := by
  refine EventLoop.invariant (G := Main) id (fun served _ stepped => served.step stepped) path ?_
  rw [EventLoop.observe_init]
  exact .init time

end Served

section Sessions
variable {κ : Type} [IoContext κ Operation (Outcome X ε)] {l : ServerLoop κ X ε} {time : Int}

/-- A session never has two operations at a time: one while it is alive, and
none when it is over. -/
theorem one_operation_each
    (path : Run (EventLoop.step (server codes)) Main (EventLoop.init .init time) inputs l) :
    ∀ (k : Nat) peer s, l.program.sessions[k]? = some (peer, s) →
      (workOn k l.observe.context).length = if s.phase = .closed then 0 else 1 := by
  intro k peer s present
  rcases (Served.run path).each k peer s present with waits | ⟨rfl, waits⟩
  · rw [waits]
    cases phase : s.phase <;> simp [Session.awaits, phase]
  · rw [waits]
    rfl

/-- Connections do not mix: the state of each session is that of `echo` alone,
resumed with the completions of its own operations, so that its peer gets back
only bytes it has sent itself, in order. What it has sent is logged, all of it
unless the session ends with an exception. -/
theorem sessions_apart
    (path : Run (EventLoop.step (server codes)) Main (EventLoop.init .init time) inputs l) :
    ∀ (k : Nat) peer s, l.program.sessions[k]? = some (peer, s) →
      (∃ spawn, Run (Session.resume codes) (Session.Receives codes) (.spawned spawn)
          (l.handled.filterMap (eventOn k)) s) ∧
        s.sent.Sublist s.received ∧ s.log.flatMap Line.bytes <+: s.received ∧
        (.catchException ∉ s.log → s.log.flatMap Line.bytes = s.received) := by
  intro k peer s present
  obtain ⟨spawn, alone⟩ := (Served.run path).alone k peer s present
  have logged := Session.logged_run alone
  exact ⟨⟨spawn, alone⟩, Session.sent_sublist alone, logged.shown, logged.calm⟩

end Sessions

abbrev PlainServer : Type := ServerLoop (Observed Operation (Outcome Nat Nat)) Nat Nat

/-- Two connections at a time, the second of which sends while the first one is
being answered; then an exception cuts the first one short. -/
def twoConnections : List (ServerInput Nat Nat) :=
  [.call (), .enter, .handle {}, .complete .accept (.accepted 0 70), .handle {}, .handle {},
    .complete .accept (.accepted 0 80), .handle { spawn := .started },
    .complete (.read 0) (.read 0 [1, 2]), .complete (.read 1) (.read 0 [3]), .handle {}, .handle {},
    .complete (.write 1) (.written 0 1), .complete (.write 0) (.written 0 2), .handle {}, .handle {},
    .complete (.read 0) (.read 0 [4]), .handle { fault := .logging }]

theorem one_operation_each_two_connections : ∃ l : PlainServer,
    Run (EventLoop.step (server plainCodes)) Main (EventLoop.init .init 0) twoConnections l ∧
    l.program.sessions.map (·.2.phase) = [.closed, .reading] ∧
    ∀ (k : Nat) peer s, l.program.sessions[k]? = some (peer, s) →
      (workOn k l.observe.context).length = if s.phase = .closed then 0 else 1 :=
  Run.instance_of_execute ⟨_, rfl, rfl⟩ fun _ path _ => one_operation_each path

theorem sessions_apart_two_connections : ∃ l : PlainServer,
    Run (EventLoop.step (server plainCodes)) Main (EventLoop.init .init 0) twoConnections l ∧
    l.program.sessions.map (fun session => (session.1, session.2.received, session.2.sent)) =
      [(70, [1, 2, 4], [1, 2]), (80, [3], [3])] ∧
    ∀ (k : Nat) peer s, l.program.sessions[k]? = some (peer, s) →
      (∃ spawn, Run (Session.resume plainCodes) (Session.Receives plainCodes) (.spawned spawn)
          (l.handled.filterMap (eventOn k)) s) ∧
        s.sent.Sublist s.received ∧ s.log.flatMap Line.bytes <+: s.received ∧
        (.catchException ∉ s.log → s.log.flatMap Line.bytes = s.received) :=
  Run.instance_of_execute ⟨_, rfl, rfl⟩ fun _ path _ => sessions_apart path

end BoostTest.Echo
