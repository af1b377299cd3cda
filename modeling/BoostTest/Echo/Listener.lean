import BoostTest.Echo.Connections

/-! How long the server listens and runs. An error of `async_accept` costs one
iteration and nothing else; an exception ends `listen` for good, but not the
server, which serves its sessions on until a signal comes. -/
namespace BoostTest.Echo
open Asio Transition

variable {X ε : Type} {codes : ErrorCodes X}

def Operation.isListener : Operation → Bool
  | .listen | .accept => true
  | _ => false

/-- `listen` has one operation unless it has not started or has thrown. -/
structure Listening (l : ServerView X ε) : Prop where
  unstarted : l.started = [] → l.context.work = [] ∧ .catchException ∉ l.program.log
  once : l.started ≠ [] → .catchException ∉ l.program.log → l.context.work.countP Operation.isListener = 1
  ended : .catchException ∈ l.program.log → l.context.work.countP Operation.isListener = 0

/-- A handler of a session touches its own session, and of that not the peer. -/
theorem Server.advance_keeps (s : Server X ε) (k : Nat) (event : Event X × Fault) :
    (s.advance codes k event).1.log = s.log ∧
      (s.advance codes k event).1.sessions.map Prod.fst = s.sessions.map Prod.fst ∧
      ((s.advance codes k event).2.filterMap Command.starts).countP Operation.isListener = 0 := by
  unfold advance
  split
  · rename_i peer session found
    split
    · rename_i t _
      refine ⟨rfl, ?_, ?_⟩
      · have same : (s.sessions.map Prod.fst)[k]? = some peer := by simp [found]
        obtain ⟨bound, value⟩ := List.getElem?_eq_some_iff.mp same
        rw [List.map_set, ← value, List.set_getElem_self]
      · rw [starts_start _ fun op => op]
        apply List.countP_eq_zero.mpr
        intro op member
        rw [List.map_id'] at member
        have on := t.awaits_on k op member
        cases op <;> simp_all [Operation.on, Operation.isListener]
    · exact ⟨rfl, rfl, rfl⟩
  · exact ⟨rfl, rfl, rfl⟩

/-- What every handler but those of `listen` does to the listener: nothing. -/
theorem Server.handle_other (codes : ErrorCodes X) (s : Server X ε) (outcome : Outcome X ε) (surroundings : Surroundings)
    (other : op.isListener = false) :
    (s.handle codes op outcome surroundings).1.log = s.log ∧
      (s.handle codes op outcome surroundings).1.sessions.map Prod.fst = s.sessions.map Prod.fst ∧
      ((s.handle codes op outcome surroundings).2.filterMap Command.starts).countP Operation.isListener = 0 := by
  cases op with
  | listen | accept => cases other
  | echo k =>
    cases outcome with
    | resumed =>
      simp only [handle]
      split
      · exact s.advance_keeps k _
      · exact ⟨rfl, rfl, rfl⟩
    | _ => exact ⟨rfl, rfl, rfl⟩
  | read k =>
    cases outcome with
    | read ec chunk => exact s.advance_keeps k _
    | _ => exact ⟨rfl, rfl, rfl⟩
  | write k =>
    cases outcome with
    | written ec transferred => exact s.advance_keeps k _
    | _ => exact ⟨rfl, rfl, rfl⟩
  | signal => cases outcome <;> exact ⟨rfl, rfl, rfl⟩

/-- A resumption of `listen` waits again, or has logged its exception. -/
theorem Server.handle_listener {s : Server X ε} (fits : Fits codes s (op, outcome)) (surroundings : Surroundings)
    (listener : op.isListener = true) :
    ((.catchException ∈ (s.handle codes op outcome surroundings).1.log ↔ .catchException ∈ s.log) ∧
        ((s.handle codes op outcome surroundings).2.filterMap Command.starts).countP Operation.isListener = 1) ∨
      (.catchException ∈ (s.handle codes op outcome surroundings).1.log ∧
        ((s.handle codes op outcome surroundings).2.filterMap Command.starts).countP Operation.isListener = 0) := by
  cases op with
  | echo | read | write | signal => cases listener
  | listen =>
    rcases fits with never | ⟨same, _⟩
    · cases never
    · cases same
      obtain ⟨fault, spawn⟩ := surroundings
      cases fault <;>
        simp [handle, listen, asyncAccept, fail, report, Command.starts, Operation.isListener]
  | accept =>
    rcases fits with completes | ⟨_, starts | ⟨_, starts⟩⟩
    · cases outcome with
      | accepted ec peer =>
        obtain ⟨again, waits, commands⟩ := accept_commands codes s ec peer surroundings
        have quiet : (((newPeer codes ec peer surroundings.fault).elim []
            fun _ => coSpawn s.sessions.length surroundings.spawn :
              List (Command Operation (Outcome X ε))).filterMap Command.starts).countP Operation.isListener = 0 := by
          cases newPeer codes ec peer surroundings.fault with
          | none => rfl
          | some peer => cases surroundings.spawn <;> rfl
        simp only [handle, commands]
        rcases waits with ⟨rfl, same⟩ | ⟨rfl, ended⟩
        · exact .inl ⟨same, by rw [List.filterMap_append, List.countP_append, quiet]; rfl⟩
        · exact .inr ⟨ended, by rw [List.append_nil, quiet]⟩
      | _ => cases completes
    · cases starts
    · cases starts

namespace Listening
variable {l m : ServerView X ε} {x : Observed Operation (Outcome X ε)}

theorem init (time : Int) : Listening (EventLoop.init .init time : ServerView X ε) where
  unstarted := by simp [EventLoop.init, IoContext.fresh, Observed.work, Server.init]
  once := by simp [EventLoop.init]
  ended := by simp [EventLoop.init, Server.init]

theorem call (listening : Listening l) (first : l.started = [])
    (performs : l.context.PerformsAll ((server codes).call l.program l.now ()).2 x) :
    Listening (l.resume ((server codes).call l.program l.now ()) x) := by
  obtain ⟨nothing, calm⟩ := listening.unstarted first
  have moved := performs.work.countP_eq Operation.isListener
  rw [nothing, List.nil_append] at moved
  have started : (l.resume ((server codes).call l.program l.now ()) x).started ≠ [] := by
    simp [EventLoop.resume, server, Command.starts]
  exact ⟨fun none => absurd none started, fun _ _ => moved, fun ended => absurd ended calm⟩

theorem busy (listening : Listening l) (chosen : l.context.queued = before ++ item :: after) :
    l.started ≠ [] := by
  intro none
  have nothing := (listening.unstarted none).1
  simp [Observed.work, chosen] at nothing

theorem handle (listening : Listening l) (served : Served codes l)
    (chosen : l.context.queued = before ++ (op, outcome) :: after)
    (performs : (l.context.dequeue (before ++ after)).PerformsAll
      (l.program.handle codes op outcome surroundings).2 x) :
    Listening (l.handle (server codes) op outcome surroundings x) := by
  have busy := listening.busy chosen
  have started : (l.handle (server codes) op outcome surroundings x).started ≠ [] :=
    fun none => busy (List.append_eq_nil_iff.mp none).1
  have fits : Fits codes l.program (op, outcome) :=
    served.fits _ (chosen ▸ List.mem_append_right _ List.mem_cons_self)
  have traded : x.work.countP Operation.isListener + (if op.isListener then 1 else 0) =
      l.context.work.countP Operation.isListener + ((l.program.handle codes op outcome surroundings).2.filterMap
        Command.starts).countP Operation.isListener :=
    EventLoop.handle_countP (server codes) chosen performs Operation.isListener
  cases kind : op.isListener with
  | false =>
    obtain ⟨log, _, none⟩ := l.program.handle_other codes outcome surroundings kind
    rw [kind, none] at traded
    have same : x.work.countP Operation.isListener = l.context.work.countP Operation.isListener := by
      simpa using traded
    refine ⟨fun none => absurd none started, fun _ calm => ?_, fun ended => ?_⟩
    · exact same.trans (listening.once busy fun ended => calm (log.symm ▸ ended))
    · exact same.trans (listening.ended (log ▸ ended))
  | true =>
    have calm : .catchException ∉ l.program.log := by
      intro ended
      have none := List.countP_eq_zero.mp (listening.ended ended) op (by simp [Observed.work, chosen])
      exact none kind
    rw [kind, if_pos rfl, listening.once busy calm] at traded
    rcases Server.handle_listener fits surroundings kind with ⟨same, one⟩ | ⟨ended, none⟩
    · rw [one] at traded
      exact ⟨fun none => absurd none started, fun _ _ => Nat.add_right_cancel traded,
        fun ended => absurd (same.mp ended) calm⟩
    · rw [none] at traded
      exact ⟨fun none => absurd none started, fun _ calm => absurd ended calm,
        fun _ => Nat.add_right_cancel traded⟩

theorem step (listening : Listening l) (served : Served codes l) (main : Main l input)
    (stepped : EventLoop.Stepped (server codes) l input m) : Listening m := by
  cases stepped with
  | call outside performs => exact listening.call main performs
  | @complete before op after outcome pending completes =>
    have same := (EventLoop.complete_work pending outcome).countP_eq Operation.isListener
    refine ⟨fun none => ?_, fun busy calm => ?_, fun ended => ?_⟩
    · have nothing := (List.append_eq_nil_iff.mp (listening.unstarted none).1).1
      simp [pending] at nothing
    · exact same.trans (listening.once busy calm)
    · exact same.trans (listening.ended ended)
  | handle running going chosen performs => exact listening.handle served chosen performs
  | enter | leave | tick => exact ⟨listening.unstarted, listening.once, listening.ended⟩

end Listening

/-- The signal handler is the only one that stops the context, and the last. -/
structure Ruled (l : ServerView X ε) : Prop where
  last : l.context.stopped = true → l.returned = 0 →
    ∃ surroundings, l.handled.getLast? = some (.signal, .resumed, surroundings)
  stops : .signal ∈ l.handled.map Prod.fst → l.context.stopped = true
  waits : l.started ≠ [] → .signal ∈ l.started

namespace Ruled
variable {l m : ServerView X ε} {x : Observed Operation (Outcome X ε)}

theorem init (time : Int) : Ruled (EventLoop.init .init time : ServerView X ε) where
  last := by simp [EventLoop.init, IoContext.fresh]
  stops := by simp [EventLoop.init]
  waits := by simp [EventLoop.init]

/-- Only the signal handler stops the context. -/
theorem handle_stops (s : Server X ε) (op : Operation) (outcome : Outcome X ε) (surroundings : Surroundings)
    (stops : (s.handle codes op outcome surroundings).2.any Command.stops = true) :
    op = .signal ∧ outcome = .resumed := by
  have advance : ∀ k event, (s.advance codes k event).2.any Command.stops = false := by
    intro k event
    unfold Server.advance
    split
    · split <;> simp [Command.stops]
    · rfl
  cases op with
  | signal =>
    cases outcome with
    | resumed => exact ⟨rfl, rfl⟩
    | _ => cases stops
  | listen =>
    cases outcome with
    | resumed =>
      obtain ⟨fault, spawn⟩ := surroundings
      cases fault <;> cases stops
    | _ => cases stops
  | accept =>
    cases outcome with
    | accepted ec peer =>
      obtain ⟨again, waits, commands⟩ := Server.accept_commands codes s ec peer surroundings
      simp only [Server.handle, commands] at stops
      generalize Server.newPeer codes ec peer surroundings.fault = new at stops
      obtain ⟨fault, spawn⟩ := surroundings
      rcases waits with ⟨rfl, _⟩ | ⟨rfl, _⟩ <;> cases new <;> cases spawn <;> cases stops
    | _ => cases stops
  | echo k =>
    cases outcome with
    | resumed =>
      simp only [Server.handle] at stops
      split at stops
      · simp [advance] at stops
      · cases stops
    | _ => cases stops
  | read k =>
    cases outcome with
    | read ec chunk => simp [Server.handle, advance] at stops
    | _ => cases stops
  | write k =>
    cases outcome with
    | written ec transferred => simp [Server.handle, advance] at stops
    | _ => cases stops

theorem handle (ruled : Ruled l) (served : Served codes l) (busy : l.started ≠ [])
    (going : l.context.stopped = false) (chosen : l.context.queued = before ++ (op, outcome) :: after)
    (performs : (l.context.dequeue (before ++ after)).PerformsAll
      (l.program.handle codes op outcome surroundings).2 x) :
    Ruled (l.handle (server codes) op outcome surroundings x) := by
  have stopped : x.stopped = (l.program.handle codes op outcome surroundings).2.any Command.stops := by
    rw [performs.stopped]
    exact (congrArg (· || _) going).trans (Bool.false_or _)
  constructor
  case last =>
    intro ended _
    obtain ⟨rfl, rfl⟩ := handle_stops l.program op outcome surroundings (stopped ▸ ended)
    exact ⟨surroundings, List.getLast?_concat⟩
  case stops =>
    intro handled
    simp only [EventLoop.handle, EventLoop.resume, List.map_append, List.mem_append, List.map_cons,
      List.map_nil, List.mem_singleton] at handled
    rcases handled with earlier | rfl
    · exact absurd ((ruled.stops earlier).symm.trans going) (by decide)
    · have fits : Fits codes l.program (.signal, outcome) :=
        served.fits _ (chosen ▸ List.mem_append_right _ List.mem_cons_self)
      refine stopped.trans ?_
      rcases fits with completes | ⟨_, starts | ⟨_, starts⟩⟩
      · cases outcome with
        | resumed => rfl
        | _ => cases completes
      · cases starts
      · cases starts
  case waits => exact fun _ => List.mem_append_left _ (ruled.waits busy)

theorem step (ruled : Ruled l) (served : Served codes l) (listening : Listening l)
    (stepped : EventLoop.Stepped (server codes) l input m) : Ruled m := by
  cases stepped with
  | @call function x outside performs =>
    have stopped : x.stopped = l.context.stopped := by
      rw [performs.stopped]
      exact Bool.or_false _
    refine ⟨fun ended => ruled.last (stopped.symm.trans ended), fun handled => ?_, fun _ => ?_⟩
    · exact stopped.trans (ruled.stops handled)
    · exact List.mem_append_right _ List.mem_cons_self
  | handle running going chosen performs =>
    exact ruled.handle served (listening.busy chosen) going chosen performs
  | leave => exact ⟨fun _ first => absurd first (Nat.succ_ne_zero _), fun _ => rfl, ruled.waits⟩
  | enter | complete | tick => exact ⟨ruled.last, ruled.stops, ruled.waits⟩

end Ruled

section Server
variable {κ : Type} [IoContext κ Operation (Outcome X ε)] {l m : ServerLoop κ X ε} {time : Int}

/-- The three invariants together. -/
theorem listener_run
    (path : Run (EventLoop.step (server codes)) Main (EventLoop.init .init time) inputs l) :
    Served codes l.observe ∧ Listening l.observe ∧ Ruled l.observe := by
  refine EventLoop.invariant (I := fun v : ServerView X ε => Served codes v ∧ Listening v ∧ Ruled v)
    (G := Main) id (fun ⟨served, listening, ruled⟩ main stepped => ?_) path ?_
  · exact ⟨served.step stepped, listening.step served main stepped, ruled.step served listening stepped⟩
  · rw [EventLoop.observe_init]
    exact ⟨.init time, .init time, .init time⟩

/-- `run` returns to `main` because of a signal and for no other reason, and
nothing is handled after it. -/
theorem runs_until_signal
    (path : Run (EventLoop.step (server codes)) Main (EventLoop.init .init time) inputs l)
    (begun : l.started ≠ []) (first : l.returned = 0)
    (stepped : l.step (server codes) .leave = some m) :
    ∃ surroundings, m.handled.getLast? = some (.signal, .resumed, surroundings) := by
  obtain ⟨_, _, ruled⟩ := listener_run path
  obtain ⟨x, rfl, _, stopped | drained⟩ := EventLoop.of_leave stepped
  · exact ruled.last stopped first
  · have conserved : l.observe.Conserved := by
      refine EventLoop.invariant (G := Main) id (fun conserved _ stepped => conserved.step stepped) path ?_
      rw [EventLoop.observe_init]
      exact .init _ _
    have handled : .signal ∈ l.observe.handled.map Prod.fst := by
      have member := conserved.subset (ruled.waits begun)
      rwa [drained, List.nil_append] at member
    exact ruled.last (ruled.stops handled) first

end Server

/-- An error of `async_accept`, a connection, and an exception after its session
has been spawned; the session lives on until the signal. -/
def failingListener : List (ServerInput Nat Nat) :=
  [.call (), .enter, .handle {}, .complete .accept (.accepted 9 70), .handle {},
    .complete .accept (.accepted 0 80), .handle { fault := .initiating }, .handle {},
    .complete .signal .resumed, .complete (.read 0) (.read 0 [1])]

theorem runs_until_signal_failing : ∃ l m : PlainServer,
    (Run (EventLoop.step (server plainCodes)) Main (EventLoop.init .init 0)
        (failingListener ++ [.handle {}]) l ∧
      l.started ≠ [] ∧ l.returned = 0 ∧ l.step (server plainCodes) .leave = some m) ∧
    ∃ surroundings, m.handled.getLast? = some (.signal, .resumed, surroundings) := by
  have path : ∃ l : PlainServer, Run (EventLoop.step (server plainCodes)) Main (EventLoop.init .init 0)
      (failingListener ++ [.handle {}]) l ∧ l.started ≠ [] ∧ l.returned = 0 ∧
      ∃ m, l.step (server plainCodes) .leave = some m :=
    Run.exists_of_execute ⟨_, rfl, by decide, rfl, _, rfl⟩
  obtain ⟨l, path, begun, first, m, left⟩ := path
  exact ⟨l, m, ⟨path, begun, first, left⟩, runs_until_signal path begun first left⟩

end BoostTest.Echo
