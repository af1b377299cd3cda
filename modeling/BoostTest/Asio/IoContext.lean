import Mathlib.Data.List.Perm.Basic
import BoostTest.Transition

/-! `io_context` as Asio documents it, run by one thread. The library itself is
outside the repository, so a context is an arbitrary type with these operations
and laws; nothing is said about the order in which it calls the handlers that
are ready. The program that uses it is arbitrary too: functions that are called
while the context does not run, and completion handlers, each of which leaves
behind a list of commands. -/
namespace BoostTest.Asio
open Transition

inductive Command (O R : Type) where
  | start (op : O)
  /-- An operation that completes at once, such as `post`. -/
  | post (op : O) (result : R)
  /-- The outstanding operations that are chosen complete with this result. -/
  | cancel (which : O → Bool) (result : R)
  /-- The same, except that the context lets some of them go on. -/
  | request (which : O → Bool) (result : R)
  | stop

namespace Command
variable {O R : Type}

def starts : Command O R → Option O
  | .start op | .post op _ => some op
  | .cancel _ _ | .request _ _ | .stop => none

def stops : Command O R → Bool
  | .stop => true
  | _ => false

/-- Whether the laws determine what it does. -/
def certain : Command O R → Bool
  | .request _ _ => false
  | _ => true

end Command

/-- A list with one element at most has no other order. -/
theorem perm_short {left right : List α} (short : left.length ≤ 1) (perm : left.Perm right) :
    left = right := by
  match left, short with
  | [], _ => exact (List.nil_perm.mp perm).symm
  | [item], _ => exact List.singleton_perm.mp perm

theorem mem_of_taken {whole before after : List α} (found : whole = before ++ item :: after)
    (member : other ∈ before ++ after) : other ∈ whole := by
  rw [found]
  exact (List.mem_append.mp member).elim (List.mem_append_left _)
    fun member => List.mem_append_right _ (List.mem_cons_of_mem _ member)

theorem certain_start {O R : Type} (choices : List α) (op : α → O) :
    (choices.map fun choice => (Command.start (op choice) : Command O R)).all Command.certain = true := by
  simp [Command.certain]

theorem starts_start {O R : Type} (choices : List α) (op : α → O) :
    (choices.map fun choice => (Command.start (op choice) : Command O R)).filterMap Command.starts =
      choices.map op := by
  induction choices with
  | nil => rfl
  | cons choice rest ih => exact congrArg (op choice :: ·) ih

theorem starts_cancel {O R : Type} (choices : List α) (which : α → O → Bool) (result : R) :
    (choices.map fun choice => Command.cancel (which choice) result).filterMap Command.starts = [] := by
  induction choices with
  | nil => rfl
  | cons choice rest ih => exact ih

/-- What the laws say of a context. -/
structure Observed (O R : Type) where
  outstanding : List O := []
  /-- Operations with their results, whose handlers have not been called. -/
  queued : List (O × R) := []
  stopped : Bool := false

namespace Observed

/-- A request that reaches all it asks for. -/
def perform (x : Observed O R) : Command O R → Observed O R
  | .start op => { x with outstanding := x.outstanding ++ [op] }
  | .post op result => { x with queued := x.queued ++ [(op, result)] }
  | .cancel which result | .request which result =>
    { x with
      outstanding := x.outstanding.filter fun op => !which op
      queued := x.queued ++ (x.outstanding.filter which).map (·, result) }
  | .stop => { x with stopped := true }

/-- What a command may do. -/
inductive Performs (x : Observed O R) : Command O R → Observed O R → Prop where
  | certain (certain : command.certain = true) : Performs x command (x.perform command)
  | request (split : x.outstanding.Perm (kept ++ gone)) (chosen : ∀ op ∈ gone, which op = true) :
      Performs x (.request which result)
        { x with outstanding := kept, queued := x.queued ++ gone.map (·, result) }

inductive PerformsAll : Observed O R → List (Command O R) → Observed O R → Prop where
  | nil : PerformsAll x [] x
  | cons (head : Performs x command y) (tail : PerformsAll y rest z) : PerformsAll x (command :: rest) z

def dequeue (x : Observed O R) (rest : List (O × R)) : Observed O R := { x with queued := rest }

def performAll (x : Observed O R) (commands : List (Command O R)) : Observed O R :=
  commands.foldl perform x

/-- The operations whose handlers have not been called. -/
def work (x : Observed O R) : List O := x.outstanding ++ x.queued.map Prod.fst

end Observed

/-- `κ` is the state of a context. The operations are those of one thread: what
the program calls, what the platform completes, and how `run` goes on. -/
class IoContext (κ : Type) (O R : outParam Type) where
  fresh : κ
  observe : κ → Observed O R
  start : κ → O → κ
  post : κ → O → R → κ
  /-- Of a timer, a slot or a socket that is closed. -/
  cancel : κ → (O → Bool) → R → κ
  /-- Of the resolver. -/
  request : κ → (O → Bool) → R → κ
  stop : κ → κ
  complete : κ → O → R → κ
  /-- The handler that `run` calls next. -/
  next : κ → Option ((O × R) × κ)
  /-- `run` returns. -/
  leave : κ → Option κ
  observe_fresh : observe fresh = {}
  observe_start : ∀ x op, observe (start x op) =
    { observe x with outstanding := (observe x).outstanding ++ [op] }
  observe_post : ∀ x op result, observe (post x op result) =
    { observe x with queued := (observe x).queued ++ [(op, result)] }
  observe_cancel : ∀ x which result, observe (cancel x which result) =
    { observe x with
      outstanding := (observe x).outstanding.filter fun op => !which op
      queued := (observe x).queued ++ ((observe x).outstanding.filter which).map (·, result) }
  observe_request : ∀ x which result, ∃ kept gone, (observe x).outstanding.Perm (kept ++ gone) ∧
    (∀ op ∈ gone, which op = true) ∧ observe (request x which result) =
      { observe x with outstanding := kept, queued := (observe x).queued ++ gone.map (·, result) }
  observe_stop : ∀ x, observe (stop x) = { observe x with stopped := true }
  observe_complete : ∀ x op result, op ∈ (observe x).outstanding → ∃ before after,
    (observe x).outstanding = before ++ op :: after ∧ observe (complete x op result) =
      { observe x with outstanding := before ++ after, queued := (observe x).queued ++ [(op, result)] }
  /-- A stopped context calls no handler. -/
  observe_next : ∀ x item y, next x = some (item, y) → (observe x).stopped = false ∧
    ∃ before after, (observe x).queued = before ++ item :: after ∧
      observe y = { observe x with queued := before ++ after }
  /-- It is stopped, or finds no work and stops itself. -/
  observe_leave : ∀ x y, leave x = some y →
    ((observe x).stopped = true ∨ (observe x).work = []) ∧ observe y = { observe x with stopped := true }

namespace IoContext
variable {κ O R : Type} [IoContext κ O R]

def perform (x : κ) : Command O R → κ
  | .start op => start x op
  | .post op result => post x op result
  | .cancel which result => cancel x which result
  | .request which result => request x which result
  | .stop => stop x

def performAll (x : κ) (commands : List (Command O R)) : κ := commands.foldl perform x

theorem performs (x : κ) (command : Command O R) :
    (observe x).Performs command (observe (perform x command)) := by
  cases command with
  | start op => exact observe_start x op ▸ .certain rfl
  | post op result => exact observe_post x op result ▸ .certain rfl
  | cancel which result => exact observe_cancel x which result ▸ .certain rfl
  | request which result =>
    obtain ⟨kept, gone, split, chosen, same⟩ := observe_request x which result
    exact same ▸ .request split chosen
  | stop => exact observe_stop x ▸ .certain rfl

theorem performsAll (x : κ) (commands : List (Command O R)) :
    (observe x).PerformsAll commands (observe (performAll x commands)) := by
  induction commands generalizing x with
  | nil => exact .nil
  | cons command rest ih => exact .cons (performs x command) (ih (perform x command))

end IoContext

/-- The laws are satisfiable: the context that is its own observations, calls
its handlers in the order they were queued and grants every request. -/
instance [DecidableEq O] : IoContext (Observed O R) O R where
  fresh := {}
  observe x := x
  start x op := x.perform (.start op)
  post x op result := x.perform (.post op result)
  cancel x which result := x.perform (.cancel which result)
  request x which result := x.perform (.request which result)
  stop x := x.perform .stop
  complete x op result :=
    { x with outstanding := x.outstanding.erase op, queued := x.queued ++ [(op, result)] }
  next x :=
    match x.stopped, x.queued with
    | false, item :: rest => some (item, x.dequeue rest)
    | _, _ => none
  leave x := if x.stopped ∨ x.work.isEmpty then some { x with stopped := true } else none
  observe_fresh := rfl
  observe_start _ _ := rfl
  observe_post _ _ _ := rfl
  observe_cancel _ _ _ := rfl
  observe_request x which result :=
    ⟨_, _, (List.perm_append_comm.trans (List.filter_append_perm which x.outstanding)).symm,
      fun _ member => (List.mem_filter.mp member).2, rfl⟩
  observe_stop _ := rfl
  observe_complete x op result pending := by
    obtain ⟨before, after, _, split, erased⟩ := List.exists_erase_eq pending
    exact ⟨before, after, split, erased ▸ rfl⟩
  observe_next x item y called := by
    split at called
    · rename_i rest going head
      cases called
      exact ⟨going, [], rest, head, rfl⟩
    · contradiction
  observe_leave x y left := by
    simp only [Option.ite_none_right_eq_some, Option.some.injEq, List.isEmpty_iff] at left
    exact ⟨left.1, left.2.symm⟩

namespace Observed
variable {O R : Type} (x : Observed O R) (commands : List (Command O R))

@[simp] theorem performAll_nil : x.performAll [] = x := rfl

@[simp] theorem performAll_cons (command : Command O R) :
    x.performAll (command :: commands) = (x.perform command).performAll commands := rfl

theorem performAll_append (more : List (Command O R)) :
    x.performAll (commands ++ more) = (x.performAll commands).performAll more :=
  List.foldl_append

theorem performAll_start (choices : List α) (op : α → O) :
    x.performAll (choices.map fun choice => .start (op choice)) =
      { x with outstanding := x.outstanding ++ choices.map op } := by
  induction choices generalizing x with
  | nil => simp
  | cons choice rest ih =>
    rw [List.map_cons, performAll_cons, ih]
    simp [perform]

/-- Several cancellations with one result. -/
theorem performAll_cancel (choices : List α) (which : α → O → Bool) (result : R) :
    ∃ cancelled : List O, x.performAll (choices.map fun choice => .cancel (which choice) result) =
      { x with
        outstanding := x.outstanding.filter fun op => choices.all fun choice => !which choice op
        queued := x.queued ++ cancelled.map (·, result) } := by
  induction choices generalizing x with
  | nil => exact ⟨[], by simp⟩
  | cons choice rest ih =>
    obtain ⟨cancelled, same⟩ := ih (x.perform (.cancel (which choice) result))
    refine ⟨x.outstanding.filter (which choice) ++ cancelled, ?_⟩
    rw [List.map_cons, performAll_cons, same]
    simp only [perform, List.filter_filter, List.all_cons, List.map_append, List.append_assoc,
      Bool.and_comm]

variable {x} {y z : Observed O R} {commands}

/-- Settling outstanding operations moves work and loses none. -/
theorem work_settle {kept gone : List O} (split : x.outstanding.Perm (kept ++ gone)) (result : R) :
    ({ x with outstanding := kept, queued := x.queued ++ gone.map (·, result) } : Observed O R).work.Perm
      x.work := by
  simp only [work, List.map_append, List.map_map, Function.comp_def, List.map_id']
  calc kept ++ (x.queued.map Prod.fst ++ gone)
    _ |>.Perm (kept ++ (gone ++ x.queued.map Prod.fst)) := List.perm_append_comm.append_left _
    _ |>.Perm (x.outstanding ++ x.queued.map Prod.fst) := by
      rw [← List.append_assoc]
      exact split.symm.append_right _

theorem split_filter (which : O → Bool) :
    x.outstanding.Perm (x.outstanding.filter (fun op => !which op) ++ x.outstanding.filter which) :=
  (List.perm_append_comm.trans (List.filter_append_perm which _)).symm

theorem Performs.work {command : Command O R} (performs : x.Performs command y) :
    y.work.Perm (x.work ++ command.starts.toList) := by
  cases performs with
  | request split chosen =>
    exact (work_settle split _).trans (.of_eq (List.append_nil _).symm)
  | certain =>
    cases command with
    | start op =>
      simp only [perform, Observed.work, Command.starts, Option.toList_some, List.append_assoc]
      exact List.perm_append_comm.append_left _
    | post op result => simp [perform, Observed.work, Command.starts]
    | cancel which result | request which result =>
      exact (work_settle (split_filter which) _).trans (.of_eq (List.append_nil _).symm)
    | stop => simp [perform, Observed.work, Command.starts]

theorem Performs.stopped {command : Command O R} (performs : x.Performs command y) :
    y.stopped = (x.stopped || command.stops) := by
  cases performs with
  | request => simp [Command.stops]
  | certain => cases command <;> simp [perform, Command.stops]

namespace PerformsAll

/-- Commands start work and move it, and lose none. -/
theorem work (performs : x.PerformsAll commands y) :
    y.work.Perm (x.work ++ commands.filterMap Command.starts) := by
  induction performs with
  | nil => simp
  | @cons x command y rest z head _ ih =>
    refine ih.trans ((head.work.append_right _).trans ?_)
    rw [List.filterMap_cons]
    cases command.starts <;> simp

theorem stopped (performs : x.PerformsAll commands y) :
    y.stopped = (x.stopped || commands.any Command.stops) := by
  induction performs with
  | nil => simp
  | cons head _ ih => rw [ih, head.stopped, List.any_cons, Bool.or_assoc]

/-- Without a request the laws say all. -/
theorem eq (certain : commands.all Command.certain = true) (performs : x.PerformsAll commands y) :
    y = x.performAll commands := by
  induction performs with
  | nil => rfl
  | cons head _ ih =>
    rw [List.all_cons, Bool.and_eq_true] at certain
    rw [ih certain.2, performAll_cons]
    cases head with
    | certain => rfl
    | request => cases certain.1

/-- A request that comes first. -/
theorem eq_request {which : O → Bool} {result : R} (certain : commands.all Command.certain = true)
    (performs : x.PerformsAll (.request which result :: commands) y) :
    ∃ kept gone, x.outstanding.Perm (kept ++ gone) ∧ (∀ op ∈ gone, which op = true) ∧
      y = ({ x with outstanding := kept, queued := x.queued ++ gone.map (·, result) } :
        Observed O R).performAll commands := by
  cases performs with
  | cons head tail =>
    cases head with
    | certain certain => cases certain
    | request split chosen => exact ⟨_, _, split, chosen, tail.eq certain⟩

end PerformsAll

/-- Taking a handler off the queue. -/
theorem work_queued {before after : List (O × R)} {op : O} {result : R}
    (found : x.queued = before ++ (op, result) :: after) :
    x.work.Perm (op :: (x.dequeue (before ++ after)).work) := by
  simp only [work, dequeue, found, List.map_append, List.map_cons]
  exact (List.perm_middle.append_left _).trans List.perm_middle

end Observed

/-- The code that uses a context. `Q` are the calls from outside, `E` is what
the surroundings decide inside one handler: clocks, exceptions. -/
structure Program (P Q O R E : Type) where
  call : P → Int → Q → P × List (Command O R)
  handle : P → Int → O → R → E → P × List (Command O R)
  /-- What the platform may complete an operation with, other than by a command. -/
  completes : P → Int → O → R → Bool

structure EventLoop (P κ O R E : Type) where
  now : Int
  program : P
  context : κ
  /-- A thread is inside `run`. -/
  running : Bool
  /-- How many calls of `run` have returned. -/
  returned : Nat
  started : List O
  handled : List (O × R × E)

inductive Input (Q O R E : Type) where
  | call (function : Q)
  | enter
  | complete (op : O) (result : R)
  | handle (surroundings : E)
  | leave
  | tick (time : Int)
  deriving DecidableEq, Repr

/-- A loop as far as the laws tell. -/
abbrev View (P O R E : Type) : Type := EventLoop P (Observed O R) O R E

namespace EventLoop
variable {P κ Q O R E : Type}

/-- The code has run on to its next return to the caller, and left the context so. -/
def resume (l : EventLoop P κ O R E) (outcome : P × List (Command O R)) (x : κ) : EventLoop P κ O R E :=
  { l with
    program := outcome.1
    context := x
    started := l.started ++ outcome.2.filterMap Command.starts }

/-- A handler has been called. -/
def handle (program : Program P Q O R E) (l : EventLoop P κ O R E) (op : O) (result : R)
    (surroundings : E) (x : κ) : EventLoop P κ O R E :=
  { l with handled := l.handled ++ [(op, result, surroundings)] }.resume
    (program.handle l.program l.now op result surroundings) x

/-- `run` has returned. -/
def leave (l : EventLoop P κ O R E) (x : κ) : EventLoop P κ O R E :=
  { l with
    context := x
    running := false
    returned := l.returned + 1 }

section Steps
variable [IoContext κ O R]

def init (program : P) (now : Int) : EventLoop P κ O R E where
  now := now
  program := program
  context := IoContext.fresh
  running := false
  returned := 0
  started := []
  handled := []

def observe (l : EventLoop P κ O R E) : View P O R E :=
  { l with context := IoContext.observe l.context }

def step [DecidableEq O] (program : Program P Q O R E) (l : EventLoop P κ O R E) :
    Input Q O R E → Option (EventLoop P κ O R E)
  | .call function =>
    if l.running then none
    else
      let outcome := program.call l.program l.now function
      some (l.resume outcome (IoContext.performAll l.context outcome.2))
  | .enter => if l.running then none else some { l with running := true }
  | .complete op result =>
    if op ∈ l.observe.context.outstanding ∧ program.completes l.program l.now op result then
      some { l with context := IoContext.complete l.context op result }
    else none
  | .handle surroundings =>
    match l.running, IoContext.next l.context with
    | true, some ((op, result), x) =>
      let commands := (program.handle l.program l.now op result surroundings).2
      some (l.handle program op result surroundings (IoContext.performAll x commands))
    | _, _ => none
  | .leave => if l.running then (IoContext.leave l.context).map l.leave else none
  | .tick time => if l.now ≤ time then some { l with now := time } else none

end Steps

/-- What one step can do. -/
inductive Stepped (program : Program P Q O R E) (l : View P O R E) :
    Input Q O R E → View P O R E → Prop where
  | call (outside : l.running = false)
      (performs : l.context.PerformsAll (program.call l.program l.now function).2 x) :
      Stepped program l (.call function) (l.resume (program.call l.program l.now function) x)
  | enter (outside : l.running = false) : Stepped program l .enter { l with running := true }
  | complete (found : l.context.outstanding = before ++ op :: after)
      (completes : program.completes l.program l.now op result = true) :
      Stepped program l (.complete op result)
        { l with context := { l.context with
            outstanding := before ++ after
            queued := l.context.queued ++ [(op, result)] } }
  | handle (running : l.running = true) (going : l.context.stopped = false)
      (found : l.context.queued = before ++ (op, result) :: after)
      (performs : (l.context.dequeue (before ++ after)).PerformsAll
        (program.handle l.program l.now op result surroundings).2 x) :
      Stepped program l (.handle surroundings) (l.handle program op result surroundings x)
  | leave (running : l.running = true) (ended : l.context.stopped = true ∨ l.context.work = []) :
      Stepped program l .leave (l.leave { l.context with stopped := true })
  | tick (later : l.now ≤ time) : Stepped program l (.tick time) { l with now := time }

section Laws
variable [IoContext κ O R] [DecidableEq O] {program : Program P Q O R E} {l m : EventLoop P κ O R E}

/-- By the laws of the context. -/
theorem Stepped.of_step (stepped : l.step program input = some m) :
    Stepped program l.observe input m.observe := by
  cases input with
  | call function =>
    simp only [step] at stepped
    split at stepped
    · contradiction
    · cases stepped
      exact .call (l := l.observe) (Bool.eq_false_iff.mpr ‹_›) (IoContext.performsAll l.context _)
  | enter =>
    simp only [step] at stepped
    split at stepped
    · contradiction
    · cases stepped
      exact .enter (l := l.observe) (Bool.eq_false_iff.mpr ‹_›)
  | complete op result =>
    simp only [step, Option.ite_none_right_eq_some, Option.some.injEq] at stepped
    obtain ⟨⟨pending, completes⟩, rfl⟩ := stepped
    obtain ⟨before, after, found, same⟩ := IoContext.observe_complete l.context op result pending
    have moved : Stepped program l.observe (.complete op result) _ := .complete found completes
    rwa [show l.observe.context = IoContext.observe l.context from rfl, ← same] at moved
  | handle surroundings =>
    simp only [step] at stepped
    split at stepped
    · rename_i op result x running called
      cases stepped
      obtain ⟨going, before, after, found, same⟩ := IoContext.observe_next l.context _ _ called
      have performs := IoContext.performsAll x (program.handle l.program l.now op result surroundings).2
      rw [same] at performs
      exact .handle (l := l.observe) running going found performs
    · contradiction
  | leave =>
    simp only [step, Option.ite_none_right_eq_some, Option.map_eq_some_iff] at stepped
    obtain ⟨running, x, left, rfl⟩ := stepped
    obtain ⟨ended, same⟩ := IoContext.observe_leave l.context x left
    have moved : Stepped program l.observe .leave _ := .leave running ended
    rwa [show l.observe.context = IoContext.observe l.context from rfl, ← same] at moved
  | tick time =>
    simp only [step, Option.ite_none_right_eq_some, Option.some.injEq] at stepped
    obtain ⟨later, rfl⟩ := stepped
    exact .tick (l := l.observe) later

/-- How `run` returns. -/
theorem of_leave (stepped : l.step program .leave = some m) :
    ∃ x, m = l.leave x ∧ IoContext.observe x = { l.observe.context with stopped := true } ∧
      (l.observe.context.stopped = true ∨ l.observe.context.work = []) := by
  simp only [step, Option.ite_none_right_eq_some, Option.map_eq_some_iff] at stepped
  obtain ⟨_, x, left, rfl⟩ := stepped
  obtain ⟨ended, same⟩ := IoContext.observe_leave l.context x left
  exact ⟨x, rfl, same, ended⟩

/-- What the steps preserve in the view holds after every run. -/
theorem invariant {admits : EventLoop P κ O R E → Input Q O R E → Prop}
    {G : View P O R E → Input Q O R E → Prop} {I : View P O R E → Prop}
    (carries : ∀ {l input}, admits l input → G l.observe input)
    (preserves : ∀ {v input w}, I v → G v input → Stepped program v input w → I w)
    (path : Run (EventLoop.step program) admits l inputs m) (initial : I l.observe) : I m.observe :=
  path.invariant (P := fun l => I l.observe)
    (fun holds admitted stepped => preserves holds (carries admitted) (.of_step stepped)) initial

theorem observe_init (p : P) (time : Int) :
    (init p time : EventLoop P κ O R E).observe = init p time := by
  simp only [observe, init, IoContext.observe_fresh]
  rfl

end Laws

variable {program : Program P Q O R E} {l m : View P O R E}

/-- What has been started is outstanding, queued or handled, exactly once. -/
def Conserved (l : View P O R E) : Prop :=
  l.started.Perm (l.context.work ++ l.handled.map Prod.fst)

/-- The platform moves an operation and changes no work. -/
theorem complete_work {x : Observed O R} (found : x.outstanding = before ++ op :: after) (result : R) :
    ({ x with outstanding := before ++ after, queued := x.queued ++ [(op, result)] } :
      Observed O R).work.Perm x.work := by
  have split : x.outstanding.Perm ((before ++ after) ++ [op]) := by
    rw [found]
    exact List.perm_middle.trans (List.perm_append_singleton op _).symm
  exact Observed.work_settle split result

/-- One handler trades its own operation for those that it starts. -/
theorem handle_countP (program : Program P Q O R E)
    (found : l.context.queued = before ++ (op, result) :: after)
    (performs : (l.context.dequeue (before ++ after)).PerformsAll
      (program.handle l.program l.now op result surroundings).2 x) (kind : O → Bool) :
    x.work.countP kind + (if kind op then 1 else 0) = l.context.work.countP kind +
      ((program.handle l.program l.now op result surroundings).2.filterMap Command.starts).countP kind := by
  have moved := performs.work.countP_eq kind
  have taken := (Observed.work_queued found).countP_eq kind
  rw [List.countP_append] at moved
  rw [List.countP_cons] at taken
  omega

theorem Conserved.resume {x : Observed O R} {outcome : P × List (Command O R)} (conserved : l.Conserved)
    (performs : l.context.PerformsAll outcome.2 x) : (l.resume outcome x).Conserved := by
  refine (conserved.append_right _).trans ?_
  refine List.Perm.trans ?_ (performs.work.symm.append_right _)
  simp only [EventLoop.resume, List.append_assoc]
  exact List.perm_append_comm.append_left _

theorem Conserved.step (conserved : l.Conserved) (stepped : Stepped program l input m) : m.Conserved := by
  cases stepped with
  | call outside performs => exact conserved.resume performs
  | enter | tick | leave => exact conserved
  | complete found completes => exact conserved.trans ((complete_work found _).symm.append_right _)
  | @handle before op result after surroundings x running going found performs =>
    refine Conserved.resume (l := { l with
      context := l.context.dequeue (before ++ after)
      handled := l.handled ++ [(op, result, surroundings)] }) ?_ performs
    refine conserved.trans (((Observed.work_queued found).append_right _).trans ?_)
    rw [List.map_append, ← List.append_assoc]
    exact (List.perm_append_singleton op _).symm

theorem Conserved.init (p : P) (time : Int) [DecidableEq O] :
    (EventLoop.init p time : View P O R E).Conserved :=
  .refl _

end EventLoop
end BoostTest.Asio
