import BoostTest.Asio.IoContext

/-! Several instances of one program on one context. Each has its own state and
its own operations, named by its number, so whatever order the handlers are
called in, a step of the family is at most one step of each instance, and what
the steps of one instance alone preserve holds of every instance in every run. -/
namespace BoostTest.Asio
open Transition

variable {P O R E : Type}

/-- The operation of the instance `i`, without its number. -/
def own (i : Nat) (op : Nat × O) : Option O := if op.1 = i then some op.2 else none

@[simp] theorem own_same (i : Nat) (op : O) : own i (i, op) = some op := if_pos rfl

theorem own_other (op : O) (different : j ≠ i) : own i (j, op) = none := if_neg different

theorem own_eq {op : Nat × O} (mine : own i op = some op') : op = (i, op') := by
  obtain ⟨j, op⟩ := op
  by_cases same : j = i
  · subst same
    cases (own_same j op).symm.trans mine
    rfl
  · cases (own_other op same).symm.trans mine

def ownItem (i : Nat) (item : (Nat × O) × R) : Option (O × R) := (own i item.1).map (·, item.2)

@[simp] theorem ownItem_same (i : Nat) (op : O) (result : R) : ownItem i ((i, op), result) = some (op, result) := by
  simp [ownItem]

theorem ownItem_other (op : O) (result : R) (different : j ≠ i) : ownItem i ((j, op), result) = none := by
  simp [ownItem, own_other op different]

namespace Command

/-- A command of the instance `i`, on the shared context. -/
def tag (i : Nat) : Command O R → Command (Nat × O) R
  | .start op => .start (i, op)
  | .post op result => .post (i, op) result
  | .cancel which result => .cancel (fun op => op.1 == i && which op.2) result
  | .request which result => .request (fun op => op.1 == i && which op.2) result
  | .stop => .stop

/-- What a command on the shared context means to the instance `i`. -/
def own (i : Nat) : Command (Nat × O) R → Option (Command O R)
  | .start op => (Asio.own i op).map .start
  | .post op result => (Asio.own i op).map (.post · result)
  | .cancel which result => some (.cancel (fun op => which (i, op)) result)
  | .request which result => some (.request (fun op => which (i, op)) result)
  | .stop => some .stop

@[simp] theorem own_tag (i : Nat) (command : Command O R) : (command.tag i).own i = some command := by
  cases command <;> simp [tag, own]

theorem starts_own (i : Nat) (commands : List (Command (Nat × O) R)) :
    (commands.filterMap (own i)).filterMap starts = (commands.filterMap starts).filterMap (Asio.own i) := by
  rw [List.filterMap_filterMap, List.filterMap_filterMap]
  congr 1
  funext command
  cases command with
  | start op | post op => cases mine : Asio.own i op <;> simp [own, starts, mine]
  | cancel | request | stop => rfl

end Command

namespace Observed

/-- What the instance `i` has on a shared context. -/
def part (x : Observed (Nat × O) R) (i : Nat) : Observed O R where
  outstanding := x.outstanding.filterMap (own i)
  queued := x.queued.filterMap (ownItem i)
  stopped := x.stopped

variable {x y : Observed (Nat × O) R} {i : Nat}

theorem filterMap_own_filter (ops : List (Nat × O)) (which : Nat × O → Bool) :
    (ops.filter which).filterMap (own i) = (ops.filterMap (own i)).filter fun op => which (i, op) := by
  rw [← List.filterMap_eq_filter, List.filterMap_filterMap, List.filter_filterMap]
  congr 1
  funext ⟨j, op⟩
  by_cases same : j = i
  · subst same
    cases chosen : which (j, op) <;> simp [Option.guard, Option.filter, chosen]
  · cases chosen : which (j, op) <;> simp [Option.guard, chosen, own_other op same]

theorem ownItem_map (ops : List (Nat × O)) (result : R) :
    (ops.map (·, result)).filterMap (ownItem i) = (ops.filterMap (own i)).map (·, result) := by
  rw [List.filterMap_map, List.map_filterMap]
  rfl

/-- A command that the laws determine does to each part what it means there. -/
theorem perform_part (command : Command (Nat × O) R) :
    (x.perform command).part i = (x.part i).performAll (command.own i).toList := by
  cases command with
  | start op => cases mine : own i op <;> simp [perform, part, Command.own, mine]
  | post op result => cases mine : own i op <;> simp [perform, part, Command.own, ownItem, mine]
  | cancel which result | request which result =>
    simp only [perform, part, Command.own, Option.toList_some, performAll_cons, performAll_nil,
      filterMap_own_filter, List.filterMap_append, ownItem_map]
  | stop => rfl

theorem Performs.part {command : Command (Nat × O) R} (performs : x.Performs command y) :
    (x.part i).PerformsAll (command.own i).toList (y.part i) := by
  cases performs with
  | certain certain =>
    rw [perform_part]
    cases command with
    | start op | post op =>
      simp only [Command.own]
      cases own i op with
      | none => exact .nil
      | some op => exact .cons (.certain rfl) .nil
    | cancel | stop => exact .cons (.certain rfl) .nil
    | request => cases certain
  | @request kept gone which result split chosen =>
    have divided : (x.part i).outstanding.Perm (kept.filterMap (own i) ++ gone.filterMap (own i)) := by
      rw [← List.filterMap_append]
      exact split.filterMap (own i)
    have reached : ∀ op ∈ gone.filterMap (own i), which (i, op) = true := by
      intro op member
      obtain ⟨tagged, member, mine⟩ := List.mem_filterMap.mp member
      exact own_eq mine ▸ chosen tagged member
    have performs : (x.part i).Performs (.request (fun op => which (i, op)) result) _ :=
      .request divided reached
    refine .cons ?_ .nil
    simpa only [Observed.part, List.filterMap_append, ownItem_map] using performs

theorem PerformsAll.append {z : Observed O R} {w v : Observed O R} {first second : List (Command O R)}
    (head : z.PerformsAll first w) (tail : w.PerformsAll second v) : z.PerformsAll (first ++ second) v := by
  induction head with
  | nil => exact tail
  | cons performs _ ih => exact .cons performs (ih tail)

theorem PerformsAll.part {commands : List (Command (Nat × O) R)} (performs : x.PerformsAll commands y) :
    (x.part i).PerformsAll (commands.filterMap (Command.own i)) (y.part i) := by
  induction performs with
  | nil => exact .nil
  | @cons x command y rest z head _ ih =>
    have both := (head.part (i := i)).append ih
    rw [List.filterMap_cons]
    cases mine : command.own i with
    | none => simpa [mine] using both
    | some command => simpa [mine] using both

theorem filterMap_own_tag (i : Nat) (commands : List (Command O R)) :
    (commands.map (Command.tag i)).filterMap (Command.own i) = commands := by
  rw [List.filterMap_map]
  exact (congrArg (List.filterMap · commands) (funext (Command.own_tag i))).trans List.filterMap_some

/-- The commands of another instance leave a part as it is. -/
theorem PerformsAll.part_other {commands : List (Command O R)} (different : j ≠ i)
    (certain : commands.all Command.certain = true) (stopless : commands.any Command.stops = false)
    (performs : x.PerformsAll (commands.map (Command.tag j)) y) : y.part i = x.part i := by
  have alone : ∀ {z : Observed (Nat × O) R} {command : Command O R}, command.certain = true →
      command.stops = false → (z.perform (command.tag j)).part i = z.part i := by
    intro z command certain stopless
    rw [perform_part]
    cases command with
    | start op | post op result =>
      simp only [Command.tag, Command.own, own_other _ different, Option.map_none, Option.toList_none,
        performAll_nil]
    | cancel which result =>
      have none : (fun op => (i == j) && which op) = fun _ => false := by
        funext op
        simp [different.symm]
      simp [Command.tag, Command.own, none, perform]
    | request => cases certain
    | stop => cases stopless
  induction commands generalizing x with
  | nil =>
    cases performs
    rfl
  | cons command rest ih =>
    rw [List.all_cons, Bool.and_eq_true] at certain
    rw [List.any_cons, Bool.or_eq_false_iff] at stopless
    cases performs with
    | cons head tail =>
      rw [ih certain.2 stopless.2 tail]
      generalize tagged : command.tag j = shared at head
      cases head with
      | certain => rw [← tagged, alone certain.1 stopless.1]
      | request =>
        cases command with
        | request => cases certain.1
        | _ => cases tagged

theorem part_work : (x.part i).work = x.work.filterMap (own i) := by
  simp only [work, part, List.filterMap_append, List.filterMap_map, List.map_filterMap]
  congr 2
  funext item
  cases mine : own i item.1 <;> simp [ownItem, mine]

end Observed

namespace Program

/-- The instances are called by nobody; what starts them is their first state. -/
def family (program : Program P Empty O R E) : Program (List P) Empty (Nat × O) R E where
  call _ _ function := function.elim
  handle ps now op result surroundings :=
    match ps[op.1]? with
    | some p =>
      let (p, commands) := program.handle p now op.2 result surroundings
      (ps.set op.1 p, commands.map (Command.tag op.1))
    | none => (ps, [])
  completes ps now op result := ps[op.1]?.any fun p => program.completes p now op.2 result

/-- No handler stops the context or asks for what it may not get. -/
def Separate (program : Program P Empty O R E) : Prop :=
  ∀ p now op result surroundings,
    (program.handle p now op result surroundings).2.all Command.certain = true ∧
      (program.handle p now op result surroundings).2.any Command.stops = false

end Program

/-- An input of the instance `i`, on the shared context. -/
def Input.tag (i : Nat) : Input Empty O R E → Input Empty (Nat × O) R E
  | .call function => .call function
  | .enter => .enter
  | .complete op result => .complete (i, op) result
  | .handle surroundings => .handle surroundings
  | .leave => .leave
  | .tick time => .tick time

namespace EventLoop

def ownRecord (i : Nat) (item : (Nat × O) × R × E) : Option (O × R × E) := (own i item.1).map (·, item.2)

/-- The loop as the instance `i` sees it, whose state is `p`. -/
def part (l : View (List P) (Nat × O) R E) (i : Nat) (p : P) : View P O R E where
  now := l.now
  program := p
  context := l.context.part i
  running := l.running
  returned := l.returned
  started := l.started.filterMap (own i)
  handled := l.handled.filterMap (ownRecord i)

variable {l m : View (List P) (Nat × O) R E} {program : Program P Empty O R E}

theorem part_starts_other (commands : List (Command O R)) (different : j ≠ i) :
    ((commands.map (Command.tag j)).filterMap Command.starts).filterMap (own i) = [] := by
  apply List.eq_nil_iff_forall_not_mem.mpr
  intro op member
  obtain ⟨⟨k, _⟩, started, mine⟩ := List.mem_filterMap.mp member
  obtain ⟨tagged, member, starts⟩ := List.mem_filterMap.mp started
  obtain ⟨command, _, rfl⟩ := List.mem_map.mp member
  cases command with
  | start | post =>
    cases starts
    rw [own_other _ different] at mine
    cases mine
  | cancel | request | stop => cases starts

section Handle
variable {before after : List ((Nat × O) × R)} {x : Observed (Nat × O) R}

/-- A handler of the instance `i` is a handler of it alone. -/
theorem handle_part (found : l.program[i]? = some p) (running : l.running = true)
    (going : l.context.stopped = false) (queued : l.context.queued = before ++ ((i, op), result) :: after)
    (performs : (l.context.dequeue (before ++ after)).PerformsAll
      (program.family.handle l.program l.now (i, op) result surroundings).2 x) :
    ∃ q, (l.handle program.family (i, op) result surroundings x).program[i]? = some q ∧
      Stepped program (l.part i p) (.handle surroundings)
        ((l.handle program.family (i, op) result surroundings x).part i q) := by
  have bound := (List.getElem?_eq_some_iff.mp found).1
  have mine : (l.part i p).context.queued = before.filterMap (ownItem i) ++
      (op, result) :: after.filterMap (ownItem i) := by
    simp only [part, Observed.part, queued, List.filterMap_append, List.filterMap_cons, ownItem_same]
  have alone := performs.part (i := i)
  simp only [Program.family, found, Observed.filterMap_own_tag] at alone
  have dequeued : (l.context.dequeue (before ++ after)).part i = (l.part i p).context.dequeue
      (before.filterMap (ownItem i) ++ after.filterMap (ownItem i)) := by
    simp only [Observed.part, Observed.dequeue, part, List.filterMap_append]
  rw [dequeued] at alone
  refine ⟨(program.handle p l.now op result surroundings).1, ?_, ?_⟩
  · simp only [EventLoop.handle, EventLoop.resume, Program.family, found]
    exact List.getElem?_set_self bound
  · have stepped : Stepped program (l.part i p) (.handle surroundings) _ :=
      .handle running going mine alone
    have same : (l.part i p).handle program op result surroundings (x.part i) =
        (l.handle program.family (i, op) result surroundings x).part i
          (program.handle p l.now op result surroundings).1 := by
      simp only [EventLoop.handle, EventLoop.resume, part, Program.family, found, List.filterMap_append,
        ← Command.starts_own, Observed.filterMap_own_tag]
      simp [ownRecord]
    rwa [same] at stepped

/-- A handler of another instance is none of its own. -/
theorem handle_part_other (separate : program.Separate) (found : l.program[i]? = some p)
    (queued : l.context.queued = before ++ ((j, op), result) :: after) (different : j ≠ i)
    (performs : (l.context.dequeue (before ++ after)).PerformsAll
      (program.family.handle l.program l.now (j, op) result surroundings).2 x) :
    (l.handle program.family (j, op) result surroundings x).program[i]? = some p ∧
      (l.handle program.family (j, op) result surroundings x).part i p = l.part i p := by
  have dequeued : (l.context.dequeue (before ++ after)).part i = l.context.part i := by
    simp only [Observed.part, Observed.dequeue, queued, List.filterMap_append, List.filterMap_cons,
      ownItem_other op result different]
  have record : ownRecord i (((j, op), result, surroundings) : (Nat × O) × R × E) = none := by
    simp [ownRecord, own_other op different]
  cases state : l.program[j]? with
  | none =>
    simp only [Program.family, state] at performs
    cases performs
    refine ⟨by simpa [EventLoop.handle, EventLoop.resume, Program.family, state] using found, ?_⟩
    simp [EventLoop.handle, EventLoop.resume, Program.family, state, part, dequeued, record]
  | some q =>
    obtain ⟨certain, stopless⟩ := separate q l.now op result surroundings
    simp only [Program.family, state] at performs
    have same := (performs.part_other different certain stopless).trans dequeued
    refine ⟨?_, ?_⟩
    · simpa [EventLoop.handle, EventLoop.resume, Program.family, state,
        List.getElem?_set_ne different] using found
    · simp only [EventLoop.handle, EventLoop.resume, Program.family, state, part, List.filterMap_append,
        part_starts_other _ different, List.append_nil, same]
      simp [record]

end Handle

/-- One step of the family is at most one step of each instance. -/
theorem Stepped.part (separate : program.Separate) (found : l.program[i]? = some p)
    (stepped : Stepped program.family l input m) :
    ∃ q, m.program[i]? = some q ∧
      ((∃ mine, input = Input.tag i mine ∧ Stepped program (l.part i p) mine (m.part i q)) ∨
        m.part i q = l.part i p) := by
  cases stepped with
  | @call function x outside performs => exact function.elim
  | enter outside => exact ⟨p, found, .inl ⟨.enter, rfl, .enter (l := l.part i p) outside⟩⟩
  | @tick time later => exact ⟨p, found, .inl ⟨.tick time, rfl, .tick (l := l.part i p) later⟩⟩
  | leave running ended =>
    refine ⟨p, found, .inl ⟨.leave, rfl, .leave (l := l.part i p) running (ended.imp_right fun drained => ?_)⟩⟩
    rw [EventLoop.part, Observed.part_work, drained, List.filterMap_nil]
  | @complete before op after result pending completes =>
    obtain ⟨j, op⟩ := op
    refine ⟨p, found, ?_⟩
    by_cases same : j = i
    · subst same
      have mine : (l.part j p).context.outstanding = before.filterMap (own j) ++ op :: after.filterMap (own j) := by
        simp only [EventLoop.part, Observed.part, pending, List.filterMap_append, List.filterMap_cons, own_same]
      have done : program.completes p l.now op result = true := by
        simpa [Program.family, found] using completes
      have stepped : Stepped program (l.part j p) (.complete op result) _ := .complete mine done
      refine .inl ⟨.complete op result, rfl, ?_⟩
      simpa only [EventLoop.part, Observed.part, List.filterMap_append, List.filterMap_cons, ownItem_same,
        List.filterMap_nil] using stepped
    · right
      simp only [EventLoop.part, Observed.part, pending, List.filterMap_append, List.filterMap_cons,
        own_other op same, ownItem_other op result same, List.filterMap_nil, List.append_nil]
  | @handle before op result after surroundings x running going queued performs =>
    obtain ⟨j, op⟩ := op
    by_cases same : j = i
    · subst same
      obtain ⟨q, state, stepped⟩ := handle_part found running going queued performs
      exact ⟨q, state, .inl ⟨.handle surroundings, rfl, stepped⟩⟩
    · obtain ⟨state, moved⟩ := handle_part_other separate found queued same performs
      exact ⟨p, state, .inr moved⟩

theorem Stepped.length (stepped : Stepped program.family l input m) :
    m.program.length = l.program.length := by
  cases stepped with
  | @call function x outside performs => exact function.elim
  | @handle before op result after surroundings x running going queued performs =>
    simp only [EventLoop.handle, EventLoop.resume, Program.family]
    cases l.program[op.1]? with
    | none => rfl
    | some p => exact List.length_set
  | enter | complete | leave | tick => rfl

/-- What holds of every instance. -/
def Each (Inv : Nat → View P O R E → Prop) (l : View (List P) (Nat × O) R E) : Prop :=
  ∀ i p, l.program[i]? = some p → Inv i (l.part i p)

theorem Each.step {Inv : Nat → View P O R E → Prop} {finer : View P O R E → Input Empty O R E → Prop}
    (each : Each Inv l) (separate : program.Separate) (stepped : Stepped program.family l input m)
    (carries : ∀ i p mine, l.program[i]? = some p → input = Input.tag i mine → finer (l.part i p) mine)
    (preserves : ∀ {i v mine w}, Inv i v → finer v mine → Stepped program v mine w → Inv i w) :
    Each Inv m := by
  intro i q reached
  have bound : i < l.program.length := stepped.length ▸ (List.getElem?_eq_some_iff.mp reached).1
  have found := List.getElem?_eq_getElem bound
  obtain ⟨q', state, mine | same⟩ := stepped.part separate found
  · obtain ⟨mine, tagged, alone⟩ := mine
    cases Option.some.inj (reached.symm.trans state)
    exact preserves (each i _ found) (carries i _ mine found tagged) alone
  · cases Option.some.inj (reached.symm.trans state)
    exact same ▸ each i _ found

end EventLoop
end BoostTest.Asio
