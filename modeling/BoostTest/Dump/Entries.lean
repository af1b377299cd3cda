import BoostTest.Dump.SignalHandler

/-! How often `_signal_handler` is entered, and that the process ends with it.
Every entry resets the signal it was made for, so each of the two signals makes
one; a frame past its `raise` leaves SIGABRT pending or runs its handler. -/
namespace BoostTest.Dump
open Signals Process

/-- How many more entries there can be. -/
def capacity (p : Process Signal Point) : Nat := (p.enters .segv).toNat + (p.enters .abrt).toNat

def Point.remaining : Point → Nat
  | .entry => 6
  | .reset => 5
  | .prepared => 4
  | .opened => 3
  | .dumped => 2
  | .raised => 1
  | .thrown => 1

/-- A bound on the statements that are still to be executed. -/
def work (p : Process Signal Point) : Nat :=
  p.frames.foldr (fun f later => f.code.remaining + later) 0 + 6 * capacity p

theorem capacity_congr {p q : Process Signal Point} (same : ∀ sig, q.enters sig = p.enters sig) :
    capacity q = capacity p := by
  simp only [capacity, same]

theorem capacity_enter {p : Process Signal Point} (enters : p.enters sig = true) :
    capacity (p.enter .entry sig) + 1 = capacity p := by
  cases sig with
  | segv =>
    have other := enters_enter_of_ne Point.entry p (by decide : Signal.abrt ≠ .segv)
    simp [capacity, enters, other]
    omega
  | abrt =>
    have other := enters_enter_of_ne Point.entry p (by decide : Signal.segv ≠ .abrt)
    simp [capacity, enters, other]

theorem work_enter {p : Process Signal Point} (enters : p.enters sig = true) :
    work (p.enter .entry sig) = work p := by
  have entered := capacity_enter enters
  simp only [work, enter, List.foldr_cons, Point.remaining] at entered ⊢
  omega

theorem work_delivered {p q : Process Signal Point} (delivered : Delivered .entry p sig q) :
    work q = work p := by
  cases delivered with
  | pend => rfl
  | kill => rfl
  | enter enters => exact work_enter enters

theorem work_goto {p : Process Signal Point} (top : p.frames = f :: outer) (code : Point) :
    work (p.goto f outer code) + f.code.remaining = work p + code.remaining := by
  have same := capacity_congr (enters_goto top code)
  simp only [work, same, top]
  simp only [goto, List.foldr_cons]
  omega

/-- A frame moves on. -/
theorem work_next {p : Process Signal Point} (top : p.frames = f :: outer) {next : Point}
    (fewer : next.remaining + 1 ≤ f.code.remaining) : work (p.goto f outer next) + 1 ≤ work p := by
  have moved := work_goto top next
  omega

theorem work_leave {p : Process Signal Point} (top : p.frames = f :: outer)
    (reset : p.disposition f.signum = .default) (pending : Signal → Bool) :
    work { p with frames := outer, pending } + f.code.remaining = work p := by
  have same := capacity_congr (enters_leave top reset pending)
  simp only [work, same, top, List.foldr_cons]
  omega

theorem work_thrown {p : Process Signal Point} (top : p.frames = f :: outer)
    (code : f.code = .thrown) : 1 ≤ work p := by
  simp only [work, top, List.foldr_cons, code, Point.remaining]
  omega

/-- Bounds the entries: a frame past its first statement has reset its signal,
and every entry used up the capacity for another. -/
structure Sound (p : Process Signal Point) : Prop where
  consistent : p.Consistent
  reset : ∀ f ∈ p.frames, f.code ≠ .entry → p.disposition f.signum = .default
  counted : p.frames.length ≤ p.entries
  bounded : p.entries + capacity p ≤ 2

namespace Sound
variable {p : Process Signal Point}

theorem delivered (sound : Sound p) (delivered : Delivered .entry p sig q) : Sound q := by
  cases delivered with
  | pend masked => exact ⟨sound.consistent.pend masked, sound.reset, sound.counted, sound.bounded⟩
  | kill => exact ⟨⟨sound.consistent.distinct, sound.consistent.held⟩, sound.reset, sound.counted,
      sound.bounded⟩
  | enter enters =>
    refine ⟨sound.consistent.enter .entry enters, ?_, Nat.succ_le_succ sound.counted, ?_⟩
    · intro f member past
      obtain rfl | member := List.mem_cons.mp member
      · exact absurd rfl past
      · exact sound.reset f member past
    · have entered := capacity_enter enters
      have bounded := sound.bounded
      change p.entries + 1 + _ ≤ 2
      omega

theorem goto (sound : Sound p) (top : p.frames = f :: outer) (past : f.code ≠ .entry)
    (code : Point) : Sound (p.goto f outer code) := by
  have counted := sound.counted
  rw [top] at counted
  constructor
  case consistent => exact sound.consistent.goto top code
  case reset =>
    intro g member _
    obtain rfl | member := List.mem_cons.mp member
    · exact sound.reset f (top ▸ List.mem_cons_self) past
    · exact sound.reset g (top ▸ List.mem_cons_of_mem f member) ‹_›
  case counted => exact counted
  case bounded =>
    rw [capacity_congr (enters_goto top code)]
    exact sound.bounded

/-- The first statement of a frame. -/
theorem first (sound : Sound p) (top : p.frames = f :: outer) (code : Point) :
    Sound ((p.goto f outer code).signal f.signum .default) := by
  have consistent := sound.consistent.goto top code
  have masked : (p.goto f outer code).masked f.signum = true :=
    masked_iff.mpr List.mem_cons_self
  have counted := sound.counted
  rw [top] at counted
  constructor
  case consistent => exact ⟨consistent.distinct, consistent.held⟩
  case reset =>
    intro g member past
    by_cases own : g.signum = f.signum
    · simp [signal, own]
    · obtain rfl | member := List.mem_cons.mp member
      · exact absurd rfl own
      · have reset := sound.reset g (top ▸ List.mem_cons_of_mem f member) past
        simpa [signal, Process.goto, own] using reset
  case counted => exact counted
  case bounded =>
    rw [capacity_congr (enters_signal masked .default), capacity_congr (enters_goto top code)]
    exact sound.bounded

theorem leave (sound : Sound p) (top : p.frames = f :: outer) (past : f.code ≠ .entry)
    (pending : Signal → Bool) (cleared : pending f.signum = false)
    (fewer : ∀ sig, pending sig = true → p.pending sig = true) :
    Sound { p with frames := outer, pending } := by
  have reset := sound.reset f (top ▸ List.mem_cons_self) past
  constructor
  case consistent => exact sound.consistent.leave top pending cleared fewer
  case reset => exact fun g member => sound.reset g (top ▸ List.mem_cons_of_mem f member)
  case counted =>
    have counted := sound.counted
    rw [top] at counted
    exact Nat.le_of_succ_le counted
  case bounded =>
    rw [capacity_congr (enters_leave top reset pending)]
    exact sound.bounded

/-- A frame that is left has reset its signal, so the delivery of it kills. -/
theorem leave_kills {pending : Signal → Bool} (sound : Sound p) (top : p.frames = f :: outer)
    (past : f.code ≠ .entry)
    (delivered : Delivered .entry { p with frames := outer, pending } f.signum q) :
    q.killed = true := by
  have reset := sound.reset f (top ▸ List.mem_cons_self) past
  cases delivered with
  | pend masked => exact absurd (masked_iff.mp masked) (sound.consistent.leave_unmasked top)
  | kill => rfl
  | enter enters => cases reset.symm.trans (enters_iff.mp enters).2

theorem step {c t : Crash} (sound : Sound c.process) (stepped : Crash.Stepped c input t) :
    Sound t.process := by
  cases stepped with
  | deliver delivered => exact sound.delivered delivered
  | faultEnter enters => exact sound.delivered (.enter enters)
  | faultKill => exact ⟨⟨sound.consistent.distinct, sound.consistent.held⟩, sound.reset,
      sound.counted, sound.bounded⟩
  | reset top => exact sound.first top .reset
  | prepare top code | «open» top code | dump top code => exact sound.goto top (by simp [code]) _
  | refuse top code | throw top code =>
    exact sound.goto top (by rcases code with code | code <;> simp [code]) _
  | exit => exact sound
  | raise top code delivered => exact (sound.goto top (by simp [code]) .raised).delivered delivered
  | leave top code quiet => exact sound.leave top (by simp [code]) _ quiet (fun _ => id)
  | leavePending top code waiting delivered =>
    have left := sound.leave top (by simp [code]) _ (Function.update_self _ _ _)
      (fun _ => pending_of_update)
    exact left.delivered delivered

end Sound

/-- Going outwards up to a frame for SIGABRT, whose return delivers it, every
frame that has raised SIGABRT finds it pending. -/
def Noted (pending : Bool) : List (Frame Signal Point) → Prop
  | [] => True
  | f :: outer => (f.code = .raised → pending = true) ∧ (f.signum = .abrt ∨ Noted pending outer)

theorem Noted.of_pending (frames : List (Frame Signal Point)) : Noted true frames := by
  induction frames with
  | nil => trivial
  | cons f outer ih => exact ⟨fun _ => rfl, .inr ih⟩

/-- A process that is in a handler stays in one to its end. -/
structure Live (p : Process Signal Point) : Prop where
  noted : Noted (p.pending .abrt) p.frames
  entered : p.entries ≠ 0 → p.frames ≠ []

namespace Live
variable {p : Process Signal Point}

theorem delivered (live : Live p) (delivered : Delivered .entry p sig q)
    (alive : q.killed = false) : Live q := by
  cases delivered with
  | pend masked =>
    refine ⟨?_, live.entered⟩
    cases sig with
    | segv => exact live.noted
    | abrt => exact Noted.of_pending _
  | kill => cases alive
  | enter => exact ⟨⟨nofun, .inr live.noted⟩, fun _ => List.cons_ne_nil _ _⟩

theorem goto (live : Live p) (top : p.frames = f :: outer) (code : Point) (early : code ≠ .raised) :
    Live (p.goto f outer code) := by
  have noted := live.noted
  rw [top] at noted
  exact ⟨⟨fun late => absurd late early, noted.2⟩, fun _ => List.cons_ne_nil _ _⟩

/-- The handler's own `raise`. -/
theorem raise (delivered : Delivered .entry (p.goto f outer .raised) .abrt q)
    (alive : q.killed = false) : Live q := by
  cases delivered with
  | pend => exact ⟨Noted.of_pending _, fun _ => List.cons_ne_nil _ _⟩
  | kill => cases alive
  | enter => exact ⟨⟨nofun, .inl rfl⟩, fun _ => List.cons_ne_nil _ _⟩

theorem leave (live : Live p) (sound : Sound p) (top : p.frames = f :: outer)
    (code : f.code = .raised) (quiet : p.pending f.signum = false) :
    Live { p with frames := outer } := by
  have noted := live.noted
  rw [top] at noted
  have pending := noted.1 code
  refine ⟨?_, fun _ => ?_⟩
  · change Noted (p.pending .abrt) outer
    rw [pending]
    exact Noted.of_pending _
  · rintro rfl
    have masked := masked_iff.mp (sound.consistent.held .abrt pending)
    simp only [top, List.map_cons, List.map_nil, List.mem_singleton] at masked
    rw [← masked, pending] at quiet
    contradiction

theorem step {c t : Crash} (live : Live c.process) (sound : Sound c.process)
    (stepped : Crash.Stepped c input t) (alive : t.process.killed = false) : Live t.process := by
  cases stepped with
  | deliver delivered => exact live.delivered delivered alive
  | faultEnter enters => exact live.delivered (.enter enters) alive
  | faultKill => cases alive
  | reset top code =>
    have moved := live.goto top .reset nofun
    exact ⟨moved.noted, moved.entered⟩
  | prepare top | «open» top | dump top | refuse top | throw top => exact live.goto top _ nofun
  | exit => exact live
  | raise top code delivered => exact raise delivered alive
  | leave top code quiet => exact live.leave sound top code quiet
  | leavePending top code waiting delivered =>
    cases alive.symm.trans (sound.leave_kills top (by simp [code]) delivered)

end Live

namespace Crash

/-- What holds in every run, whenever the signals come. -/
structure Bounded (c : Crash) : Prop where
  sound : Sound c.process
  live : c.process.killed = false → Live c.process

theorem init_bounded : init.Bounded where
  sound := ⟨⟨List.nodup_nil, nofun⟩, nofun, Nat.le_refl _, by decide⟩
  live _ := ⟨trivial, fun entered => absurd rfl entered⟩

theorem Bounded.step {c t : Crash} (bounded : c.Bounded) (stepped : c.step input = some t) :
    t.Bounded := by
  obtain ⟨alive, stepped⟩ := Stepped.of_step stepped
  have living := (ended_eq_false.mp alive).1
  exact ⟨bounded.sound.step stepped, (bounded.live living).step bounded.sound stepped⟩

def executes : Input → Bool
  | .exec | .refuse | .throw => true
  | .deliver _ | .fault => false

/-- After `std::exit` nothing is executed. -/
def due (c : Crash) : Nat := if c.exited then 0 else work c.process

theorem Bounded.due_lowers {c t : Crash} (bounded : c.Bounded)
    (stepped : c.step input = some t) :
    t.due + (if executes input then 1 else 0) ≤ c.due := by
  have reset : ∀ {f outer}, c.process.frames = f :: outer → f.code = .raised →
      c.process.disposition f.signum = .default := fun top code =>
    bounded.sound.reset _ (top ▸ List.mem_cons_self) (by simp [code])
  obtain ⟨alive, stepped⟩ := Stepped.of_step stepped
  have going := (ended_eq_false.mp alive).2
  have kept : ∀ {p file writes n}, work p + n ≤ work c.process →
      Crash.due { process := p, file, writes, exited := c.exited } + n ≤ c.due := fun fewer => by
    simpa [due, going] using fewer
  cases stepped with
  | exit top code =>
    have rest := work_thrown top code
    simpa [due, going, executes] using rest
  | deliver delivered => exact kept (Nat.le_of_eq (work_delivered delivered))
  | faultEnter enters => exact kept (Nat.le_of_eq (work_enter enters))
  | faultKill => exact kept (Nat.le_refl _)
  | @reset f outer top code =>
    have masked : (c.process.goto f outer .reset).masked f.signum = true :=
      masked_iff.mpr List.mem_cons_self
    have same : work ((c.process.goto f outer .reset).signal f.signum .default) =
        work (c.process.goto f outer .reset) := by
      simp only [work, capacity_congr (enters_signal masked .default)]
      rfl
    exact kept (same ▸ work_next top (by rw [code]; decide))
  | prepare top code | «open» top code | dump top code =>
    exact kept (work_next top (by rw [code]; decide))
  | refuse top code | throw top code =>
    exact kept (work_next top (by rcases code with code | code <;> rw [code] <;> decide))
  | raise top code delivered =>
    exact kept (work_delivered delivered ▸ work_next top (by rw [code]; decide))
  | leave top code quiet =>
    have left := work_leave top (reset top code) c.process.pending
    rw [code] at left
    exact kept (Nat.le_of_eq left)
  | @leavePending f outer p top code waiting delivered =>
    have left := work_leave top (reset top code) (Function.update c.process.pending f.signum false)
    rw [code] at left
    exact kept (work_delivered delivered ▸ Nat.le_of_eq left)

theorem Bounded.entries_le {c : Crash} (bounded : c.Bounded) : c.process.entries ≤ 2 :=
  Nat.le_trans (Nat.le_add_right _ _) bounded.sound.bounded

/-- A process that has entered the handler and still lives has a statement of
the handler to execute. -/
theorem Bounded.executes_on {c : Crash} (bounded : c.Bounded) (entered : c.process.entries ≠ 0)
    (alive : c.ended = false) : ∃ t, c.step .exec = some t := by
  cases top : c.process.frames with
  | nil => exact absurd top ((bounded.live (ended_eq_false.mp alive).1).entered entered)
  | cons f outer => exact ⟨c.signalHandler f outer, by simp [Crash.step, alive, top]⟩

section Runs
variable {admits : Crash → Input → Prop}

theorem bounded_of_run (run : Transition.Run step admits init inputs c) : c.Bounded :=
  run.invariant (fun bounded _ stepped => bounded.step stepped) init_bounded

/-- Twelve statements at most are executed, so no run puts off the end for ever. -/
theorem executes_at_most (run : Transition.Run step admits init inputs c) :
    inputs.countP executes ≤ 12 := by
  have spent := run.potential due executes
    (fun bounded _ stepped => bounded.step stepped)
    (fun bounded _ stepped => bounded.due_lowers stepped) init_bounded
  have initially : init.due = 12 := rfl
  omega

end Runs
end Crash
end BoostTest.Dump
