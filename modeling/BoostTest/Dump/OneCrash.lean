import BoostTest.Dump.Entries

/-! One crash leaves one dump, unless the handler is entered while a frame of
it is active, or something fails in it before the dump is written. The handler
resets only the signal it was entered for, so its own `raise` is such an entry
when the first signal was SIGSEGV. -/
namespace BoostTest.Dump
open Signals Process

/-- The file has been written, as far as the frame has come. -/
def Point.written : Point → Bool
  | .dumped | .raised => true
  | .entry | .reset | .prepared | .opened | .thrown => false

namespace Crash

/-- The file is written once, on the first entry, and a signal kills the
process, which leaves that trace. -/
structure OneDump (c : Crash) : Prop where
  once : c.writes ≤ 1
  first : c.writes = 1 → c.file = .trace 0
  left : c.ended = true → c.file = .trace 0
  entries : c.process.entries ≤ 2
  dies : c.process.entries ≠ 0 → c.ended = false → ∃ t, c.step .exec = some t
  killed : c.exited = false

/-- No signal enters the handler while a frame of it is active, the SIGABRT
that the handler raises included; no fault strikes and nothing fails in a frame
that has not written the dump. -/
def Uninterrupted (c : Crash) : Input → Prop
  | .deliver sig => c.process.frames = [] ∨ c.process.enters sig = false
  | .fault => c.process.frames = [] ∨
      c.process.enters .segv = false ∧ ∀ f ∈ c.process.frames, f.code.written = true
  | .exec => c.process.frames.head?.map Frame.code = some .dumped → c.process.enters .abrt = false
  | .refuse | .throw => False

instance (c : Crash) (input : Input) : Decidable (c.Uninterrupted input) := by
  cases input <;> simp only [Uninterrupted] <;> infer_instance

/-- Nothing of the handler has run, or one frame of it is active. -/
structure Calm (c : Crash) : Prop where
  killed : c.exited = false
  written : c.writes = 0 ∨ c.writes = 1 ∧ c.file = .trace 0
  left : c.process.killed = true → c.writes = 1
  alone : c.process.killed = false →
    (c.process.frames = [] ∧ c.writes = 0 ∧ c.process.entries = 0 ∧
      ∀ sig, c.process.disposition sig = .handler) ∨
    ∃ f, c.process.frames = [f] ∧ f.serial = 0 ∧ f.code ≠ .thrown ∧
      (c.writes = if f.code.written then 1 else 0) ∧
      ∀ sig ≠ f.signum, c.process.disposition sig = .handler

theorem init_calm : init.Calm where
  killed := rfl
  written := .inl rfl
  left := nofun
  alone _ := .inl ⟨rfl, rfl, rfl, fun sig => by cases sig <;> rfl⟩

namespace Calm
variable {c : Crash}

theorem top (calm : c.Calm) (alive : c.process.killed = false)
    (top : c.process.frames = f :: outer) :
    outer = [] ∧ f.serial = 0 ∧ f.code ≠ .thrown ∧ (c.writes = if f.code.written then 1 else 0) ∧
      ∀ sig ≠ f.signum, c.process.disposition sig = .handler := by
  obtain ⟨empty, _⟩ | ⟨g, only, first⟩ := calm.alone alive
  · cases top.symm.trans empty
  · cases top.symm.trans only
    exact ⟨rfl, first⟩

/-- A signal that is not blocked still has the handler. -/
theorem installed (calm : c.Calm) (alive : c.process.killed = false)
    (unmasked : c.process.masked sig = false) : c.process.disposition sig = .handler := by
  obtain ⟨_, _, _, handlers⟩ | ⟨f, only, _, _, _, handlers⟩ := calm.alone alive
  · exact handlers sig
  · refine handlers sig fun same => ?_
    subst same
    exact masked_false_iff.mp unmasked (by simp [only])

theorem enter (calm : c.Calm) (alive : c.process.killed = false)
    (enters : c.process.enters sig = true)
    (outside : c.process.frames = [] ∨ c.process.enters sig = false) :
    Calm { c with process := c.process.enter .entry sig } := by
  obtain outside | stops := outside
  · obtain ⟨_, unwritten, none, handlers⟩ | ⟨f, only, _⟩ := calm.alone alive
    · refine ⟨calm.killed, calm.written, calm.left, fun _ => .inr ?_⟩
      refine ⟨⟨sig, c.process.entries, .entry⟩, ?_, none, by simp, unwritten, fun other _ => handlers other⟩
      simp [Process.enter, outside]
    · cases outside.symm.trans only
  · cases stops.symm.trans enters

theorem deliver (calm : c.Calm) (alive : c.process.killed = false)
    (delivered : Delivered .entry c.process sig p)
    (outside : c.process.frames = [] ∨ c.process.enters sig = false) :
    Calm { c with process := p } := by
  cases delivered with
  | pend => exact ⟨calm.killed, calm.written, calm.left, fun _ => calm.alone alive⟩
  | kill unmasked reset => cases reset.symm.trans (calm.installed alive unmasked)
  | enter enters => exact calm.enter alive enters outside

/-- A fault whose signal does not enter the handler finds a frame active. -/
theorem fault (calm : c.Calm) (alive : c.process.killed = false)
    (stops : c.process.enters .segv = false)
    (late : c.process.frames = [] ∨
      c.process.enters .segv = false ∧ ∀ f ∈ c.process.frames, f.code.written = true) :
    Calm { c with process := c.process.kill } := by
  refine ⟨calm.killed, calm.written, fun _ => ?_, fun living => by cases living⟩
  obtain ⟨empty, _, _, handlers⟩ | ⟨f, only, _, _, writes, _⟩ := calm.alone alive
  · simp [enters, masked, empty, handlers] at stops
  · obtain empty | ⟨_, written⟩ := late
    · cases empty.symm.trans only
    · have past := written f (by simp [only])
      simpa [past] using writes

/-- The frame executes a statement other than its write. -/
theorem goto (calm : c.Calm) (alive : c.process.killed = false)
    (top : c.process.frames = f :: outer) (next : Point) (going : next ≠ .thrown)
    (same : next.written = f.code.written) :
    Calm { c with process := c.process.goto f outer next } := by
  obtain ⟨rfl, first, _, writes, handlers⟩ := calm.top alive top
  refine ⟨calm.killed, calm.written, calm.left, fun _ => .inr ⟨_, rfl, first, going, ?_, handlers⟩⟩
  rw [← same] at writes
  exact writes

theorem step {t : Crash} (calm : c.Calm) (bounded : c.Bounded)
    (uninterrupted : c.Uninterrupted input) (stepped : c.step input = some t) : t.Calm := by
  have after := bounded.step stepped
  obtain ⟨alive, stepped⟩ := Stepped.of_step stepped
  replace alive := (ended_eq_false.mp alive).1
  cases stepped with
  | deliver delivered => exact calm.deliver alive delivered uninterrupted
  | faultEnter enters => exact calm.enter alive enters (uninterrupted.imp_right And.left)
  | faultKill stops => exact calm.fault alive stops uninterrupted
  | @reset f outer top code =>
    have moved := calm.goto alive top .reset (by simp) (by rw [code]; rfl)
    obtain ⟨rfl, first, _, _, handlers⟩ := calm.top alive top
    obtain ⟨_, _, _, writes, _⟩ := moved.top alive rfl
    refine ⟨calm.killed, calm.written, calm.left, fun _ => .inr ⟨_, rfl, first, by simp, writes, ?_⟩⟩
    intro sig different
    exact (Function.update_of_ne different _ _).trans (handlers sig different)
  | prepare top code => exact calm.goto alive top _ (by simp) (by rw [code]; rfl)
  | «open» top code =>
    have moved := calm.goto alive top .opened (by simp) (by rw [code]; rfl)
    obtain ⟨_, _, _, writes, _⟩ := calm.top alive top
    rw [code] at writes
    exact ⟨calm.killed, .inl writes, calm.left, moved.alone⟩
  | dump top code =>
    obtain ⟨rfl, first, _, writes, handlers⟩ := calm.top alive top
    rw [code] at writes
    have once : c.writes + 1 = 1 := by rw [writes]; rfl
    refine ⟨calm.killed, .inr ⟨once, by rw [first]⟩, fun _ => once, fun _ => .inr ?_⟩
    exact ⟨_, rfl, first, by simp, once, handlers⟩
  | @raise f outer p top code delivered =>
    have stops := uninterrupted (by simp [top, code])
    have moved := calm.goto alive top .raised (by simp) (by rw [code]; rfl)
    exact moved.deliver alive delivered (.inr ((enters_goto top .raised .abrt).trans stops))
  | leave top code quiet =>
    -- the frame was the only one, and a process that lives on has another
    obtain ⟨rfl, _⟩ := calm.top alive top
    have counted := bounded.sound.counted
    rw [top] at counted
    exact absurd rfl ((after.live alive).entered (Nat.ne_of_gt counted))
  | @leavePending f outer p top code waiting delivered =>
    have killed := bounded.sound.leave_kills top (by simp [code]) delivered
    obtain ⟨_, _, _, writes, _⟩ := calm.top alive top
    rw [code] at writes
    exact ⟨calm.killed, calm.written, fun _ => writes, fun alive => by cases alive.symm.trans killed⟩
  | exit top code => exact absurd code (calm.top alive top).2.2.1
  | refuse | throw => exact uninterrupted.elim

end Calm

theorem OneDump.of_calm {c : Crash} (calm : c.Calm) (bounded : c.Bounded) : c.OneDump where
  once := by
    obtain none | ⟨one, _⟩ := calm.written <;> omega
  first one := by
    obtain none | ⟨_, first⟩ := calm.written
    · omega
    · exact first
  left ended := by
    have killed : c.process.killed = true := by simpa [Crash.ended, calm.killed] using ended
    have one := calm.left killed
    obtain none | ⟨_, first⟩ := calm.written
    · omega
    · exact first
  entries := bounded.entries_le
  dies := bounded.executes_on
  killed := calm.killed

end Crash

/-- One crash, one dump, in every run where the handler is neither entered
inside itself nor fails; and the handler comes to its end in every run. -/
theorem one_crash_one_dump (run : Transition.Run Crash.step Crash.Uninterrupted .init inputs c) :
    c.OneDump ∧ inputs.countP Crash.executes ≤ 12 := by
  have invariant : c.Bounded ∧ c.Calm :=
    run.invariant (P := fun c => c.Bounded ∧ c.Calm)
      (fun ⟨bounded, calm⟩ uninterrupted stepped =>
        ⟨bounded.step stepped, calm.step bounded uninterrupted stepped⟩)
      ⟨Crash.init_bounded, Crash.init_calm⟩
  exact ⟨.of_calm invariant.2 invariant.1, Crash.executes_at_most run⟩

/-- `abort` in the program; the SIGABRT that the handler raises has to wait. -/
theorem one_crash_one_dump_abort : ∃ c,
    Transition.Run Crash.step Crash.Uninterrupted .init
      [.deliver .abrt, .exec, .exec, .exec, .exec, .exec, .exec] c ∧
    (c.process.killed = true ∧ c.writes = 1) ∧ c.OneDump ∧
    [Input.deliver .abrt, .exec, .exec, .exec, .exec, .exec, .exec].countP Crash.executes ≤ 12 :=
  Transition.Run.instance_of_execute ⟨_, rfl, rfl, rfl⟩ fun _ run _ => one_crash_one_dump run

/-- A crash by SIGSEGV: the trace left on disk is that of the second entry. -/
theorem segv_dumps_twice : ∃ c,
    Transition.Run Crash.step Crash.Anytime .init (.fault :: List.replicate 11 .exec) c ∧
    c.process.killed = true ∧ c.writes = 2 ∧ c.file = .trace 1 ∧ ¬ c.OneDump := by
  refine Transition.Run.exists_of_execute ⟨_, rfl, rfl, rfl, rfl, ?_⟩
  intro one
  exact absurd one.once (by decide)

/-- A dump directory that cannot be made: the exception ends the process by
`std::exit`, and there is no dump. -/
example : ∃ c, Transition.Run Crash.step Crash.Anytime .init
    [.deliver .abrt, .exec, .throw, .exec] c ∧ c.exited = true ∧ c.file = .old :=
  Transition.Run.exists_of_execute ⟨_, rfl, rfl, rfl⟩

namespace Crash

theorem step_exec {c : Crash} (alive : c.ended = false)
    (top : c.process.frames = f :: outer) : c.step .exec = some (c.signalHandler f outer) := by
  simp [step, alive, top]

/-- A frame that has just been entered dumps with its next four statements. -/
theorem entered_dumps {c : Crash} (alive : c.ended = false)
    (top : c.process.frames = ⟨sig, serial, .entry⟩ :: outer) :
    ∃ u, Transition.Run step Anytime c [.exec, .exec, .exec, .exec] u ∧
      u.writes = c.writes + 1 ∧ u.file = .trace serial :=
  ⟨_, .next trivial (step_exec alive top) (.next trivial (step_exec alive rfl)
    (.next trivial (step_exec alive rfl) (.single trivial (step_exec alive rfl)))), rfl, rfl⟩

/-- Every entry leaves its frame on top. -/
theorem entry_on_top {c t : Crash} (stepped : c.step input = some t)
    (entered : t.process.entries ≠ c.process.entries) : t.ended = false ∧
      ∃ sig outer, t.process.frames = ⟨sig, c.process.entries, .entry⟩ :: outer := by
  obtain ⟨alive, stepped⟩ := Stepped.of_step stepped
  cases stepped with
  | deliver delivered =>
    cases delivered with
    | pend | kill => exact absurd rfl entered
    | enter => exact ⟨alive, _, _, rfl⟩
  | faultEnter => exact ⟨alive, _, _, rfl⟩
  | raise top code delivered =>
    cases delivered with
    | pend | kill => exact absurd rfl entered
    | enter => exact ⟨alive, _, _, rfl⟩
  | leavePending top code waiting delivered =>
    cases delivered with
    | pend | kill => exact absurd rfl entered
    | enter => exact ⟨alive, _, _, rfl⟩
  | faultKill | reset | prepare | «open» | dump | leave | exit | refuse | throw =>
    exact absurd rfl entered

end Crash

/-- A handler entered inside itself overwrites the dump of the first entry, as
soon as the new frame has executed the statements up to its own dump. -/
theorem nested_entry_overwrites {c t : Crash}
    (run : Transition.Run Crash.step Crash.Anytime .init inputs c) (inside : c.process.frames ≠ [])
    (stepped : c.step input = some t) (entered : t.process.entries ≠ c.process.entries) :
    ∃ u serial, Transition.Run Crash.step Crash.Anytime t [.exec, .exec, .exec, .exec] u ∧
      u.file = .trace serial ∧ serial ≠ 0 := by
  obtain ⟨alive, sig, outer, top⟩ := Crash.entry_on_top stepped entered
  obtain ⟨u, dumps, _, file⟩ := Crash.entered_dumps alive top
  have counted := (Crash.bounded_of_run run).sound.counted
  have frames := List.length_pos_iff.mpr inside
  exact ⟨u, _, dumps, file, by omega⟩

end BoostTest.Dump
