import Mathlib.Logic.Function.Basic

/-! Signals as the C library delivers them to a single thread. `signal` leaves
a handler installed while it runs and blocks its own signal meanwhile; a
blocked signal stays pending and is delivered when the handler returns. -/
namespace BoostTest.Signals

inductive Disposition where
  | default
  | handler
  deriving DecidableEq, Repr

/-- One activation of a handler: its signal, how many there were before it, and
where it is in its code. -/
structure Frame (G F : Type) where
  signum : G
  serial : Nat
  code : F
  deriving DecidableEq, Repr

/-- The signals `G` of a process and its handler frames, innermost first. -/
structure Process (G F : Type) where
  frames : List (Frame G F)
  disposition : G → Disposition
  pending : G → Bool
  killed : Bool
  entries : Nat

variable {G F : Type} [DecidableEq G]

namespace Process

def masked (p : Process G F) (sig : G) : Bool := p.frames.any (·.signum = sig)

/-- Delivered now, the signal would run its handler. -/
def enters (p : Process G F) (sig : G) : Bool := !p.masked sig && p.disposition sig = .handler

def signal (p : Process G F) (sig : G) (disposition : Disposition) : Process G F :=
  { p with disposition := Function.update p.disposition sig disposition }

def pend (p : Process G F) (sig : G) : Process G F :=
  { p with pending := Function.update p.pending sig true }

def kill (p : Process G F) : Process G F := { p with killed := true }

def enter (entry : F) (p : Process G F) (sig : G) : Process G F :=
  { p with frames := ⟨sig, p.entries, entry⟩ :: p.frames, entries := p.entries + 1 }

/-- The innermost handler, of frame `f`, runs on to another point of its code. -/
def goto (p : Process G F) (f : Frame G F) (outer : List (Frame G F)) (code : F) : Process G F :=
  { p with frames := { f with code } :: outer }

/-- `raise`, or a signal from elsewhere; the default action terminates. -/
def deliver (entry : F) (p : Process G F) (sig : G) : Process G F :=
  if p.masked sig then p.pend sig
  else
    match p.disposition sig with
    | .default => p.kill
    | .handler => p.enter entry sig

/-- A signal the thread itself causes by a fault cannot wait. -/
def fault (entry : F) (p : Process G F) (sig : G) : Process G F :=
  if p.enters sig then p.enter entry sig else p.kill

/-- The innermost handler returns, and its signal is no longer blocked. -/
def leave (entry : F) (p : Process G F) (f : Frame G F) (outer : List (Frame G F)) :
    Process G F :=
  let p := { p with frames := outer }
  if p.pending f.signum then
    deliver entry { p with pending := Function.update p.pending f.signum false } f.signum
  else p

/-- The three outcomes of a delivery. -/
inductive Delivered (entry : F) (p : Process G F) (sig : G) : Process G F → Prop where
  | pend (masked : p.masked sig = true) : Delivered entry p sig (p.pend sig)
  | kill (unmasked : p.masked sig = false) (reset : p.disposition sig = .default) :
      Delivered entry p sig p.kill
  | enter (enters : p.enters sig = true) : Delivered entry p sig (p.enter entry sig)

theorem deliver_delivered (entry : F) (p : Process G F) (sig : G) :
    Delivered entry p sig (p.deliver entry sig) := by
  unfold deliver
  cases masked : p.masked sig with
  | true => simpa using Delivered.pend masked
  | false =>
    cases disposition : p.disposition sig with
    | default => simpa [disposition] using Delivered.kill masked disposition
    | handler => simpa [disposition] using Delivered.enter (by simp [enters, masked, disposition])

theorem masked_iff {p : Process G F} {sig : G} :
    p.masked sig = true ↔ sig ∈ p.frames.map Frame.signum := by
  simp only [masked, List.any_eq_true, decide_eq_true_eq, List.mem_map]

theorem masked_false_iff {p : Process G F} {sig : G} :
    p.masked sig = false ↔ sig ∉ p.frames.map Frame.signum := by
  rw [← masked_iff, Bool.not_eq_true]

theorem enters_iff {p : Process G F} {sig : G} :
    p.enters sig = true ↔ p.masked sig = false ∧ p.disposition sig = .handler := by
  simp [enters]

@[simp] theorem enters_enter (entry : F) (p : Process G F) (sig : G) :
    (p.enter entry sig).enters sig = false := by
  simp [enters, enter, masked]

theorem masked_enter_of_ne (entry : F) (p : Process G F) {sig other : G} (different : other ≠ sig) :
    (p.enter entry sig).masked other = p.masked other := by
  simp only [enter, masked, List.any_cons]
  rw [decide_eq_false (Ne.symm different), Bool.false_or]

theorem enters_enter_of_ne (entry : F) (p : Process G F) {sig other : G} (different : other ≠ sig) :
    (p.enter entry sig).enters other = p.enters other := by
  rw [enters, masked_enter_of_ne entry p different]
  rfl

theorem enters_goto {p : Process G F} (top : p.frames = f :: outer) (code : F) (sig : G) :
    (p.goto f outer code).enters sig = p.enters sig := by
  have masked : (p.goto f outer code).masked sig = p.masked sig := by
    simp only [Process.masked, goto, top, List.any_cons]
  rw [enters, masked]
  rfl

/-- While a signal is blocked, its action makes no difference. -/
theorem enters_signal {p : Process G F} {sig : G} (masked : p.masked sig = true)
    (disposition : Disposition) (other : G) :
    (p.signal sig disposition).enters other = p.enters other := by
  have same : (p.signal sig disposition).masked other = p.masked other := rfl
  by_cases own : other = sig
  · subst own
    simp [enters, same, masked]
  · have action : (p.signal sig disposition).disposition other = p.disposition other :=
      Function.update_of_ne own _ _
    rw [enters, same, action]
    rfl

/-- A signal whose frame is left while its action is the default one. -/
theorem enters_leave {p : Process G F} (top : p.frames = f :: outer)
    (reset : p.disposition f.signum = .default) (pending : G → Bool) (sig : G) :
    ({ p with frames := outer, pending } : Process G F).enters sig = p.enters sig := by
  by_cases own : sig = f.signum
  · subst own
    simp [enters, reset]
  · have masked : ({ p with frames := outer, pending } : Process G F).masked sig = p.masked sig := by
      simp only [Process.masked, top, List.any_cons]
      rw [decide_eq_false (Ne.symm own), Bool.false_or]
    rw [enters, masked]
    rfl

theorem pending_of_update {pending : G → Bool} {sig other : G}
    (waits : Function.update pending sig false other = true) : pending other = true := by
  by_cases own : other = sig
  · subst own
    simp at waits
  · rwa [Function.update_of_ne own] at waits

/-- A signal has at most one frame, and only a blocked signal is pending. -/
structure Consistent (p : Process G F) : Prop where
  distinct : (p.frames.map Frame.signum).Nodup
  held : ∀ sig, p.pending sig = true → p.masked sig = true

theorem Consistent.pend {p : Process G F} (consistent : p.Consistent) {sig : G}
    (masked : p.masked sig = true) : (p.pend sig).Consistent := by
  refine ⟨consistent.distinct, ?_⟩
  intro other waiting
  by_cases same : other = sig
  · subst same
    exact masked
  · apply consistent.held other
    simpa [Process.pend, same] using waiting

theorem Consistent.enter {p : Process G F} (consistent : p.Consistent) (entry : F) {sig : G}
    (enters : p.enters sig = true) : (p.enter entry sig).Consistent := by
  have unmasked := masked_false_iff.mp (enters_iff.mp enters).1
  refine ⟨List.nodup_cons.mpr ⟨unmasked, consistent.distinct⟩, ?_⟩
  intro other waiting
  have masked := masked_iff.mp (consistent.held other waiting)
  exact masked_iff.mpr (List.mem_cons_of_mem _ masked)

theorem Consistent.goto {p : Process G F} (consistent : p.Consistent)
    (top : p.frames = f :: outer) (code : F) : (p.goto f outer code).Consistent := by
  have signums : (p.goto f outer code).frames.map Frame.signum = p.frames.map Frame.signum := by
    rw [top]
    rfl
  refine ⟨signums ▸ consistent.distinct, ?_⟩
  intro sig waiting
  have masked := masked_iff.mp (consistent.held sig waiting)
  exact masked_iff.mpr (signums ▸ masked)

theorem Consistent.leave_unmasked {p : Process G F} (consistent : p.Consistent)
    (top : p.frames = f :: outer) : f.signum ∉ outer.map Frame.signum := by
  have distinct := consistent.distinct
  rw [top] at distinct
  exact (List.nodup_cons.mp distinct).1

/-- A frame is left with its own signal no longer pending. -/
theorem Consistent.leave {p : Process G F} (consistent : p.Consistent)
    (top : p.frames = f :: outer) (pending : G → Bool) (cleared : pending f.signum = false)
    (fewer : ∀ sig, pending sig = true → p.pending sig = true) :
    ({ p with frames := outer, pending } : Process G F).Consistent := by
  have distinct := consistent.distinct
  rw [top] at distinct
  refine ⟨(List.nodup_cons.mp distinct).2, ?_⟩
  intro sig waiting
  have masked := masked_iff.mp (consistent.held sig (fewer sig waiting))
  rw [top] at masked
  obtain rfl | masked := List.mem_cons.mp masked
  · cases cleared.symm.trans waiting
  · exact masked_iff.mpr masked

end Process
end BoostTest.Signals
