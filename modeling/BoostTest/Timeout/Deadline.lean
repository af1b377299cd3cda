import BoostTest.Chrono
import BoostTest.Timeout.Session

/-! The expiry that `timeout_provider` sets, in the machine arithmetic of its
durations. The members are counts of milliseconds in `int64_t` that nothing
checks; each call of `expires_after` converts one to nanoseconds. -/
namespace BoostTest.Timeout
open Asio SteadyTimer CancellationSlots TimeoutProvider Chrono

/-- The durations of a `timeout_provider` and the expiry of its timer. -/
structure MachineProvider where
  expiry : Int64
  ttTotal : Int64
  ttPartial : Int64
  ttTerminal : Int64
  emitAll : Bool
  deriving DecidableEq, Repr

namespace MachineProvider

def escalating (ttTotal ttPartial ttTerminal : Int64) : MachineProvider :=
  { expiry := timeMax, ttTotal, ttPartial, ttTerminal, emitAll := false }

def single (ttTotal : Int64) : MachineProvider :=
  { expiry := timeMax, ttTotal, ttPartial := 0, ttTerminal := 0, emitAll := true }

def expiresAfter (p : MachineProvider) (now duration : Int64) : MachineProvider :=
  { p with expiry := add now (toNanoseconds duration) }

def arm (p : MachineProvider) (now : Int64) : MachineProvider := p.expiresAfter now p.ttTotal

/-- `fire_total` from the return of `timeout.emit`, at the time of that return. -/
def fireTotal (p : MachineProvider) (now : Int64) : MachineProvider := p.expiresAfter now p.ttPartial

def firePartial (p : MachineProvider) (now : Int64) : MachineProvider := p.expiresAfter now p.ttTerminal

/-- The duration of the wait that a function starts. -/
def duration (p : MachineProvider) : WaitBody → Int64
  | .arm => p.ttTotal
  | .fireTotal => p.ttPartial
  | .firePartial => p.ttTerminal

/-- The expiry that a function leaves. -/
def deadline (p : MachineProvider) (now : Int64) : WaitBody → Int64
  | .arm => (p.arm now).expiry
  | .fireTotal => (p.fireTotal now).expiry
  | .firePartial => (p.firePartial now).expiry

/-- For this wait `q` has a duration no longer than `p`, forwards or backwards. -/
def Covers (p : MachineProvider) (wait : WaitBody) (q : MachineProvider) : Prop :=
  (q.duration wait).toInt.natAbs ≤ (p.duration wait).toInt.natAbs

/-- No wait of `p` ends early, and of durations up to its own a longer one never
ends before a shorter one. -/
structure KeepsTimeouts (p : MachineProvider) : Prop where
  notEarly : ∀ wait now, 0 ≤ now →
    min (now.toInt + (p.duration wait).toInt * 1000000) timeMax.toInt ≤ (p.deadline now wait).toInt
  monotone : ∀ wait (q r : MachineProvider), p.Covers wait q → p.Covers wait r →
    q.duration wait ≤ r.duration wait → ∀ now, 0 ≤ now → q.deadline now wait ≤ r.deadline now wait

theorem deadline_eq (p : MachineProvider) (now : Int64) (wait : WaitBody) :
    p.deadline now wait = add now (toNanoseconds (p.duration wait)) := by
  cases wait <;> rfl

theorem deadline_toInt (p : MachineProvider) {now : Int64} (since : 0 ≤ now) (wait : WaitBody) :
    (p.deadline now wait).toInt =
      min (now.toInt + (toNanoseconds (p.duration wait)).toInt) timeMax.toInt := by
  rw [deadline_eq, add_toInt_since since]

section Conversion
variable {p q r : MachineProvider} {wait : WaitBody}

theorem deadline_exact (p : MachineProvider) {now : Int64} (since : 0 ≤ now)
    (fits : Representable (p.duration wait)) : (p.deadline now wait).toInt =
      min (now.toInt + (p.duration wait).toInt * 1000000) timeMax.toInt := by
  rw [deadline_toInt p since, (toNanoseconds_exact_iff _).mpr fits]

theorem Covers.representable (covers : p.Covers wait q) (fits : Representable (p.duration wait)) :
    Representable (q.duration wait) := by
  unfold Covers at covers
  unfold Representable at *
  omega

theorem deadline_monotone (lower : Representable (q.duration wait))
    (upper : Representable (r.duration wait)) (le : q.duration wait ≤ r.duration wait)
    {now : Int64} (since : 0 ≤ now) : q.deadline now wait ≤ r.deadline now wait := by
  have converted := toNanoseconds_monotone lower upper le
  rw [Int64.le_iff_toInt_le, deadline_toInt q since, deadline_toInt r since]
  omega

/-- An overlong duration wraps to a shorter one, already at the epoch. -/
theorem KeepsTimeouts.upper (keeps : p.KeepsTimeouts) (wait : WaitBody) :
    (p.duration wait).toInt ≤ 9223372036854 := by
  have atEpoch := keeps.notEarly wait 0 (by decide)
  rw [deadline_toInt p (by decide), toNanoseconds_toInt, Int64.toInt_zero, timeMax_toInt] at atEpoch
  omega

/-- The first negative duration that wraps ends after a wait of no duration. -/
theorem KeepsTimeouts.lower (keeps : p.KeepsTimeouts) (wait : WaitBody) :
    -9223372036854 ≤ (p.duration wait).toInt := by
  by_cases below : (p.duration wait).toInt < -9223372036854
  · let wrapping := escalating (-9223372036855) (-9223372036855) (-9223372036855)
    let immediate := escalating 0 0 0
    have first : wrapping.duration wait = -9223372036855 := by cases wait <;> rfl
    have second : immediate.duration wait = 0 := by cases wait <;> rfl
    have firstInt : (wrapping.duration wait).toInt = -9223372036855 := by rw [first]; rfl
    have secondInt : (immediate.duration wait).toInt = 0 := by rw [second]; rfl
    have earlier := keeps.monotone wait wrapping immediate
      (by rw [Covers, firstInt]; omega) (by rw [Covers, secondInt]; omega)
      (by rw [first, second]; decide) 0 (by decide)
    rw [deadline_eq, deadline_eq, first, second] at earlier
    exact absurd earlier (by decide)
  · omega

end Conversion

/-- Every duration keeps its meaning exactly when the conversion has room for
all three. -/
theorem keepsTimeouts_iff (p : MachineProvider) :
    p.KeepsTimeouts ↔ ∀ wait, Representable (p.duration wait) := by
  constructor
  · exact fun keeps wait => ⟨keeps.lower wait, keeps.upper wait⟩
  · intro fits
    refine ⟨fun wait now since => ?_, fun wait q r left right le now since => ?_⟩
    · exact Int.le_of_eq (deadline_exact p since (fits wait)).symm
    · exact deadline_monotone (left.representable (fits wait)) (right.representable (fits wait)) le since

/-- The wait for `milliseconds::max()` is over a millisecond before it starts. -/
theorem milliseconds_max_is_shortened :
    ((single Int64.maxValue).arm 5000000).expiry = 4000000 ∧
      ¬ (single Int64.maxValue).KeepsTimeouts := by
  refine ⟨by decide, fun keeps => ?_⟩
  exact absurd (keeps.upper .arm) (by decide)

end MachineProvider

/-- A call of a constructor, with its milliseconds. -/
inductive Timeouts where
  | escalating (ttTotal ttPartial ttTerminal : Int64)
  | single (ttTotal : Int64)
  deriving DecidableEq, Repr

namespace Timeouts

def build : Timeouts → MachineProvider
  | .escalating ttTotal ttPartial ttTerminal => .escalating ttTotal ttPartial ttTerminal
  | .single ttTotal => .single ttTotal

/-- In exact time, with the nanoseconds that the conversion makes. -/
def converted : Timeouts → Construction
  | .escalating ttTotal ttPartial ttTerminal => .escalating (toNanoseconds ttTotal).toInt
      (toNanoseconds ttPartial).toInt (toNanoseconds ttTerminal).toInt
  | .single ttTotal => .single (toNanoseconds ttTotal).toInt

/-- In exact time, with the nanoseconds that were asked for. -/
def configured : Timeouts → Construction
  | .escalating ttTotal ttPartial ttTerminal => .escalating (ttTotal.toInt * 1000000)
      (ttPartial.toInt * 1000000) (ttTerminal.toInt * 1000000)
  | .single ttTotal => .single (ttTotal.toInt * 1000000)

/-- The conversion has room for every duration. -/
def Fits : Timeouts → Prop
  | .escalating ttTotal ttPartial ttTerminal =>
    Representable ttTotal ∧ Representable ttPartial ∧ Representable ttTerminal
  | .single ttTotal => Representable ttTotal

instance (u : Timeouts) : Decidable u.Fits := by
  cases u <;> simp only [Fits] <;> infer_instance

theorem Fits.converted {u : Timeouts} (fits : u.Fits) : u.converted = u.configured := by
  cases u with
  | escalating ttTotal ttPartial ttTerminal =>
    obtain ⟨total, partially, terminal⟩ := fits
    simp only [Timeouts.converted, configured, (toNanoseconds_exact_iff _).mpr total,
      (toNanoseconds_exact_iff _).mpr partially, (toNanoseconds_exact_iff _).mpr terminal]
  | single ttTotal => simp only [Timeouts.converted, configured, (toNanoseconds_exact_iff _).mpr fits]

end Timeouts

section Refinement
variable {τ σ ι : Type} [SteadyTimer τ (WaitHandler Provenance)]
  [CancellationSlots σ (Slot ι) (Callback ι)]

/-- The provider of exact time whose durations, in nanoseconds, are what the
conversion makes of those of `m`. -/
structure Represents (m : MachineProvider) (p : TimeoutProvider τ ι) : Prop where
  ttTotal : p.ttTotal = (toNanoseconds m.ttTotal).toInt
  ttPartial : p.ttPartial = (toNanoseconds m.ttPartial).toInt
  ttTerminal : p.ttTerminal = (toNanoseconds m.ttTerminal).toInt
  emitAll : p.emitAll = m.emitAll

theorem Timeouts.represents (u : Timeouts) :
    Represents u.build (u.converted.build : TimeoutProvider τ ι) := by
  cases u with
  | escalating => exact ⟨rfl, rfl, rfl, rfl⟩
  | single =>
    have zero : (toNanoseconds 0).toInt = 0 := by decide
    exact ⟨rfl, zero.symm, zero.symm, rfl⟩

namespace TimeoutProvider

/-- The expiry that a function leaves, in exact time. -/
def deadline (self : ι) (p : TimeoutProvider τ ι) (slots : σ) (now : Int) (tag : Provenance) :
    WaitBody → Option Int
  | .arm => expiry (p.arm self slots now tag).1.tim
  | .fireTotal => expiry (p.finishFire p.fireTotal now tag).tim
  | .firePartial => expiry (p.finishFire p.firePartial now tag).tim

end TimeoutProvider

/-- The machine clamps the exact expiry and changes nothing else about it. -/
theorem Represents.deadline {m : MachineProvider} {p : TimeoutProvider τ ι}
    (represents : Represents m p) (self : ι) (slots : σ) {now : Int64} (since : 0 ≤ now)
    (tag : Provenance) (wait : WaitBody) :
    ∃ e, p.deadline self slots now.toInt tag wait = some e ∧
      (m.deadline now wait).toInt = min e timeMax.toInt := by
  refine ⟨now.toInt + (toNanoseconds (m.duration wait)).toInt, ?_, m.deadline_toInt since wait⟩
  cases wait with
  | arm => simp [TimeoutProvider.deadline, TimeoutProvider.arm, represents.ttTotal, MachineProvider.duration]
  | fireTotal =>
    simp [TimeoutProvider.deadline, TimeoutProvider.finishFire, TimeoutProvider.fireTotal,
      represents.ttPartial, MachineProvider.duration]
  | firePartial =>
    simp [TimeoutProvider.deadline, TimeoutProvider.finishFire, TimeoutProvider.firePartial,
      represents.ttTerminal, MachineProvider.duration]

/-- Until the clock has come to its last time point, the clamped expiry is due
exactly when the exact one is. -/
theorem Represents.due_iff {m : MachineProvider} {p : TimeoutProvider τ ι}
    (represents : Represents m p) (self : ι) (slots : σ) {now : Int64} (since : 0 ≤ now)
    (tag : Provenance) (wait : WaitBody) {later : Int} (before : later < timeMax.toInt) :
    ∃ e, p.deadline self slots now.toInt tag wait = some e ∧
      ((m.deadline now wait).toInt ≤ later ↔ e ≤ later) := by
  obtain ⟨e, exact', clamped⟩ := represents.deadline self slots since tag wait
  refine ⟨e, exact', ?_⟩
  rw [clamped]
  omega

variable [DecidableEq ι]

/-- The reactor finds a wait due as soon as it is armed exactly when its
duration is not positive. -/
theorem Session.start_due_iff (self : ι) (s : Session τ σ ι) (slot : Option (Slot ι))
    (alive : s.alive = true) :
    ((s.start self slot).step self .expire).isSome ↔ s.provider.ttTotal ≤ 0 := by
  have set : expiry (s.start self slot).provider.tim = some (s.now + s.provider.ttTotal) := by
    simp only [start_provider, expiry_asyncWait, expiry_expiresAfter]
  have kept : (s.start self slot).alive = true := alive
  have time : (s.start self slot).now = s.now := rfl
  simp only [step, set, kept, time, true_and]
  split
  · rename_i due
    exact ⟨fun _ => by omega, fun _ => rfl⟩
  · rename_i waits
    exact ⟨fun started => absurd started Bool.false_ne_true, fun notPositive => absurd (by omega) waits⟩

/-- Asking for no timeout makes the escalation begin at once. -/
theorem Session.milliseconds_max_due (self : ι) (s : Session τ σ ι) (slot : Option (Slot ι))
    (alive : s.alive = true) {m : MachineProvider} (represents : Represents m s.provider)
    (unlimited : m.ttTotal = Int64.maxValue) : ((s.start self slot).step self .expire).isSome := by
  rw [Session.start_due_iff self s slot alive, represents.ttTotal, unlimited]
  decide

end Refinement
end BoostTest.Timeout
