/-! Guarded runs of a partial step function. `admits` holds of every step in
the state before it, so a discipline of the callers and a condition on the
inputs are both stated where a step is taken. Invariants are proved of one
step and lifted to every run. -/
namespace BoostTest.Transition
variable {S I : Type}

inductive Run (step : S → I → Option S) (admits : S → I → Prop) : S → List I → S → Prop where
  | refl (s) : Run step admits s [] s
  | next : admits s i → step s i = some t → Run step admits t rest u →
      Run step admits s (i :: rest) u

/-- Executable form: the run stops at an input that is not admitted or has no step. -/
def execute (step : S → I → Option S) (admits : S → I → Prop) [∀ s i, Decidable (admits s i)] :
    S → List I → Option S
  | s, [] => some s
  | s, i :: rest => if admits s i then (step s i).bind (execute step admits · rest) else none

namespace Run
variable {step : S → I → Option S} {admits : S → I → Prop}

theorem trans (first : Run step admits s is t) (second : Run step admits t js u) :
    Run step admits s (is ++ js) u := by
  induction first with
  | refl => exact second
  | next allowed stepped _ ih => exact .next allowed stepped (ih second)

theorem single (allowed : admits s i) (stepped : step s i = some t) : Run step admits s [i] t :=
  .next allowed stepped (.refl t)

/-- A guard that asks for less admits the same run. -/
theorem weaken {looser : S → I → Prop} (implies : ∀ {s i}, admits s i → looser s i)
    (run : Run step admits s is t) : Run step looser s is t := by
  induction run with
  | refl => exact .refl _
  | next allowed stepped _ ih => exact .next (implies allowed) stepped ih

theorem invariant {P : S → Prop}
    (preserves : ∀ {s i t}, P s → admits s i → step s i = some t → P t)
    (run : Run step admits s is t) (initial : P s) : P t := by
  induction run with
  | refl => exact initial
  | next allowed stepped _ ih => exact ih (preserves initial allowed stepped)

/-- Where a step shows, from a property of the state after it, that it met a
finer guard and that the property held before, so does the whole run. -/
theorem backward {P Good : S → Prop} {finer : S → I → Prop}
    (preserves : ∀ {s i t}, P s → admits s i → step s i = some t → P t)
    (back : ∀ {s i t}, P s → admits s i → step s i = some t → Good t → finer s i ∧ Good s)
    (run : Run step admits s is t) (initial : P s) (good : Good t) : Run step finer s is t ∧ Good s := by
  induction run with
  | refl => exact ⟨.refl _, good⟩
  | next allowed stepped _ ih =>
    obtain ⟨rest, middle⟩ := ih (preserves initial allowed stepped) good
    obtain ⟨met, before⟩ := back initial allowed stepped middle
    exact ⟨.next met stepped rest, before⟩

/-- A potential that no step raises and that `costly` steps lower bounds the
number of costly steps of every run. -/
theorem potential {P : S → Prop} (measure : S → Nat) (costly : I → Bool)
    (preserves : ∀ {s i t}, P s → admits s i → step s i = some t → P t)
    (lowers : ∀ {s i t}, P s → admits s i → step s i = some t →
      measure t + (if costly i then 1 else 0) ≤ measure s)
    (run : Run step admits s is t) (initial : P s) : measure t + is.countP costly ≤ measure s := by
  induction run with
  | refl => simp
  | @next s i t rest u allowed stepped _ ih =>
    have tail := ih (preserves initial allowed stepped)
    have head := lowers initial allowed stepped
    rw [List.countP_cons]
    omega

/-- A forward simulation: each step of one system is a run of another. -/
theorem simulates {T J : Type} {step' : T → J → Option T} {admits' : T → J → Prop} {P : S → Prop}
    (view : S → T)
    (preserves : ∀ {s i t}, P s → admits s i → step s i = some t → P t)
    (simulated : ∀ {s i t}, P s → admits s i → step s i = some t →
      ∃ js, Run step' admits' (view s) js (view t))
    (run : Run step admits s is t) (initial : P s) : ∃ js, Run step' admits' (view s) js (view t) := by
  induction run with
  | refl => exact ⟨[], .refl _⟩
  | next allowed stepped _ ih =>
    obtain ⟨first, head⟩ := simulated initial allowed stepped
    obtain ⟨rest, tail⟩ := ih (preserves initial allowed stepped)
    exact ⟨first ++ rest, head.trans tail⟩

theorem of_execute [∀ s i, Decidable (admits s i)]
    (executed : execute step admits s is = some t) : Run step admits s is t := by
  induction is generalizing s with
  | nil =>
    cases executed
    exact .refl _
  | cons i rest ih =>
    simp only [execute] at executed
    split at executed
    · obtain ⟨middle, stepped, executed⟩ := Option.bind_eq_some_iff.mp executed
      exact .next ‹_› stepped (ih executed)
    · contradiction

/-- A concrete run, found by evaluation. -/
theorem exists_of_execute [∀ s i, Decidable (admits s i)] {Q : S → Prop}
    (executed : ∃ t, execute step admits s is = some t ∧ Q t) : ∃ t, Run step admits s is t ∧ Q t := by
  obtain ⟨t, executed, reached⟩ := executed
  exact ⟨t, of_execute executed, reached⟩

/-- A theorem about all runs, at a concrete one. -/
theorem instance_of_execute [∀ s i, Decidable (admits s i)] {P Q : S → Prop}
    (executed : ∃ t, execute step admits s is = some t ∧ Q t)
    (holds : ∀ t, Run step admits s is t → Q t → P t) : ∃ t, Run step admits s is t ∧ Q t ∧ P t := by
  obtain ⟨t, path, reached⟩ := exists_of_execute executed
  exact ⟨t, path, reached, holds t path reached⟩

end Run
end BoostTest.Transition
