/-! Cancellation signals as Asio documents them. A signal owns at most one
handler; a slot names its signal, so a slot is modeled by the signal it is
connected to and an unconnected slot by `none`. Emission calls the installed
handler, which may emit on another signal in turn. Signal lifetimes and
concurrent emission are not modeled. -/
namespace BoostTest.Asio

/-- `cancellation_type` is a bit mask; its five names are those Asio defines. -/
structure CancellationType where
  mask : UInt32
  deriving DecidableEq, Repr

namespace CancellationType
def typeNone : CancellationType := ⟨0⟩
def typeTerminal : CancellationType := ⟨1⟩
def typePartial : CancellationType := ⟨2⟩
def typeTotal : CancellationType := ⟨4⟩
def typeAll : CancellationType := ⟨0xFFFFFFFF⟩
end CancellationType

/-- `σ` holds the handlers of all signals, `F` is the type of handlers. -/
class CancellationSlots (σ : Type) (Slot F : outParam Type) where
  handler : σ → Slot → Option F
  assign : σ → Slot → F → σ
  clear : σ → Slot → σ
  handler_assign : ∀ s slot f, handler (assign s slot f) slot = some f
  handler_assign_ne : ∀ s {slot other} f, other ≠ slot →
    handler (assign s slot f) other = handler s other
  handler_clear : ∀ s slot, handler (clear s slot) slot = none
  handler_clear_ne : ∀ s {slot other}, other ≠ slot →
    handler (clear s slot) other = handler s other

namespace CancellationSlots
attribute [simp] handler_assign handler_clear

variable {σ Slot F R C : Type} [CancellationSlots σ Slot F]

theorem handler_assign_eq [DecidableEq Slot] (s : σ) (slot other : Slot) (f : F) :
    handler (assign s slot f) other = if slot = other then some f else handler s other := by
  split
  · rename_i same
    rw [← same, handler_assign]
  · rename_i different
    exact handler_assign_ne s f (Ne.symm different)

theorem handler_clear_eq [DecidableEq Slot] (s : σ) (slot other : Slot) :
    handler (clear s slot) other = if slot = other then none else handler s other := by
  split
  · rename_i same
    rw [← same, handler_clear]
  · rename_i different
    exact handler_clear_ne s (Ne.symm different)

/-- Following one emission. A handler either emits on another signal or is a
receiver; `none` means that the chain of handlers exceeds the fuel. -/
def emit (invoke : F → C → (Slot × C) ⊕ (R × C)) : Nat → σ → Slot → C → Option (List (R × C))
  | 0, _, _, _ => none
  | fuel + 1, s, slot, c =>
    match handler s slot with
    | none => some []
    | some f =>
      match invoke f c with
      | .inl (next, c) => emit invoke fuel s next c
      | .inr received => some [received]

/-- The calls of receivers that one emission causes, in order. -/
def Emits (invoke : F → C → (Slot × C) ⊕ (R × C)) (s : σ) (slot : Slot) (c : C)
    (received : List (R × C)) : Prop :=
  ∃ fuel, emit invoke fuel s slot c = some received

/-- Every handler on the way from one signal to another passes the type on
unchanged. -/
inductive Leads (invoke : F → C → (Slot × C) ⊕ (R × C)) (s : σ) : Slot → Slot → Prop where
  | here : Leads invoke s target target
  | forward (installed : handler s slot = some f) (forwards : ∀ c, invoke f c = .inl (next, c))
      (rest : Leads invoke s next target) : Leads invoke s slot target

section Rules
variable {invoke : F → C → (Slot × C) ⊕ (R × C)} {s : σ} {slot : Slot} {c : C}

theorem emit_more (enough : emit invoke fuel s slot c = some received) :
    emit invoke (fuel + 1) s slot c = some received := by
  induction fuel generalizing slot c with
  | zero => simp [emit] at enough
  | succ fuel ih =>
    rw [emit] at enough ⊢
    split
    · simpa only [‹handler s slot = none›] using enough
    · rename_i f installed
      rw [installed] at enough
      dsimp only at enough ⊢
      split
      · rename_i next c' forwards
        rw [forwards] at enough
        exact ih enough
      · rename_i r receives
        simpa only [receives] using enough

theorem emit_mono (enough : emit invoke fuel s slot c = some received) (le : fuel ≤ more) :
    emit invoke more s slot c = some received := by
  induction le with
  | refl => exact enough
  | step _ ih => exact emit_more ih

theorem Emits.unique (first : Emits invoke s slot c a) (second : Emits invoke s slot c b) :
    a = b := by
  obtain ⟨n, first⟩ := first
  obtain ⟨m, second⟩ := second
  have left := emit_mono first (Nat.le_max_left n m)
  have right := emit_mono second (Nat.le_max_right n m)
  exact Option.some.inj (left.symm.trans right)

theorem Emits.empty (vacant : handler s slot = none) : Emits invoke s slot c [] :=
  ⟨1, by simp [emit, vacant]⟩

theorem Emits.receive (installed : handler s slot = some f)
    (receives : invoke f c = .inr received) : Emits invoke s slot c [received] :=
  ⟨1, by simp [emit, installed, receives]⟩

theorem Emits.forward (installed : handler s slot = some f)
    (forwards : invoke f c = .inl (next, c')) :
    Emits invoke s slot c received ↔ Emits invoke s next c' received := by
  constructor
  · rintro ⟨fuel, enough⟩
    cases fuel with
    | zero => simp [emit] at enough
    | succ fuel => exact ⟨fuel, by simpa only [emit, installed, forwards] using enough⟩
  · rintro ⟨fuel, enough⟩
    exact ⟨fuel + 1, by simpa only [emit, installed, forwards] using enough⟩

/-- What no signal in a set passes on, no emission on one of them delivers. -/
theorem Emits.confined {K : Slot → Prop} {P : R → Prop}
    (closed : ∀ {slot f c next c'}, K slot → handler s slot = some f →
      invoke f c = .inl (next, c') → K next)
    (receivers : ∀ {slot f c r c'}, K slot → handler s slot = some f →
      invoke f c = .inr (r, c') → P r)
    (inside : K slot) (emits : Emits invoke s slot c received) : ∀ call ∈ received, P call.1 := by
  obtain ⟨fuel, enough⟩ := emits
  induction fuel generalizing slot c with
  | zero => simp [emit] at enough
  | succ fuel ih =>
    rw [emit] at enough
    split at enough
    · cases enough
      simp
    · rename_i f installed
      split at enough
      · rename_i next c' forwards
        exact ih (closed inside installed forwards) enough
      · rename_i call receives
        obtain ⟨r, c'⟩ := call
        cases enough
        simp only [List.mem_singleton, forall_eq]
        exact receivers inside installed receives

theorem Leads.trans (first : Leads invoke s a b) (second : Leads invoke s b c') :
    Leads invoke s a c' := by
  induction first with
  | here => exact second
  | forward installed forwards _ ih => exact .forward installed forwards (ih second)

theorem Leads.emits (leads : Leads invoke s slot target) (emits : Emits invoke s target c received) :
    Emits invoke s slot c received := by
  induction leads with
  | here => exact emits
  | forward installed forwards _ ih => exact (Emits.forward installed (forwards c)).mpr (ih emits)

/-- A new handler at the end of the way leaves the way to it in place. -/
theorem Leads.assign [DecidableEq Slot] (leads : Leads invoke s slot target) (f : F) :
    Leads invoke (CancellationSlots.assign s target f) slot target := by
  induction leads with
  | here => exact .here
  | @forward slot g next target installed forwards _ ih =>
    by_cases reached : slot = target
    · subst reached
      exact .here
    · exact .forward ((handler_assign_ne s f reached).trans installed) forwards ih

end Rules
end CancellationSlots

/-- The laws are satisfiable by the table of installed handlers. -/
instance [DecidableEq Slot] : CancellationSlots (Slot → Option F) Slot F where
  handler s slot := s slot
  assign s slot f := fun other => if other = slot then some f else s other
  clear s slot := fun other => if other = slot then none else s other
  handler_assign _ _ _ := if_pos rfl
  handler_assign_ne _ _ _ _ different := if_neg different
  handler_clear _ _ := if_pos rfl
  handler_clear_ne _ _ _ different := if_neg different

end BoostTest.Asio
