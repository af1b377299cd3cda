import Mathlib.Data.List.Nodup

/-! Logs whose entries may name one earlier entry as their cause. `Grounded`
logs are built one entry at a time; uniqueness of causes turns them into an
injective matching of entries with earlier ones. -/
namespace BoostTest.Trace
variable {E : Type}

structure Grounded (cause : E → Option Nat) (related : E → E → Prop) (log : List E) : Prop where
  earlier : ∀ i e k, log[i]? = some e → cause e = some k →
    k < i ∧ ∃ c, log[k]? = some c ∧ related c e
  unique : (log.filterMap cause).Nodup

theorem getElem?_snoc {log : List E} {i : Nat} (present : (log ++ [last])[i]? = some e) :
    log[i]? = some e ∨ i = log.length ∧ e = last := by
  rcases Nat.lt_trichotomy i log.length with earlier | same | later
  · rw [List.getElem?_append_left earlier] at present
    exact .inl present
  · subst same
    exact .inr ⟨rfl, by simpa using present.symm⟩
  · rw [List.getElem?_eq_none (by simp; omega)] at present
    contradiction

theorem getElem?_append_some {log more : List E} {i : Nat} (present : log[i]? = some e) :
    (log ++ more)[i]? = some e := by
  have bound := (List.getElem?_eq_some_iff.mp present).1
  rw [List.getElem?_append_left bound, present]

theorem index_unique {log : List E} {f : E → Option Nat} {i j : Nat} (unique : (log.filterMap f).Nodup)
    (first : log[i]? = some a) (second : log[j]? = some b)
    (fa : f a = some k) (fb : f b = some k) : i = j := by
  have apart : ∀ {i j : Nat} {a b}, log[i]? = some a → log[j]? = some b →
      f a = some k → f b = some k → ¬ i < j := by
    intro i j a b first second fa fb before
    have pairs := List.pairwise_filterMap.mp unique
    obtain ⟨hi, rfl⟩ := List.getElem?_eq_some_iff.mp first
    obtain ⟨hj, rfl⟩ := List.getElem?_eq_some_iff.mp second
    exact List.pairwise_iff_getElem.mp pairs i j hi hj before k fa k fb rfl
  have left := apart first second fa fb
  have right := apart second first fb fa
  omega

namespace Grounded
variable {cause : E → Option Nat} {related : E → E → Prop} {log : List E}

theorem nil : Grounded cause related [] :=
  ⟨by simp, by simp⟩

/-- An entry without a cause may always be added. -/
theorem snoc_plain (grounded : Grounded cause related log) (plain : cause e = none) :
    Grounded cause related (log ++ [e]) := by
  constructor
  · intro i e' k present named
    rcases getElem?_snoc present with present | ⟨rfl, rfl⟩
    · obtain ⟨before, c, found, holds⟩ := grounded.earlier i e' k present named
      exact ⟨before, c, getElem?_append_some found, holds⟩
    · rw [plain] at named
      contradiction
  · simpa [List.filterMap_append, plain] using grounded.unique

theorem append_plain (grounded : Grounded cause related log) {more : List E}
    (plain : ∀ e ∈ more, cause e = none) : Grounded cause related (log ++ more) := by
  induction more generalizing log with
  | nil => simpa using grounded
  | cons e rest ih =>
    rw [List.append_cons]
    exact ih (grounded.snoc_plain (plain e List.mem_cons_self))
      fun e member => plain e (List.mem_cons_of_mem _ member)

theorem snoc (grounded : Grounded cause related log) (named : cause e = some k)
    (found : log[k]? = some c) (holds : related c e) (unspent : k ∉ log.filterMap cause) :
    Grounded cause related (log ++ [e]) := by
  constructor
  · intro i e' k' present named'
    rcases getElem?_snoc present with present | ⟨rfl, rfl⟩
    · obtain ⟨before, c, found, holds⟩ := grounded.earlier i e' k' present named'
      exact ⟨before, c, getElem?_append_some found, holds⟩
    · cases Option.some.inj (named.symm.trans named')
      exact ⟨(List.getElem?_eq_some_iff.mp found).1, c, getElem?_append_some found, holds⟩
  · rw [List.filterMap_append]
    simp only [List.filterMap_cons, named, List.filterMap_nil]
    exact List.nodup_append.mpr ⟨grounded.unique, by simp, by
      intro a member b last same
      rw [List.mem_singleton] at last
      exact unspent (last ▸ same ▸ member)⟩

/-- Each entry with a cause gets an earlier entry of its own. -/
theorem matching (grounded : Grounded cause related log) :
    ∃ predecessor : Nat → Nat,
      (∀ i e, log[i]? = some e → (cause e).isSome →
        predecessor i < i ∧ ∃ c, log[predecessor i]? = some c ∧ related c e) ∧
      ∀ i j a b, log[i]? = some a → log[j]? = some b → (cause a).isSome → (cause b).isSome →
        predecessor i = predecessor j → i = j := by
  refine ⟨fun i => ((log[i]?).bind cause).getD 0, ?_, ?_⟩
  · intro i e present named
    obtain ⟨k, named⟩ := Option.isSome_iff_exists.mp named
    simpa only [present, Option.bind_some, named, Option.getD_some] using
      grounded.earlier i e k present named
  · intro i j a b first second fa fb same
    obtain ⟨k, fa⟩ := Option.isSome_iff_exists.mp fa
    obtain ⟨k', fb⟩ := Option.isSome_iff_exists.mp fb
    simp only [first, second, Option.bind_some, fa, fb, Option.getD_some] at same
    subst same
    exact index_unique grounded.unique first second fa fb

end Grounded
end BoostTest.Trace
