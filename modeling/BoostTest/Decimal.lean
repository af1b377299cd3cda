/-! The conversions `%d` and `%02d` of `printf`, as lists of characters. -/
namespace BoostTest.Decimal

def print : Int → List Char
  | .ofNat n => Nat.toDigits 10 n
  | .negSucc n => '-' :: Nat.toDigits 10 (n + 1)

def print02 : Int → List Char
  | .ofNat n => List.replicate (2 - (Nat.toDigits 10 n).length) '0' ++ Nat.toDigits 10 n
  | .negSucc n => '-' :: Nat.toDigits 10 (n + 1)

example : print (-7) ++ print02 8 ++ print02 31 = ['-', '7', '0', '8', '3', '1'] := by decide

theorem toDigits_injective {a b : Nat} (same : Nat.toDigits 10 a = Nat.toDigits 10 b) : a = b := by
  have values := congrArg (fun digits => Nat.ofDigitChars 10 digits 0) same
  simpa using values

theorem toDigits_no_sign (n : Nat) : '-' ∉ Nat.toDigits 10 n := by
  intro member
  have digit := Nat.isDigit_of_mem_toDigits (by decide) (by decide) member
  exact absurd digit (by decide)

theorem print_injective {a b : Int} (same : print a = print b) : a = b := by
  have signed : ∀ m n : Nat, Nat.toDigits 10 m ≠ '-' :: Nat.toDigits 10 n := fun m n same =>
    toDigits_no_sign m (same ▸ List.mem_cons_self)
  cases a with
  | ofNat m =>
    cases b with
    | ofNat n => rw [toDigits_injective same]
    | negSucc n => exact absurd same (signed m _)
  | negSucc m =>
    cases b with
    | ofNat n => exact absurd same.symm (signed n _)
    | negSucc n => rw [Nat.succ.inj (toDigits_injective (List.cons.inj same).2)]

theorem print_length {n : Int} (lower : -1000000000000 < n) (upper : n < 1000000000000) :
    (print n).length ≤ 13 := by
  have digits : ∀ n : Nat, n < 1000000000000 → (Nat.toDigits 10 n).length ≤ 12 := fun n small =>
    (Nat.length_toDigits_le_iff (by decide) (by decide)).mpr small
  cases n with
  | ofNat n => exact Nat.le_succ_of_le (digits n (Int.ofNat_lt.mp upper))
  | negSucc n => exact Nat.succ_le_succ (digits (n + 1) (by omega))

/-- The numbers that `%02d` prints with two digits. -/
def TwoDigits (n : Int) : Prop := 0 ≤ n ∧ n < 100

theorem print02_length {n : Int} (field : TwoDigits n) : (print02 n).length = 2 := by
  obtain ⟨nonneg, small⟩ := field
  cases n with
  | ofNat n =>
    have short := (Nat.length_toDigits_le_iff (b := 10) (n := n) (k := 2) (by decide) (by decide)).mpr
      (Int.ofNat_lt.mp small)
    simp only [print02, List.length_append, List.length_replicate]
    omega
  | negSucc n => omega

theorem print02_injective {a b : Int} (left : 0 ≤ a) (right : 0 ≤ b)
    (same : print02 a = print02 b) : a = b := by
  cases a with
  | negSucc m => omega
  | ofNat m =>
    cases b with
    | negSucc n => omega
    | ofNat n =>
      have values := congrArg (fun digits => Nat.ofDigitChars 10 digits 0) same
      simp only [print02, Nat.ofDigitChars_append, Nat.ofDigitChars_replicate_zero, Nat.mul_zero,
        Nat.ofDigitChars_ten_toDigits] at values
      rw [values]

/-- A two-digit field can be read off the front of a text. -/
theorem print02_append {a b : Int} {s t : List Char} (left : TwoDigits a) (right : TwoDigits b)
    (same : print02 a ++ s = print02 b ++ t) : a = b ∧ s = t := by
  have widths := (print02_length left).trans (print02_length right).symm
  obtain ⟨fields, rest⟩ := List.append_inj same widths
  exact ⟨print02_injective left.1 right.1 fields, rest⟩

end BoostTest.Decimal
