/-! Durations and time points of a steady clock that counts nanoseconds since
its epoch in `int64_t`: the conversion of a duration from milliseconds, modulo
2^64, and the addition to a time point, which saturates. -/
namespace BoostTest.Chrono

def timeMax : Int64 := Int64.maxValue

def timeMin : Int64 := Int64.minValue

/-- The implicit conversion from `milliseconds` to `nanoseconds`. -/
def toNanoseconds (d : Int64) : Int64 := d * 1000000

/-- `add` of the time traits of a clock, called by `expires_after`. -/
def add (t d : Int64) : Int64 :=
  if 0 ≤ t then
    if timeMax - t < d then timeMax else t + d
  else
    if -(t - timeMin) > d then timeMin else t + d

/-- The milliseconds that have a number of nanoseconds. -/
def Representable (d : Int64) : Prop := -9223372036854 ≤ d.toInt ∧ d.toInt ≤ 9223372036854

instance (d : Int64) : Decidable (Representable d) :=
  inferInstanceAs (Decidable (-9223372036854 ≤ d.toInt ∧ d.toInt ≤ 9223372036854))

theorem toInt_bounds (d : Int64) :
    -9223372036854775808 ≤ d.toInt ∧ d.toInt ≤ 9223372036854775807 :=
  ⟨d.minValue_le_toInt, d.toInt_le⟩

@[simp] theorem timeMax_toInt : timeMax.toInt = 9223372036854775807 := rfl

theorem toNanoseconds_toInt (d : Int64) : (toNanoseconds d).toInt =
    (d.toInt * 1000000 + 9223372036854775808) % 18446744073709551616 - 9223372036854775808 := by
  have product : (toNanoseconds d).toInt = (d.toInt * 1000000).bmod 18446744073709551616 :=
    Int64.toInt_mul d 1000000
  rw [product, Int.bmod_def]
  split <;> omega

/-- The conversion is exact on the milliseconds that fit, and nowhere else. -/
theorem toNanoseconds_exact_iff (d : Int64) :
    (toNanoseconds d).toInt = d.toInt * 1000000 ↔ Representable d := by
  rw [toNanoseconds_toInt, Representable]
  omega

theorem toNanoseconds_monotone {d e : Int64} (lower : Representable d) (upper : Representable e)
    (le : d ≤ e) : (toNanoseconds d).toInt ≤ (toNanoseconds e).toInt := by
  rw [Int64.le_iff_toInt_le] at le
  rw [(toNanoseconds_exact_iff d).mpr lower, (toNanoseconds_exact_iff e).mpr upper]
  omega

theorem sub_toInt {t d : Int64} (lower : -9223372036854775808 ≤ t.toInt - d.toInt)
    (upper : t.toInt - d.toInt ≤ 9223372036854775807) : (t - d).toInt = t.toInt - d.toInt := by
  rw [Int64.toInt_sub]
  exact Int.bmod_eq_of_le (by omega) (by omega)

theorem plus_toInt {t d : Int64} (lower : -9223372036854775808 ≤ t.toInt + d.toInt)
    (upper : t.toInt + d.toInt ≤ 9223372036854775807) : (t + d).toInt = t.toInt + d.toInt := by
  rw [Int64.toInt_add]
  exact Int.bmod_eq_of_le (by omega) (by omega)

/-- From the epoch on the sum is the exact one up to the greatest time point. -/
theorem add_toInt_since {t : Int64} (since : 0 ≤ t) (d : Int64) :
    (add t d).toInt = min (t.toInt + d.toInt) timeMax.toInt := by
  have time := toInt_bounds t
  have duration := toInt_bounds d
  have nonnegative : 0 ≤ t.toInt := Int64.le_iff_toInt_le.mp since
  have room : (timeMax - t).toInt = timeMax.toInt - t.toInt :=
    sub_toInt (by rw [timeMax_toInt]; omega) (by rw [timeMax_toInt]; omega)
  rw [add, if_pos since]
  split
  · rename_i beyond
    rw [Int64.lt_iff_toInt_lt, room] at beyond
    omega
  · rename_i fits
    rw [Int64.lt_iff_toInt_lt, room, timeMax_toInt] at fits
    rw [plus_toInt (by omega) (by omega), timeMax_toInt]
    omega

end BoostTest.Chrono
