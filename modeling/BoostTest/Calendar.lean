/-! The broken-down time of a number of seconds since the start of 1970, in the
proleptic Gregorian calendar. Days are counted from the first of March 2000, so
that leap days end years, and split into cycles of 400, 100, 4 and 1 years. -/
namespace BoostTest.Calendar

/-- `struct tm` without the weekday, the day of the year and the daylight flag. -/
structure Tm where
  tmSec : Int
  tmMin : Int
  tmHour : Int
  tmMday : Int
  tmMon : Int
  tmYear : Int
  deriving DecidableEq, Repr

/-- The year from March on and the day of it. -/
def marchYear (days : Int) : Int × Int :=
  let day := days % 146097
  let centuries := min (day / 36524) 3
  let day := day - centuries * 36524
  let leaps := min (day / 1461) 24
  let day := day - leaps * 1461
  let years := min (day / 365) 3
  (2000 + days / 146097 * 400 + centuries * 100 + leaps * 4 + years, day - years * 365)

/-- Year, month from zero and day of the month of a number of days since the
start of 1970. -/
def civil (days : Int) : Int × Int × Int :=
  let (year, day) := marchYear (days - 11017)
  let month := (5 * day + 2) / 153
  let mday := day - (153 * month + 2) / 5 + 1
  if month < 10 then (year, month + 2, mday) else (year + 1, month - 10, mday)

def broken (seconds : Int) : Tm :=
  let (year, month, mday) := civil (seconds / 86400)
  { tmSec := seconds % 60
    tmMin := seconds / 60 % 60
    tmHour := seconds / 3600 % 24
    tmMday := mday
    tmMon := month
    tmYear := year - 1900 }

example : broken 951782400 = ⟨0, 0, 0, 29, 1, 100⟩ := by decide

theorem marchYear_day (days : Int) : 0 ≤ (marchYear days).2 ∧ (marchYear days).2 ≤ 365 := by
  simp only [marchYear]
  omega

theorem marchYear_year (days : Int) : 2000 + days / 146097 * 400 ≤ (marchYear days).1 ∧
    (marchYear days).1 < 2400 + days / 146097 * 400 := by
  simp only [marchYear]
  omega

/-- The first of March of a year, in days since that of 2000. -/
def marchStart (year : Int) : Int :=
  (year - 2000) * 365 + (year - 2000) / 4 - (year - 2000) / 100 + (year - 2000) / 400

/-- The split into cycles agrees with the rule for leap years. -/
theorem marchYear_start (days : Int) :
    days = marchStart (marchYear days).1 + (marchYear days).2 := by
  simp only [marchStart, marchYear]
  generalize cycle : days / 146097 = q
  generalize inCycle : days % 146097 = r
  generalize century : min (r / 36524) 3 = c
  generalize inCentury : r - c * 36524 = r'
  generalize leap : min (r' / 1461) 24 = l
  generalize inLeap : r' - l * 1461 = r''
  generalize year : min (r'' / 365) 3 = y
  have centuries : 0 ≤ c ∧ c ≤ 3 ∧ 0 ≤ r' ∧ r' ≤ 36524 := by omega
  have leaps : 0 ≤ l ∧ l ≤ 24 ∧ 0 ≤ r'' ∧ r'' ≤ 1461 := by omega
  have years : 0 ≤ y ∧ y ≤ 3 := by omega
  have four : (2000 + q * 400 + c * 100 + l * 4 + y - 2000) / 4 = q * 100 + c * 25 + l := by omega
  have hundred : (2000 + q * 400 + c * 100 + l * 4 + y - 2000) / 100 = q * 4 + c := by omega
  have cycles : (2000 + q * 400 + c * 100 + l * 4 + y - 2000) / 400 = q := by omega
  rw [four, hundred, cycles]
  omega

theorem marchYear_injective {a b : Int} (same : marchYear a = marchYear b) : a = b := by
  rw [marchYear_start a, same, ← marchYear_start]

theorem civil_ranges (days : Int) : 0 ≤ (civil days).2.1 ∧ (civil days).2.1 ≤ 11 ∧
    1 ≤ (civil days).2.2 ∧ (civil days).2.2 ≤ 31 := by
  have range := marchYear_day (days - 11017)
  simp only [civil]
  split <;> dsimp only <;> omega

theorem civil_injective {a b : Int} (same : civil a = civil b) : a = b := by
  have first := marchYear_day (a - 11017)
  have second := marchYear_day (b - 11017)
  have years : marchYear (a - 11017) = marchYear (b - 11017) := by
    simp only [civil] at same
    apply Prod.ext
    · split at same <;> split at same <;> simp only [Prod.mk.injEq] at same <;> omega
    · split at same <;> split at same <;> simp only [Prod.mk.injEq] at same <;> omega
  have shifted := marchYear_injective years
  omega

/-- The years of the seconds that fit into 64 bits. -/
theorem broken_year {seconds : Int} (lower : -9223372036854775808 ≤ seconds)
    (upper : seconds < 9223372036854775808) : -1000000000000 < 1900 + (broken seconds).tmYear ∧
      1900 + (broken seconds).tmYear < 1000000000000 := by
  have march := marchYear_year (seconds / 86400 - 11017)
  have year : (broken seconds).tmYear + 1900 = (marchYear (seconds / 86400 - 11017)).1 ∨
      (broken seconds).tmYear + 1900 = (marchYear (seconds / 86400 - 11017)).1 + 1 := by
    simp only [broken, civil]
    split <;> dsimp only <;> omega
  omega

/-- Every field but the year takes two decimal digits at most. -/
structure Tm.InRange (tm : Tm) : Prop where
  tmSec : 0 ≤ tm.tmSec ∧ tm.tmSec < 60
  tmMin : 0 ≤ tm.tmMin ∧ tm.tmMin < 60
  tmHour : 0 ≤ tm.tmHour ∧ tm.tmHour < 24
  tmMday : 1 ≤ tm.tmMday ∧ tm.tmMday ≤ 31
  tmMon : 0 ≤ tm.tmMon ∧ tm.tmMon ≤ 11

theorem broken_inRange (seconds : Int) : (broken seconds).InRange := by
  obtain ⟨january, december, first, last⟩ := civil_ranges (seconds / 86400)
  refine ⟨?_, ?_, ?_, ⟨first, last⟩, ⟨january, december⟩⟩
  all_goals
    simp only [broken]
    omega

/-- No two seconds have the same broken-down time. -/
theorem broken_injective {a b : Int} (same : broken a = broken b) : a = b := by
  simp only [broken, Tm.mk.injEq] at same
  obtain ⟨sec, min, hour, mday, mon, year⟩ := same
  have days : a / 86400 = b / 86400 := by
    apply civil_injective
    exact Prod.ext (by omega) (Prod.ext mon mday)
  omega

end BoostTest.Calendar
