import Mathlib.Data.Nat.Notation
import Mathlib.Data.Prod.Basic
import Mathlib.Tactic.SplitIfs

/-!
Days of the Gregorian calendar, counted from the first of January of the year 1. A
count is turned into a date by cycles of 400, 100, 4 and 1 years, and back.
-/
namespace Calendar

structure Ymd where
  year : ℕ
  month : ℕ
  day : ℕ
  deriving DecidableEq, Repr

def isLeap (year : ℕ) : Bool := year % 4 == 0 && (year % 100 != 0 || year % 400 == 0)

def daysBeforeYear (year : ℕ) : ℕ :=
  let y := year - 1
  y * 365 + y / 4 - y / 100 + y / 400

def daysBeforeMonth (leap : Bool) (month : ℕ) : ℕ :=
  [0, 31, 59, 90, 120, 151, 181, 212, 243, 273, 304, 334].getD (month - 1) 0 +
    if leap && 2 < month then 1 else 0

def daysInYear (leap : Bool) : ℕ := if leap then 366 else 365

def ordinal (d : Ymd) : ℕ :=
  daysBeforeYear d.year + daysBeforeMonth (isLeap d.year) d.month + d.day

/-- The month of a day of the year, counted from 0. The first guess is at most one too high. -/
def monthOf (leap : Bool) (n : ℕ) : ℕ :=
  let month := (n + 50) / 32
  if n < daysBeforeMonth leap month then month - 1 else month

def ofOrdinal (number : ℕ) : Ymd :=
  let n := number - 1
  let n400 := n / 146097
  let n := n % 146097
  let n100 := n / 36524
  let n := n % 36524
  let n4 := n / 1461
  let n := n % 1461
  let n1 := n / 365
  let n := n % 365
  let year := n400 * 400 + 1 + (n100 * 100 + n4 * 4 + n1)
  -- the last day of a cycle is the last one of the year before
  if n1 = 4 ∨ n100 = 4 then ⟨year - 1, 12, 31⟩
  else
    let leap := n1 == 3 && (n4 != 24 || n100 == 3)
    let month := monthOf leap n
    ⟨year, month, n - daysBeforeMonth leap month + 1⟩

example : ofOrdinal 1 = ⟨1, 1, 1⟩ := by decide
example : ofOrdinal 739675 = ⟨2026, 2, 28⟩ := by decide
example : ofOrdinal 3652059 = ⟨9999, 12, 31⟩ := by decide

theorem monthOf_fits : ∀ leap : Bool, ∀ n < daysInYear leap,
    let month := monthOf leap n
    1 ≤ month ∧ month ≤ 12 ∧ daysBeforeMonth leap month ≤ n ∧
      n - daysBeforeMonth leap month < 31 := by
  decide +kernel

/- The year and its place in the cycles, which also say whether it is a leap year. -/
section Cycles
variable {n400 n100 n4 n1 : ℕ} (few100 : n100 ≤ 3) (few4 : n4 ≤ 24) (few1 : n1 ≤ 3)
include few100 few4 few1

theorem daysBeforeYear_cycles :
    daysBeforeYear (n400 * 400 + 1 + (n100 * 100 + n4 * 4 + n1)) =
      n400 * 146097 + n100 * 36524 + n4 * 1461 + n1 * 365 := by
  simp only [daysBeforeYear]
  omega

theorem isLeap_cycles : isLeap (n400 * 400 + 1 + (n100 * 100 + n4 * 4 + n1)) =
    (n1 == 3 && (n4 != 24 || n100 == 3)) := by
  rw [Bool.eq_iff_iff]
  simp only [isLeap, Bool.and_eq_true, Bool.or_eq_true, beq_iff_eq, bne_iff_ne]
  omega

end Cycles

structure IsDate (d : Ymd) : Prop where
  year : 1 ≤ d.year
  month : 1 ≤ d.month ∧ d.month ≤ 12
  day : 1 ≤ d.day ∧ d.day ≤ 31

/- The last day of a cycle is in a leap year. -/
theorem ordinal_cycle_end {n400 n100 n4 : ℕ} (few100 : n100 ≤ 3) (few4 : n4 ≤ 24)
    (leap : n4 ≠ 24 ∨ n100 = 3) :
    ordinal ⟨n400 * 400 + (n100 * 100 + n4 * 4 + 4), 12, 31⟩ =
      n400 * 146097 + n100 * 36524 + n4 * 1461 + 1461 := by
  have same : n400 * 400 + (n100 * 100 + n4 * 4 + 4) =
      n400 * 400 + 1 + (n100 * 100 + n4 * 4 + 3) := by omega
  have leapYear : (3 == 3 && (n4 != 24 || n100 == 3)) = true := by simpa using leap
  rw [same, ordinal, daysBeforeYear_cycles few100 few4 (by omega),
    isLeap_cycles few100 few4 (by omega), leapYear]
  simp [daysBeforeMonth]

theorem ofOrdinal_spec {n : ℕ} (pos : 1 ≤ n) :
    ordinal (ofOrdinal n) = n ∧ IsDate (ofOrdinal n) := by
  unfold ofOrdinal
  extract_lets i n400 i1 n100 i2 n4 i3 n1 i4 year leap month
  split_ifs with last
  · have ends : ∃ n100' n4', n100' ≤ 3 ∧ n4' ≤ 24 ∧ (n4' ≠ 24 ∨ n100' = 3) ∧
        year - 1 = n400 * 400 + (n100' * 100 + n4' * 4 + 4) ∧
        n = n400 * 146097 + n100' * 36524 + n4' * 1461 + 1461 := by
      rcases last with last | last
      · exact ⟨n100, n4, by omega, by omega, by omega, by omega, by omega⟩
      · exact ⟨3, 24, by omega, by omega, by omega, by omega, by omega⟩
    obtain ⟨n100', n4', few100, few4, leapYear, lastYear, number⟩ := ends
    rw [lastYear, ordinal_cycle_end few100 few4 leapYear]
    refine ⟨number.symm, ?_, ⟨?_, Nat.le_refl 12⟩, ⟨?_, Nat.le_refl 31⟩⟩
    · change 1 ≤ n400 * 400 + (n100' * 100 + n4' * 4 + 4)
      omega
    · exact Nat.le_add_left 1 11
    · exact Nat.le_add_left 1 30
  · have few100 : n100 ≤ 3 := by omega
    have few4 : n4 ≤ 24 := by omega
    have few1 : n1 ≤ 3 := by omega
    have inYear : i4 < daysInYear leap := by
      unfold daysInYear
      split <;> omega
    obtain ⟨lower, upper, begun, short⟩ := monthOf_fits leap i4 inYear
    constructor
    · rw [ordinal, daysBeforeYear_cycles few100 few4 few1, isLeap_cycles few100 few4 few1]
      change n400 * 146097 + n100 * 36524 + n4 * 1461 + n1 * 365 + daysBeforeMonth leap month +
        (i4 - daysBeforeMonth leap month + 1) = n
      change daysBeforeMonth leap month ≤ i4 at begun
      omega
    · refine ⟨?_, ⟨lower, upper⟩, ?_, ?_⟩
      · change 1 ≤ year
        omega
      · change 1 ≤ i4 - daysBeforeMonth leap month + 1
        omega
      · change i4 - daysBeforeMonth leap month < 31 at short
        exact short

theorem ofOrdinal_year {n : ℕ} (fits : n ≤ 3652059) : (ofOrdinal n).year ≤ 9999 := by
  unfold ofOrdinal
  extract_lets i n400 i1 n100 i2 n4 i3 n1 i4 year leap month
  have bound : year - 1 ≤ 9999 ∧ (¬ (n1 = 4 ∨ n100 = 4) → year ≤ 9999) := by omega
  split_ifs with last
  · exact bound.1
  · exact bound.2 last

end Calendar
