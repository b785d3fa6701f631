import Mathlib.Tactic.IntervalCases
import Mathlib.Tactic.NormNum
import AgentMemory.Clock.Instant

namespace AgentMemory
namespace Clock
namespace Instant

/-!
# The civil calendar read back

`civilFromDays` and `daysFromCivil` are the two directions of the proleptic Gregorian
calendar that instants are written and read with.  Both count years from March, so that
the leap day is the last day of a year, and both cut the days into eras of 400 years
(146097 days).  Inside an era a day lies in one of four centuries of 36524 days (the last
one a day longer), in one of 25 four-year cycles of 1461 days (the last one of a century
a day shorter), and in one of four years of 365 days (the last one of a cycle a day
longer).

Main statement: `civilFromDays_spec`, for every day count the date found has a month in
1..12 and a day that exists in that month, and `daysFromCivil` gives the day count back.
Writing an instant and reading it again rests on it.

The arithmetic is linear once the day of the era is split into its century, cycle, year
and day of year (`dayOfEra_split`); after the split `omega` decides every step, where on
the raw quotients of the algorithm it gives up.
-/

/-- Every day of an era is a century, a four-year cycle, a year of the cycle and a day of
the year; only the last year of a cycle has a 366th day, and not in the last cycle of a
century unless it is the last century of the era. -/
theorem dayOfEra_split (doe : Int) (nonneg : 0 ≤ doe) (bound : doe ≤ 146096) :
    ∃ c f g r : Int, 0 ≤ c ∧ c ≤ 3 ∧ 0 ≤ f ∧ f ≤ 24 ∧ 0 ≤ g ∧ g ≤ 3 ∧ 0 ≤ r ∧ r ≤ 365 ∧
      doe = 36524 * c + 1461 * f + 365 * g + r ∧ (r = 365 → g = 3 ∧ (f < 24 ∨ c = 3)) := by
  -- the last century and the last year of a cycle absorb their extra day
  obtain ⟨c, hc⟩ : ∃ c, c = min (doe / 36524) 3 := ⟨_, rfl⟩
  obtain ⟨f, hf⟩ : ∃ f, f = (doe - 36524 * c) / 1461 := ⟨_, rfl⟩
  obtain ⟨g, hg⟩ : ∃ g, g = min ((doe - 36524 * c - 1461 * f) / 365) 3 := ⟨_, rfl⟩
  refine ⟨c, f, g, doe - 36524 * c - 1461 * f - 365 * g, ?_⟩
  omega

section Split

variable (c f g r : Int) (hc : 0 ≤ c ∧ c ≤ 3) (hf : 0 ≤ f ∧ f ≤ 24) (hg : 0 ≤ g ∧ g ≤ 3)
  (hr : 0 ≤ r ∧ r ≤ 365) (leap : r = 365 → g = 3 ∧ (f < 24 ∨ c = 3))

include hc hf hg hr leap in
theorem yearOfEra_split (doe : Int) (split : doe = 36524 * c + 1461 * f + 365 * g + r) :
    (doe - doe / 1460 + doe / 36524 - doe / 146096) / 365 = 100 * c + 4 * f + g := by
  by_cases last : doe = 146096
  · have ends : c = 3 ∧ f = 24 ∧ g = 3 ∧ r = 365 := by omega
    obtain ⟨rfl, rfl, rfl, rfl⟩ := ends
    subst split
    decide
  have hC : doe / 146096 = 0 := by omega
  have hB : doe / 36524 = c := by omega
  have hA : doe / 1460 = 25 * c + f + (24 * c + f + 365 * g + r) / 1460 := by omega
  rw [hC, hB, hA]
  -- the correction by `doe / 1460` is one more exactly when the year's day passes a cycle
  by_cases wraps : 365 * g + r + 24 * c + f ≥ 1460
  · have carry : (24 * c + f + 365 * g + r) / 1460 = 1 := by omega
    rw [carry]
    omega
  · have carry : (24 * c + f + 365 * g + r) / 1460 = 0 := by omega
    rw [carry]
    omega

include hf hg in
theorem dayOfYear_split (doe : Int) (split : doe = 36524 * c + 1461 * f + 365 * g + r) :
    doe - (365 * (100 * c + 4 * f + g) + (100 * c + 4 * f + g) / 4 - (100 * c + 4 * f + g) / 100) = r := by
  omega

include hc hf hg hr leap in
/-- The month and day of a day of the year, counted from March, form a valid date, and
`daysFromCivil` maps them back to the day of the era. -/
theorem marchDate (era z : Int) (hz : z + 719468 = 146097 * era + (36524 * c + 1461 * f + 365 * g + r)) :
    let mp := (5 * r + 2) / 153
    let m := if mp < 10 then mp + 3 else mp - 9
    let y := if m ≤ 2 then 100 * c + 4 * f + g + era * 400 + 1 else 100 * c + 4 * f + g + era * 400
    let d := r - (153 * mp + 2) / 5 + 1
    1 ≤ m.toNat ∧ m.toNat ≤ 12 ∧ 1 ≤ d.toNat ∧ d.toNat ≤ daysIn m.toNat y ∧
      daysFromCivil y m.toNat d.toNat = z := by
  intro mp m y d
  obtain ⟨k, hk⟩ : ∃ k, mp = k := ⟨_, rfl⟩
  have month : 0 ≤ k ∧ k ≤ 11 := by omega
  obtain ⟨k0, k1⟩ := month
  -- one case per month; February's 29th needs the leap condition of the split
  interval_cases k
  all_goals
    simp only [m, y, d, hk, daysIn, daysFromCivil, isLeap]
    norm_num
  all_goals omega

end Split

/-- The date of a day count is a valid date, and reading it back gives the day count. -/
theorem civilFromDays_spec {z y : Int} {m d : Nat} (found : civilFromDays z = (y, m, d)) :
    1 ≤ m ∧ m ≤ 12 ∧ 1 ≤ d ∧ d ≤ daysIn m y ∧ daysFromCivil y m d = z := by
  obtain ⟨era, doe, hz, h0, h1⟩ : ∃ era doe : Int, z + 719468 = 146097 * era + doe ∧ 0 ≤ doe ∧ doe ≤ 146096 :=
    ⟨(z + 719468) / 146097, (z + 719468) % 146097, by omega, by omega, by omega⟩
  have eraOf : (z + 719468) / 146097 = era := by omega
  have doeOf : z + 719468 - era * 146097 = doe := by omega
  obtain ⟨c, f, g, r, hc0, hc1, hf0, hf1, hg0, hg1, hr0, hr1, split, leap⟩ := dayOfEra_split doe h0 h1
  have yoe := yearOfEra_split c f g r ⟨hc0, hc1⟩ ⟨hf0, hf1⟩ ⟨hg0, hg1⟩ ⟨hr0, hr1⟩ leap doe split
  have doy := dayOfYear_split c f g r ⟨hf0, hf1⟩ ⟨hg0, hg1⟩ doe split
  have date := marchDate c f g r ⟨hc0, hc1⟩ ⟨hf0, hf1⟩ ⟨hg0, hg1⟩ ⟨hr0, hr1⟩ leap era z (by omega)
  simp only [civilFromDays, eraOf, doeOf, yoe, doy, Prod.mk.injEq] at found
  obtain ⟨rfl, rfl, rfl⟩ := found
  exact date

end Instant
end Clock
end AgentMemory
