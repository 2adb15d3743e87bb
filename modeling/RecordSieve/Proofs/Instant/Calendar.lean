import RecordSieve.Instant
import Mathlib.Tactic.IntervalCases

namespace RecordSieve.Calendar

def isLeap (year : Int) : Bool := year % 4 = 0 && (year % 100 ≠ 0 || year % 400 = 0)

def leapDays (year : Int) : Nat := if isLeap year then 1 else 0

def monthDays (year : Int) : Nat → Nat
  | 2 => 28 + leapDays year
  | 4 | 6 | 9 | 11 => 30
  | 1 | 3 | 5 | 7 | 8 | 10 | 12 => 31
  | _ => 0

def daysBeforeMonth (year : Int) : Nat → Nat
  | 0 => 0
  | month + 1 => daysBeforeMonth year month + monthDays year month

def daysBeforeYear (year : Int) : Int :=
  365 * (year - 1970) + (year - 1969) / 4 - (year - 1901) / 100 + (year - 1601) / 400

def IsDate (date : Int × Nat × Nat) : Prop :=
  (1 ≤ date.2.1 ∧ date.2.1 ≤ 12) ∧ 1 ≤ date.2.2 ∧ date.2.2 ≤ monthDays date.1 date.2.1

def dayNumber (date : Int × Nat × Nat) : Int :=
  daysBeforeYear date.1 + daysBeforeMonth date.1 date.2.1 + (date.2.2 - 1 : Nat)

def Precedes (a b : Int × Nat × Nat) : Prop :=
  a.1 < b.1 ∨ a.1 = b.1 ∧ (a.2.1 < b.2.1 ∨ a.2.1 = b.2.1 ∧ a.2.2 < b.2.2)

theorem leapDays_le_one (year : Int) : leapDays year ≤ 1 := by
  rw [leapDays]
  split <;> omega

theorem leapDays_eq (year : Int) : (leapDays year : Int) =
    (year / 4 - (year - 1) / 4) - (year / 100 - (year - 1) / 100) + (year / 400 - (year - 1) / 400) := by
  rw [leapDays]
  split <;> rename_i h <;> simp [isLeap] at h <;> omega

theorem daysBeforeYear_succ (year : Int) :
    daysBeforeYear (year + 1) = daysBeforeYear year + 365 + leapDays year := by
  have := leapDays_eq year
  simp only [daysBeforeYear]
  omega

theorem daysBeforeYear_le {year later : Int} (h : year < later) :
    daysBeforeYear year + 365 + leapDays year ≤ daysBeforeYear later := by
  rw [← daysBeforeYear_succ]
  simp only [daysBeforeYear]
  omega

theorem daysBeforeMonth_le (year : Int) {month later : Nat} (h : month < later) :
    daysBeforeMonth year month + monthDays year month ≤ daysBeforeMonth year later := by
  obtain ⟨n, rfl⟩ := Nat.exists_eq_add_of_lt h
  clear h
  induction n with
  | zero => exact Nat.le_refl _
  | succ n ih => exact Nat.le_trans ih (Nat.le_add_right _ _)

theorem daysBeforeMonth_year (year : Int) : daysBeforeMonth year 13 = 365 + leapDays year := by
  simp only [daysBeforeMonth, monthDays]
  omega

theorem dayNumber_lt {a b : Int × Nat × Nat} (ha : IsDate a) (hb : IsDate b) (h : Precedes a b) :
    dayNumber a < dayNumber b := by
  obtain ⟨year, month, day⟩ := a
  obtain ⟨year', month', day'⟩ := b
  obtain ⟨⟨-, hmonth⟩, hday⟩ := ha
  obtain ⟨-, hday'⟩ := hb
  simp only [dayNumber, Precedes] at *
  have hend := daysBeforeMonth_le year (Nat.lt_succ_of_le hmonth)
  rw [daysBeforeMonth_year] at hend
  rcases h with hyear | ⟨rfl, hmonth' | ⟨rfl, hlt⟩⟩
  · have := daysBeforeYear_le hyear
    omega
  · have := daysBeforeMonth_le year hmonth'
    omega
  · omega

theorem precedes_trichotomy (a b : Int × Nat × Nat) : Precedes a b ∨ a = b ∨ Precedes b a := by
  obtain ⟨year, month, day⟩ := a
  obtain ⟨year', month', day'⟩ := b
  simp only [Precedes, Prod.mk.injEq]
  omega

/-- The date that lies some days after the first of March of a year. -/
def fromMarch (year : Int) (dayOfYear : Nat) : Int × Nat × Nat :=
  let month := (5 * dayOfYear + 2) / 153
  let calendarMonth := if month < 10 then month + 3 else month - 9
  (year + (if calendarMonth ≤ 2 then 1 else 0), calendarMonth, dayOfYear - (153 * month + 2) / 5 + 1)

def daysBeforeMarch (year : Int) : Int := 365 * year + year / 4 - year / 100 + year / 400 - 719468

theorem daysBeforeMarch_eq (year : Int) :
    daysBeforeMarch year = daysBeforeYear year + 59 + leapDays year := by
  have := leapDays_eq year
  simp only [daysBeforeMarch, daysBeforeYear]
  omega

theorem daysBeforeMarch_eq_succ (year : Int) : daysBeforeMarch year = daysBeforeYear (year + 1) - 306 := by
  rw [daysBeforeMarch_eq, daysBeforeYear_succ]
  omega

theorem daysBeforeMarch_cycle (cycle : Int) {year : Nat} (h : year < 400) :
    daysBeforeMarch (cycle * 400 + year) =
      cycle * 146097 + 365 * year + (year / 4 : Nat) - (year / 100 : Nat) - 719468 := by
  have hfours : (cycle * 400 + year) / 4 = cycle * 100 + (year / 4 : Nat) := by omega
  have hhundreds : (cycle * 400 + year) / 100 = cycle * 4 + (year / 100 : Nat) := by omega
  have hcycles : (cycle * 400 + year) / 400 = cycle := by omega
  rw [daysBeforeMarch, hfours, hhundreds, hcycles]
  omega

theorem fromMarch_spec (year : Int) {dayOfYear : Nat} (h : dayOfYear < 365 + leapDays (year + 1)) :
    IsDate (fromMarch year dayOfYear) ∧
      dayNumber (fromMarch year dayOfYear) = daysBeforeMarch year + dayOfYear := by
  have hmarch := daysBeforeMarch_eq year
  have hjanuary := daysBeforeMarch_eq_succ year
  have hleap := leapDays_le_one (year + 1)
  obtain ⟨month, hmonth⟩ : ∃ month, (5 * dayOfYear + 2) / 153 = month := ⟨_, rfl⟩
  have hlt : month < 12 := by omega
  rw [fromMarch, hmonth]
  interval_cases month <;>
    simp only [IsDate, dayNumber, daysBeforeMonth, monthDays, Nat.reduceMul, Nat.reduceAdd, Nat.reduceDiv,
      Nat.reduceSub, Nat.reduceLT, Nat.reduceLeDiff, if_true, if_false, and_self, true_and, Int.add_zero] <;>
    omega

theorem exists_parts {day : Nat} (h : day < 146097) : ∃ century quad year dayOfYear,
    day = 36524 * century + 1461 * quad + 365 * year + dayOfYear ∧ century ≤ 3 ∧ quad ≤ 24 ∧ year ≤ 3 ∧
      dayOfYear ≤ 365 ∧ (dayOfYear = 365 → year = 3 ∧ (quad < 24 ∨ century = 3)) := by
  -- the last century and the last year of four have a day more, so they are not quotients alone
  obtain ⟨century, hcentury⟩ : ∃ century, min (day / 36524) 3 = century := ⟨_, rfl⟩
  obtain ⟨quad, hquad⟩ : ∃ quad, (day - 36524 * century) / 1461 = quad := ⟨_, rfl⟩
  obtain ⟨rest, hrest⟩ : ∃ rest, (day - 36524 * century) % 1461 = rest := ⟨_, rfl⟩
  obtain ⟨year, hyear⟩ : ∃ year, min (rest / 365) 3 = year := ⟨_, rfl⟩
  refine ⟨century, quad, year, rest - 365 * year, ?_⟩
  omega

theorem year_of_parts {century quad year dayOfYear day : Nat}
    (hday : day = 36524 * century + 1461 * quad + 365 * year + dayOfYear) (hcentury : century ≤ 3)
    (hquad : quad ≤ 24) (hyear : year ≤ 3) (hdayOfYear : dayOfYear ≤ 365)
    (hleap : dayOfYear = 365 → year = 3 ∧ (quad < 24 ∨ century = 3)) :
    (day - day / 1460 + day / 36524 - day / 146096) / 365 = 100 * century + 4 * quad + year := by
  obtain ⟨fours, hfours, hless⟩ : ∃ fours, day / 1460 = 25 * century + quad + fours ∧
      (fours = 0 ∧ dayOfYear ≤ 364 ∨ fours = 1 ∧ 1 ≤ dayOfYear) :=
    ⟨(24 * century + quad + 365 * year + dayOfYear) / 1460, by omega, by omega⟩
  obtain ⟨last, hhundreds, hlast⟩ : ∃ last, day / 36524 = century + last ∧ day / 146096 = last := by
    by_cases h : 1461 * quad + 365 * year + dayOfYear < 36524
    · exact ⟨0, by omega, by omega⟩
    · exact ⟨1, by omega, by omega⟩
  have hshort : day - (25 * century + quad + fours) + (century + last) - last =
      365 * (100 * century + 4 * quad + year) + (dayOfYear - fours) := by
    clear hfours hhundreds hlast
    omega
  rw [hfours, hhundreds, hlast, hshort]
  clear hfours hhundreds hlast hshort hday
  omega

theorem exists_civil (days : Int) : ∃ (year : Int) (dayOfYear : Nat), civil days = fromMarch year dayOfYear ∧
    dayOfYear < 365 + leapDays (year + 1) ∧ daysBeforeMarch year + dayOfYear = days := by
  obtain ⟨cycle, hcycle⟩ : ∃ cycle, Int.fdiv (days + 719468) cycleDays = cycle := ⟨_, rfl⟩
  obtain ⟨day, hday⟩ : ∃ day, (Int.fmod (days + 719468) cycleDays).toNat = day := ⟨_, rfl⟩
  obtain ⟨hsplit, hlt⟩ : days + 719468 = cycle * 146097 + day ∧ day < 146097 := by
    rw [Int.fdiv_eq_ediv_of_nonneg _ (by decide)] at hcycle
    rw [Int.fmod_eq_emod_of_nonneg _ (by decide)] at hday
    simp only [cycleDays] at hcycle hday
    omega
  obtain ⟨century, quad, year, dayOfYear, hparts, hcentury, hquad, hyear, hdayOfYear, hleap⟩ :=
    exists_parts hlt
  obtain ⟨cycleYear, hcycleYear⟩ : ∃ cycleYear, 100 * century + 4 * quad + year = cycleYear := ⟨_, rfl⟩
  have hfours : cycleYear / 4 = 25 * century + quad := by omega
  have hhundreds : cycleYear / 100 = century := by omega
  have hcivil : civil days = fromMarch (cycle * 400 + cycleYear)
      (day - (365 * cycleYear + cycleYear / 4 - cycleYear / 100)) := by
    rw [← hcycleYear, ← year_of_parts hparts hcentury hquad hyear hdayOfYear hleap, ← hday, ← hcycle]
    rfl
  have hrest : day - (365 * cycleYear + (25 * century + quad) - century) = dayOfYear := by omega
  rw [hfours, hhundreds, hrest] at hcivil
  refine ⟨_, dayOfYear, hcivil, ?_, ?_⟩
  · have hleapYear : dayOfYear = 365 → leapDays (cycle * 400 + cycleYear + 1) = 1 := by
      intro hlast
      refine if_pos ?_
      simp only [isLeap, Bool.and_eq_true, Bool.or_eq_true, decide_eq_true_eq]
      have := hleap hlast
      omega
    omega
  · rw [daysBeforeMarch_cycle cycle (by omega), hfours, hhundreds]
    omega

theorem isDate_civil (days : Int) : IsDate (civil days) ∧ dayNumber (civil days) = days := by
  obtain ⟨year, dayOfYear, hcivil, hlt, hdays⟩ := exists_civil days
  rw [hcivil, ← hdays]
  exact fromMarch_spec year hlt

theorem precedes_civil {days later : Int} (h : days < later) : Precedes (civil days) (civil later) := by
  obtain ⟨hdate, hnumber⟩ := isDate_civil days
  obtain ⟨hdate', hnumber'⟩ := isDate_civil later
  rcases precedes_trichotomy (civil days) (civil later) with hlt | heq | hgt
  · exact hlt
  · rw [heq] at hnumber
    omega
  · have := dayNumber_lt hdate' hdate hgt
    omega

end RecordSieve.Calendar
