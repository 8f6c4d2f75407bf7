import MessageArchive.Calendar.Day

set_option autoImplicit false

/-! # Days in the order of their dates

Going forward in days, the year never falls; within a year the month never falls, and within a month
the day of the month rises. So days are ordered as their dates are, by year, month and day of the
month in turn (`dateBefore_iff`). With the bounds on months and days of the month (`month_le`,
`dayOfMonth_le`) this makes dates of fixed width sort as days do.
-/

namespace MessageArchive.Calendar.Day

/-! ## Years -/

theorem year_mono {a b : Int} (h : a ≤ b) : year a ≤ year b := by
  have ha := start_year_le a
  have hb := lt_start_year_succ b
  by_cases hlt : year b < year a
  · have := Year.start_le_start (show year b + 1 ≤ year a by omega)
    omega
  · omega

/-- In one year, a later day has the greater number. -/
theorem ordinal_lt {a b : Int} (h : a < b) (hyear : year a = year b) : ordinal a < ordinal b := by
  have ha := start_year_le a
  simp only [ordinal, hyear] at ha ⊢
  omega

/-! ## Months -/

/-- With more days gone, more months are over, or more days of the next one. -/
theorem splitMonths_lt {lengths : List Nat} {a b : Nat} (h : a < b) :
    (splitMonths lengths a).1 < (splitMonths lengths b).1 ∨
      (splitMonths lengths a).1 = (splitMonths lengths b).1 ∧
        (splitMonths lengths a).2 < (splitMonths lengths b).2 := by
  induction lengths generalizing a b with
  | nil => exact Or.inr ⟨rfl, h⟩
  | cons length rest ih =>
      by_cases ha : a < length
      · by_cases hb : b < length
        · simp only [splitMonths, ha, hb, if_true]
          exact Or.inr ⟨trivial, h⟩
        · simp only [splitMonths, ha, hb, if_true, if_false]
          exact Or.inl (Nat.succ_pos _)
      · have hb : ¬ b < length := by omega
        have hrest : a - length < b - length := by omega
        simp only [splitMonths, ha, hb, if_false]
        have := ih hrest
        omega

/-- Before all months are over, the next one is long enough for the days that are left. -/
theorem splitMonths_fits {lengths : List Nat} {past : Nat} (h : past < totalLength lengths) :
    ∃ length, lengths[(splitMonths lengths past).1]? = some length ∧
      (splitMonths lengths past).2 < length := by
  induction lengths generalizing past with
  | nil => exact absurd h (Nat.not_lt_zero past)
  | cons length rest ih =>
      have htotal : totalLength (length :: rest) = length + totalLength rest := rfl
      by_cases hpast : past < length
      · simp only [splitMonths, hpast, if_true]
        exact ⟨length, List.getElem?_cons_zero, hpast⟩
      · obtain ⟨found, hmonth, hdays⟩ := ih (show past - length < totalLength rest by omega)
        simp only [splitMonths, hpast, if_false]
        exact ⟨found, List.getElem?_cons_succ.trans hmonth, hdays⟩

/-- The months make up the year. -/
theorem length_eq_totalLength (year : Int) :
    Year.length year = totalLength (Year.monthLengths year) := by
  simp only [Year.length, Year.monthLengths, totalLength]
  cases Year.isLeap year <;> rfl

theorem ordinal_fits (day : Int) :
    ordinal day - 1 < totalLength (Year.monthLengths (year day)) := by
  have hlength := length_eq_totalLength (year day)
  have hbegins := start_year_le day
  have hends := lt_start_year_succ day
  rw [Year.start_succ] at hends
  simp only [ordinal]
  omega

/-- A day of the month is within the length of its month. -/
theorem dayOfMonth_fits_month (day : Int) :
    ∃ length, (Year.monthLengths (year day))[month day - 1]? = some length ∧
      dayOfMonth day ≤ length :=
  splitMonths_fits (ordinal_fits day)

theorem month_le (day : Int) : month day ≤ 12 := by
  obtain ⟨length, hmonth, -⟩ := dayOfMonth_fits_month day
  have hbound := (List.getElem?_eq_some_iff.1 hmonth).1
  simp only [Year.monthLengths, List.length_cons, List.length_nil] at hbound
  omega

theorem dayOfMonth_le (day : Int) : dayOfMonth day ≤ 31 := by
  obtain ⟨length, hmonth, hdays⟩ := dayOfMonth_fits_month day
  have hlength : length ≤ 31 := by
    have hall : ∀ leap : Bool, ∀ n ∈ [31, if leap then 29 else 28, 31, 30, 31, 30, 31, 31, 30, 31,
        30, 31], n ≤ 31 := by decide
    exact hall (Year.isLeap (year day)) length (List.mem_of_getElem? hmonth)
  exact Nat.le_trans hdays hlength

/-! ## Dates -/

/-- The date of the first day comes before that of the second: its year does, or in one year its
month, or in one month its day of the month. -/
def DateBefore (a b : Int) : Prop :=
  year a < year b ∨ year a = year b ∧
    (month a < month b ∨ month a = month b ∧ dayOfMonth a < dayOfMonth b)

theorem dateBefore_of_lt {a b : Int} (h : a < b) : DateBefore a b := by
  rcases Int.lt_or_eq_of_le (year_mono (Int.le_of_lt h)) with hlt | hyear
  · exact Or.inl hlt
  · have hordinal : ordinal a - 1 < ordinal b - 1 := by
      have := ordinal_lt h hyear
      have : 0 < ordinal a := Nat.succ_pos _
      omega
    have hsplit := @splitMonths_lt (Year.monthLengths (year b)) _ _ hordinal
    refine Or.inr ⟨hyear, ?_⟩
    simp only [month, dayOfMonth, hyear]
    omega

/-- **Days are in the order of their dates.** -/
theorem dateBefore_iff {a b : Int} : DateBefore a b ↔ a < b := by
  refine ⟨fun h => ?_, dateBefore_of_lt⟩
  rcases Int.lt_trichotomy a b with hlt | rfl | hgt
  · exact hlt
  · simp only [DateBefore] at h
    omega
  · have hback := dateBefore_of_lt hgt
    simp only [DateBefore] at h hback
    omega

/-- A day is told by its date. -/
theorem eq_of_date {a b : Int} (hyear : year a = year b) (hmonth : month a = month b)
    (hday : dayOfMonth a = dayOfMonth b) : a = b := by
  calc a = ofDate (year a) (month a) (dayOfMonth a) := (ofDate_month_dayOfMonth a).symm
    _ = ofDate (year b) (month b) (dayOfMonth b) := by rw [hyear, hmonth, hday]
    _ = b := ofDate_month_dayOfMonth b

end MessageArchive.Calendar.Day
