import Mathlib
/-!
# The Gregorian calendar

Dates and times from the first day of a year on. `next` is the next second, with
its carries; `Moment.number` counts the seconds month by month and year by year,
and `Moment.iterate_next_eq_iff` says that it is how often `next` goes from the
first second to the given one.
-/

namespace Lib.Calendar

def IsLeap (year : ℕ) : Prop := 4 ∣ year ∧ (100 ∣ year → 400 ∣ year)

instance : DecidablePred IsLeap := fun _ => inferInstanceAs (Decidable (_ ∧ _))

/-- The months count from 1. -/
def daysInMonth (year : ℕ) : ℕ → ℕ
  | 2 => if IsLeap year then 29 else 28
  | 4 | 6 | 9 | 11 => 30
  | _ => 31

def daysInYear (year : ℕ) : ℕ := ∑ month ∈ Finset.Ico 1 13, daysInMonth year month

theorem one_le_daysInMonth (year month : ℕ) : 1 ≤ daysInMonth year month := by
  unfold daysInMonth
  split
  · split <;> decide
  all_goals decide

theorem daysInMonth_le (year month : ℕ) : daysInMonth year month ≤ 31 := by
  unfold daysInMonth
  split
  · split <;> decide
  all_goals decide

theorem daysInYear_eq (year : ℕ) : daysInYear year = if IsLeap year then 366 else 365 := by
  have hsum : daysInYear year = 337 + daysInMonth year 2 := by
    simp [daysInYear, Finset.sum_Ico_succ_top, daysInMonth]
    omega
  rw [hsum, daysInMonth]
  split <;> rfl

/-- What counts up by one at every step, and misses nothing, is the number of steps. -/
theorem iterate_eq_iff {α : Type*} {start : α} {next : α → α} {number : α → ℕ} (hstart : number start = 0)
    (hnext : ∀ a, number (next a) = number a + 1) (hprev : ∀ a, a ≠ start → ∃ b, next b = a) {m : ℕ} {a : α} :
    next^[m] start = a ↔ m = number a := by
  constructor
  · rintro rfl
    induction m with
    | zero => exact hstart.symm
    | succ m ih => rw [Function.iterate_succ_apply', hnext, ← ih]
  · intro hm
    induction m generalizing a with
    | zero =>
      by_contra hne
      obtain ⟨b, rfl⟩ := hprev a fun heq => hne heq.symm
      rw [hnext] at hm
      omega
    | succ m ih =>
      have hne : a ≠ start := fun heq => by
        rw [heq, hstart] at hm
        omega
      obtain ⟨b, rfl⟩ := hprev a hne
      rw [hnext] at hm
      rw [Function.iterate_succ_apply', ih (Nat.succ.inj hm)]

variable {first : ℕ}

/-! ## Days -/

/-- A date from the year `first` on. -/
@[ext] structure Date (first : ℕ) where
  year : ℕ
  month : ℕ
  day : ℕ
  first_le : first ≤ year
  month_range : 1 ≤ month ∧ month ≤ 12
  day_range : 1 ≤ day ∧ day ≤ daysInMonth year month

namespace Date

def start (first : ℕ) : Date first := ⟨first, 1, 1, le_rfl, by decide, le_rfl, one_le_daysInMonth _ _⟩

def next (d : Date first) : Date first :=
  if hday : d.day < daysInMonth d.year d.month then
    ⟨d.year, d.month, d.day + 1, d.first_le, d.month_range, Nat.le_add_left 1 _, hday⟩
  else if hmonth : d.month < 12 then
    ⟨d.year, d.month + 1, 1, d.first_le, ⟨Nat.le_add_left 1 _, hmonth⟩, le_rfl, one_le_daysInMonth _ _⟩
  else ⟨d.year + 1, 1, 1, Nat.le_succ_of_le d.first_le, by decide, le_rfl, one_le_daysInMonth _ _⟩

/-- The days before this one. -/
def number (d : Date first) : ℕ :=
  ∑ year ∈ Finset.Ico first d.year, daysInYear year + ∑ month ∈ Finset.Ico 1 d.month, daysInMonth d.year month +
    (d.day - 1)

theorem number_start : (start first).number = 0 := by
  simp [number, start]

theorem number_next (d : Date first) : d.next.number = d.number + 1 := by
  obtain ⟨hday, hday'⟩ := d.day_range
  unfold next
  split
  · simp only [number]
    omega
  · rename_i hlast
    split
    · simp only [number]
      rw [Finset.sum_Ico_succ_top d.month_range.1]
      omega
    · -- the days of December complete those of the year
      have hmonth : d.month = 12 := by have := d.month_range.2; omega
      have hyear : daysInYear d.year = ∑ month ∈ Finset.Ico 1 12, daysInMonth d.year month + daysInMonth d.year 12 :=
        Finset.sum_Ico_succ_top (by decide) _
      simp only [number]
      rw [hmonth] at hday' hlast
      rw [Finset.sum_Ico_succ_top d.first_le, hyear, Finset.Ico_self, Finset.sum_empty, hmonth]
      omega

/-- Every later day follows another. -/
theorem exists_next_eq {d : Date first} (h : d ≠ start first) : ∃ d' : Date first, d'.next = d := by
  obtain ⟨year, month, day, hfirst, ⟨hmonth, hmonth'⟩, hday, hday'⟩ := d
  by_cases hd : 1 < day
  · refine ⟨⟨year, month, day - 1, hfirst, ⟨hmonth, hmonth'⟩, by omega, by omega⟩, ?_⟩
    rw [next, dif_pos (by dsimp only; omega), Date.mk.injEq]
    exact ⟨rfl, rfl, by dsimp only; omega⟩
  obtain rfl : day = 1 := by omega
  by_cases hm : 1 < month
  · refine ⟨⟨year, month - 1, daysInMonth year (month - 1), hfirst, by omega, one_le_daysInMonth _ _, le_rfl⟩, ?_⟩
    rw [next, dif_neg (lt_irrefl _), dif_pos (by dsimp only; omega), Date.mk.injEq]
    exact ⟨rfl, by dsimp only; omega, rfl⟩
  obtain rfl : month = 1 := by omega
  have hy : first < year := by
    refine lt_of_le_of_ne hfirst fun heq => h ?_
    subst heq
    rfl
  refine ⟨⟨year - 1, 12, daysInMonth (year - 1) 12, by omega, by decide, one_le_daysInMonth _ _, le_rfl⟩, ?_⟩
  rw [next, dif_neg (lt_irrefl _), dif_neg (lt_irrefl _), Date.mk.injEq]
  exact ⟨by dsimp only; omega, rfl, rfl⟩

end Date

/-! ## Seconds -/

/-- A date and a time of day. -/
@[ext] structure Moment (first : ℕ) where
  date : Date first
  hour : ℕ
  minute : ℕ
  second : ℕ
  hour_lt : hour < 24
  minute_lt : minute < 60
  second_lt : second < 60

namespace Moment

def start (first : ℕ) : Moment first := ⟨.start first, 0, 0, 0, by decide, by decide, by decide⟩

def next (t : Moment first) : Moment first :=
  if hsecond : t.second + 1 < 60 then ⟨t.date, t.hour, t.minute, t.second + 1, t.hour_lt, t.minute_lt, hsecond⟩
  else if hminute : t.minute + 1 < 60 then ⟨t.date, t.hour, t.minute + 1, 0, t.hour_lt, hminute, by decide⟩
  else if hhour : t.hour + 1 < 24 then ⟨t.date, t.hour + 1, 0, 0, hhour, by decide, by decide⟩
  else ⟨t.date.next, 0, 0, 0, by decide, by decide, by decide⟩

/-- The seconds before this one. -/
def number (t : Moment first) : ℕ := t.date.number * 86400 + t.hour * 3600 + t.minute * 60 + t.second

theorem number_start : (start first).number = 0 := by
  simp [number, start, Date.number_start]

theorem number_next (t : Moment first) : t.next.number = t.number + 1 := by
  have hhour := t.hour_lt
  have hminute := t.minute_lt
  have hsecond := t.second_lt
  unfold next
  split
  · simp only [number]
    omega
  · split
    · simp only [number]
      omega
    · split
      · simp only [number]
        omega
      · simp only [number, Date.number_next]
        omega

/-- Every later second follows another. -/
theorem exists_next_eq {t : Moment first} (h : t ≠ start first) : ∃ t' : Moment first, t'.next = t := by
  obtain ⟨date, hour, minute, second, hhour, hminute, hsecond⟩ := t
  by_cases hs : 0 < second
  · refine ⟨⟨date, hour, minute, second - 1, hhour, hminute, by omega⟩, ?_⟩
    rw [next, dif_pos (by dsimp only; omega), Moment.mk.injEq]
    exact ⟨rfl, rfl, rfl, by dsimp only; omega⟩
  obtain rfl : second = 0 := by omega
  by_cases hm : 0 < minute
  · refine ⟨⟨date, hour, minute - 1, 59, hhour, by omega, by decide⟩, ?_⟩
    rw [next, dif_neg (lt_irrefl _), dif_pos (by dsimp only; omega), Moment.mk.injEq]
    exact ⟨rfl, rfl, by dsimp only; omega, rfl⟩
  obtain rfl : minute = 0 := by omega
  by_cases hh : 0 < hour
  · refine ⟨⟨date, hour - 1, 59, 59, by omega, by decide, by decide⟩, ?_⟩
    rw [next, dif_neg (lt_irrefl _), dif_neg (lt_irrefl _), dif_pos (by dsimp only; omega), Moment.mk.injEq]
    exact ⟨rfl, by dsimp only; omega, rfl, rfl⟩
  obtain rfl : hour = 0 := by omega
  obtain ⟨date', rfl⟩ := Date.exists_next_eq (d := date) fun heq => h (by rw [heq]; rfl)
  refine ⟨⟨date', 23, 59, 59, by decide, by decide, by decide⟩, ?_⟩
  rw [next, dif_neg (lt_irrefl _), dif_neg (lt_irrefl _), dif_neg (lt_irrefl _)]

/-- Each moment is reached from the first one, after as many seconds as `number` says. -/
theorem iterate_next_eq_iff {t : Moment first} {n : ℕ} : next^[n] (start first) = t ↔ n = t.number :=
  iterate_eq_iff number_start number_next fun _ => exists_next_eq

end Moment

end Lib.Calendar
