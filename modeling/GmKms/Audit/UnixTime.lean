import GmKms.Audit.GenTimeRange
import GmKms.Lib.Calendar
/-!
# The seconds of a time

What `parse_time_parts` computes is how many seconds the calendar goes from
1970 on to the time that it reads.
-/

namespace GmKms.Audit

open Lib Lib.Text Lib.Calendar

def twoDigits (n : ℕ) : Text := [(n / 10).digitChar, (n % 10).digitChar]

/-- The fields of a time after its year. -/
def parts (t : Moment 1970) : List ℕ := [t.date.month, t.date.day, t.hour, t.minute, t.second]

/-- A time without its year, in two digits a field: `MMDDHHMMSS`. -/
def partsText (t : Moment 1970) : Text := (parts t).flatMap twoDigits

/-! ## Reading the fields -/

theorem parseU32_twoDigits : ∀ n < 100, parseU32 (twoDigits n) = some (UInt32.ofNat n) := by
  decide +kernel

theorem byteLen_twoDigits : ∀ n < 100, byteLen (twoDigits n) = 2 := by
  decide +kernel

theorem byteLen_flatMap_twoDigits {fields : List ℕ} (h : ∀ n ∈ fields, n < 100) :
    byteLen (fields.flatMap twoDigits) = 2 * fields.length := by
  induction fields with
  | nil => rfl
  | cons n fields ih =>
    obtain ⟨hn, hfields⟩ := List.forall_mem_cons.1 h
    rw [List.flatMap_cons, byteLen_append, byteLen_twoDigits n hn, ih hfields, List.length_cons]
    omega

theorem slice_append (u v w : Text) : slice (u ++ (v ++ w)) (byteLen u) (byteLen v) = some v := by
  rw [slice, sliceFrom_append, Option.bind_some, sliceTo_append]

/-- Each field is read where it was written. -/
theorem parsePart_twoDigits {fields : List ℕ} (h : ∀ n ∈ fields, n < 100) (what : String) (rest : Text) {k n : ℕ}
    (hk : fields[k]? = some n) :
    parseSlice parseU32 what (fields.flatMap twoDigits ++ rest) (2 * k) 2 = pure (UInt32.ofNat n) := by
  obtain ⟨hlt, rfl⟩ := List.getElem?_eq_some_iff.1 hk
  have hn : fields[k] < 100 := h _ (List.getElem_mem hlt)
  have htext : fields.flatMap twoDigits ++ rest = (fields.take k).flatMap twoDigits ++ (twoDigits fields[k] ++
      ((fields.drop (k + 1)).flatMap twoDigits ++ rest)) := by
    conv_lhs => rw [← List.take_append_drop k fields, ← List.cons_getElem_drop_succ (h := hlt)]
    simp only [List.flatMap_append, List.flatMap_cons, List.append_assoc]
  have hstart : byteLen ((fields.take k).flatMap twoDigits) = 2 * k := by
    rw [byteLen_flatMap_twoDigits fun n hn => h n (List.mem_of_mem_take hn), List.length_take, Nat.min_eq_left hlt.le]
  have hslice := slice_append ((fields.take k).flatMap twoDigits) (twoDigits fields[k])
    ((fields.drop (k + 1)).flatMap twoDigits ++ rest)
  rw [← htext, hstart, byteLen_twoDigits _ hn] at hslice
  refine parseSlice_of_some ?_
  rw [hslice, Option.bind_some, parseU32_twoDigits _ hn]

/-! ## Counting the days -/

theorem isLeap_natCast (year : ℕ) : isLeap year = decide (IsLeap year) := by
  rw [isLeap, decide_eq_decide, IsLeap]
  omega

/-- The years, by their number and the leap years among them. -/
theorem sum_daysInYear (n : ℕ) :
    ∑ year ∈ Finset.Ico 1970 (1970 + n), daysInYear year = n * 365 + leapYears (1970 + n : ℕ) := by
  induction n with
  | zero => rfl
  | succ n ih =>
    have hleap : leapYears (1970 + (n + 1) : ℕ) = leapYears (1970 + n : ℕ) + if IsLeap (1970 + n) then 1 else 0 := by
      have hrange : ∀ m : ℕ, (((1970 + m : ℕ) : ℤ) - 1970).toNat = m := by omega
      have hyear : isLeap (1970 + (n : ℤ)) = decide (IsLeap (1970 + n)) := isLeap_natCast (1970 + n)
      rw [leapYears, leapYears, hrange, hrange, List.range_succ, List.countP_append, List.countP_singleton, hyear]
      simp only [decide_eq_true_eq]
    rw [← Nat.add_assoc, Finset.sum_Ico_succ_top (Nat.le_add_right 1970 n), ih, Nat.add_assoc 1970 n 1, hleap,
      daysInYear_eq]
    split <;> omega

/-- The months, by the table and the leap day. -/
theorem sum_daysInMonth (year : ℕ) {month : ℕ} (h : 1 ≤ month ∧ month ≤ 12) :
    ∃ before ≤ 334, daysBefore (month - 1) = pure before ∧
      ∑ m ∈ Finset.Ico 1 month, daysInMonth year m = before + if 2 < month ∧ IsLeap year then 1 else 0 := by
  obtain ⟨hlow, hhigh⟩ := h
  interval_cases month <;> refine ⟨_, ?_, rfl, ?_⟩ <;> simp [Finset.sum_Ico_succ_top, daysInMonth] <;> split <;> rfl

theorem addLeapDay_natCast (year : ℕ) (month : UInt32) {d : UInt32} (h : d.toNat + 1 < 2 ^ 32) : ∃ d' : UInt32,
    addLeapDay year month d = pure d' ∧ d'.toNat = d.toNat + if 2 < month.toNat ∧ IsLeap year then 1 else 0 := by
  have hlate : 2 < month ∧ isLeap year = true ↔ 2 < month.toNat ∧ IsLeap year := by
    rw [isLeap_natCast, decide_eq_true_iff, UInt32.lt_iff_toNat_lt]
    rfl
  rw [addLeapDay]
  by_cases hleap : 2 < month.toNat ∧ IsLeap year
  · obtain ⟨d', hd', hdays⟩ := checkedU32_of_range (n := d.toNat + 1) (by omega)
    rw [if_pos (hlate.2 hleap), if_pos hleap]
    exact ⟨d', hd', by omega⟩
  · rw [if_neg fun h => hleap (hlate.1 h), if_neg hleap]
    exact ⟨d, rfl, rfl⟩

/-- The days that the code counts are those before the date, and none of its steps leaves `u32`. -/
theorem countDays_eq {d : Date 1970} (hyear : d.year ≤ 9999) : ∃ days : UInt32,
    countDays d.year (UInt32.ofNat d.month) (UInt32.ofNat d.day) = pure days ∧ days.toNat = d.number := by
  obtain ⟨n, hn⟩ := Nat.exists_eq_add_of_le d.first_le
  obtain ⟨hday, hday'⟩ := d.day_range
  have hday'' := hday'.trans (daysInMonth_le d.year d.month)
  have hmonths := d.month_range.2
  have hmonth : (UInt32.ofNat d.month).toNat = d.month := UInt32.toNat_ofNat_of_lt' (by dsimp [UInt32.size]; omega)
  have hdays : (UInt32.ofNat d.day).toNat = d.day := UInt32.toNat_ofNat_of_lt' (by dsimp [UInt32.size]; omega)
  have hleap := leapYears_le (d.year : ℤ)
  have hyears := sum_daysInYear n
  rw [← hn] at hyears
  obtain ⟨before, hbefore', hbefore, hsum⟩ := sum_daysInMonth d.year d.month_range
  rw [countDays]
  -- no intermediate result is above 8030 years of 366 days
  obtain ⟨d₀, h₀, hd₀⟩ := checkedU32_of_range (n := asU32 ((d.year : ℤ) - 1970) * 365) (by rw [asU32]; omega)
  rw [asU32] at hd₀
  rw [h₀, pure_bind]
  obtain ⟨d₁, h₁, hd₁⟩ := checkedU32_of_range (n := d₀.toNat + leapYears d.year) (by omega)
  rw [h₁, pure_bind, hmonth]
  obtain ⟨index, h₂, hindex⟩ := checkedU32_of_range (n := (d.month : ℤ) - 1) (by have := d.month_range; omega)
  rw [h₂, pure_bind, show index.toNat = d.month - 1 by omega, hbefore, pure_bind]
  obtain ⟨d₃, h₃, hd₃⟩ := checkedU32_of_range (n := d₁.toNat + before) (by omega)
  rw [h₃, pure_bind]
  obtain ⟨d₄, h₄, hd₄⟩ := addLeapDay_natCast d.year (UInt32.ofNat d.month) (d := d₃) (by omega)
  rw [hmonth] at hd₄
  rw [h₄, pure_bind, hdays]
  obtain ⟨past, h₅, hpast⟩ := checkedU32_of_range (n := (d.day : ℤ) - 1) (by omega)
  rw [h₅, pure_bind]
  obtain ⟨days, h₆, hd₆⟩ := checkedU32_of_range (n := d₄.toNat + past.toNat) (by split at hd₄ <;> omega)
  refine ⟨days, h₆, ?_⟩
  rw [Date.number, hyears, hsum]
  omega

/-! ## The whole time -/

theorem parts_lt (t : Moment 1970) : ∀ n ∈ parts t, n < 100 := by
  have hmonth := t.date.month_range.2
  have hday := t.date.day_range.2.trans (daysInMonth_le _ _)
  have hhour := t.hour_lt
  have hminute := t.minute_lt
  have hsecond := t.second_lt
  simp only [parts, List.forall_mem_cons, List.not_mem_nil, false_imp_iff, implies_true, and_true]
  omega

theorem parseTimeParts_eq {t : Moment 1970} (hyear : t.date.year ≤ 9999) (rest : Text) :
    parseTimeParts t.date.year (partsText t ++ rest) = pure t.number := by
  have hpart : ∀ (what : String) (k n : ℕ), (parts t)[k]? = some n →
      parseSlice parseU32 what (partsText t ++ rest) (2 * k) 2 = pure (UInt32.ofNat n) := fun what k n hk =>
    parsePart_twoDigits (parts_lt t) what rest hk
  have hmonth := hpart "month" 0 t.date.month rfl
  have hday := hpart "day" 1 t.date.day rfl
  have hhour := hpart "hour" 2 t.hour rfl
  have hminute := hpart "minute" 3 t.minute rfl
  have hsecond := hpart "second" 4 t.second rfl
  obtain ⟨days, hdays, hnumber⟩ := countDays_eq hyear
  rw [parseTimeParts, hmonth, pure_bind, hday, pure_bind, hhour, pure_bind, hminute, pure_bind, hsecond, pure_bind,
    hdays,
    pure_bind]
  have htoNat : ∀ n ∈ parts t, (UInt32.ofNat n).toNat = n := fun n hn =>
    UInt32.toNat_ofNat_of_lt' ((parts_lt t n hn).trans (by decide))
  rw [htoNat t.hour (by simp [parts]), htoNat t.minute (by simp [parts]), htoNat t.second (by simp [parts]), hnumber,
    Moment.number]

/-- Of every time up to the year 9999 the code returns how many seconds after
1970-01-01T00:00:00 it is: the first one is 0, and each next second is one more. -/
theorem parseTimeParts_counts {t : Moment 1970} (hyear : t.date.year ≤ 9999) (rest : Text) :
    ∃ secs, (parseTimeParts t.date.year (partsText t ++ rest)).run = some (.ok secs) ∧
      ∀ n, Moment.next^[n] (.start 1970) = t ↔ n = secs :=
  ⟨t.number, by rw [parseTimeParts_eq hyear]; rfl, fun _ => Moment.iterate_next_eq_iff⟩

/-- The last second of a February in a leap year. -/
def leapDay : Moment 1970 :=
  ⟨⟨2024, 2, 29, by decide, by decide, by decide⟩, 23, 59, 59, by decide, by decide, by decide⟩

theorem parseTimeParts_counts_leapDay : ∃ secs, (parseTimeParts 2024 "0229235959Z".toList).run = some (.ok secs) ∧
    ∀ n, Moment.next^[n] (.start 1970) = leapDay ↔ n = secs :=
  parseTimeParts_counts (t := leapDay) (by decide) ['Z']

end GmKms.Audit
