import GmKms.Audit.GenTime
/-!
# Times in range

Which texts `read_time` can read, in the order of their fields: a field ends inside a character, or is not a number, or
names no day that is counted.
-/

namespace GmKms.Audit

open Lib Lib.Text

/-- The bytes of the year, if the text is long enough to be read. -/
def yearWidth (tag : UInt8) (t : Text) : Option ℕ :=
  if tag = 0x17 ∧ 12 ≤ byteLen t then some 2 else if tag = 0x18 ∧ 14 ≤ byteLen t then some 4 else none

/-- The year that a number in `width` bytes names. -/
def fullYear (width : ℕ) (n : ℤ) : ℤ := if width = 2 then if 50 ≤ n then 1900 + n else 2000 + n else n

def yearField (t : Text) (width : ℕ) : Option ℤ := (slice t 0 width).bind parseI32

/-- Month, day, hour, minute and second, counted from 0. -/
def partField (t : Text) (width k : ℕ) : Option UInt32 := (slice t (width + 2 * k) 2).bind parseU32

/-- Of the fields up to the first that is not a number none ends inside a character, and if all are numbers they name a
month and a day of a year from 1970 on. -/
structure TimeInRange (t : Text) (width : ℕ) : Prop where
  cut : ∀ k ≤ 5, (0 < k → (yearField t width).isSome) → (∀ j, j + 1 < k → (partField t width j).isSome) →
    IsCharBoundary t (width + 2 * k)
  date : ∀ year, yearField t width = some year → (∀ k < 5, (partField t width k).isSome) →
    1970 ≤ fullYear width year ∧ (∀ month, partField t width 0 = some month → 1 ≤ month ∧ month ≤ 12) ∧
      ∀ day, partField t width 1 = some day → 1 ≤ day

/-- All fields are numbers. -/
def TimeReads (t : Text) (width : ℕ) : Prop := (yearField t width).isSome ∧ ∀ k < 5, (partField t width k).isSome

theorem checkedU32_isSome {n : ℤ} : (checkedU32 n).run.isSome ↔ 0 ≤ n ∧ n < 2 ^ 32 := by
  rw [checkedU32, ExceptT.run_mk]
  split <;> simp_all

theorem checkedU32_of_range {n : ℤ} (h : 0 ≤ n ∧ n < 2 ^ 32) : ∃ d : UInt32, checkedU32 n = pure d ∧
    (d.toNat : ℤ) = n := by
  refine ⟨_, if_pos h, ?_⟩
  rw [UInt32.toNat_ofNat']
  omega

theorem leapYears_le (year : ℤ) : leapYears year ≤ (year - 1970).toNat := by
  refine List.countP_le_length.trans ?_
  rw [List.length_range]

theorem daysBefore_isSome {index : ℕ} : (daysBefore index).run.isSome ↔ index < 12 := by
  rw [daysBefore, ExceptT.run_mk, Option.isSome_map, isSome_getElem?]
  simp [daysBeforeMonth]

theorem daysBefore_of_lt {index : ℕ} (h : index < 12) : ∃ days ≤ 334, daysBefore index = pure days := by
  interval_cases index <;> exact ⟨_, by decide, rfl⟩

theorem addLeapDay_of_lt {d : UInt32} (year : ℤ) (month : UInt32) (h : d.toNat + 1 < 2 ^ 32) :
    ∃ d' : UInt32, addLeapDay year month d = pure d' ∧ d'.toNat ≤ d.toNat + 1 := by
  rw [addLeapDay]
  split
  · obtain ⟨d', hd', hdays⟩ := checkedU32_of_range (n := d.toNat + 1) (by omega)
    exact ⟨d', hd', by omega⟩
  · exact ⟨d, rfl, by omega⟩

/-- A year before 1970 is far above 0 as a `u32`, and 365 times that is too much. -/
theorem countDays_isSome {year : ℤ} {month day : UInt32} (hyear : -10000 < year ∧ year < 10000)
    (hday : day.toNat < 100) :
    (countDays year month day).run.isSome ↔ 1970 ≤ year ∧ (1 ≤ month ∧ month ≤ 12) ∧ 1 ≤ day := by
  rw [UInt32.le_iff_toNat_le, UInt32.le_iff_toNat_le, UInt32.le_iff_toNat_le, countDays]
  have hleap := leapYears_le year
  by_cases hy : 1970 ≤ year
  swap
  · refine iff_of_false (fun h => ?_) (fun h => hy h.1)
    have hfirst := checkedU32_isSome.1 (Panicking.isSome_bind.1 h).1
    rw [asU32] at hfirst
    omega
  obtain ⟨d, hd, hdays⟩ := checkedU32_of_range (n := asU32 (year - 1970) * 365) (by rw [asU32]; omega)
  have hdays' : d.toNat ≤ 8029 * 365 := by
    rw [asU32] at hdays
    omega
  rw [hd, pure_bind]
  obtain ⟨d₁, hd₁, hdays₁⟩ := checkedU32_of_range (n := d.toNat + leapYears year) (by omega)
  rw [hd₁, pure_bind]
  by_cases hm : 1 ≤ month.toNat
  swap
  · refine iff_of_false (fun h => ?_) (fun h => hm h.2.1.1)
    have hmonth := checkedU32_isSome.1 (Panicking.isSome_bind.1 h).1
    omega
  obtain ⟨index, hindex, hmonth⟩ := checkedU32_of_range (n := (month.toNat : ℤ) - 1) (by have := month.toNat_lt; omega)
  rw [hindex, pure_bind]
  by_cases hm' : month.toNat ≤ 12
  swap
  · refine iff_of_false (fun h => ?_) (fun h => hm' h.2.1.2)
    have hbefore := daysBefore_isSome.1 (Panicking.isSome_bind.1 h).1
    omega
  have hindex : index.toNat < 12 := by omega
  obtain ⟨before, hbefore, hdaysBefore⟩ := daysBefore_of_lt hindex
  rw [hdaysBefore, pure_bind]
  obtain ⟨d₂, hd₂, hdays₂⟩ := checkedU32_of_range (n := d₁.toNat + before) (by omega)
  rw [hd₂, pure_bind]
  obtain ⟨d₃, hd₃, hdays₃⟩ := addLeapDay_of_lt (d := d₂) year month (by omega)
  rw [hd₃, pure_bind]
  by_cases hday' : 1 ≤ day.toNat
  swap
  · refine iff_of_false (fun h => ?_) (fun h => hday' h.2.2)
    have hpast := checkedU32_isSome.1 (Panicking.isSome_bind.1 h).1
    omega
  obtain ⟨past, hpast, hdays₄⟩ := checkedU32_of_range (n := (day.toNat : ℤ) - 1) (by omega)
  rw [hpast, pure_bind]
  exact iff_of_true (checkedU32_isSome.2 (by omega)) ⟨hy, ⟨hm, hm'⟩, hday'⟩

theorem parseDigits_lt {t : Text} {n : ℕ} (h : parseDigits t = some n) : n < 10 ^ t.length := by
  rw [parseDigits] at h
  split at h
  · cases h
  · rename_i hdigits
    have hall : t.all Char.isDigit := by
      by_contra hnot
      exact hdigits (.inr hnot)
    cases h
    clear hdigits
    induction t using List.reverseRecOn with
    | nil => exact Nat.one_pos
    | append_singleton t c ih =>
      rw [List.all_append, Bool.and_eq_true] at hall
      have hc : c.toNat - '0'.toNat ≤ 9 := by
        have hdigit := hall.2
        rw [List.all_cons, List.all_nil, Bool.and_true, Char.isDigit, Bool.and_eq_true, decide_eq_true_eq,
          decide_eq_true_eq] at hdigit
        have hle : c.toNat ≤ 57 := hdigit.2
        change c.toNat - 48 ≤ 9
        omega
      have hlt := ih hall.1
      rw [List.foldl_append, List.foldl_cons, List.foldl_nil, List.length_append, List.length_singleton, Nat.pow_succ]
      omega

theorem parseU32_lt {t : Text} {n : UInt32} (h : parseU32 t = some n) : n.toNat < 10 ^ byteLen t := by
  obtain ⟨m, hm, rfl⟩ := Option.map_eq_some_iff.1 h
  have hdigits := parseDigits_lt (Option.filter_eq_some_iff.1 hm).1
  have hlen : (if t.head? = some '+' then t.tail else t).length ≤ byteLen t := by
    refine Nat.le_trans ?_ (length_le_byteLen t)
    split
    · rw [List.length_tail]
      omega
    · exact Nat.le_refl _
  rw [UInt32.toNat_ofNat']
  exact (Nat.mod_le _ _).trans_lt (hdigits.trans_le (Nat.pow_le_pow_right (by decide) hlen))

theorem parseI32_lt {t : Text} {n : ℤ} (h : parseI32 t = some n) : n.natAbs < 10 ^ byteLen t := by
  have htail : t.tail.length ≤ t.length := by
    rw [List.length_tail]
    omega
  have hlen := length_le_byteLen t
  have hle : ∀ u : Text, u.length ≤ t.length → 10 ^ u.length ≤ 10 ^ byteLen t := fun u hu =>
    Nat.pow_le_pow_right (by decide) (hu.trans hlen)
  rw [parseI32] at h
  split at h
  · obtain ⟨m, hm, rfl⟩ := Option.map_eq_some_iff.1 h
    have hdigits := parseDigits_lt (Option.filter_eq_some_iff.1 hm).1
    have := hle _ htail
    omega
  · obtain ⟨m, hm, rfl⟩ := Option.map_eq_some_iff.1 h
    have hdigits := parseDigits_lt (Option.filter_eq_some_iff.1 hm).1
    have : 10 ^ (if t.head? = some '+' then t.tail else t).length ≤ 10 ^ byteLen t := by
      split
      · exact hle _ htail
      · exact hle _ (Nat.le_refl _)
    omega

section

variable {t rest : Text} {width : ℕ}

theorem slice_isSome {start n : ℕ} : (slice t start n).isSome ↔ IsCharBoundary t start ∧
    IsCharBoundary t (start + n) := by
  rw [slice, ← sliceFrom_isSome_iff, ← sliceFrom_isSome_iff]
  cases hstart : sliceFrom t start with
  | none => simp
  | some u =>
    rw [Option.bind_some, sliceTo_isSome, sliceFrom_sliceFrom hstart]
    simp

theorem slice_rest (h : sliceFrom t width = some rest) (start n : ℕ) :
    slice rest start n = slice t (width + start) n := by
  rw [slice, slice, sliceFrom_sliceFrom h]

theorem byteLen_of_slice {u : Text} {start n : ℕ} (h : slice t start n = some u) : byteLen u = n := by
  obtain ⟨v, -, hu⟩ := Option.bind_eq_some_iff.1 h
  exact byteLen_of_sliceTo hu

variable {α : Type} {parse : Text → Option α} {what : String} {start n : ℕ}

theorem parseSlice_isSome : (parseSlice parse what t start n).run.isSome ↔ (slice t start n).isSome := by
  rw [parseSlice, ExceptT.run_mk, Option.isSome_map]

theorem parseSlice_eq_ok {a : α} :
    (parseSlice parse what t start n).run = some (.ok a) ↔ (slice t start n).bind parse = some a := by
  rw [parseSlice, ExceptT.run_mk]
  cases slice t start n with
  | none => simp
  | some u =>
    rw [Option.map_some, Option.bind_some]
    cases parse u <;> simp

/-- A number is read where a slice can be taken, and what comes next is done where it is a number. -/
theorem parseSlice_bind_isSome {β : Type} {f : α → Panicking β} :
    (parseSlice parse what t start n >>= f).run.isSome ↔ (IsCharBoundary t start ∧ IsCharBoundary t (start + n)) ∧
      ∀ a, (slice t start n).bind parse = some a → (f a).run.isSome := by
  rw [Panicking.isSome_bind, parseSlice_isSome, slice_isSome]
  simp only [parseSlice_eq_ok]

theorem partField_lt {k : ℕ} {m : UInt32} (h : partField t width k = some m) : m.toNat < 100 := by
  obtain ⟨u, hu, hm⟩ := Option.bind_eq_some_iff.1 h
  have hlt := parseU32_lt hm
  rwa [byteLen_of_slice hu] at hlt

theorem parseSlice_rest (hrest : sliceFrom t width = some rest) :
    parseSlice parse what rest start n = parseSlice parse what t (width + start) n := by
  rw [parseSlice, parseSlice, slice_rest hrest]

theorem parseSlice_of_some {a : α} (h : (slice t start n).bind parse = some a) :
    parseSlice parse what t start n = pure a := parseSlice_eq_ok.2 h

/-- One of the fields after the year, where the one before it ends. -/
theorem parsePart_isSome {β : Type} {f : UInt32 → Panicking β} (hrest : sliceFrom t width = some rest) (k : ℕ)
    (hstart : IsCharBoundary t (width + 2 * k)) :
    (parseSlice parseU32 what rest (2 * k) 2 >>= f).run.isSome ↔ IsCharBoundary t (width + 2 * (k + 1)) ∧
      ∀ m, partField t width k = some m → (f m).run.isSome := by
  rw [parseSlice_rest hrest, parseSlice_bind_isSome, and_iff_right hstart]
  rfl

/-- Field by field. -/
theorem parseTimeParts_isSome {year : ℤ} (hyear : -10000 < year ∧ year < 10000)
    (hrest : sliceFrom t width = some rest) :
    (parseTimeParts year rest).run.isSome ↔
      IsCharBoundary t (width + 2) ∧ ∀ month, partField t width 0 = some month →
      IsCharBoundary t (width + 4) ∧ ∀ day, partField t width 1 = some day →
      IsCharBoundary t (width + 6) ∧ ∀ hour, partField t width 2 = some hour →
      IsCharBoundary t (width + 8) ∧ ∀ minute, partField t width 3 = some minute →
      IsCharBoundary t (width + 10) ∧ ∀ second, partField t width 4 = some second →
        1970 ≤ year ∧ (1 ≤ month ∧ month ≤ 12) ∧ 1 ≤ day := by
  have hwidth : IsCharBoundary t width := sliceFrom_isSome_iff.1 (by rw [hrest]; rfl)
  refine (parsePart_isSome hrest 0 hwidth).trans (and_congr_right fun h₁ => forall₂_congr fun month _ => ?_)
  refine (parsePart_isSome hrest 1 h₁).trans (and_congr_right fun h₂ => forall₂_congr fun day hday => ?_)
  refine (parsePart_isSome hrest 2 h₂).trans (and_congr_right fun h₃ => forall₂_congr fun hour _ => ?_)
  refine (parsePart_isSome hrest 3 h₃).trans (and_congr_right fun h₄ => forall₂_congr fun minute _ => ?_)
  refine (parsePart_isSome hrest 4 h₄).trans (and_congr_right fun _ => forall₂_congr fun second _ => ?_)
  rw [Panicking.isSome_bind, countDays_isSome hyear (partField_lt hday)]
  exact and_iff_left fun _ _ => rfl

/-- The chain of the fields is `TimeInRange`. -/
theorem timeInRange_iff : TimeInRange t width ↔ IsCharBoundary t width ∧ ∀ year, yearField t width = some year →
      IsCharBoundary t (width + 2) ∧ ∀ month, partField t width 0 = some month →
      IsCharBoundary t (width + 4) ∧ ∀ day, partField t width 1 = some day →
      IsCharBoundary t (width + 6) ∧ ∀ hour, partField t width 2 = some hour →
      IsCharBoundary t (width + 8) ∧ ∀ minute, partField t width 3 = some minute →
      IsCharBoundary t (width + 10) ∧ ∀ second, partField t width 4 = some second →
        1970 ≤ fullYear width year ∧ (1 ≤ month ∧ month ≤ 12) ∧ 1 ≤ day := by
  constructor
  · intro h
    refine ⟨h.cut 0 (by omega) (by omega) (by omega), fun year hyear => ?_⟩
    have hcut : ∀ k < 5, (∀ j < k, (partField t width j).isSome) → IsCharBoundary t (width + 2 * (k + 1)) :=
      fun k hk hparts =>
      h.cut (k + 1) (by omega) (fun _ => by rw [hyear]; rfl) fun j hj => hparts j (by omega)
    have hsome : ∀ {k m}, partField t width k = some m → (partField t width k).isSome := fun h => by rw [h]; rfl
    refine ⟨hcut 0 (by omega) (by omega), fun month hmonth => ?_⟩
    refine ⟨hcut 1 (by omega) fun j hj => ?_, fun day hday => ?_⟩
    · interval_cases j
      exact hsome hmonth
    refine ⟨hcut 2 (by omega) fun j hj => ?_, fun hour hhour => ?_⟩
    · interval_cases j
      exacts [hsome hmonth, hsome hday]
    refine ⟨hcut 3 (by omega) fun j hj => ?_, fun minute hminute => ?_⟩
    · interval_cases j
      exacts [hsome hmonth, hsome hday, hsome hhour]
    refine ⟨hcut 4 (by omega) fun j hj => ?_, fun second hsecond => ?_⟩
    · interval_cases j
      exacts [hsome hmonth, hsome hday, hsome hhour, hsome hminute]
    obtain ⟨hy, hm, hd⟩ := h.date year hyear fun k hk => by
      interval_cases k
      exacts [hsome hmonth, hsome hday, hsome hhour, hsome hminute, hsome hsecond]
    exact ⟨hy, hm month hmonth, hd day hday⟩
  · rintro ⟨h₀, h⟩
    constructor
    · intro k hk hyear hparts
      have hpart : ∀ j, j + 1 < k → ∃ m, partField t width j = some m :=
        fun j hj => Option.isSome_iff_exists.1 (hparts j hj)
      by_cases hk₀ : k = 0
      · rw [hk₀]
        exact h₀
      obtain ⟨year, hyear⟩ := Option.isSome_iff_exists.1 (hyear (by omega))
      obtain ⟨h₁, h⟩ := h year hyear
      by_cases hk₁ : k = 1
      · rw [hk₁]
        exact h₁
      obtain ⟨month, hmonth⟩ := hpart 0 (by omega)
      obtain ⟨h₂, h⟩ := h month hmonth
      by_cases hk₂ : k = 2
      · rw [hk₂]
        exact h₂
      obtain ⟨day, hday⟩ := hpart 1 (by omega)
      obtain ⟨h₃, h⟩ := h day hday
      by_cases hk₃ : k = 3
      · rw [hk₃]
        exact h₃
      obtain ⟨hour, hhour⟩ := hpart 2 (by omega)
      obtain ⟨h₄, h⟩ := h hour hhour
      by_cases hk₄ : k = 4
      · rw [hk₄]
        exact h₄
      obtain ⟨minute, hminute⟩ := hpart 3 (by omega)
      obtain rfl : k = 5 := by omega
      exact (h minute hminute).1
    · intro year hyear hparts
      obtain ⟨month, hmonth⟩ := Option.isSome_iff_exists.1 (hparts 0 (by decide))
      obtain ⟨day, hday⟩ := Option.isSome_iff_exists.1 (hparts 1 (by decide))
      obtain ⟨hour, hhour⟩ := Option.isSome_iff_exists.1 (hparts 2 (by decide))
      obtain ⟨minute, hminute⟩ := Option.isSome_iff_exists.1 (hparts 3 (by decide))
      obtain ⟨second, hsecond⟩ := Option.isSome_iff_exists.1 (hparts 4 (by decide))
      obtain ⟨hy, hm, hd⟩ :=
        ((((((h year hyear).2 month hmonth).2 day hday).2 hour hhour).2 minute hminute).2 second hsecond)
      refine ⟨hy, fun month' hmonth' => ?_, fun day' hday' => ?_⟩
      · cases hmonth.symm.trans hmonth'
        exact hm
      · cases hday.symm.trans hday'
        exact hd

theorem checkedU32_quiet (n : ℤ) : (checkedU32 n).Quiet := by
  intro e he
  rw [checkedU32, ExceptT.run_mk] at he
  split at he <;> cases he

theorem countDays_quiet (year : ℤ) (month day : UInt32) : (countDays year month day).Quiet := by
  refine (checkedU32_quiet _).bind fun days => (checkedU32_quiet _).bind fun days => ?_
  refine (checkedU32_quiet _).bind fun index => .bind (fun e he => ?_) fun before => ?_
  · rw [daysBefore, ExceptT.run_mk] at he
    obtain ⟨_, -, he⟩ := Option.map_eq_some_iff.1 he
    cases he
  · refine (checkedU32_quiet _).bind fun days => .bind ?_ fun days => ?_
    · rw [addLeapDay]
      split
      · exact checkedU32_quiet _
      · exact .pure _
    · exact (checkedU32_quiet _).bind fun past => checkedU32_quiet _

/-- If it does not panic, what is read are numbers or it fails by one that is none. -/
theorem parseTimeParts_returns {year : ℤ} (hrest : sliceFrom t width = some rest) :
    (∃ secs, (parseTimeParts year rest).run = some (.ok secs)) ↔
      (parseTimeParts year rest).run.isSome ∧ ∀ k < 5, (partField t width k).isSome := by
  constructor
  · rintro ⟨secs, h⟩
    refine ⟨by rw [h]; rfl, ?_⟩
    obtain ⟨month, hmonth, h⟩ := Panicking.bind_eq_ok.1 h
    obtain ⟨day, hday, h⟩ := Panicking.bind_eq_ok.1 h
    obtain ⟨hour, hhour, h⟩ := Panicking.bind_eq_ok.1 h
    obtain ⟨minute, hminute, h⟩ := Panicking.bind_eq_ok.1 h
    obtain ⟨second, hsecond, h⟩ := Panicking.bind_eq_ok.1 h
    rw [parseSlice_rest hrest, parseSlice_eq_ok] at hmonth hday hhour hminute hsecond
    intro k hk
    interval_cases k
    exacts [Option.isSome_of_eq_some hmonth, Option.isSome_of_eq_some hday, Option.isSome_of_eq_some hhour,
      Option.isSome_of_eq_some hminute, Option.isSome_of_eq_some hsecond]
  · rintro ⟨hsome, hparts⟩
    obtain ⟨month, hmonth⟩ := Option.isSome_iff_exists.1 (hparts 0 (by decide))
    obtain ⟨day, hday⟩ := Option.isSome_iff_exists.1 (hparts 1 (by decide))
    obtain ⟨hour, hhour⟩ := Option.isSome_iff_exists.1 (hparts 2 (by decide))
    obtain ⟨minute, hminute⟩ := Option.isSome_iff_exists.1 (hparts 3 (by decide))
    obtain ⟨second, hsecond⟩ := Option.isSome_iff_exists.1 (hparts 4 (by decide))
    have hpart : ∀ {what k m}, partField t width k = some m → parseSlice parseU32 what rest (2 * k) 2 = pure m :=
      fun h => (parseSlice_rest hrest).trans (parseSlice_of_some h)
    have hmonth' : parseSlice parseU32 "month" rest 0 2 = pure month := hpart hmonth
    have hday' : parseSlice parseU32 "day" rest 2 2 = pure day := hpart hday
    have hhour' : parseSlice parseU32 "hour" rest 4 2 = pure hour := hpart hhour
    have hminute' : parseSlice parseU32 "minute" rest 6 2 = pure minute := hpart hminute
    have hsecond' : parseSlice parseU32 "second" rest 8 2 = pure second := hpart hsecond
    rw [parseTimeParts, hmonth', pure_bind, hday', pure_bind, hhour', pure_bind, hminute', pure_bind, hsecond',
      pure_bind] at hsome ⊢
    obtain ⟨days, hdays⟩ := (countDays_quiet year month day).eq_pure (Panicking.isSome_bind.1 hsome).1
    rw [hdays, pure_bind]
    exact ⟨_, rfl⟩

theorem yearField_lt {n : ℤ} (h : yearField t width = some n) : n.natAbs < 10 ^ width := by
  obtain ⟨u, hu, hn⟩ := Option.bind_eq_some_iff.1 h
  have hlt := parseI32_lt hn
  rwa [byteLen_of_slice hu] at hlt

theorem afterYear_isSome : (afterYear t width).run.isSome ↔ IsCharBoundary t width := by
  rw [afterYear, ExceptT.run_mk, Option.isSome_map, sliceFrom_isSome_iff]

theorem afterYear_eq_ok : (afterYear t width).run = some (.ok rest) ↔ sliceFrom t width = some rest := by
  rw [afterYear, ExceptT.run_mk]
  cases sliceFrom t width <;> simp

section

/-! Once the width of the year is known. -/

variable {f : ℤ → Text → Panicking ℕ}

theorem parseYear_isSome (hwidth : width = 2 ∨ width = 4)
    (hf : ∀ n rest, f n rest = parseTimeParts (fullYear width n) rest) :
    (parseSlice parseI32 what t 0 width >>= fun n => afterYear t width >>= f n).run.isSome ↔ TimeInRange t width := by
  have hstart : IsCharBoundary t 0 := ⟨[], t, rfl, rfl⟩
  rw [parseSlice_bind_isSome, and_iff_right hstart, Nat.zero_add, timeInRange_iff]
  refine and_congr_right fun hcut => forall₂_congr fun n hn => ?_
  obtain ⟨rest, hrest⟩ := Option.isSome_iff_exists.1 (sliceFrom_isSome_iff.2 hcut)
  have hyear : -10000 < fullYear width n ∧ fullYear width n < 10000 := by
    have hlt := yearField_lt hn
    rcases hwidth with rfl | rfl
    · rw [fullYear, if_pos rfl]
      split <;> omega
    · rw [fullYear, if_neg (by decide)]
      omega
  have hparts := parseTimeParts_isSome hyear hrest
  rw [Panicking.isSome_bind, afterYear_isSome, and_iff_right hcut]
  simp only [afterYear_eq_ok, hrest, Option.some.injEq, forall_eq', hf]
  exact hparts

theorem parseYear_returns (hf : ∀ n rest, f n rest = parseTimeParts (fullYear width n) rest) :
    (∃ secs, (parseSlice parseI32 what t 0 width >>= fun n => afterYear t width >>= f n).run = some (.ok secs)) ↔
      (parseSlice parseI32 what t 0 width >>= fun n => afterYear t width >>= f n).run.isSome ∧ TimeReads t width := by
  constructor
  · rintro ⟨secs, h⟩
    refine ⟨by rw [h]; rfl, ?_⟩
    obtain ⟨n, hn, h⟩ := Panicking.bind_eq_ok.1 h
    obtain ⟨rest, hrest, h⟩ := Panicking.bind_eq_ok.1 h
    rw [hf] at h
    exact ⟨Option.isSome_of_eq_some (parseSlice_eq_ok.1 hn),
      ((parseTimeParts_returns (afterYear_eq_ok.1 hrest)).1 ⟨secs, h⟩).2⟩
  · rintro ⟨hsome, hyear, hparts⟩
    obtain ⟨n, hn⟩ := Option.isSome_iff_exists.1 hyear
    have hn' : parseSlice parseI32 what t 0 width = pure n := parseSlice_of_some hn
    rw [hn', pure_bind] at hsome ⊢
    obtain ⟨rest, hrest⟩ := Option.isSome_iff_exists.1 (sliceFrom_isSome_iff.2 (afterYear_isSome.1
      (Panicking.isSome_bind.1 hsome).1))
    have hrest' : afterYear t width = pure rest := afterYear_eq_ok.2 hrest
    rw [hrest', pure_bind, hf] at hsome ⊢
    exact (parseTimeParts_returns hrest).2 ⟨hsome, hparts⟩

end

end

section

variable {tag : UInt8} {t : Text}

theorem parseTime_isSome :
    (parseTime tag t).run.isSome ↔ ∀ width, yearWidth tag t = some width → TimeInRange t width := by
  rw [parseTime, yearWidth]
  split
  · simp only [Option.some.injEq, forall_eq']
    exact parseYear_isSome (.inl rfl) fun n rest => rfl
  · split
    · simp only [Option.some.injEq, forall_eq']
      exact parseYear_isSome (.inr rfl) fun n rest => rfl
    · simp

theorem parseTime_returns : (∃ secs, (parseTime tag t).run = some (.ok secs)) ↔
    ∃ width, yearWidth tag t = some width ∧ TimeInRange t width ∧ TimeReads t width := by
  rw [parseTime, yearWidth]
  split
  · refine (@parseYear_returns _ 2 _ _ fun n rest => rfl).trans ?_
    rw [parseYear_isSome (.inl rfl) fun n rest => rfl]
    simp
  · split
    · refine (@parseYear_returns _ 4 _ _ fun n rest => rfl).trans ?_
      rw [parseYear_isSome (.inr rfl) fun n rest => rfl]
      simp
    · simp

theorem parseTimeParts_lt {year : ℤ} {rest : Text} {secs : ℕ} (h : (parseTimeParts year rest).run = some (.ok secs)) :
    secs < 2 ^ 63 := by
  obtain ⟨month, -, h⟩ := Panicking.bind_eq_ok.1 h
  obtain ⟨day, -, h⟩ := Panicking.bind_eq_ok.1 h
  obtain ⟨hour, -, h⟩ := Panicking.bind_eq_ok.1 h
  obtain ⟨minute, -, h⟩ := Panicking.bind_eq_ok.1 h
  obtain ⟨second, -, h⟩ := Panicking.bind_eq_ok.1 h
  obtain ⟨days, -, h⟩ := Panicking.bind_eq_ok.1 h
  have hsecs := Panicking.pure_eq_ok.1 h
  have hdays := days.toNat_lt
  have hhour := hour.toNat_lt
  have hminute := minute.toNat_lt
  have hsecond := second.toNat_lt
  omega

/-- A time that is read is one that the clock can show. -/
theorem parseTime_lt {secs : ℕ} (h : (parseTime tag t).run = some (.ok secs)) : secs < 2 ^ 63 := by
  rw [parseTime] at h
  split at h
  · obtain ⟨n, -, h⟩ := Panicking.bind_eq_ok.1 h
    obtain ⟨rest, -, h⟩ := Panicking.bind_eq_ok.1 h
    exact parseTimeParts_lt h
  · split at h
    · obtain ⟨n, -, h⟩ := Panicking.bind_eq_ok.1 h
      obtain ⟨rest, -, h⟩ := Panicking.bind_eq_ok.1 h
      exact parseTimeParts_lt h
    · exact absurd h Panicking.throw_ne_ok

end

end GmKms.Audit
