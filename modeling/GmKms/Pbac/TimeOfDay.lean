import GmKms.Lib.Text
import GmKms.Pbac.Evaluate
/-!
# Conditions on the time of day

A range of times of day is one that a clock walks through, over midnight if it has to.
-/

namespace GmKms.Pbac

open Lib

/-! ## Walking a clock -/

/-- A clock with `day` minutes that walks from one minute forward until it is at `stop` comes by the other. -/
inductive Passes (day stop : ℕ) : ℕ → ℕ → Prop
  | here (now : ℕ) : Passes day stop now now
  | next {start now : ℕ} (hstop : start ≠ stop) (h : Passes day stop ((start + 1) % day) now) :
      Passes day stop start now

theorem Passes.range {day stop start now : ℕ} (hstart : start < day) (hstop : stop < day)
    (h : Passes day stop start now) :
    if start ≤ stop then start ≤ now ∧ now ≤ stop else start ≤ now ∧ now < day ∨ now ≤ stop := by
  induction h with
  | here => split <;> omega
  | @next start now hne _ ih =>
    have ih := ih (Nat.mod_lt _ (by omega))
    rcases Nat.lt_or_eq_of_le hstart with hlt | hlast
    · rw [Nat.mod_eq_of_lt hlt] at ih
      split at ih <;> split <;> omega
    · -- at midnight the clock starts again
      rw [← Nat.succ_eq_add_one, hlast, Nat.mod_self] at ih
      split at ih <;> split <;> omega

/-- The minutes that are left to walk. -/
def remaining (day stop start : ℕ) : ℕ := if start ≤ stop then stop - start else day + stop - start

theorem passes_of_range {day stop start now : ℕ} (hstart : start < day) (hstop : stop < day)
    (h : if start ≤ stop then start ≤ now ∧ now ≤ stop else start ≤ now ∧ now < day ∨ now ≤ stop) :
    Passes day stop start now := by
  induction hn : remaining day stop start generalizing start with
  | zero =>
    rw [remaining] at hn
    obtain rfl : start = now := by
      split at h <;> split at hn <;> omega
    exact .here start
  | succ n ih =>
    by_cases hnow : start = now
    · subst hnow
      exact .here start
    rw [remaining] at hn
    have hne : start ≠ stop := by
      rintro rfl
      rw [if_pos le_rfl] at hn
      omega
    refine .next hne (ih (Nat.mod_lt _ (by omega)) ?_ ?_)
    · rcases Nat.lt_or_eq_of_le hstart with hlt | hlast
      · rw [Nat.mod_eq_of_lt hlt]
        split at h <;> split <;> omega
      · rw [← Nat.succ_eq_add_one, hlast, Nat.mod_self]
        split at h <;> split <;> omega
    · rw [remaining]
      rcases Nat.lt_or_eq_of_le hstart with hlt | hlast
      · rw [Nat.mod_eq_of_lt hlt]
        split at hn <;> split <;> omega
      · rw [← Nat.succ_eq_add_one, hlast, Nat.mod_self]
        split at hn <;> split <;> omega

theorem passes_iff {day stop start now : ℕ} (hstart : start < day) (hstop : stop < day) : Passes day stop start now ↔
    if start ≤ stop then start ≤ now ∧ now ≤ stop else start ≤ now ∧ now < day ∨ now ≤ stop :=
  ⟨Passes.range hstart hstop, passes_of_range hstart hstop⟩

/-! ## Times of day -/

/-- A numeral, or one after a plus. -/
def Decimal (t : Text) (n : ℕ) : Prop := Numeral t n ∨ ∃ digits, t = '+' :: digits ∧ Numeral digits n

/-- The text `h:m` of a minute of the day. -/
def TimeOfDay (t : Text) (minute : ℕ) : Prop :=
  ∃ hours minutes h m, t = hours ++ ':' :: minutes ∧ Decimal hours h ∧ Decimal minutes m ∧ h < 24 ∧ m < 60 ∧
    minute = h * 60 + m

theorem parseU32_eq_some_iff_numeral {t digits : Text} {n : ℕ}
    (h : (if t.head? = some '+' then t.tail else t) = digits) :
    parseU32 t = some n ↔ Numeral digits n ∧ n < 2 ^ 32 := by
  rw [parseU32]
  simp only [h]
  by_cases hdigits : digits ≠ [] ∧ digits.all Char.isDigit = true
  · have hnumeral := Numeral.of_all_isDigit hdigits.1 hdigits.2
    rw [Nat.ofDigitChars_eq_foldl] at hnumeral
    rw [hdigits.2, List.isEmpty_eq_false_iff.2 hdigits.1, if_neg (by decide)]
    generalize digits.foldl (fun n c => 10 * n + (c.toNat - '0'.toNat)) 0 = value at hnumeral
    have hvalue : Numeral digits n ↔ value = n := by
      constructor
      · exact fun hn => hnumeral.ofDigitChars_eq.symm.trans hn.ofDigitChars_eq
      · rintro rfl
        exact hnumeral
    rw [hvalue]
    constructor
    · intro hn
      obtain ⟨hlt, heq⟩ := Option.ite_none_right_eq_some.1 hn
      cases heq
      exact ⟨rfl, hlt⟩
    · rintro ⟨rfl, hlt⟩
      exact if_pos hlt
  · rw [if_pos]
    · exact iff_of_false nofun fun hn => hdigits ⟨hn.1.ne_nil, hn.1.all_isDigit⟩
    · by_contra hnot
      simp only [Bool.or_eq_true, List.isEmpty_iff, Bool.not_eq_true', not_or, Bool.not_eq_false] at hnot
      exact hdigits hnot

theorem not_numeral_plus {t : Text} {n : ℕ} : ¬ Numeral ('+' :: t) n := by
  intro h
  have hall := h.all_isDigit
  rw [List.all_cons, Bool.and_eq_true] at hall
  exact absurd hall.1 (by decide)

theorem parseU32_eq_some_iff {t : Text} {n : ℕ} : parseU32 t = some n ↔ Decimal t n ∧ n < 2 ^ 32 := by
  by_cases hplus : t.head? = some '+'
  · obtain ⟨digits, rfl⟩ := List.head?_eq_some_iff.1 hplus
    rw [parseU32_eq_some_iff_numeral (if_pos hplus), List.tail_cons, Decimal]
    simp [not_numeral_plus]
  · rw [parseU32_eq_some_iff_numeral (if_neg hplus), Decimal]
    constructor
    · exact fun h => ⟨.inl h.1, h.2⟩
    · rintro ⟨h | ⟨digits, rfl, -⟩, hlt⟩
      · exact ⟨h, hlt⟩
      · exact absurd rfl hplus

/-- Each character of a number is a digit or a plus, so none is one of those that separate numbers. -/
theorem Decimal.not_mem {t : Text} {n : ℕ} (h : Decimal t n) {c : Char} (hplus : c ≠ '+') (hdigit : c.isDigit = false) :
    c ∉ t := by
  have hdigits : ∀ {digits : Text}, Numeral digits n → c ∉ digits := by
    intro digits hn hc
    exact absurd (List.all_eq_true.1 hn.all_isDigit c hc) (by rw [hdigit]; decide)
  rcases h with h | ⟨digits, rfl, h⟩
  · exact hdigits h
  · exact List.not_mem_cons_of_ne_of_not_mem hplus (hdigits h)

theorem parseTime_eq_some_iff {t : Text} {n : ℕ} : parseTime t = some n ↔ TimeOfDay t n := by
  rw [parseTime]
  constructor
  · intro h
    split at h
    · rename_i hours minutes hsplit
      obtain ⟨hour, hhour, h⟩ := Option.bind_eq_some_iff.1 h
      obtain ⟨minute, hminute, h⟩ := Option.bind_eq_some_iff.1 h
      obtain ⟨hlt, heq⟩ := Option.ite_none_right_eq_some.1 h
      rw [Bool.and_eq_true, decide_eq_true_eq, decide_eq_true_eq] at hlt
      have ht : t = hours ++ ':' :: minutes := by
        rw [← @List.intercalate_splitOn _ t _ _ ':', hsplit]
        simp
      exact ⟨hours, minutes, hour, minute, ht, (parseU32_eq_some_iff.1 hhour).1, (parseU32_eq_some_iff.1 hminute).1,
        hlt.1,
        hlt.2, (Option.some.inj heq).symm⟩
    · cases h
  · rintro ⟨hours, minutes, h, m, rfl, hhours, hminutes, hh, hm, rfl⟩
    have hsplit : (hours ++ ':' :: minutes).splitOn ':' = [hours, minutes] := by
      rw [List.splitOn_append_cons_self_of_not_mem (hhours.not_mem (by decide) (by decide)),
        List.splitOn_eq_singleton (hminutes.not_mem (by decide) (by decide))]
    rw [hsplit]
    simp only [parseU32_eq_some_iff.2 ⟨hhours, by omega⟩, parseU32_eq_some_iff.2 ⟨hminutes, by omega⟩, Option.bind_some]
    rw [if_pos (by simp [hh, hm])]

theorem TimeOfDay.lt {t : Text} {n : ℕ} (h : TimeOfDay t n) : n < 1440 := by
  obtain ⟨_, _, h, m, -, -, -, hh, hm, rfl⟩ := h
  omega

theorem TimeOfDay.not_mem {t : Text} {n : ℕ} (h : TimeOfDay t n) : '-' ∉ t := by
  obtain ⟨hours, minutes, _, _, rfl, hhours, hminutes, -, -, -⟩ := h
  simp [hhours.not_mem (c := '-') (by decide) (by decide), hminutes.not_mem (c := '-') (by decide) (by decide)]

/-! ## The conditions -/

/-- A range holds if both ends are times of day and the clock passes by the time's minute between them. -/
theorem evaluateTimeRange_iff {t : ℕ} (ht : t < 2 ^ 63) (system : ℕ) (startTime endTime : Text) :
    evaluateTimeRange ⟨.ok t, system⟩ startTime endTime = true ↔
      ∃ start stop, TimeOfDay startTime start ∧ TimeOfDay endTime stop ∧ Passes 1440 stop start (t / 60 % 1440) := by
  have hnow : ((t : ℤ) % 2 ^ 64).toNat = t := by omega
  have hminute : t % 86400 / 3600 * 60 + t % 3600 / 60 = t / 60 % 1440 := by omega
  have hlt : t / 60 % 1440 < 1440 := Nat.mod_lt _ (by decide)
  rw [evaluateTimeRange]
  simp only [hnow, hminute]
  generalize t / 60 % 1440 = now at hlt
  constructor
  · intro h
    split at h
    · rename_i start stop hstart hstop
      have hstart := parseTime_eq_some_iff.1 hstart
      have hstop := parseTime_eq_some_iff.1 hstop
      refine ⟨start, stop, hstart, hstop, (passes_iff hstart.lt hstop.lt).2 ?_⟩
      split <;> simp_all
    · cases h
  · rintro ⟨start, stop, hstart, hstop, h⟩
    have hrange := (passes_iff hstart.lt hstop.lt).1 h
    simp only [parseTime_eq_some_iff.2 hstart, parseTime_eq_some_iff.2 hstop]
    split at hrange <;> simp_all

theorem timeOfDay_of_evaluateTimeRange {time : TimeSource} {startTime endTime : Text}
    (h : evaluateTimeRange time startTime endTime = true) :
    ∃ start stop, TimeOfDay startTime start ∧ TimeOfDay endTime stop := by
  rw [evaluateTimeRange] at h
  split at h
  · rename_i start stop hstart hstop
    exact ⟨start, stop, parseTime_eq_some_iff.1 hstart, parseTime_eq_some_iff.1 hstop⟩
  · cases h

theorem eq_of_splitOn_eq_singleton {t p : Text} {c : Char} (h : t.splitOn c = [p]) : t = p := by
  rw [← @List.intercalate_splitOn _ t _ _ c, h]
  simp

/-- Two texts with a hyphen between them are cut into the two, or one of them is no time. -/
theorem evaluateTimeRange_splitOn (time : TimeSource) (startTime endTime : Text) :
    (match (startTime ++ '-' :: endTime).splitOn '-' with
      | [startTime, endTime] => evaluateTimeRange time startTime endTime
      | _ => false) = evaluateTimeRange time startTime endTime := by
  rw [List.splitOn_append_cons_self]
  obtain ⟨p, ps, hp⟩ := Glob.exists_splitOn '-' startTime
  obtain ⟨q, qs, hq⟩ := Glob.exists_splitOn '-' endTime
  rw [hp, hq]
  by_cases hone : ps = [] ∧ qs = []
  · obtain ⟨rfl, rfl⟩ := hone
    rw [eq_of_splitOn_eq_singleton hp, eq_of_splitOn_eq_singleton hq]
    rfl
  · have hfalse : evaluateTimeRange time startTime endTime = false := by
      by_contra htrue
      obtain ⟨start, stop, hstart, hstop⟩ := timeOfDay_of_evaluateTimeRange (Bool.not_eq_false _ ▸ htrue)
      rw [List.splitOn_eq_singleton hstart.not_mem] at hp
      rw [List.splitOn_eq_singleton hstop.not_mem] at hq
      exact hone ⟨(List.cons.inj hp).2.symm, (List.cons.inj hq).2.symm⟩
    rw [hfalse]
    split
    · rename_i heq
      have hlength := congrArg List.length heq
      simp only [List.length_append, List.length_cons, List.length_nil] at hlength
      exact absurd ⟨List.length_eq_zero_iff.1 (by omega), List.length_eq_zero_iff.1 (by omega)⟩ hone
    · rfl

section

variable {F : Type}

/-- The condition is a `time_range` with these ends. -/
structure IsTimeRange (startTime endTime : String) (fields : List (String × Json F)) : Prop where
  operator : Json.field? fields "operator" = some (.str "time_range")
  startTime : Json.field? fields "start" = some (.str startTime)
  endTime : Json.field? fields "end" = some (.str endTime)

/-- The condition is a `time_between` with this value. -/
structure IsTimeBetween (value : String) (fields : List (String × Json F)) : Prop where
  operator : Json.field? fields "operator" = some (.str "time_between")
  value : conditionArgs fields = some (.str value)

variable {fields : List (String × Json F)} (time : TimeSource) (ctx : PolicyContext F)

theorem evaluateCondition_timeRange {startTime endTime : String} (h : IsTimeRange startTime endTime fields) :
    evaluateCondition time ctx (.obj fields) = evaluateTimeRange time startTime.toList endTime.toList := by
  rw [evaluateCondition, h.operator, h.startTime, h.endTime]
  rfl

theorem evaluateCondition_timeBetween {startTime endTime : String}
    (h : IsTimeBetween s!"{startTime}-{endTime}" fields) :
    evaluateCondition time ctx (.obj fields) = evaluateTimeRange time startTime.toList endTime.toList := by
  have hvalue : (s!"{startTime}-{endTime}").toList = startTime.toList ++ '-' :: endTime.toList := by
    change (startTime ++ "-" ++ endTime).toList = _
    rw [String.toList_append, String.toList_append, List.append_assoc]
    rfl
  rw [evaluateCondition, h.operator, h.value, ← evaluateTimeRange_splitOn, ← hvalue]
  rfl

/-- The two forms of a range hold at a trusted time if both ends are times of day and the clock passes by that
time's minute on its way from the one to the other. -/
theorem evaluateCondition_time_iff {t : ℕ} (ht : t < 2 ^ 63) (system : ℕ) (startTime endTime : String)
    {range between : List (String × Json F)} (hrange : IsTimeRange startTime endTime range)
    (hbetween : IsTimeBetween s!"{startTime}-{endTime}" between) :
    (evaluateTimeRange ⟨.ok t, system⟩ startTime.toList endTime.toList = true ↔
      ∃ start stop, TimeOfDay startTime.toList start ∧ TimeOfDay endTime.toList stop ∧
        Passes 1440 stop start (t / 60 % 1440)) ∧
    evaluateCondition ⟨.ok t, system⟩ ctx (.obj range) =
      evaluateTimeRange ⟨.ok t, system⟩ startTime.toList endTime.toList ∧
    evaluateCondition ⟨.ok t, system⟩ ctx (.obj between) = evaluateCondition ⟨.ok t, system⟩ ctx (.obj range) := by
  refine ⟨evaluateTimeRange_iff ht system _ _, evaluateCondition_timeRange _ ctx hrange, ?_⟩
  rw [evaluateCondition_timeBetween _ ctx hbetween, evaluateCondition_timeRange _ ctx hrange]

/-- The documented forms. -/
def timeRange (startTime endTime : String) : List (String × Json F) :=
  [("operator", .str "time_range"), ("start", .str startTime), ("end", .str endTime)]

def timeBetween (value : String) : List (String × Json F) := [("operator", .str "time_between"), ("value", .str value)]

/-- At one in the morning of the first day, between ten in the evening and six. -/
theorem evaluateCondition_time_iff_overnight :
    (evaluateTimeRange ⟨.ok (3600 : ℕ), 0⟩ "22:00".toList "+6:00".toList = true ↔
      ∃ start stop, TimeOfDay "22:00".toList start ∧ TimeOfDay "+6:00".toList stop ∧
        Passes 1440 stop start (3600 / 60 % 1440)) ∧
    evaluateCondition ⟨.ok (3600 : ℕ), 0⟩ (⟨∅⟩ : PolicyContext Empty) (.obj (timeRange "22:00" "+6:00")) =
      evaluateTimeRange ⟨.ok (3600 : ℕ), 0⟩ "22:00".toList "+6:00".toList ∧
    evaluateCondition ⟨.ok (3600 : ℕ), 0⟩ (⟨∅⟩ : PolicyContext Empty) (.obj (timeBetween "22:00-+6:00")) =
      evaluateCondition ⟨.ok (3600 : ℕ), 0⟩ (⟨∅⟩ : PolicyContext Empty) (.obj (timeRange "22:00" "+6:00")) :=
  evaluateCondition_time_iff ⟨∅⟩ (by decide) 0 "22:00" "+6:00" ⟨rfl, rfl, rfl⟩ ⟨rfl, rfl⟩

end

end GmKms.Pbac
