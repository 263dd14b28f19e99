import GmKms.Core.Types
import GmKms.Lib.ExceptRel
import GmKms.Lib.TextSlice
/-!
# The time of a timestamp

`read_time` on the text of an ASN.1 time. It slices the text by bytes and computes in `u32`, so it can panic: the inner
`none` of `ExceptT _ Option`.
-/

namespace GmKms.Audit

open Lib Lib.Text

/-- The variants of `AuditError` that the timestamp code makes. -/
inductive TimestampError where
  | internal (reason : String)
  | tsaFailed (reason : String)
  deriving DecidableEq, Repr

/-- A result, an error, or a panic. -/
abbrev Panicking := ExceptT TimestampError Option

namespace Panicking

variable {α β : Type}

/-- It fails only by a panic. -/
def Quiet (x : Panicking α) : Prop := ∀ e, x.run ≠ some (.error e)

theorem Quiet.pure (a : α) : Quiet (Pure.pure a : Panicking α) := nofun

theorem Quiet.bind {x : Panicking α} {f : α → Panicking β} (hx : Quiet x) (hf : ∀ a, Quiet (f a)) :
    Quiet (x >>= f) := by
  intro e he
  rw [ExceptT.run_bind] at he
  cases hrun : x.run with
  | none =>
    rw [hrun] at he
    cases he
  | some r =>
    rw [hrun] at he
    cases r with
    | error e' => exact hx e' hrun
    | ok a => exact hf a e he

theorem Quiet.eq_pure {x : Panicking α} (hx : Quiet x) (h : x.run.isSome) : ∃ a, x = Pure.pure a := by
  obtain ⟨r, hr⟩ := Option.isSome_iff_exists.1 h
  cases r with
  | error e => exact absurd hr (hx e)
  | ok a => exact ⟨a, hr⟩

end Panicking

/-- `parse` on digits. -/
def parseDigits (t : Text) : Option ℕ :=
  if t = [] ∨ ¬ t.all Char.isDigit then none else some (t.foldl (fun n c => n * 10 + (c.toNat - '0'.toNat)) 0)

/-- `parse::<u32>`. -/
def parseU32 (t : Text) : Option UInt32 :=
  ((parseDigits (if t.head? = some '+' then t.tail else t)).filter (· < 2 ^ 32)).map UInt32.ofNat

/-- `parse::<i32>`. -/
def parseI32 (t : Text) : Option ℤ :=
  if t.head? = some '-' then ((parseDigits t.tail).filter (· ≤ 2 ^ 31)).map fun n : ℕ => -(n : ℤ)
  else ((parseDigits (if t.head? = some '+' then t.tail else t)).filter (· < 2 ^ 31)).map fun n : ℕ => (n : ℤ)

/-- `&t[start..start + width]`. -/
def slice (t : Text) (start width : ℕ) : Option Text := (sliceFrom t start).bind (sliceTo · width)

/-- A slice that is parsed as a number. -/
def parseSlice {α : Type} (parse : Text → Option α) (what : String) (t : Text) (start width : ℕ) : Panicking α :=
  ExceptT.mk ((slice t start width).map fun field =>
    match parse field with
    | some n => .ok n
    | none => .error (.internal s!"invalid {what}: invalid digit found in string"))

/-- Checked arithmetic in `u32`. -/
def checkedU32 (n : ℤ) : Panicking UInt32 :=
  ExceptT.mk (if 0 ≤ n ∧ n < 2 ^ 32 then some (.ok (UInt32.ofNat n.toNat)) else none)

/-- `as u32`. -/
def asU32 (n : ℤ) : ℕ := (n % 2 ^ 32).toNat

def isLeap (year : ℤ) : Bool := year % 4 = 0 ∧ year % 100 ≠ 0 ∨ year % 400 = 0

def daysBeforeMonth : List ℕ := [0, 31, 59, 90, 120, 151, 181, 212, 243, 273, 304, 334]

/-- The leap years from 1970 on. -/
def leapYears (year : ℤ) : ℕ := (List.range (year - 1970).toNat).countP fun n : ℕ => isLeap (1970 + n)

def daysBefore (index : ℕ) : Panicking ℕ := ExceptT.mk (daysBeforeMonth[index]?.map .ok)

/-- After February of a leap year. -/
def addLeapDay (year : ℤ) (month days : UInt32) : Panicking UInt32 :=
  if 2 < month ∧ isLeap year then checkedU32 (days.toNat + 1) else pure days

/-- The days from 1970 on, as `parse_time_parts` counts them. -/
def countDays (year : ℤ) (month day : UInt32) : Panicking UInt32 := do
  let days ← checkedU32 (asU32 (year - 1970) * 365)
  let days ← checkedU32 (days.toNat + leapYears year)
  let index ← checkedU32 ((month.toNat : ℤ) - 1)
  let before ← daysBefore index.toNat
  let days ← checkedU32 (days.toNat + before)
  let days ← addLeapDay year month days
  let past ← checkedU32 ((day.toNat : ℤ) - 1)
  checkedU32 (days.toNat + past.toNat)

/-- The seconds fit an `i64`. -/
def parseTimeParts (year : ℤ) (rest : Text) : Panicking ℕ := do
  let month ← parseSlice parseU32 "month" rest 0 2
  let day ← parseSlice parseU32 "day" rest 2 2
  let hour ← parseSlice parseU32 "hour" rest 4 2
  let minute ← parseSlice parseU32 "minute" rest 6 2
  let second ← parseSlice parseU32 "second" rest 8 2
  let days ← countDays year month day
  return days.toNat * 86400 + hour.toNat * 3600 + minute.toNat * 60 + second.toNat

/-- `&time_str[n..]` after the year. -/
def afterYear (timeStr : Text) (n : ℕ) : Panicking Text := ExceptT.mk ((sliceFrom timeStr n).map .ok)

/-- `read_time` once the text is read. -/
def parseTime (tag : UInt8) (timeStr : Text) : Panicking ℕ :=
  if tag = 0x17 ∧ 12 ≤ byteLen timeStr then do
    let yy ← parseSlice parseI32 "UTCTime year" timeStr 0 2
    let rest ← afterYear timeStr 2
    parseTimeParts (if 50 ≤ yy then 1900 + yy else 2000 + yy) rest
  else if tag = 0x18 ∧ 14 ≤ byteLen timeStr then do
    let year ← parseSlice parseI32 "GeneralizedTime year" timeStr 0 4
    let rest ← afterYear timeStr 4
    parseTimeParts year rest
  else
    let text := String.ofList timeStr
    throw (.internal s!"invalid time format: {text}")

example : (parseTime 0x18 "20240229123456Z".toList).run = some (.ok 1709210096) := by decide +kernel

end GmKms.Audit
