import Mathlib
/-!
# Check, then act, then count

A limit on what is made that is checked against a counter before the act and counted after it. What several do at once
can exceed the limit, by one less than the number of those that are between their check and their count.
-/

namespace Lib.CheckThenAct

/-- What has been counted, how many have passed the check and not acted, and how many have acted and not been counted.
-/
@[ext] structure Tally where
  counted : ℕ
  admitted : ℕ
  owing : ℕ

namespace Tally

def made (t : Tally) : ℕ := t.counted + t.owing

def inside (t : Tally) : ℕ := t.admitted + t.owing

inductive Step (limit : ℕ) (t t' : Tally) : Prop
  | idle (hn : t'.counted = t.counted) (ha : t'.admitted = t.admitted) (ho : t'.owing = t.owing)
  | grant (h : t.counted < limit) (hn : t'.counted = t.counted) (ha : t'.admitted = t.admitted + 1)
      (ho : t'.owing = t.owing)
  | act (hn : t'.counted = t.counted) (ha : t'.admitted + 1 = t.admitted) (ho : t'.owing = t.owing + 1)
  | giveUp (hn : t'.counted = t.counted) (ha : t'.admitted + 1 = t.admitted) (ho : t'.owing = t.owing)
  | count (hn : t'.counted = t.counted + 1) (ha : t'.admitted = t.admitted) (ho : t'.owing + 1 = t.owing)

variable {limit c : ℕ} {t t' : Tally}

/-- Those who have passed the check will not make too much. -/
def Bounded (limit c : ℕ) (t : Tally) : Prop := t.made + t.admitted + 1 ≤ limit + c

theorem Step.bounded (h : Step limit t t') (hinside : t'.inside ≤ c) (ht : t.Bounded limit c) : t'.Bounded limit c := by
  unfold Bounded made inside at *
  cases h <;> omega

end Tally

end Lib.CheckThenAct
