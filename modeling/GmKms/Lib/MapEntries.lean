import Mathlib
/-!
# The entries of a map

What an insertion does to the list of entries, up to its order, to the number of values of a kind and to their sum.
-/

namespace Lib.MapEntries

variable {κ ν : Type*} [Ord κ] [Std.TransOrd κ] [Std.LawfulEqOrd κ]

theorem nodup_toList (m : Std.ExtTreeMap κ ν) : m.toList.Nodup := by
  refine m.distinct_keys_toList.imp fun h heq => h ?_
  rw [heq]
  exact Std.ReflCmp.compare_self

theorem mem_toList {m : Std.ExtTreeMap κ ν} {k : κ} {v : ν} : (k, v) ∈ m.toList ↔ m[k]? = some v :=
  Std.ExtTreeMap.mem_toList_iff_getElem?_eq_some

/-- The entry of a key, and those of the others. -/
theorem perm_cons_erase {m : Std.ExtTreeMap κ ν} {k : κ} {v : ν} (h : m[k]? = some v) :
    m.toList.Perm ((k, v) :: (m.erase k).toList) := by
  have hnot : (k, v) ∉ (m.erase k).toList := by
    rw [mem_toList, Std.ExtTreeMap.getElem?_erase_self]
    simp
  rw [List.perm_ext_iff_of_nodup (nodup_toList m) (List.nodup_cons.2 ⟨hnot, nodup_toList _⟩)]
  rintro ⟨k', v'⟩
  rw [List.mem_cons, mem_toList, mem_toList, Std.ExtTreeMap.getElem?_erase, Prod.mk.injEq]
  by_cases hk : k' = k
  · subst hk
    rw [h]
    simp [eq_comm]
  · have hne : compare k k' ≠ .eq := fun heq => hk (Std.compare_eq_iff_eq.1 heq).symm
    simp [hk, hne]

theorem insert_perm (m : Std.ExtTreeMap κ ν) (k : κ) (v : ν) :
    (m.insert k v).toList.Perm ((k, v) :: (m.erase k).toList) := by
  have herase : (m.insert k v).erase k = m.erase k := by
    ext k' : 1
    rw [Std.ExtTreeMap.getElem?_erase, Std.ExtTreeMap.getElem?_erase, Std.ExtTreeMap.getElem?_insert]
    split <;> rfl
  rw [← herase]
  exact perm_cons_erase Std.ExtTreeMap.getElem?_insert_self

/-- How many values are such that `p`. -/
def countP (p : ν → Bool) (m : Std.ExtTreeMap κ ν) : ℕ := m.toList.countP fun e => p e.2

omit [Std.LawfulEqOrd κ] in
theorem countP_empty (p : ν → Bool) : countP p (∅ : Std.ExtTreeMap κ ν) = 0 := by
  rw [countP, Std.ExtTreeMap.toList_eq_nil_iff.2 rfl, List.countP_nil]

theorem countP_insert (p : ν → Bool) (m : Std.ExtTreeMap κ ν) (k : κ) (v : ν) :
    countP p (m.insert k v) = countP p (m.erase k) + if p v then 1 else 0 := by
  rw [countP, (insert_perm m k v).countP_eq, List.countP_cons, countP]

theorem countP_of_some (p : ν → Bool) {m : Std.ExtTreeMap κ ν} {k : κ} {v : ν} (h : m[k]? = some v) :
    countP p m = countP p (m.erase k) + if p v then 1 else 0 := by
  rw [countP, (perm_cons_erase h).countP_eq, List.countP_cons, countP]

theorem erase_of_none {m : Std.ExtTreeMap κ ν} {k : κ} (h : m[k]? = none) : m.erase k = m := by
  ext k' : 1
  rw [Std.ExtTreeMap.getElem?_erase]
  split
  · rename_i heq
    rw [← Std.compare_eq_iff_eq.1 heq, h]
  · rfl

/-- An insertion under a new key. -/
theorem countP_insert_of_none (p : ν → Bool) {m : Std.ExtTreeMap κ ν} {k : κ} (h : m[k]? = none) (v : ν) :
    countP p (m.insert k v) = countP p m + if p v then 1 else 0 := by
  rw [countP_insert, erase_of_none h]

/-- The value of a key is replaced. -/
theorem countP_insert_add (p : ν → Bool) {m : Std.ExtTreeMap κ ν} {k : κ} {v : ν} (h : m[k]? = some v) (w : ν) :
    countP p (m.insert k w) + (if p v then 1 else 0) = countP p m + if p w then 1 else 0 := by
  rw [countP_insert, countP_of_some p h]
  omega

section

variable [AddCommMonoid ν]

/-- The sum of the values. -/
def total (m : Std.ExtTreeMap κ ν) : ν := (m.toList.map (·.2)).sum

omit [Std.LawfulEqOrd κ] in
theorem total_empty : (total (∅ : Std.ExtTreeMap κ ν) : ν) = 0 := by
  rw [total, Std.ExtTreeMap.toList_eq_nil_iff.2 rfl]
  rfl

/-- Adding to the value of a key, which is zero where there is none, adds to the sum. -/
theorem total_insert (m : Std.ExtTreeMap κ ν) (k : κ) (v : ν) :
    total (m.insert k (m[k]?.getD 0 + v)) = total m + v := by
  have hinsert : total (m.insert k (m[k]?.getD 0 + v)) = m[k]?.getD 0 + v + total (m.erase k) := by
    rw [total, ((insert_perm m k _).map _).sum_eq, List.map_cons, List.sum_cons, total]
  have hsplit : total m = m[k]?.getD 0 + total (m.erase k) := by
    cases hk : m[k]? with
    | none =>
      rw [erase_of_none hk, Option.getD_none, zero_add]
    | some w =>
      rw [total, ((perm_cons_erase hk).map _).sum_eq, List.map_cons, List.sum_cons, total, Option.getD_some]
  rw [hinsert, hsplit, add_right_comm]

end

end Lib.MapEntries
