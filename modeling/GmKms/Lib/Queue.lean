import GmKms.Lib.Machine
/-!
# Queues with repetitions

A queue into which the same key may go again while it still waits. Its keys come
in the order of their first places; `Older` compares their last ones.
-/

namespace Lib.Queue

variable {κ : Type*} [DecidableEq κ]

/-- `k'` is queued once more after the last place of `k`. -/
def Older (q : List κ) (k k' : κ) : Prop := k' ∈ History.since (· = k) q

instance (q : List κ) (k k' : κ) : Decidable (Older q k k') := inferInstanceAs (Decidable (_ ∈ _))

/-- The keys of which `p` holds, by their first places. -/
def firsts (p : κ → Bool) (q : List κ) : List κ := (q.filter p).eraseDups

variable {q t : List κ} {k k' v : κ}

/-! ## Last places -/

theorem not_older_concat : ¬ Older (q ++ [k]) k k' := by
  rw [Older, History.since_append_of_pos (by simp)]
  exact List.not_mem_nil

theorem older_concat (hne : v ≠ k) : Older (q ++ [v]) k k' ↔ Older q k k' ∨ k' = v := by
  rw [Older, Older, History.since_append_of_neg (by simpa using hne), List.mem_append, List.mem_singleton]

/-- Behind a place of the key, what was queued before does not count. -/
theorem older_append_of_mem (hk : k ∈ t) : Older (q ++ t) k k' ↔ Older t k k' := by
  induction t using List.reverseRecOn with
  | nil => cases hk
  | append_singleton t v ih =>
    rw [← List.append_assoc]
    by_cases hv : v = k
    · subst hv
      exact iff_of_false not_older_concat not_older_concat
    · rw [older_concat hv, older_concat hv]
      rcases List.mem_append.1 hk with hk | hk
      · rw [ih hk]
      · exact absurd (List.mem_singleton.1 hk).symm hv

theorem older_append_of_notMem (hk : k ∉ t) : Older (q ++ t) k k' ↔ Older q k k' ∨ k' ∈ t := by
  have ht : ∀ e ∈ t, decide (e = k) = false := fun e he => decide_eq_false fun heq => hk (heq ▸ he)
  rw [Older, Older, History.since_append ht, List.mem_append]

/-- A place of a third key may go. -/
theorem older_erase (hk : k ≠ v) (hk' : k' ≠ v) : Older (q.erase v) k k' ↔ Older q k k' := by
  by_cases hv : v ∈ q
  · obtain ⟨s, t, -, rfl, herase⟩ := List.exists_erase_eq hv
    rw [herase]
    by_cases ht : k ∈ t
    · rw [older_append_of_mem ht, older_append_of_mem (List.mem_cons_of_mem v ht), ← List.singleton_append,
        older_append_of_mem ht]
    · rw [older_append_of_notMem ht, older_append_of_notMem (by simp [hk, ht])]
      simp [hk']
  · rw [List.erase_of_not_mem hv]

/-! ## First places -/

variable {p : κ → Bool}

theorem mem_firsts : k ∈ firsts p q ↔ k ∈ q ∧ p k = true := by
  rw [firsts, List.mem_eraseDups, List.mem_filter]

theorem firsts_nil : firsts p [] = [] := rfl

theorem firsts_cons_of_neg (hv : p v = false) : firsts p (v :: q) = firsts p q := by
  rw [firsts, List.filter_cons_of_neg (by simp [hv]), firsts]

theorem firsts_cons_of_pos (hv : p v = true) : firsts p (v :: q) = v :: firsts (fun k => !k == v && p k) q := by
  rw [firsts, List.filter_cons_of_pos hv, List.eraseDups_cons, List.filter_filter, firsts]

theorem nodup_firsts : (firsts p q).Nodup := by
  induction q generalizing p with
  | nil => exact List.nodup_nil
  | cons v q ih =>
    cases hv : p v with
    | false =>
      rw [firsts_cons_of_neg hv]
      exact ih
    | true =>
      rw [firsts_cons_of_pos hv]
      refine List.nodup_cons.2 ⟨fun hmem => ?_, ih⟩
      simpa using (mem_firsts.1 hmem).2

theorem firsts_congr {p' : κ → Bool} (h : ∀ k ∈ q, p k = p' k) : firsts p q = firsts p' q := by
  rw [firsts, firsts, List.filter_congr h]

end Lib.Queue
