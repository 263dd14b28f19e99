import Mathlib
/-!
# Windows

A window of recent entries is a list of them, oldest first, from which an entry goes when
it is no longer live, and the oldest one when there are more than `max`. A new entry is
added only where no live entry is the same.

A trailing window counts events at times, in the order in which they happen. When each
event finds fewer than `max` earlier ones in the window that ends with it, no window of
that length has more than `max` events, wherever it begins.
-/

namespace Lib.ReplayWindow

variable {ε : Type*}

/-- The window with the entry added, or nothing when a live entry is the same. -/
def check (max : ℕ) (live same : ε → Bool) (e : ε) (window : List ε) : Option (List ε) :=
  let kept := window.filter live
  if kept.any same then none
  else if max < (kept ++ [e]).length then some (kept ++ [e]).tail
  else some (kept ++ [e])

/-- The window has the entry, with at most `n` later ones. -/
def Holds (e : ε) (n : ℕ) (window : List ε) : Prop :=
  ∃ older newer, window = older ++ e :: newer ∧ newer.length ≤ n

variable {max n : ℕ} {live same : ε → Bool} {e e' : ε} {window window' : List ε}

theorem Holds.mem (h : Holds e n window) : e ∈ window := by
  obtain ⟨older, newer, rfl, -⟩ := h
  simp

theorem Holds.mono {m : ℕ} (h : Holds e n window) (hnm : n ≤ m) : Holds e m window := by
  obtain ⟨older, newer, rfl, hlen⟩ := h
  exact ⟨older, newer, rfl, hlen.trans hnm⟩

theorem Holds.filter (h : Holds e n window) (he : live e = true) : Holds e n (window.filter live) := by
  obtain ⟨older, newer, rfl, hlen⟩ := h
  refine ⟨older.filter live, newer.filter live, ?_, (List.length_filter_le ..).trans hlen⟩
  rw [List.filter_append, List.filter_cons_of_pos he]

/-- A live entry that is the same is found. -/
theorem check_eq_none (hmem : e ∈ window) (hlive : live e = true) (hsame : same e = true) :
    check max live same e' window = none := by
  rw [check, if_pos (List.any_eq_true.2 ⟨e, List.mem_filter.2 ⟨hmem, hlive⟩, hsame⟩)]

/-- The entry that is added is the latest. -/
theorem holds_of_check (h : check max live same e window = some window') (hmax : 0 < max) : Holds e 0 window' := by
  rw [check] at h
  split at h
  · cases h
  split at h
  · cases h
    cases hkept : window.filter live with
    | nil => simp [hkept] at *; omega
    | cons k kept => exact ⟨kept, [], by simp, le_rfl⟩
  · cases h
    exact ⟨window.filter live, [], rfl, le_rfl⟩

/-- An entry stays in the window until `max` later ones have been added. -/
theorem Holds.check (h : Holds e n window) (he : live e = true) (hn : n + 1 < max)
    (hcheck : check max live same e' window = some window') : Holds e (n + 1) window' := by
  obtain ⟨older, newer, hkept, hlen⟩ := h.filter he
  rw [ReplayWindow.check, hkept] at hcheck
  split at hcheck
  · cases hcheck
  split at hcheck
  · rename_i hover
    cases hcheck
    cases older with
    | nil =>
      simp at hover
      omega
    | cons o older => exact ⟨older, newer ++ [e'], by simp, by simpa using hlen⟩
  · cases hcheck
    exact ⟨older, newer ++ [e'], by simp, by simpa using hlen⟩

/-- Where fewer than `max` entries are live, all of them stay. -/
theorem check_of_length_lt (hlen : (window.filter live).length < max)
    (hcheck : check max live same e window = some window') : window' = window.filter live ++ [e] := by
  have hfits : ¬max < (window.filter live ++ [e]).length := by simpa using hlen
  simp only [check, if_neg hfits] at hcheck
  split at hcheck
  · cases hcheck
  · cases hcheck
    rfl

end Lib.ReplayWindow

namespace Lib

section

variable {α : Type*} [LinearOrder α] [Add α] {max : ℕ} {w : α} {times : List α}

/-- Each event finds fewer than `max` earlier ones that are not `w` old. -/
def Trailing (max : ℕ) (w : α) (times : List α) : Prop :=
  ∀ before t after, times = before ++ t :: after → before.countP (t < · + w) < max

theorem trailing_nil : Trailing max w [] := by
  intro before t after h
  simp at h

theorem Trailing.append (h : Trailing max w times) {t : α} (ht : times.countP (t < · + w) < max) :
    Trailing max w (times ++ [t]) := by
  intro before u after hsplit
  rcases List.eq_nil_or_concat after with rfl | ⟨after, v, rfl⟩
  · obtain ⟨rfl, heq⟩ := List.append_inj' hsplit rfl
    cases heq
    exact ht
  · have hsplit' : times ++ [t] = (before ++ u :: after) ++ [v] := by simpa using hsplit
    obtain ⟨rfl, -⟩ := List.append_inj' hsplit' rfl
    exact h before u after rfl

theorem Trailing.of_append {t : α} (h : Trailing max w (times ++ [t])) :
    Trailing max w times ∧ times.countP (t < · + w) < max := by
  refine ⟨fun before u after hsplit => h before u (after ++ [t]) ?_, h times t [] rfl⟩
  rw [hsplit, List.append_assoc, List.cons_append]

/-- No window of length `w` has more than `max` events. -/
def Windowed (max : ℕ) (w : α) (times : List α) : Prop := ∀ a, times.countP (fun t => a ≤ t ∧ t < a + w) ≤ max

theorem windowed_nil : Windowed max w [] := fun _ => Nat.zero_le max

/-- The events of a window are all in the trailing window of its last one. -/
theorem Windowed.append [AddRightMono α] {t : α} (h : Windowed max w times) (ht : times.countP (t < · + w) < max) :
    Windowed max w (times ++ [t]) := by
  intro a
  rw [List.countP_append, List.countP_singleton]
  by_cases hin : a ≤ t ∧ t < a + w
  · have hle : times.countP (fun t => a ≤ t ∧ t < a + w) ≤ times.countP (t < · + w) := by
      refine List.countP_mono_left fun u _ hu => ?_
      simp only [decide_eq_true_eq] at hu ⊢
      exact hin.2.trans_le (add_le_add_left hu.1 w)
    rw [if_pos (decide_eq_true hin)]
    omega
  · rw [if_neg (by simpa using hin), Nat.add_zero]
    exact h a

theorem Trailing.windowed [AddRightMono α] (h : Trailing max w times) : Windowed max w times := by
  induction times using List.reverseRecOn with
  | nil => exact windowed_nil
  | append_singleton times t ih =>
    obtain ⟨hbefore, ht⟩ := h.of_append
    exact (ih hbefore).append ht

/-- One more event, no earlier than the others, keeps the bound exactly when it finds fewer than `max` in the window
that ends with it. -/
theorem windowed_append_iff [AddRightMono α] {t : α} (h : Windowed max w times) (hlast : ∀ u ∈ times, u ≤ t)
    (hpos : t < t + w) : Windowed max w (times ++ [t]) ↔ times.countP (t < · + w) < max := by
  constructor
  · intro happend
    -- the window that begins with the first of the events in question
    obtain ⟨a, ha, hfirst⟩ := ((t :: times).filter (t < · + w)).toFinset.exists_min_image id ⟨t, by simp [hpos]⟩
    have hat : a ≤ t := hfirst t (by simp [hpos])
    have hta : t < a + w := by simpa using (List.mem_filter.1 (List.mem_toFinset.1 ha)).2
    have hwindow := happend a
    rw [List.countP_append, List.countP_singleton, if_pos (decide_eq_true ⟨hat, hta⟩)] at hwindow
    refine lt_of_le_of_lt (List.countP_mono_left fun u hu hlt => ?_) (Nat.lt_of_succ_le hwindow)
    have hau : a ≤ u := hfirst u (by simp_all)
    exact decide_eq_true ⟨hau, (hlast u hu).trans_lt hta⟩
  · exact h.append

end

end Lib
