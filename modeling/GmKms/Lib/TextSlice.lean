import GmKms.Lib.Glob
import GmKms.Lib.Text
/-!
# Slices of a text

Rust addresses a `&str` by bytes of its UTF-8 form: a slice that does not start
between two characters of the text is refused.
-/

namespace Lib.Text

/-- `len`. -/
def byteLen (t : Text) : ℕ := (t.map Char.utf8Size).sum

@[simp] theorem byteLen_nil : byteLen [] = 0 := rfl

@[simp] theorem byteLen_cons (c : Char) (t : Text) : byteLen (c :: t) = c.utf8Size + byteLen t := List.sum_cons

@[simp] theorem byteLen_append (t t' : Text) : byteLen (t ++ t') = byteLen t + byteLen t' := by
  simp [byteLen]

theorem exists_byteLen_cons (c : Char) (t : Text) : ∃ n, byteLen (c :: t) = n + 1 := by
  have hpos := c.utf8Size_pos
  rw [byteLen_cons]
  exact ⟨c.utf8Size + byteLen t - 1, by omega⟩

theorem eq_nil_of_byteLen {t : Text} (h : byteLen t = 0) : t = [] := by
  cases t with
  | nil => rfl
  | cons c t =>
    have hpos := c.utf8Size_pos
    rw [byteLen_cons] at h
    omega

/-- `is_char_boundary`. -/
def IsCharBoundary (t : Text) (n : ℕ) : Prop := ∃ u v, t = u ++ v ∧ byteLen u = n

/-- `&t[n..]`, which panics beyond the text and within a character. -/
def sliceFrom : Text → ℕ → Option Text
  | t, 0 => some t
  | [], _ + 1 => none
  | c :: t, n + 1 => if c.utf8Size ≤ n + 1 then sliceFrom t (n + 1 - c.utf8Size) else none

theorem sliceFrom_append (u v : Text) : sliceFrom (u ++ v) (byteLen u) = some v := by
  induction u with
  | nil => rw [List.nil_append, byteLen_nil, sliceFrom]
  | cons c u ih =>
    obtain ⟨n, hn⟩ := exists_byteLen_cons c u
    rw [hn, List.cons_append, sliceFrom, ← hn, byteLen_cons, if_pos (Nat.le_add_right ..), Nat.add_sub_cancel_left, ih]

theorem eq_append_of_sliceFrom {t v : Text} {n : ℕ} (h : sliceFrom t n = some v) : ∃ u, t = u ++ v ∧ byteLen u = n := by
  induction t generalizing n with
  | nil =>
    cases n with
    | zero =>
      cases h
      exact ⟨[], rfl, rfl⟩
    | succ n => cases h
  | cons c t ih =>
    cases n with
    | zero =>
      cases h
      exact ⟨[], rfl, rfl⟩
    | succ n =>
      rw [sliceFrom] at h
      split at h
      · rename_i hle
        obtain ⟨u, rfl, hu⟩ := ih h
        exact ⟨c :: u, rfl, by rw [byteLen_cons, hu]; omega⟩
      · cases h

theorem sliceFrom_isSome_iff {t : Text} {n : ℕ} : (sliceFrom t n).isSome ↔ IsCharBoundary t n := by
  rw [Option.isSome_iff_exists]
  constructor
  · rintro ⟨v, hv⟩
    obtain ⟨u, ht, hu⟩ := eq_append_of_sliceFrom hv
    exact ⟨u, v, ht, hu⟩
  · rintro ⟨u, v, rfl, rfl⟩
    exact ⟨v, sliceFrom_append u v⟩

instance (t : Text) (n : ℕ) : Decidable (IsCharBoundary t n) := decidable_of_iff _ sliceFrom_isSome_iff

/-- `&t[..n]`. -/
def sliceTo : Text → ℕ → Option Text
  | _, 0 => some []
  | [], _ + 1 => none
  | c :: t, n + 1 => if c.utf8Size ≤ n + 1 then (sliceTo t (n + 1 - c.utf8Size)).map (c :: ·) else none

theorem sliceTo_isSome (t : Text) (n : ℕ) : (sliceTo t n).isSome = (sliceFrom t n).isSome := by
  induction t generalizing n with
  | nil => cases n <;> rfl
  | cons c t ih =>
    cases n with
    | zero => rfl
    | succ n =>
      rw [sliceTo, sliceFrom]
      split
      · rw [Option.isSome_map, ih]
      · rfl

theorem sliceTo_append (u v : Text) : sliceTo (u ++ v) (byteLen u) = some u := by
  induction u with
  | nil => rw [List.nil_append, byteLen_nil, sliceTo]
  | cons c u ih =>
    obtain ⟨n, hn⟩ := exists_byteLen_cons c u
    rw [hn, List.cons_append, sliceTo, ← hn, byteLen_cons, if_pos (Nat.le_add_right ..), Nat.add_sub_cancel_left, ih,
      Option.map_some]

theorem byteLen_of_sliceTo {t u : Text} {n : ℕ} (h : sliceTo t n = some u) : byteLen u = n := by
  induction t generalizing n u with
  | nil =>
    cases n with
    | zero =>
      cases h
      rfl
    | succ n => cases h
  | cons c t ih =>
    cases n with
    | zero =>
      cases h
      rfl
    | succ n =>
      rw [sliceTo] at h
      split at h
      · obtain ⟨v, hv, rfl⟩ := Option.map_eq_some_iff.1 h
        rw [byteLen_cons, ih hv]
        omega
      · cases h

theorem length_le_byteLen (t : Text) : t.length ≤ byteLen t := by
  induction t with
  | nil => exact Nat.le_refl 0
  | cons c t ih =>
    have hpos := c.utf8Size_pos
    rw [byteLen_cons, List.length_cons]
    omega

/-- A slice of a slice. -/
theorem sliceFrom_sliceFrom {t u : Text} {m : ℕ} (h : sliceFrom t m = some u) (n : ℕ) :
    sliceFrom u n = sliceFrom t (m + n) := by
  obtain ⟨v, rfl, rfl⟩ := eq_append_of_sliceFrom h
  clear h
  induction v with
  | nil => rw [byteLen_nil, Nat.zero_add, List.nil_append]
  | cons c v ih =>
    have hpos := c.utf8Size_pos
    obtain ⟨k, hk⟩ : ∃ k, byteLen (c :: v) + n = k + 1 := ⟨byteLen (c :: v) + n - 1, by rw [byteLen_cons]; omega⟩
    rw [hk, List.cons_append, sliceFrom, ← hk, byteLen_cons, if_pos (by omega), ih]
    congr 1
    omega

/-- Of two prefixes of a text the one with fewer bytes is a prefix of the other. -/
theorem exists_append_of_byteLen_le {u v u' v' : Text} (h : u ++ v = u' ++ v') (hle : byteLen u ≤ byteLen u') :
    ∃ w, u' = u ++ w ∧ v = w ++ v' := by
  rcases List.append_eq_append_iff.1 h with ⟨w, hu, hv⟩ | ⟨w, rfl, rfl⟩
  · exact ⟨w, hu, hv⟩
  · have hw : byteLen w = 0 := by
      rw [byteLen_append] at hle
      omega
    rw [eq_nil_of_byteLen hw]
    exact ⟨[], by simp, rfl⟩

/-- `find`: the byte at which the first occurrence starts. -/
def find (t part : Text) : Option ℕ := go 0 t
where
  go (n : ℕ) : Text → Option ℕ
    | [] => if part = [] then some n else none
    | c :: t => if part <+: c :: t then some n else go (n + c.utf8Size) t

theorem find_go_eq (part t : Text) (n : ℕ) : find.go part n t = (Glob.first? part t).map fun r => n + byteLen r.1 := by
  induction t generalizing n with
  | nil =>
    rw [find.go, Glob.first?]
    split <;> rfl
  | cons c t ih =>
    rw [find.go, Glob.first?]
    split
    · rfl
    · rw [ih, Option.map_map]
      congr 1
      funext r
      simp [Nat.add_assoc]

theorem find_eq (t part : Text) : find t part = (Glob.first? part t).map fun r => byteLen r.1 := by
  rw [find, find_go_eq]
  simp

end Lib.Text
