import Mathlib
/-!
# Wildcard patterns

What a pattern with a wildcard means, and what a scan finds that takes every
piece between two wildcards at its first occurrence: the shortest prefix of the
text over which the pieces can be spread.
-/

namespace Lib

/-- The pattern matches the text: `star` stands for any list, every other letter for itself. -/
inductive Glob {α : Type*} (star : α) : List α → List α → Prop where
  | nil : Glob star [] []
  | letter {c : α} {p t : List α} (hc : c ≠ star) (h : Glob star p t) : Glob star (c :: p) (c :: t)
  | star {p t : List α} (u : List α) (h : Glob star p t) : Glob star (star :: p) (u ++ t)

namespace Glob

variable {α : Type*} {s : α} {p t : List α}

theorem nil_left_iff : Glob s [] t ↔ t = [] := by
  constructor
  · intro h
    cases h
    rfl
  · rintro rfl
    exact .nil

theorem letter_iff {c : α} (hc : c ≠ s) : Glob s (c :: p) t ↔ ∃ t', t = c :: t' ∧ Glob s p t' := by
  constructor
  · intro h
    cases h with
    | letter _ h => exact ⟨_, rfl, h⟩
    | star => exact absurd rfl hc
  · rintro ⟨t', rfl, h⟩
    exact .letter hc h

theorem star_iff : Glob s (s :: p) t ↔ ∃ u v, t = u ++ v ∧ Glob s p v := by
  constructor
  · intro h
    cases h with
    | letter hc => exact absurd rfl hc
    | star u h => exact ⟨u, _, rfl, h⟩
  · rintro ⟨u, v, rfl, h⟩
    exact .star u h

/-! ## Pieces -/

/-- The pieces lie in the text one after the other, the last one at its end, with anything before each. -/
def Spread : List (List α) → List α → Prop
  | [], t => t = []
  | p :: ps, t => ∃ gap rest, t = gap ++ (p ++ rest) ∧ Spread ps rest

theorem spread_gap {ps : List (List α)} (hps : ps ≠ []) (gap : List α) (h : Spread ps t) : Spread ps (gap ++ t) := by
  cases ps with
  | nil => exact absurd rfl hps
  | cons p ps =>
    obtain ⟨gap', rest, rfl, hrest⟩ := h
    exact ⟨gap ++ gap', rest, (List.append_assoc ..).symm, hrest⟩

theorem spread_nil_cons_iff {ps : List (List α)} (hps : ps ≠ []) : Spread ([] :: ps) t ↔ Spread ps t := by
  constructor
  · rintro ⟨gap, rest, rfl, h⟩
    exact spread_gap hps gap h
  · intro h
    exact ⟨[], t, rfl, h⟩

/-- Empty pieces change nothing, but one at the end leaves the end of the text free. -/
theorem spread_iff_filter {ps : List (List α)} : Spread ps t ↔
    ∃ w rest, t = w ++ rest ∧ Spread (ps.filter (!·.isEmpty)) w ∧ (ps.getLast? = some [] ∨ rest = []) := by
  induction ps generalizing t with
  | nil => simp [Spread]
  | cons p ps ih =>
    by_cases hps : ps = []
    · subst hps
      cases p with
      | nil => simp [Spread]
      | cons c p => simp [Spread]
    rw [show (p :: ps).getLast? = ps.getLast? by rw [List.getLast?_cons, List.getLast?_eq_some_getLast hps]; rfl]
    cases p with
    | nil => exact (spread_nil_cons_iff hps).trans ih
    | cons c p =>
      rw [List.filter_cons_of_pos rfl]
      constructor
      · rintro ⟨gap, _, rfl, h⟩
        obtain ⟨w, rest, rfl, hw, hend⟩ := ih.1 h
        exact ⟨gap ++ (c :: p ++ w), rest, by simp, ⟨gap, w, rfl, hw⟩, hend⟩
      · rintro ⟨_, rest, rfl, ⟨gap, w, rfl, hw⟩, hend⟩
        exact ⟨gap, w ++ rest, by simp, ih.2 ⟨w, rest, rfl, hw, hend⟩⟩

section

variable [BEq α] [LawfulBEq α]

theorem splitOn_cons_self (pattern : List α) : (s :: pattern).splitOn s = [] :: pattern.splitOn s := by
  rw [List.splitOn_cons_eq_if_modifyHead, if_pos (beq_self_eq_true s)]

theorem splitOn_cons_of_ne {c : α} (hc : c ≠ s) {pattern : List α} {ps : List (List α)}
    (h : pattern.splitOn s = p :: ps) : (c :: pattern).splitOn s = (c :: p) :: ps := by
  rw [List.splitOn_cons_eq_if_modifyHead, if_neg (by simpa using hc), h]
  rfl

omit [LawfulBEq α] in
theorem exists_splitOn (s : α) (pattern : List α) : ∃ p ps, pattern.splitOn s = p :: ps :=
  List.exists_cons_of_ne_nil (List.splitOn_ne_nil s pattern)

/-- A pattern is its first piece and, after each wildcard, one more. -/
theorem iff_spread {pattern : List α} {ps : List (List α)} (h : pattern.splitOn s = p :: ps) :
    Glob s pattern t ↔ ∃ rest, t = p ++ rest ∧ Spread ps rest := by
  induction pattern generalizing p ps t with
  | nil =>
    obtain ⟨rfl, rfl⟩ : [] = p ∧ [] = ps := by simpa using h
    simp [nil_left_iff, Spread]
  | cons c pattern ih =>
    obtain ⟨q, qs, hq⟩ := exists_splitOn s pattern
    by_cases hc : c = s
    · subst hc
      rw [splitOn_cons_self, hq] at h
      obtain ⟨rfl, rfl⟩ := List.cons.inj h
      rw [star_iff]
      constructor
      · rintro ⟨u, v, rfl, hv⟩
        obtain ⟨rest, rfl, hrest⟩ := (ih hq).1 hv
        exact ⟨_, rfl, u, rest, rfl, hrest⟩
      · rintro ⟨-, rfl, u, rest, rfl, hrest⟩
        exact ⟨u, _, rfl, (ih hq).2 ⟨rest, rfl, hrest⟩⟩
    · rw [splitOn_cons_of_ne hc hq] at h
      obtain ⟨rfl, rfl⟩ := List.cons.inj h
      rw [letter_iff hc]
      constructor
      · rintro ⟨t', rfl, ht'⟩
        obtain ⟨rest, rfl, hrest⟩ := (ih hq).1 ht'
        exact ⟨rest, rfl, hrest⟩
      · rintro ⟨rest, rfl, hrest⟩
        exact ⟨_, rfl, (ih hq).2 ⟨rest, rfl, hrest⟩⟩

/-- A pattern ends with a wildcard if its last piece is empty. -/
theorem getLast?_splitOn_iff {pattern : List α} {ps : List (List α)} (h : pattern.splitOn s = p :: ps) :
    ps.getLast? = some [] ↔ pattern.getLast? = some s := by
  induction pattern generalizing p ps with
  | nil =>
    obtain ⟨rfl, rfl⟩ : [] = p ∧ [] = ps := by simpa using h
    simp
  | cons c pattern ih =>
    obtain ⟨q, qs, hq⟩ := exists_splitOn s pattern
    have hjoin : pattern = [s].intercalate (q :: qs) := by rw [← hq, List.intercalate_splitOn]
    by_cases hc : c = s
    · subst hc
      rw [splitOn_cons_self, hq] at h
      obtain ⟨rfl, rfl⟩ := List.cons.inj h
      cases pattern with
      | nil =>
        obtain ⟨rfl, rfl⟩ : [] = q ∧ [] = qs := by simpa using hq
        simp
      | cons d pattern =>
        rw [List.getLast?_cons_cons, ← ih hq]
        cases qs with
        | nil =>
          have hq' : q ≠ [] := by
            rintro rfl
            simp at hjoin
          simpa using hq'
        | cons => rw [List.getLast?_cons_cons]
    · rw [splitOn_cons_of_ne hc hq] at h
      obtain ⟨rfl, rfl⟩ := List.cons.inj h
      cases pattern with
      | nil =>
        obtain ⟨rfl, rfl⟩ : [] = q ∧ [] = qs := by simpa using hq
        simpa using hc
      | cons d pattern => rw [List.getLast?_cons_cons, ih hq]

end

/-! ## The scan -/

variable [DecidableEq α]

/-- What comes before and after the first occurrence of a piece. -/
def first? (p : List α) : List α → Option (List α × List α)
  | [] => if p = [] then some ([], []) else none
  | c :: t => if p <+: c :: t then some ([], (c :: t).drop p.length) else (first? p t).map fun r => (c :: r.1, r.2)

/-- The text after all pieces, each one at its first occurrence after the one before. -/
def scan : List (List α) → List α → Option (List α)
  | [], t => some t
  | p :: ps, t => (first? p t).bind fun r => scan ps r.2

theorem first?_append (p t : List α) : first? p (p ++ t) = some ([], t) := by
  cases h : p ++ t with
  | nil =>
    obtain ⟨rfl, rfl⟩ := List.append_eq_nil_iff.1 h
    rfl
  | cons c t' => rw [first?, if_pos (h ▸ List.prefix_append p t), ← h, List.drop_left]

theorem eq_of_first? {r : List α × List α} (h : first? p t = some r) : t = r.1 ++ (p ++ r.2) := by
  induction t generalizing r with
  | nil =>
    rw [first?] at h
    split at h
    · rename_i hp
      cases h
      rw [hp]
      rfl
    · cases h
  | cons c t ih =>
    rw [first?] at h
    split at h
    · rename_i hp
      cases h
      obtain ⟨rest, hrest⟩ := hp
      rw [← hrest, List.drop_left]
      rfl
    · obtain ⟨r', hr', rfl⟩ := Option.map_eq_some_iff.1 h
      rw [List.cons_append, ← ih hr']

/-- No occurrence comes before the first. -/
theorem first?_least (gap rest : List α) : ∃ r x, first? p (gap ++ (p ++ rest)) = some r ∧ r.2 = x ++ rest := by
  induction gap with
  | nil => exact ⟨([], rest), [], first?_append p rest, rfl⟩
  | cons c gap ih =>
    obtain ⟨r, x, hr, hx⟩ := ih
    rw [List.cons_append, first?]
    split
    · rename_i hp
      obtain ⟨rest', hrest'⟩ := hp
      rw [← hrest', List.drop_left]
      have hlen : rest.length ≤ rest'.length := by
        have := congrArg List.length hrest'
        simp only [List.length_append, List.length_cons] at this
        omega
      have hsuffix : rest <:+ rest' := by
        refine @List.suffix_of_suffix_length_le _ _ (p ++ rest') _ ?_ (List.suffix_append p rest') hlen
        rw [hrest', ← List.cons_append, ← List.append_assoc]
        exact List.suffix_append _ rest
      obtain ⟨x', rfl⟩ := hsuffix
      exact ⟨_, x', rfl, rfl⟩
    · exact ⟨(c :: r.1, r.2), x, by rw [hr]; rfl, hx⟩

theorem spread_of_scan {ps : List (List α)} {rest : List α} (h : scan ps t = some rest) :
    ∃ w, t = w ++ rest ∧ Spread ps w := by
  induction ps generalizing t with
  | nil =>
    cases h
    exact ⟨[], rfl, rfl⟩
  | cons p ps ih =>
    obtain ⟨r, hr, hscan⟩ := Option.bind_eq_some_iff.1 h
    obtain ⟨w, hw, hspread⟩ := ih hscan
    exact ⟨r.1 ++ (p ++ w), by rw [eq_of_first? hr, hw]; simp, r.1, w, rfl, hspread⟩

/-- The scan ends no later than any other way to spread the pieces, wherever that one starts. -/
theorem scan_least {ps : List (List α)} {w : List α} (h : Spread ps w) (x rest : List α) :
    ∃ y, scan ps (x ++ (w ++ rest)) = some (y ++ rest) := by
  induction ps generalizing x w with
  | nil =>
    cases h
    exact ⟨x, rfl⟩
  | cons p ps ih =>
    obtain ⟨gap, w, rfl, hw⟩ := h
    obtain ⟨r, x', hr, hx'⟩ := first?_least (p := p) (x ++ gap) (w ++ rest)
    obtain ⟨y, hy⟩ := ih hw x'
    refine ⟨y, ?_⟩
    rw [show x ++ (gap ++ (p ++ w) ++ rest) = x ++ gap ++ (p ++ (w ++ rest)) by simp, scan, hr, Option.bind_some, hx',
      hy]

/-- The scan uses up the text if the pieces can be spread over it, but over no shorter prefix. -/
theorem scan_eq_nil_iff {ps : List (List α)} :
    scan ps t = some [] ↔ Spread ps t ∧ ∀ w rest, t = w ++ rest → Spread ps w → rest = [] := by
  constructor
  · intro h
    refine ⟨?_, fun w rest ht hw => ?_⟩
    · obtain ⟨w, rfl, hw⟩ := spread_of_scan h
      rwa [List.append_nil]
    · obtain ⟨y, hy⟩ := scan_least hw [] rest
      rw [List.nil_append, ← ht, h] at hy
      exact (List.append_eq_nil_iff.1 (Option.some.inj hy).symm).2
  · rintro ⟨h, hleast⟩
    obtain ⟨y, hy⟩ := scan_least h [] []
    rw [List.nil_append, List.append_nil, List.append_nil] at hy
    obtain ⟨w, hw, hspread⟩ := spread_of_scan hy
    rw [hy, hleast w y hw hspread]

theorem isSome_scan_iff {ps : List (List α)} :
    (scan ps t).isSome ↔ ∃ w rest, t = w ++ rest ∧ Spread ps w := by
  rw [Option.isSome_iff_exists]
  constructor
  · rintro ⟨rest, h⟩
    obtain ⟨w, ht, hw⟩ := spread_of_scan h
    exact ⟨w, rest, ht, hw⟩
  · rintro ⟨w, rest, rfl, hw⟩
    obtain ⟨y, hy⟩ := scan_least hw [] rest
    exact ⟨_, hy⟩

end Glob

end Lib
