import GmKms.Pbac.Glob
/-!
# The glob matcher of the typed core layer

`kms_core::policy` has a `glob_match` of its own. It scans the text from its start, the engine's from
behind as many bytes as the first piece is long; the two part where a leading star stands for less.
-/

namespace GmKms.Pbac

open Lib Lib.Text

namespace Core

/-- The loop over the pieces, `part` being the `i`-th. The outer `none` is a panic, the inner one the answer `false`. -/
def globLoop (pattern text : Text) (i pos : ℕ) : List Text → Option (Option ℕ)
  | [] => some (some pos)
  | part :: parts =>
    if part.isEmpty then globLoop pattern text (i + 1) pos parts
    else
      (sliceFrom text pos).bind fun rest =>
        match find rest part with
        | some idx =>
          if i = 0 ∧ pattern.head? ≠ some '*' ∧ idx ≠ 0 then some none
          else globLoop pattern text (i + 1) (pos + (idx + byteLen part)) parts
        | none => some none

/-- `kms_core::policy::glob_match`. -/
def globMatch (pattern text : Text) : Option Bool :=
  if pattern = ['*'] then some true
  else
    (globLoop pattern text 0 0 (pattern.splitOn '*')).map fun pos =>
      match pos with
      | none => false
      | some pos => if pattern.getLast? = some '*' then true else pos == byteLen text

end Core

/-- No proper prefix of the text matches, unless the pattern ends with a star. -/
def MatchesOnce (pattern text : Text) : Prop :=
  pattern.getLast? = some '*' ∨ ∀ u v, text = u ++ v → Matches pattern u → v = []

section

variable {pattern text v p : Text} {ps : List Text}

/-- After the first piece the loop is the engine's. -/
theorem Core.globLoop_succ (i pos : ℕ) (parts : List Text) :
    Core.globLoop pattern text (i + 1) pos parts = Pbac.globLoop text pos parts := by
  induction parts generalizing i pos with
  | nil => rfl
  | cons part parts ih =>
    rw [Core.globLoop, Pbac.globLoop, ih]
    congr 2
    funext rest
    cases find rest part with
    | none => rfl
    | some idx =>
      dsimp only
      rw [if_neg fun h => absurd h.1 (Nat.succ_ne_zero i), ih]

theorem find_eq_zero_iff {t part : Text} : find t part = some 0 ↔ part <+: t := by
  rw [find_eq, Option.map_eq_some_iff]
  constructor
  · rintro ⟨r, hr, hlen⟩
    have ht := Glob.eq_of_first? hr
    rw [eq_nil_of_byteLen hlen, List.nil_append] at ht
    exact ⟨r.2, ht.symm⟩
  · rintro ⟨rest, rfl⟩
    exact ⟨([], rest), Glob.first?_append part rest, rfl⟩

/-- The first piece is looked for at the start of the text. -/
theorem Core.globLoop_first (hsplit : pattern.splitOn '*' = p :: ps) : Core.globLoop pattern text 0 0 (p :: ps) =
    if p <+: text then Pbac.globLoop text (byteLen p) ps else some none := by
  rw [Core.globLoop]
  cases p with
  | nil =>
    rw [if_pos List.isEmpty_nil, if_pos List.nil_prefix, Core.globLoop_succ]
    rfl
  | cons c p =>
    have hstar : pattern.head? ≠ some '*' := by
      intro hstar
      obtain ⟨-, -, hnil, -⟩ := head?_eq_star hsplit hstar
      cases hnil
    have hslice : sliceFrom text 0 = some text := by cases text <;> rfl
    rw [if_neg (by simp), hslice, Option.bind_some]
    by_cases hp : c :: p <+: text
    · rw [if_pos hp, find_eq_zero_iff.2 hp]
      dsimp only
      rw [if_neg (by simp), Core.globLoop_succ, Nat.zero_add, Nat.zero_add]
    · rw [if_neg hp]
      cases hfind : find text (c :: p) with
      | none => rfl
      | some idx =>
        have hidx : idx ≠ 0 := by
          rintro rfl
          exact hp (find_eq_zero_iff.1 hfind)
        dsimp only
        rw [if_pos ⟨rfl, hstar, hidx⟩]

theorem Core.globMatch_eq (hsplit : pattern.splitOn '*' = p :: ps) (h : text = p ++ v) :
    Core.globMatch pattern text = some (match Glob.scan (ps.filter (!·.isEmpty)) v with
      | none => false
      | some rest => decide (pattern.getLast? = some '*' ∨ rest = [])) := by
  by_cases hstar : pattern = ['*']
  · subst hstar
    obtain ⟨rfl, rfl⟩ : [] = p ∧ [[]] = ps := by simpa [Glob.splitOn_cons_self] using hsplit
    rfl
  · have hprefix : p <+: text := ⟨v, h.symm⟩
    rw [Core.globMatch, if_neg hstar, hsplit, Core.globLoop_first hsplit, if_pos hprefix, globLoop_eq ps h,
      Option.map_some]
    cases hrest : Glob.scan (ps.filter (!·.isEmpty)) v with
    | none => rfl
    | some rest =>
      obtain ⟨w, hv, -⟩ := Glob.spread_of_scan hrest
      have hend : text = p ++ w ++ rest := by rw [h, hv, List.append_assoc]
      simp only [Option.map_some, Option.some.injEq]
      by_cases hlast : pattern.getLast? = some '*'
      · simp [hlast]
      · rw [if_neg hlast, Bool.eq_iff_iff, beq_iff_eq, sub_byteLen_eq_iff hend]
        simp [hlast]

end

/-- The core matcher returns, and finds the matches that no proper prefix of the text is. -/
theorem Core.globMatch_spec (pattern text : Text) :
    ∃ b, Core.globMatch pattern text = some b ∧ (b = true ↔ Matches pattern text ∧ MatchesOnce pattern text) := by
  obtain ⟨p, ps, hsplit⟩ := Glob.exists_splitOn '*' pattern
  by_cases hp : p <+: text
  · obtain ⟨v, hv⟩ := hp
    exact ⟨_, Core.globMatch_eq hsplit hv.symm, scan_eq_true_iff hsplit hv.symm fun _ => Glob.iff_spread hsplit⟩
  · have hne : pattern ≠ ['*'] := by
      rintro rfl
      obtain rfl : [] = p := by simpa [Glob.splitOn_cons_self] using congrArg List.head? hsplit
      exact hp List.nil_prefix
    refine ⟨false, ?_, by simp, fun hmatch => ?_⟩
    · rw [Core.globMatch, if_neg hne, hsplit, Core.globLoop_first hsplit, if_neg hp]
      rfl
    · obtain ⟨rest, rfl, -⟩ := (Glob.iff_spread hsplit).1 hmatch.1
      exact absurd (List.prefix_append p rest) hp

/-- The matchers agree where the engine's slice exists and it makes no difference that a leading star
stands for at least as many bytes as the first piece is long. -/
theorem globMatch_eq_core_iff (pattern text : Text) : globMatch pattern text = Core.globMatch pattern text ↔
    Sliceable pattern text ∧ (Matches pattern text ∧ MatchesOnce pattern text → MatchesLate pattern text) ∧
      (MatchesLate pattern text ∧ EndsOnce pattern text → MatchesOnce pattern text) := by
  obtain ⟨b, hcore, hb⟩ := Core.globMatch_spec pattern text
  -- a late match is a match
  have hends : MatchesOnce pattern text → EndsOnce pattern text :=
    Or.imp_right fun honce u v htext hlate => honce u v htext (matches_of_matchesLate hlate)
  constructor
  · intro heq
    have hslice : Sliceable pattern text := globMatch_isSome_iff.1 (by rw [heq, hcore]; rfl)
    obtain ⟨b', hengine, hb'⟩ := globMatch_of_sliceable hslice
    obtain rfl : b' = b := Option.some.inj ((hengine.symm.trans heq).trans hcore)
    exact ⟨hslice, fun hmatch => (hb'.1 (hb.2 hmatch)).1, fun hlate => (hb.1 (hb'.2 hlate)).2⟩
  · rintro ⟨hslice, hlate, honce⟩
    obtain ⟨b', hengine, hb'⟩ := globMatch_of_sliceable hslice
    have hsame : b' = true ↔ b = true := by
      rw [hb, hb']
      constructor
      · exact fun h => ⟨matches_of_matchesLate h.1, honce h⟩
      · exact fun h => ⟨hlate h, hends h.2⟩
    rw [hengine, hcore, Bool.eq_iff_iff.2 hsame]

/-- A suffix pattern on the text that is that suffix: the core layer matches it, the engine does not. -/
theorem not_globMatch_eq_core_suffix :
    ¬ ∀ pattern text : Text, globMatch pattern text = Core.globMatch pattern text := by
  intro h
  have hsuffix := h "*ab".toList "ab".toList
  revert hsuffix
  decide

end GmKms.Pbac
