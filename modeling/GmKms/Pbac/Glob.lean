import GmKms.Lib.TextSlice
/-!
# The glob matcher of the policy engine

`glob_match` scans the text for the pieces of the pattern between two stars and
never goes back. It answers as the pattern means only where the first piece
found is as good as any other.
-/

namespace GmKms.Pbac

open Lib Lib.Text

/-- The loop over the pieces after the first. The outer `none` is a panic, the inner one the answer `false`. -/
def globLoop (text : Text) (pos : ℕ) : List Text → Option (Option ℕ)
  | [] => some (some pos)
  | part :: parts =>
    if part.isEmpty then globLoop text pos parts
    else
      (sliceFrom text pos).bind fun rest =>
        match find rest part with
        | some idx => globLoop text (pos + (idx + byteLen part)) parts
        | none => some none

/-- Where the loop starts. -/
def globStart (pattern text : Text) (parts : List Text) : Option (Option ℕ) :=
  if pattern.head? = some '*' then
    match parts.find? (!·.isEmpty) with
    | some first =>
      (sliceFrom text (byteLen first)).map fun rest => (find rest first).map (· + byteLen first)
    | none => some (some 0)
  else
    match parts.head? with
    | some first => some (if !first.isEmpty && !first.isPrefixOf text then none else some (byteLen first))
    | none => some (some 0)

/-- `glob_match`; `none` is a panic. -/
def globMatch (pattern text : Text) : Option Bool :=
  if pattern = ['*'] then some true
  else
    let parts := pattern.splitOn '*'
    (globStart pattern text parts).bind fun start =>
      match start with
      | none => some false
      | some pos =>
        (globLoop text pos parts.tail).map fun pos =>
          match pos with
          | none => false
          | some pos => if pattern.getLast? = some '*' then true else pos == byteLen text

/-- What a pattern means. -/
def Matches (pattern text : Text) : Prop := Glob '*' pattern text

/-- The first piece that is not empty. -/
def firstPiece (pattern : Text) : Text := ((pattern.splitOn '*').find? (!·.isEmpty)).getD []

/-- The slice taken for a leading star: the text has a character boundary as many bytes in as the first piece is long.
-/
def Sliceable (pattern text : Text) : Prop :=
  pattern.head? = some '*' → IsCharBoundary text (byteLen (firstPiece pattern))

instance (pattern text : Text) : Decidable (Sliceable pattern text) := inferInstanceAs (Decidable (_ → _))

/-- The pattern matches with a leading star that stands for at least as many bytes as the first piece is long. -/
def MatchesLate : Text → Text → Prop
  | '*' :: pattern, text =>
    ∃ u v, text = u ++ v ∧ byteLen (firstPiece ('*' :: pattern)) ≤ byteLen u ∧ Matches pattern v
  | pattern, text => Matches pattern text

/-- No proper prefix of the text would do as well, unless the pattern ends with a star. -/
def EndsOnce (pattern text : Text) : Prop :=
  pattern.getLast? = some '*' ∨ ∀ u v, text = u ++ v → MatchesLate pattern u → v = []

theorem matches_of_matchesLate {pattern text : Text} (h : MatchesLate pattern text) : Matches pattern text := by
  unfold MatchesLate at h
  split at h
  · obtain ⟨u, v, rfl, -, hv⟩ := h
    exact .star u hv
  · exact h

/-! ## What the matcher computes -/

/-- What the code has passed of the text when it looks for pieces. -/
def IsAnchor (pattern a : Text) : Prop :=
  if pattern.head? = some '*' then byteLen a = byteLen (firstPiece pattern) else (pattern.splitOn '*').head? = some a

section

variable {pattern text a u v p : Text} {ps : List Text}

theorem globLoop_eq (parts : List Text) (h : text = u ++ v) : globLoop text (byteLen u) parts =
    some ((Glob.scan (parts.filter (!·.isEmpty)) v).map fun rest => byteLen text - byteLen rest) := by
  induction parts generalizing u v with
  | nil =>
    rw [globLoop, List.filter_nil, Glob.scan, Option.map_some, h, byteLen_append, Nat.add_sub_cancel]
  | cons part parts ih =>
    rw [globLoop]
    cases hpart : part.isEmpty with
    | true =>
      rw [if_pos rfl, List.filter_cons_of_neg (by simp [hpart])]
      exact ih h
    | false =>
      rw [if_neg (by simp), List.filter_cons_of_pos (by simp [hpart]), Glob.scan, h, sliceFrom_append, Option.bind_some,
        find_eq]
      cases hfirst : Glob.first? part v with
      | none => rfl
      | some r =>
        -- the next slice starts right after this occurrence
        have hv : text = u ++ (r.1 ++ part) ++ r.2 := by
          rw [h, Glob.eq_of_first? hfirst]
          simp
        have hnext := ih hv
        rw [byteLen_append, byteLen_append] at hnext
        rw [← h]
        exact hnext

theorem sub_byteLen_eq_iff {rest : Text} (h : text = u ++ rest) : byteLen text - byteLen rest = byteLen text ↔
    rest = [] := by
  constructor
  · intro heq
    rw [h, byteLen_append] at heq
    exact eq_nil_of_byteLen (by omega)
  · rintro rfl
    rfl

theorem firstPiece_eq (hsplit : pattern.splitOn '*' = [] :: ps) :
    firstPiece pattern = (ps.filter (!·.isEmpty)).head?.getD [] := by
  rw [firstPiece, hsplit, List.find?_cons_of_neg (by simp), List.head?_filter]

theorem head?_eq_star (hsplit : pattern.splitOn '*' = p :: ps) (hstar : pattern.head? = some '*') :
    ∃ rest, pattern = '*' :: rest ∧ p = [] ∧ rest.splitOn '*' = ps := by
  cases pattern with
  | nil => cases hstar
  | cons c rest =>
    obtain rfl : c = '*' := Option.some.inj hstar
    rw [Glob.splitOn_cons_self] at hsplit
    obtain ⟨rfl, rfl⟩ := List.cons.inj hsplit
    exact ⟨rest, rfl, rfl, rfl⟩

/-- The start and the loop together are one scan of the text after the anchor. -/
theorem globStart_bind_globLoop (hsplit : pattern.splitOn '*' = p :: ps) (ha : IsAnchor pattern a) (h : text = a ++ v) :
    ((globStart pattern text (p :: ps)).bind fun start =>
      match start with
      | none => some none
      | some pos => globLoop text pos ps) =
    some ((Glob.scan (ps.filter (!·.isEmpty)) v).map fun rest => byteLen text - byteLen rest) := by
  unfold IsAnchor at ha
  unfold globStart
  split at ha
  · rename_i hstar
    obtain ⟨-, -, rfl, -⟩ := head?_eq_star hsplit hstar
    rw [if_pos hstar, List.find?_cons_of_neg (by simp), ← List.head?_filter]
    rw [firstPiece_eq hsplit] at ha
    cases hqs : ps.filter (!·.isEmpty) with
    | nil =>
      rw [hqs] at ha
      obtain rfl : a = [] := eq_nil_of_byteLen ha
      have hloop := globLoop_eq ps h
      rw [hqs] at hloop
      exact hloop
    | cons first qs =>
      replace ha : byteLen a = byteLen first := by
        rw [hqs] at ha
        exact ha
      rw [List.head?_cons, h]
      simp only [← ha, sliceFrom_append, Option.map_some, Option.bind_some, find_eq]
      cases hfirst : Glob.first? first v with
      | none =>
        rw [Glob.scan, hfirst]
        rfl
      | some r =>
        -- the loop finds the first piece again where it has just been found
        have hv : a ++ v = a ++ r.1 ++ (first ++ r.2) := by rw [Glob.eq_of_first? hfirst, List.append_assoc]
        have hloop := globLoop_eq ps hv
        rw [hqs, Glob.scan, Glob.first?_append, byteLen_append, Nat.add_comm] at hloop
        rw [Glob.scan, hfirst]
        exact hloop
  · rename_i hstar
    rw [hsplit] at ha
    obtain rfl : p = a := Option.some.inj ha
    rw [if_neg hstar, List.head?_cons, h]
    simp only [List.isPrefixOf_iff_prefix.2 (List.prefix_append p v), Bool.not_true, Bool.and_false, Bool.false_eq_true,
      if_false, Option.bind_some]
    exact globLoop_eq ps rfl

theorem globMatch_eq (hsplit : pattern.splitOn '*' = p :: ps) (ha : IsAnchor pattern a) (h : text = a ++ v) :
    globMatch pattern text = some (match Glob.scan (ps.filter (!·.isEmpty)) v with
      | none => false
      | some rest => decide (pattern.getLast? = some '*' ∨ rest = [])) := by
  by_cases hstar : pattern = ['*']
  · subst hstar
    obtain ⟨rfl, rfl⟩ : [] = p ∧ [[]] = ps := by simpa [Glob.splitOn_cons_self] using hsplit
    rfl
  · have hscan := globStart_bind_globLoop hsplit ha h
    rw [globMatch, if_neg hstar, hsplit]
    obtain ⟨start, hstart, hloop⟩ := Option.bind_eq_some_iff.1 hscan
    simp only [hstart, Option.bind_some, List.tail_cons]
    cases hrest : Glob.scan (ps.filter (!·.isEmpty)) v with
    | none =>
      rw [hrest] at hloop
      cases start with
      | none => rfl
      | some pos =>
        replace hloop : globLoop text pos ps = some none := hloop
        simp [hloop]
    | some rest =>
      rw [hrest] at hloop
      cases start with
      | none => cases hloop
      | some pos =>
        obtain ⟨w, hv, -⟩ := Glob.spread_of_scan hrest
        have hend : text = a ++ w ++ rest := by rw [h, hv, List.append_assoc]
        replace hloop : globLoop text pos ps = some (some (byteLen text - byteLen rest)) := hloop
        simp only [hloop, Option.map_some, Option.some.injEq]
        by_cases hlast : pattern.getLast? = some '*'
        · simp [hlast]
        · rw [if_neg hlast, Bool.eq_iff_iff, beq_iff_eq, sub_byteLen_eq_iff hend]
          simp [hlast]

/-- A late match of a prefix is the pieces spread over what follows the anchor. -/
theorem matchesLate_iff {z : Text} (hsplit : pattern.splitOn '*' = p :: ps) (ha : IsAnchor pattern a)
    (h : u ++ z = a ++ v) : MatchesLate pattern u ↔ ∃ w, u = a ++ w ∧ Glob.Spread ps w := by
  unfold IsAnchor at ha
  by_cases hstar : pattern.head? = some '*'
  · rw [if_pos hstar] at ha
    obtain ⟨rest, rfl, rfl, hrest⟩ := head?_eq_star hsplit hstar
    obtain ⟨q, qs, hq⟩ := Glob.exists_splitOn '*' rest
    obtain rfl : ps = q :: qs := hrest.symm.trans hq
    unfold MatchesLate
    constructor
    · rintro ⟨x, y, rfl, hle, hy⟩
      have happend : a ++ v = x ++ (y ++ z) := by rw [← h, List.append_assoc]
      obtain ⟨gap, rfl, -⟩ := exists_append_of_byteLen_le happend (ha.trans_le hle)
      obtain ⟨w, rfl, hw⟩ := (Glob.iff_spread hq).1 hy
      exact ⟨gap ++ (q ++ w), List.append_assoc .., gap, w, rfl, hw⟩
    · rintro ⟨-, rfl, gap, w, rfl, hw⟩
      refine ⟨a ++ gap, q ++ w, (List.append_assoc ..).symm, ?_, (Glob.iff_spread hq).2 ⟨w, rfl, hw⟩⟩
      rw [byteLen_append, ha]
      exact Nat.le_add_right ..
  · rw [if_neg hstar, hsplit] at ha
    obtain rfl : p = a := Option.some.inj ha
    have hlate : MatchesLate pattern u ↔ Matches pattern u := by
      unfold MatchesLate
      split
      · exact absurd rfl hstar
      · exact .rfl
    exact hlate.trans (Glob.iff_spread hsplit)

/-- What a scan after the anchor finds of a property that prefixes have by the pieces after it: that the text has it,
and no proper prefix does. -/
theorem scan_eq_true_iff {M : Text → Prop} (hsplit : pattern.splitOn '*' = p :: ps) (h : text = a ++ v)
    (hM : ∀ {u z : Text}, text = u ++ z → (M u ↔ ∃ w, u = a ++ w ∧ Glob.Spread ps w)) :
    (match Glob.scan (ps.filter (!·.isEmpty)) v with
      | none => false
      | some rest => decide (pattern.getLast? = some '*' ∨ rest = [])) = true ↔
    M text ∧ (pattern.getLast? = some '*' ∨ ∀ u v, text = u ++ v → M u → v = []) := by
  have hwhole : M text ↔ Glob.Spread ps v := by
    rw [hM (List.append_nil text).symm, h]
    simp
  have hfilter : ∀ w, Glob.Spread ps w ↔ ∃ w' rest, w = w' ++ rest ∧ Glob.Spread (ps.filter (!·.isEmpty)) w' ∧
      (pattern.getLast? = some '*' ∨ rest = []) := by
    intro w
    rw [Glob.spread_iff_filter, Glob.getLast?_splitOn_iff hsplit]
  rw [hwhole]
  by_cases hlast : pattern.getLast? = some '*'
  · have hsome : Glob.Spread ps v ↔ (Glob.scan (ps.filter (!·.isEmpty)) v).isSome := by
      rw [hfilter, Glob.isSome_scan_iff]
      simp [hlast]
    rw [hsome]
    cases Glob.scan (ps.filter (!·.isEmpty)) v <;> simp [hlast]
  · have hsame : ∀ w, Glob.Spread ps w ↔ Glob.Spread (ps.filter (!·.isEmpty)) w := by
      intro w
      rw [hfilter]
      simp [hlast]
    have honce : (pattern.getLast? = some '*' ∨ ∀ u v, text = u ++ v → M u → v = []) ↔
        ∀ w rest, v = w ++ rest → Glob.Spread ps w → rest = [] := by
      rw [or_iff_right hlast]
      constructor
      · intro hends w rest hv hw
        have htext : text = a ++ w ++ rest := by rw [h, hv, List.append_assoc]
        exact hends _ _ htext ((hM htext).2 ⟨w, rfl, hw⟩)
      · intro hends u z hu hmatch
        obtain ⟨w, rfl, hw⟩ := (hM hu).1 hmatch
        refine hends w z ?_ hw
        rw [h, List.append_assoc] at hu
        exact List.append_cancel_left hu
    have hscan : Glob.scan (ps.filter (!·.isEmpty)) v = some [] ↔ Glob.Spread (ps.filter (!·.isEmpty)) v ∧
        ∀ w rest, v = w ++ rest → Glob.Spread (ps.filter (!·.isEmpty)) w → rest = [] := Glob.scan_eq_nil_iff
    rw [honce]
    simp only [hsame]
    rw [← hscan]
    cases Glob.scan (ps.filter (!·.isEmpty)) v <;> simp [hlast]

/-- Where the matcher has an anchor, it finds the late matches that end once. -/
theorem globMatch_of_anchor (ha : IsAnchor pattern a) (h : text = a ++ v) :
    ∃ b, globMatch pattern text = some b ∧ (b = true ↔ MatchesLate pattern text ∧ EndsOnce pattern text) := by
  obtain ⟨p, ps, hsplit⟩ := Glob.exists_splitOn '*' pattern
  refine ⟨_, globMatch_eq hsplit ha h, ?_⟩
  exact scan_eq_true_iff hsplit h fun hu => matchesLate_iff hsplit ha (hu.symm.trans h)

end

/-! ## When it answers as the pattern means -/

theorem globMatch_of_not_sliceable {pattern text : Text} (h : ¬ Sliceable pattern text) :
    globMatch pattern text = none := by
  obtain ⟨hstar, hbound⟩ := Classical.not_imp.1 h
  obtain ⟨p, ps, hsplit⟩ := Glob.exists_splitOn '*' pattern
  have hslice : sliceFrom text (byteLen (firstPiece pattern)) = none := by
    rwa [← sliceFrom_isSome_iff, Option.not_isSome_iff_eq_none] at hbound
  cases hfirst : (pattern.splitOn '*').find? (!·.isEmpty) with
  | none =>
    -- a pattern of stars takes the empty slice
    rw [firstPiece, hfirst] at hbound
    exact absurd ⟨[], text, rfl, rfl⟩ hbound
  | some first =>
    have hne : pattern ≠ ['*'] := by
      rintro rfl
      simp [Glob.splitOn_cons_self] at hfirst
    rw [firstPiece, hfirst, Option.getD_some] at hslice
    simp [globMatch, hne, globStart, hstar, hfirst, hslice]

theorem globMatch_of_not_prefix {pattern text p : Text} {ps : List Text} (hsplit : pattern.splitOn '*' = p :: ps)
    (hstar : pattern.head? ≠ some '*') (h : ¬ p <+: text) :
    globMatch pattern text = some false ∧ ¬ Matches pattern text := by
  constructor
  · have hne : pattern ≠ ['*'] := by
      rintro rfl
      exact hstar rfl
    have hp : p ≠ [] := by
      rintro rfl
      exact h List.nil_prefix
    have hprefix : p.isPrefixOf text = false := by rwa [← Bool.not_eq_true, List.isPrefixOf_iff_prefix]
    simp [globMatch, hne, globStart, hstar, hsplit, hp, hprefix]
  · intro hmatch
    obtain ⟨rest, rfl, -⟩ := (Glob.iff_spread hsplit).1 hmatch
    exact h (List.prefix_append p rest)

theorem globMatch_of_sliceable {pattern text : Text} (h : Sliceable pattern text) :
    ∃ b, globMatch pattern text = some b ∧ (b = true ↔ MatchesLate pattern text ∧ EndsOnce pattern text) := by
  obtain ⟨p, ps, hsplit⟩ := Glob.exists_splitOn '*' pattern
  by_cases hstar : pattern.head? = some '*'
  · obtain ⟨a, v, htext, ha⟩ := h hstar
    refine globMatch_of_anchor ?_ htext
    rwa [IsAnchor, if_pos hstar]
  · by_cases hp : p <+: text
    · obtain ⟨v, hv⟩ := hp
      refine globMatch_of_anchor ?_ hv.symm
      rw [IsAnchor, if_neg hstar, hsplit]
      rfl
    · obtain ⟨hfalse, hno⟩ := globMatch_of_not_prefix hsplit hstar hp
      exact ⟨false, hfalse, by simp, fun hlate => absurd (matches_of_matchesLate hlate.1) hno⟩

theorem globMatch_isSome_iff {pattern text : Text} : (globMatch pattern text).isSome ↔ Sliceable pattern text := by
  constructor
  · intro h
    by_contra hslice
    rw [globMatch_of_not_sliceable hslice] at h
    cases h
  · intro h
    obtain ⟨b, hb, -⟩ := globMatch_of_sliceable h
    rw [hb]
    rfl

/-- `glob_match` returns, and its answer is whether the pattern matches. -/
def Answers (pattern text : Text) : Prop := ∃ b, globMatch pattern text = some b ∧ (b = true ↔ Matches pattern text)

theorem answers_iff (pattern text : Text) : Answers pattern text ↔
    Sliceable pattern text ∧ (Matches pattern text → MatchesLate pattern text ∧ EndsOnce pattern text) := by
  constructor
  · rintro ⟨b, hb, hiff⟩
    have hslice : Sliceable pattern text := globMatch_isSome_iff.1 (by rw [hb]; rfl)
    obtain ⟨b', hb', hlate⟩ := globMatch_of_sliceable hslice
    obtain rfl : b = b' := Option.some.inj (hb.symm.trans hb')
    exact ⟨hslice, fun hmatch => hlate.1 (hiff.2 hmatch)⟩
  · rintro ⟨hslice, hwhen⟩
    obtain ⟨b, hb, hlate⟩ := globMatch_of_sliceable hslice
    exact ⟨b, hb, fun h => matches_of_matchesLate (hlate.1 h).1, fun hmatch => hlate.2 (hwhen hmatch)⟩

/-- A suffix is not found in the text that is that suffix. -/
theorem not_answers_suffix : ¬ Answers "*ab".toList "ab".toList := by
  rintro ⟨b, hb, hiff⟩
  have hmatch : Matches "*ab".toList "ab".toList := .star [] (.letter (by decide) (.letter (by decide) .nil))
  have htrue : globMatch "*ab".toList "ab".toList = some true := by rw [hb, hiff.2 hmatch]
  revert htrue
  decide

end GmKms.Pbac
