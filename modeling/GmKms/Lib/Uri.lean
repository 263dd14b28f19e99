import GmKms.Lib.Text
/-!
# Parts of a URI

Percent-decoding into bytes, which leaves alone what is no escape, the cut at the first of a character, and the
parameters of a query.
-/

namespace Lib.Uri

/-- The bytes of a text. -/
def utf8 (t : Text) : List UInt8 := t.flatMap String.utf8EncodeChar

/-! ## Escapes -/

def hexValue? (c : Char) : Option ℕ :=
  if '0' ≤ c ∧ c ≤ '9' then some (c.toNat - 48)
  else if 'A' ≤ c ∧ c ≤ 'F' then some (c.toNat - 55)
  else if 'a' ≤ c ∧ c ≤ 'f' then some (c.toNat - 87)
  else none

/-- The byte that a text begins with as an escape. -/
def escape? : Text → Option UInt8
  | p :: a :: b :: _ =>
    if p = '%' then (hexValue? a).bind fun a => (hexValue? b).map fun b => .ofNat (16 * a + b)
    else none
  | _ => none

/-- Decodes what is left after a number of characters. -/
def percentDecodeFrom : ℕ → Text → List UInt8
  | _, [] => []
  | skip + 1, _ :: t => percentDecodeFrom skip t
  | 0, c :: t =>
    match escape? (c :: t) with
    | some b => b :: percentDecodeFrom 2 t
    | none => String.utf8EncodeChar c ++ percentDecodeFrom 0 t

def percentDecode (t : Text) : List UInt8 := percentDecodeFrom 0 t

def hasEscape : Text → Bool
  | [] => false
  | c :: t => (escape? (c :: t)).isSome || hasEscape t

theorem utf8_cons (c : Char) (t : Text) : utf8 (c :: t) = String.utf8EncodeChar c ++ utf8 t := List.flatMap_cons

theorem utf8_append (t u : Text) : utf8 (t ++ u) = utf8 t ++ utf8 u := List.flatMap_append

theorem length_utf8EncodeChar_pos (c : Char) : 0 < (String.utf8EncodeChar c).length := by
  rw [String.length_utf8EncodeChar]
  exact c.utf8Size_pos

theorem length_percentDecodeFrom_le (skip : ℕ) (t : Text) : (percentDecodeFrom skip t).length ≤ (utf8 t).length := by
  induction t generalizing skip with
  | nil => simp [percentDecodeFrom, utf8]
  | cons c t ih =>
    have hc := length_utf8EncodeChar_pos c
    rw [utf8_cons, List.length_append]
    cases skip with
    | succ skip =>
      rw [percentDecodeFrom]
      have := ih skip
      omega
    | zero =>
      rw [percentDecodeFrom]
      split
      · rw [List.length_cons]
        have := ih 2
        omega
      · rw [List.length_append]
        have := ih 0
        omega

/-- An escape is shorter once it is decoded. -/
theorem length_percentDecode_lt {t : Text} (h : hasEscape t = true) : (percentDecode t).length < (utf8 t).length := by
  unfold percentDecode
  induction t with
  | nil => cases h
  | cons c t ih =>
    rw [percentDecodeFrom, utf8_cons, List.length_append]
    rw [hasEscape] at h
    cases hescape : escape? (c :: t) with
    | some byte =>
      match t, hescape with
      | a :: b :: t, _ =>
        have hle := length_percentDecodeFrom_le 0 t
        have hc := length_utf8EncodeChar_pos c
        have ha := length_utf8EncodeChar_pos a
        have hb := length_utf8EncodeChar_pos b
        dsimp only
        rw [percentDecodeFrom, percentDecodeFrom, utf8_cons, utf8_cons, List.length_cons, List.length_append,
          List.length_append]
        omega
    | none =>
      rw [hescape, Option.isSome_none, Bool.false_or] at h
      have := ih h
      dsimp only
      rw [List.length_append]
      omega

theorem percentDecode_of_not_hasEscape {t : Text} (h : hasEscape t = false) : percentDecode t = utf8 t := by
  unfold percentDecode
  induction t with
  | nil => rfl
  | cons c t ih =>
    rw [hasEscape, Bool.or_eq_false_iff, Option.isSome_eq_false_iff, Option.isNone_iff_eq_none] at h
    rw [percentDecodeFrom, h.1, ih h.2, utf8_cons]

/-- A text can only come of a prefix of its own if that is all of it and has no escapes. -/
theorem eq_of_percentDecode_eq {t u : Text} (hstarts : t <+: u) (h : percentDecode t = utf8 u) :
    t = u ∧ hasEscape u = false := by
  obtain ⟨rest, rfl⟩ := hstarts
  have hle := length_percentDecodeFrom_le 0 t
  have hlength := congrArg List.length h
  rw [percentDecode, utf8_append, List.length_append] at hlength
  obtain rfl : rest = [] := by
    cases rest with
    | nil => rfl
    | cons c rest =>
      have hc := length_utf8EncodeChar_pos c
      rw [utf8_cons, List.length_append] at hlength
      omega
  rw [List.append_nil] at h ⊢
  refine ⟨rfl, Bool.eq_false_iff.2 fun hescape => ?_⟩
  have hlt := length_percentDecode_lt hescape
  rw [h] at hlt
  exact lt_irrefl _ hlt

/-! ## Cuts -/

/-- What comes before and after the first of a character. -/
def cut? (c : Char) : Text → Option (Text × Text)
  | [] => none
  | d :: t => if d = c then some ([], t) else (cut? c t).map fun r => (d :: r.1, r.2)

theorem cut?_eq_some_iff {c : Char} {t u v : Text} : cut? c t = some (u, v) ↔ t = u ++ c :: v ∧ c ∉ u := by
  induction t generalizing u with
  | nil => simp [cut?]
  | cons d t ih =>
    rw [cut?]
    by_cases hd : d = c
    · subst hd
      rw [if_pos rfl]
      cases u with
      | nil => simp
      | cons e u =>
        simp only [Option.some.injEq, Prod.mk.injEq, List.cons_append, List.cons.injEq, List.mem_cons, not_or]
        exact iff_of_false (by simp) fun h => h.2.1 h.1.1
    · rw [if_neg hd, Option.map_eq_some_iff]
      constructor
      · rintro ⟨⟨u', v'⟩, hcut, heq⟩
        cases heq
        obtain ⟨rfl, hnot⟩ := ih.1 hcut
        exact ⟨rfl, by simp [Ne.symm hd, hnot]⟩
      · rintro ⟨heq, hnot⟩
        cases u with
        | nil => exact absurd (List.cons.inj heq).1 hd
        | cons e u =>
          obtain ⟨rfl, rfl⟩ := List.cons.inj heq
          exact ⟨(u, v), ih.2 ⟨rfl, fun hmem => hnot (List.mem_cons_of_mem _ hmem)⟩, rfl⟩

/-- Before the first of a character there is no more than before any. -/
theorem prefix_of_append_cons_eq {c : Char} {t u v w : Text} (h : u ++ c :: v = t ++ c :: w) (hu : c ∉ u) :
    u <+: t := by
  rcases List.append_eq_append_iff.1 h with ⟨s, rfl, -⟩ | ⟨s, rfl, hs⟩
  · exact List.prefix_append _ _
  · cases s with
    | nil => simp
    | cons d s =>
      obtain ⟨rfl, -⟩ := List.cons.inj hs
      exact absurd (by simp) hu

/-- What comes before the fragment. -/
def withoutFragment (t : Text) : Text := t.takeWhile (· ≠ '#')

theorem withoutFragment_of_notMem {t : Text} (h : '#' ∉ t) : withoutFragment t = t :=
  List.takeWhile_eq_self_iff.2 fun _ hc => decide_eq_true fun heq => h (heq ▸ hc)

theorem exists_withoutFragment (t : Text) : ∃ fragment, t = withoutFragment t ++ fragment ∧
    '#' ∉ withoutFragment t := by
  refine ⟨_, List.takeWhile_append_dropWhile.symm, fun h => ?_⟩
  have hne := List.mem_takeWhile_imp (p := fun c => decide (c ≠ '#')) h
  exact of_decide_eq_true hne rfl

/-! ## Queries -/

/-- The value of a pair that has the name. -/
def valueOf (name : String) (pair : Text) : Option Text :=
  (cut? '=' pair).bind fun r => if r.1 = name.toList then some r.2 else none

/-- The value of the first parameter with the name. -/
def param (query : Text) (name : String) : Option Text := (query.splitOn '&').findSome? (valueOf name)

theorem param_of_notMem {pair : Text} (h : '&' ∉ pair) (name : String) : param pair name = valueOf name pair := by
  rw [param, List.splitOn_eq_singleton h, List.findSome?_singleton]

theorem param_append {pair : Text} (h : '&' ∉ pair) (rest : Text) (name : String) :
    param (pair ++ '&' :: rest) name = (valueOf name pair).or (param rest name) := by
  rw [param, List.splitOn_append_cons_self_of_not_mem h, List.findSome?_cons, param]
  cases valueOf name pair <;> rfl

theorem valueOf_append {key : String} (h : '=' ∉ key.toList) (value : Text) (name : String) :
    valueOf name (key.toList ++ '=' :: value) = if key = name then some value else none := by
  rw [valueOf, cut?_eq_some_iff.2 ⟨rfl, h⟩, Option.bind_some]
  exact if_congr String.toList_inj rfl rfl

end Lib.Uri
