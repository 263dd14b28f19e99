import GmKms.Lib.JsonText
/-!
# What is written is read back

The reader gives back the tree of every text that the writer makes, unless it is
nested too deep, and such a text is a single line.
-/

namespace Lib.JsonText

open Json

variable {F : Type} {ft : FloatText F}

/-! ## What is written is read back -/

/-- No number goes on into the text. -/
def EndsNumber (rest : Text) : Prop := ∀ c ∈ rest.head?, isNumberChar c = false

theorem map_ite_le {α β : Type} {a b d : ℕ} (h : a ≤ d) {r : α} {f : α → β} :
    (if b ≤ d then some r else none).map f = if max a b ≤ d then some (f r) else none := by
  by_cases hb : b ≤ d
  · rw [if_pos hb, if_pos (Nat.max_le.2 ⟨h, hb⟩), Option.map_some]
  · rw [if_neg hb, if_neg (by omega), Option.map_none]

theorem enter_ite_le {α β : Type} {a d : ℕ} {r : α} {f : α → β} :
    (if d = 0 then none else (if a ≤ d - 1 then some r else none).map f) = if a + 1 ≤ d then some (f r) else none := by
  by_cases hd : d = 0
  · rw [if_pos hd, if_neg (by omega)]
  · rw [if_neg hd]
    by_cases ha : a ≤ d - 1
    · rw [if_pos ha, if_pos (by omega), Option.map_some]
    · rw [if_neg ha, if_neg (by omega), Option.map_none]

section

variable {reparse : F → F}

theorem readValue_number {t rest : Text} (ht : ∀ c ∈ t, isNumberChar c) (hne : t ≠ []) (hrest : EndsNumber rest)
    (fuel depth : ℕ) : readValue ft (fuel + 1) depth (t ++ rest) = (readNumber ft t).map (·, rest) := by
  obtain ⟨c, cs, rfl⟩ := List.exists_cons_of_ne_nil hne
  have hc : isNumberChar c := ht c List.mem_cons_self
  have hspecial : ∀ c', isNumberChar c' = false → c ≠ c' := by
    rintro c' hc' rfl
    rw [hc] at hc'
    cases hc'
  rw [List.cons_append, readValue, if_neg (hspecial _ rfl), if_neg (hspecial _ rfl), if_neg (hspecial _ rfl),
    if_neg (hspecial _ rfl), if_neg (hspecial _ rfl), if_neg (hspecial _ rfl), ← List.cons_append]
  have hnil : rest.takeWhile isNumberChar = [] ∧ rest.dropWhile isNumberChar = rest := by
    cases rest with
    | nil => exact ⟨rfl, rfl⟩
    | cons c' rest =>
      have := hrest c' (by simp)
      simp [this]
  rw [List.takeWhile_append_of_pos ht, List.dropWhile_append_of_pos ht, hnil.1, hnil.2, List.append_nil]

/-- The tree is read back from its text, unless it is too deep. -/
def Reads (ft : FloatText F) (reparse : F → F) (j : Json F) : Prop :=
  ∀ fuel depth rest, (write ft j).length ≤ fuel → EndsNumber rest →
    readValue ft fuel depth (write ft j ++ rest) = if j.depth ≤ depth then some (j.mapFloat reparse, rest) else none

theorem write_ne_nil (hft : ft.Lawful reparse) (j : Json F) : write ft j ≠ [] := by
  cases j with
  | null => exact List.cons_ne_nil _ _
  | bool b => cases b <;> exact List.cons_ne_nil _ _
  | int n => exact writeInt_ne_nil n
  | float x => exact hft.nonempty x
  | str s => exact List.cons_ne_nil _ _
  | arr items => exact List.cons_ne_nil _ _
  | obj fields => exact List.cons_ne_nil _ _

/-- A value does not begin with the end of an array. -/
theorem head?_write_ne (hft : ft.Lawful reparse) (j : Json F) {rest : Text} :
    (write ft j ++ rest).head? ≠ some ']' := by
  have hnumber : ∀ {t : Text}, t ≠ [] → (∀ c ∈ t, isNumberChar c) → (t ++ rest).head? ≠ some ']' := by
    intro t hne ht heq
    obtain ⟨c, cs, rfl⟩ := List.exists_cons_of_ne_nil hne
    rw [List.cons_append, List.head?_cons, Option.some.injEq] at heq
    subst heq
    cases ht ']' List.mem_cons_self
  cases j with
  | null => simp [write]
  | bool b => cases b <;> simp [write]
  | int n => exact hnumber (writeInt_ne_nil n) (writeInt_number n)
  | float x => exact hnumber (hft.nonempty x) (hft.number x)
  | str s => simp [write, writeString]
  | arr items => simp [write]
  | obj fields => simp [write]

theorem readMoreItems_write {items : List (Json F)} (h : ∀ j ∈ items, Reads ft reparse j)
    (fuel depth : ℕ) (rest : Text) (hfuel : (writeMoreItems ft items).length < fuel) :
    readMoreItems ft fuel depth (writeMoreItems ft items ++ ']' :: rest) =
      if depthItems items ≤ depth then some (mapItems reparse items, rest) else none := by
  induction items generalizing fuel with
  | nil =>
    obtain ⟨fuel, rfl⟩ := Nat.exists_eq_succ_of_ne_zero (Nat.ne_of_gt (Nat.lt_of_le_of_lt (Nat.zero_le _) hfuel))
    simp [writeMoreItems, readMoreItems, depthItems, mapItems]
  | cons j items ih =>
    obtain ⟨hj, hitems⟩ := List.forall_mem_cons.1 h
    obtain ⟨fuel, rfl⟩ := Nat.exists_eq_succ_of_ne_zero (Nat.ne_of_gt (Nat.lt_of_le_of_lt (Nat.zero_le _) hfuel))
    simp only [writeMoreItems, List.length_cons, List.length_append] at hfuel
    have hends : EndsNumber (writeMoreItems ft items ++ ']' :: rest) := by
      cases items <;> simp [EndsNumber, writeMoreItems, isNumberChar]
    rw [writeMoreItems, List.cons_append, List.cons_append, List.append_assoc, readMoreItems,
      hj fuel depth _ (by omega) hends]
    by_cases hdepth : j.depth ≤ depth
    · rw [if_pos hdepth]
      dsimp only
      rw [ih hitems fuel (by omega), depthItems, mapItems]
      exact map_ite_le hdepth
    · rw [if_neg hdepth, depthItems, if_neg (by omega)]

theorem readItems_write (hft : ft.Lawful reparse) {items : List (Json F)} (h : ∀ j ∈ items, Reads ft reparse j)
    (fuel depth : ℕ) (rest : Text) (hfuel : (writeItems ft items).length < fuel) :
    readItems ft fuel depth (writeItems ft items ++ ']' :: rest) =
      if depthItems items ≤ depth then some (mapItems reparse items, rest) else none := by
  obtain ⟨fuel, rfl⟩ := Nat.exists_eq_succ_of_ne_zero (Nat.ne_of_gt (Nat.lt_of_le_of_lt (Nat.zero_le _) hfuel))
  cases items with
  | nil => simp [writeItems, readItems, depthItems, mapItems]
  | cons j items =>
    obtain ⟨hj, hitems⟩ := List.forall_mem_cons.1 h
    simp only [writeItems, List.length_append] at hfuel
    have hpos := List.length_pos_iff.2 (write_ne_nil hft j)
    have hends : EndsNumber (writeMoreItems ft items ++ ']' :: rest) := by
      cases items <;> simp [EndsNumber, writeMoreItems, isNumberChar]
    rw [writeItems, List.append_assoc, readItems, if_neg (head?_write_ne hft j), hj fuel depth _ (by omega) hends]
    by_cases hdepth : j.depth ≤ depth
    · rw [if_pos hdepth]
      dsimp only
      rw [readMoreItems_write hitems fuel depth rest (by omega), depthItems, mapItems]
      exact map_ite_le hdepth
    · rw [if_neg hdepth, depthItems, if_neg (by omega)]

theorem readField_write {k : String} {j : Json F} (hj : Reads ft reparse j) (fuel depth : ℕ) (rest : Text)
    (hfuel : (write ft j).length < fuel) (hends : EndsNumber rest) :
    readField ft fuel depth (writeString k ++ ':' :: write ft j ++ rest) =
      if j.depth ≤ depth then some ((k, j.mapFloat reparse), rest) else none := by
  obtain ⟨fuel, rfl⟩ := Nat.exists_eq_succ_of_ne_zero (Nat.ne_of_gt (Nat.lt_of_le_of_lt (Nat.zero_le _) hfuel))
  have htext : writeString k ++ ':' :: write ft j ++ rest =
      '\x22' :: (k.toList.flatMap escape ++ '\x22' :: ':' :: (write ft j ++ rest)) := by simp [writeString]
  rw [htext, readField, readChars_flatMap_escape]
  simp only [hj fuel depth rest (by omega) hends, String.ofList_toList]
  split <;> rfl

theorem readMoreFields_write {fields : List (String × Json F)} (h : ∀ f ∈ fields, Reads ft reparse f.2)
    (fuel depth : ℕ) (rest : Text) (hfuel : (writeMoreFields ft fields).length < fuel) :
    readMoreFields ft fuel depth (writeMoreFields ft fields ++ '\x7d' :: rest) =
      if depthFields fields ≤ depth then some (mapFields reparse fields, rest) else none := by
  induction fields generalizing fuel with
  | nil =>
    obtain ⟨fuel, rfl⟩ := Nat.exists_eq_succ_of_ne_zero (Nat.ne_of_gt (Nat.lt_of_le_of_lt (Nat.zero_le _) hfuel))
    simp [writeMoreFields, readMoreFields, depthFields, mapFields]
  | cons f fields ih =>
    obtain ⟨k, j⟩ := f
    obtain ⟨hj : Reads ft reparse j, hfields⟩ := List.forall_mem_cons.1 h
    obtain ⟨fuel, rfl⟩ := Nat.exists_eq_succ_of_ne_zero (Nat.ne_of_gt (Nat.lt_of_le_of_lt (Nat.zero_le _) hfuel))
    simp only [writeMoreFields, List.length_cons, List.length_append] at hfuel
    have hends : EndsNumber (writeMoreFields ft fields ++ '\x7d' :: rest) := by
      cases fields <;> simp [EndsNumber, writeMoreFields, isNumberChar]
    have htext : writeMoreFields ft ((k, j) :: fields) ++ '\x7d' :: rest =
        ',' :: (writeString k ++ ':' :: write ft j ++ (writeMoreFields ft fields ++ '\x7d' :: rest)) := by
      simp [writeMoreFields]
    rw [htext, readMoreFields, readField_write hj fuel depth _ (by omega) hends]
    by_cases hdepth : j.depth ≤ depth
    · rw [if_pos hdepth]
      dsimp only
      rw [ih hfields fuel (by omega), depthFields, mapFields]
      exact map_ite_le hdepth
    · rw [if_neg hdepth, depthFields, if_neg (by omega)]

theorem readFields_write {fields : List (String × Json F)} (h : ∀ f ∈ fields, Reads ft reparse f.2)
    (fuel depth : ℕ) (rest : Text) (hfuel : (writeFields ft fields).length < fuel) :
    readFields ft fuel depth (writeFields ft fields ++ '\x7d' :: rest) =
      if depthFields fields ≤ depth then some (mapFields reparse fields, rest) else none := by
  obtain ⟨fuel, rfl⟩ := Nat.exists_eq_succ_of_ne_zero (Nat.ne_of_gt (Nat.lt_of_le_of_lt (Nat.zero_le _) hfuel))
  cases fields with
  | nil => simp [writeFields, readFields, depthFields, mapFields]
  | cons f fields =>
    obtain ⟨k, j⟩ := f
    obtain ⟨hj : Reads ft reparse j, hfields⟩ := List.forall_mem_cons.1 h
    simp only [writeFields, List.length_append, List.length_cons] at hfuel
    have hends : EndsNumber (writeMoreFields ft fields ++ '\x7d' :: rest) := by
      cases fields <;> simp [EndsNumber, writeMoreFields, isNumberChar]
    have htext : writeFields ft ((k, j) :: fields) ++ '\x7d' :: rest =
        writeString k ++ ':' :: write ft j ++ (writeMoreFields ft fields ++ '\x7d' :: rest) := by
      simp [writeFields]
    have hpos : 0 < (writeString k).length := Nat.succ_pos _
    rw [htext, readFields, if_neg (by simp [writeString]), readField_write hj fuel depth _ (by omega) hends]
    by_cases hdepth : j.depth ≤ depth
    · rw [if_pos hdepth]
      dsimp only
      rw [readMoreFields_write hfields fuel depth rest (by omega), depthFields, mapFields]
      exact map_ite_le hdepth
    · rw [if_neg hdepth, depthFields, if_neg (by omega)]

/-- What is written of a tree is read back, with the same rest. -/
theorem reads (hft : ft.Lawful reparse) (j : Json F) (hj : j.IntsFit) : Reads ft reparse j := by
  induction j using Json.induct with
  | null =>
    intro fuel depth rest hfuel _
    obtain ⟨fuel, rfl⟩ := Nat.exists_eq_succ_of_ne_zero (n := fuel) (by rintro rfl; cases hfuel)
    simp [write, readValue, readWord, Json.depth, mapFloat]
  | bool b =>
    intro fuel depth rest hfuel _
    obtain ⟨fuel, rfl⟩ := Nat.exists_eq_succ_of_ne_zero (n := fuel) (by rintro rfl; cases b <;> cases hfuel)
    cases b <;> simp [write, readValue, readWord, Json.depth, mapFloat]
  | int n =>
    intro fuel depth rest hfuel hends
    have hpos := List.length_pos_iff.2 (writeInt_ne_nil n)
    rw [write] at hfuel ⊢
    obtain ⟨fuel, rfl⟩ := Nat.exists_eq_succ_of_ne_zero (n := fuel) (by omega)
    rw [readValue_number (writeInt_number n) (writeInt_ne_nil n) hends, readNumber, readInt_writeInt]
    dsimp only
    rw [if_pos (show Int64Fits n from hj)]
    simp [Json.depth, mapFloat]
  | float x =>
    intro fuel depth rest hfuel hends
    have hpos := List.length_pos_iff.2 (hft.nonempty x)
    rw [write] at hfuel ⊢
    obtain ⟨fuel, rfl⟩ := Nat.exists_eq_succ_of_ne_zero (n := fuel) (by omega)
    rw [readValue_number (hft.number x) (hft.nonempty x) hends, readNumber, hft.not_int, hft.read_write]
    simp [Json.depth, mapFloat]
  | str s =>
    intro fuel depth rest hfuel _
    obtain ⟨fuel, rfl⟩ := Nat.exists_eq_succ_of_ne_zero (n := fuel) (by rintro rfl; cases hfuel)
    have htext : write ft (.str s) ++ rest = '\x22' :: (s.toList.flatMap escape ++ '\x22' :: rest) := by
      simp [write, writeString]
    rw [htext, readValue, if_pos rfl, readChars_flatMap_escape]
    simp [Json.depth, mapFloat]
  | arr items ih =>
    intro fuel depth rest hfuel _
    have hitems : ∀ j ∈ items, Reads ft reparse j := fun j hmem => ih j hmem (intsFitItems_iff.1 hj j hmem)
    simp only [write, List.length_append, List.length_cons, List.length_nil] at hfuel
    obtain ⟨fuel, rfl⟩ := Nat.exists_eq_succ_of_ne_zero (n := fuel) (by omega)
    have htext : write ft (.arr items) ++ rest = '[' :: (writeItems ft items ++ ']' :: rest) := by simp [write]
    rw [htext, readValue, if_neg (by decide), if_neg (by decide), if_neg (by decide), if_neg (by decide), if_pos rfl,
      readItems_write hft hitems fuel (depth - 1) rest (by omega), Json.depth, mapFloat]
    exact enter_ite_le
  | obj fields ih =>
    intro fuel depth rest hfuel _
    have hfields : ∀ f ∈ fields, Reads ft reparse f.2 := fun f hmem => ih f hmem (intsFitFields_iff.1 hj f hmem)
    simp only [write, List.length_append, List.length_cons, List.length_nil] at hfuel
    obtain ⟨fuel, rfl⟩ := Nat.exists_eq_succ_of_ne_zero (n := fuel) (by omega)
    have htext : write ft (.obj fields) ++ rest = '\x7b' :: (writeFields ft fields ++ '\x7d' :: rest) := by
      simp [write]
    rw [htext, readValue, if_neg (by decide), if_neg (by decide), if_neg (by decide), if_neg (by decide),
      if_neg (by decide), if_pos rfl, readFields_write hfields fuel (depth - 1) rest (by omega), Json.depth, mapFloat]
    exact enter_ite_le

end

/-! ## Whole texts -/

variable {reparse : F → F}

theorem read_write (hft : ft.Lawful reparse) {j : Json F} (hj : j.IntsFit) (limit : ℕ) :
    read ft limit (write ft j) = if j.depth ≤ limit then some (j.mapFloat reparse) else none := by
  have hreads := reads hft j hj (write ft j).length limit [] (Nat.le_refl _) (by simp [EndsNumber])
  rw [List.append_nil] at hreads
  rw [read, hreads]
  by_cases hdepth : j.depth ≤ limit
  · rw [if_pos hdepth, if_pos hdepth]
  · rw [if_neg hdepth, if_neg hdepth]

/-- Where floating-point numbers are read as they are, a text tells its tree. -/
theorem write_injective (hft : ft.Lawful id) {j j' : Json F} (hj : j.IntsFit) (hj' : j'.IntsFit)
    (h : write ft j = write ft j') : j = j' := by
  have hread := read_write hft hj (max j.depth j'.depth)
  have hread' := read_write hft hj' (max j.depth j'.depth)
  rw [if_pos (Nat.le_max_left _ _), mapFloat_id] at hread
  rw [if_pos (Nat.le_max_right _ _), mapFloat_id] at hread'
  rw [h, hread'] at hread
  exact (Option.some.inj hread).symm

/-! ## The text is one line -/

theorem oneLine_nil : Text.OneLine [] := ⟨List.not_mem_nil, List.not_mem_nil⟩

theorem oneLine_append {s t : Text} (hs : s.OneLine) (ht : t.OneLine) : (s ++ t).OneLine := by
  simp only [Text.OneLine, List.mem_append, not_or] at *
  exact ⟨⟨hs.1, ht.1⟩, hs.2, ht.2⟩

theorem oneLine_of_number {t : Text} (h : ∀ c ∈ t, isNumberChar c) : t.OneLine := by
  constructor <;> intro hmem
  · cases h _ hmem
  · cases h _ hmem

theorem oneLine_escape (c : Char) : (escape c).OneLine := by
  unfold escape
  cases h : shortEscapes.lookup c with
  | some e =>
    have hmem := mem_of_lookup h
    simp only [shortEscapes, List.mem_cons, Prod.mk.injEq, List.not_mem_nil, or_false] at hmem
    dsimp only
    rcases hmem with ⟨-, rfl⟩ | ⟨-, rfl⟩ | ⟨-, rfl⟩ | ⟨-, rfl⟩ | ⟨-, rfl⟩ | ⟨-, rfl⟩ | ⟨-, rfl⟩ <;> decide
  | none =>
    dsimp only
    split
    · have hhex : ∀ n < 16, Nat.digitChar n ≠ '\n' ∧ Nat.digitChar n ≠ '\r' := by decide
      have h₁ := hhex (c.toNat / 16) (by omega)
      have h₂ := hhex (c.toNat % 16) (by omega)
      constructor <;> simp [h₁.1.symm, h₁.2.symm, h₂.1.symm, h₂.2.symm]
    · constructor <;> (rw [List.mem_singleton]; rintro rfl; cases h)

theorem oneLine_writeString (s : String) : (writeString s).OneLine := by
  have hchars : ∀ cs : List Char, Text.OneLine (cs.flatMap escape) := by
    intro cs
    induction cs with
    | nil => exact oneLine_nil
    | cons c cs ih => exact oneLine_append (oneLine_escape c) ih
  exact oneLine_append (s := ['\x22']) (by decide) (oneLine_append (hchars _) (by decide))

theorem oneLine_write (hft : ft.Lawful reparse) (j : Json F) : (write ft j).OneLine := by
  induction j using Json.induct with
  | null =>
    rw [write]
    decide
  | bool b => cases b <;> (rw [write]; decide)
  | int n => exact oneLine_of_number (writeInt_number n)
  | float x => exact oneLine_of_number (hft.number x)
  | str s => exact oneLine_writeString s
  | arr items ih =>
    have hmore : ∀ items : List (Json F), (∀ j ∈ items, (write ft j).OneLine) → (writeMoreItems ft items).OneLine := by
      intro items h
      induction items with
      | nil => exact oneLine_nil
      | cons j items ihs =>
        obtain ⟨hj, hitems⟩ := List.forall_mem_cons.1 h
        exact oneLine_append (s := ',' :: write ft j) (oneLine_append (s := [',']) (by decide) hj) (ihs hitems)
    rw [write]
    refine oneLine_append (s := '[' :: writeItems ft items) (oneLine_append (s := ['[']) (by decide) ?_) (by decide)
    cases items with
    | nil => exact oneLine_nil
    | cons j items =>
      obtain ⟨hj, hitems⟩ := List.forall_mem_cons.1 ih
      exact oneLine_append hj (hmore items hitems)
  | obj fields ih =>
    have hfield : ∀ (k : String) {j : Json F}, (write ft j).OneLine → (writeString k ++ ':' :: write ft j).OneLine :=
      fun k j hj => oneLine_append (oneLine_writeString k) (oneLine_append (s := [':']) (by decide) hj)
    have hmore : ∀ fields : List (String × Json F), (∀ f ∈ fields, (write ft f.2).OneLine) →
        (writeMoreFields ft fields).OneLine := by
      intro fields h
      induction fields with
      | nil => exact oneLine_nil
      | cons f fields ihs =>
        obtain ⟨hf, hfields⟩ := List.forall_mem_cons.1 h
        exact oneLine_append (oneLine_append (s := [',']) (by decide) (hfield f.1 hf)) (ihs hfields)
    rw [write]
    refine oneLine_append (s := '\x7b' :: writeFields ft fields) (oneLine_append (s := ['\x7b']) (by decide) ?_)
      (by decide)
    cases fields with
    | nil => exact oneLine_nil
    | cons f fields =>
      obtain ⟨hf, hfields⟩ := List.forall_mem_cons.1 ih
      exact oneLine_append (hfield f.1 hf) (hmore fields hfields)

theorem isWhiteSpace_of_number {c : Char} (h : isNumberChar c) : Text.isWhiteSpace c = false := by
  simp only [isNumberChar, Bool.or_eq_true, decide_eq_true_eq] at h
  rcases h with ((((h | rfl) | rfl) | rfl) | rfl) | rfl
  · have hrange : 48 ≤ c.toNat ∧ c.toNat ≤ 57 := Char.isDigit_iff_toNat.1 h
    simp only [Text.isWhiteSpace, Bool.or_eq_false_iff, Bool.and_eq_false_iff, decide_eq_false_iff_not]
    omega
  all_goals decide

theorem isBlank_write (hft : ft.Lawful reparse) (j : Json F) : (write ft j).isBlank = false := by
  have hhead : ∀ {c : Char} {t : Text}, Text.isWhiteSpace c = false → Text.isBlank (c :: t) = false := by
    intro c t hc
    rw [Text.isBlank, List.all_cons, hc, Bool.false_and]
  have hnumber : ∀ {t : Text}, t ≠ [] → (∀ c ∈ t, isNumberChar c) → t.isBlank = false := by
    intro t hne ht
    obtain ⟨c, cs, rfl⟩ := List.exists_cons_of_ne_nil hne
    exact hhead (isWhiteSpace_of_number (ht c List.mem_cons_self))
  cases j with
  | null => exact hhead (by decide)
  | bool b => cases b <;> exact hhead (by decide)
  | int n => exact hnumber (writeInt_ne_nil n) (writeInt_number n)
  | float x => exact hnumber (hft.nonempty x) (hft.number x)
  | str s => exact hhead (by decide)
  | arr items => exact hhead (by decide)
  | obj fields => exact hhead (by decide)

end Lib.JsonText
