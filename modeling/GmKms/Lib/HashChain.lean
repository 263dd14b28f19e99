import Mathlib
/-!
# Hash chains

Lists of records in which each record names the hash of the one before it.
-/

namespace Lib

/-- A kind of record with its hash and the hash it names as that of its predecessor. -/
structure HashLink (α σ : Type*) where
  hash : α → σ
  prev : α → Option σ

namespace HashLink

variable {α σ : Type*} (L : HashLink α σ)

/-- The list continues a chain whose last hash is `h`; `none` is the start of a chain. -/
def Chained : Option σ → List α → Prop
  | _, [] => True
  | h, a :: l => L.prev a = h ∧ Chained (some (L.hash a)) l

/-- Each record names its predecessor, whatever the first one names after `none`. -/
def Linked : Option σ → List α → Prop
  | _, [] => True
  | h, a :: l => (∀ p ∈ h, L.prev a = some p) ∧ Linked (some (L.hash a)) l

/-- The records marked by `keep`. -/
def kept : List α → List Bool → List α
  | a :: l, true :: keep => a :: kept l keep
  | _ :: l, false :: keep => kept l keep
  | _, _ => []

/-- The last hash after the list. -/
def lastHash (h : Option σ) (l : List α) : Option σ := (l.getLast?.map L.hash).or h

variable {L} {h : Option σ} {l l' : List α} {a : α}

@[simp] theorem lastHash_nil : L.lastHash h [] = h := rfl

@[simp] theorem lastHash_cons : L.lastHash h (a :: l) = L.lastHash (some (L.hash a)) l := by
  cases hl : l.getLast? <;> simp [lastHash, List.getLast?_cons, hl]

@[simp] theorem lastHash_concat : L.lastHash h (l ++ [a]) = some (L.hash a) := by simp [lastHash]

theorem chained_append : L.Chained h (l ++ l') ↔ L.Chained h l ∧ L.Chained (L.lastHash h l) l' := by
  induction l generalizing h with
  | nil => simp [Chained]
  | cons a l ih => simp [Chained, ih, and_assoc]

theorem Chained.linked (hl : L.Chained h l) : L.Linked h l := by
  induction l generalizing h with
  | nil => trivial
  | cons a l ih =>
    obtain ⟨hprev, hrest⟩ := hl
    exact ⟨fun p hp => hprev.trans hp, ih hrest⟩

theorem Linked.of_some (hl : L.Linked h l) : L.Linked none l := by
  cases l with
  | nil => trivial
  | cons a l => exact ⟨nofun, hl.2⟩

/-- What a record of a chain names is the hash of the record before it. -/
theorem Chained.prev_eq {before after : List α} (hl : L.Chained none (before ++ a :: after)) :
    L.prev a = before.getLast?.map L.hash := by
  have hprev := (chained_append.1 hl).2.1
  rwa [lastHash, Option.or_none] at hprev

/-! ## Records left out of a chain -/

theorem mem_of_mem_kept {keep : List Bool} (ha : a ∈ kept l keep) : a ∈ l := by
  induction l generalizing keep with
  | nil => cases keep <;> exact ha
  | cons b l ih =>
    rcases keep with - | ⟨_ | _, keep⟩
    · cases ha
    · exact List.mem_cons_of_mem b (ih ha)
    · rcases List.mem_cons.1 ha with rfl | ha
      · exact List.mem_cons_self
      · exact List.mem_cons_of_mem b (ih ha)

theorem kept_eq_nil_iff {keep : List Bool} (hlength : keep.length = l.length) : kept l keep = [] ↔ true ∉ keep := by
  induction l generalizing keep with
  | nil =>
    rw [List.length_eq_zero_iff.1 hlength]
    simp [kept]
  | cons b l ih =>
    rcases keep with - | ⟨_ | _, keep⟩
    · cases hlength
    · simp [kept, ih (Nat.succ.inj hlength)]
    · simp [kept]

/-- A record of a chain names the hash before the chain or one in it. -/
theorem Chained.prev_eq_or (hl : L.Chained h l) (ha : a ∈ l) : L.prev a = h ∨ ∃ b ∈ l, L.prev a = some (L.hash b) := by
  induction l generalizing h with
  | nil => cases ha
  | cons b l ih =>
    rcases List.mem_cons.1 ha with rfl | ha
    · exact .inl hl.1
    · rcases ih hl.2 ha with hprev | ⟨c, hc, hprev⟩
      · exact .inr ⟨b, List.mem_cons_self, hprev⟩
      · exact .inr ⟨c, List.mem_cons_of_mem b hc, hprev⟩

/-- After a record that is kept, no record may be kept behind one that is dropped. -/
theorem Chained.linked_kept_some_iff {g : σ} {keep : List Bool} (hl : L.Chained (some g) l)
    (hnodup : (g :: l.map L.hash).Nodup) (hlength : keep.length = l.length) :
    L.Linked (some g) (kept l keep) ↔ ¬[false, true].Sublist keep := by
  induction l generalizing g keep with
  | nil =>
    rw [List.length_eq_zero_iff.1 hlength]
    simp [kept, Linked]
  | cons b l ih =>
    obtain ⟨hprev, hrest⟩ := hl
    rcases keep with - | ⟨_ | _, keep⟩
    · cases hlength
    · rw [kept, List.cons_sublist_cons, List.singleton_sublist, ← kept_eq_nil_iff (Nat.succ.inj hlength)]
      -- what a later record names comes after `g`
      have hother : ∀ c ∈ l, L.prev c ≠ some g := by
        intro c hc hg
        have hnot := (List.nodup_cons.1 hnodup).1
        rw [List.map_cons, List.mem_cons, not_or] at hnot
        rcases hrest.prev_eq_or hc with heq | ⟨d, hd, heq⟩
        · exact hnot.1 (Option.some.inj (hg.symm.trans heq))
        · exact hnot.2 (List.mem_map.2 ⟨d, hd, (Option.some.inj (hg.symm.trans heq)).symm⟩)
      constructor
      · intro hlinked
        by_contra hne
        obtain ⟨c, rest, hkept⟩ := List.exists_cons_of_ne_nil hne
        rw [hkept] at hlinked
        exact hother c (mem_of_mem_kept (hkept ▸ List.mem_cons_self)) (hlinked.1 g rfl)
      · intro hnil
        rw [hnil]
        trivial
    · have hkeep : [false, true].Sublist (true :: keep) ↔
          [false, true].Sublist keep := by simp [List.cons_sublist_cons']
      rw [hkeep, ← ih hrest (List.nodup_cons.1 hnodup).2 (Nat.succ.inj hlength)]
      constructor
      · exact fun hlinked => hlinked.2
      · exact fun hlinked => ⟨fun p hp => hprev.trans hp, hlinked⟩

/-- The records kept of a chain are linked just when none is dropped between two of them. -/
theorem Chained.linked_kept_iff {keep : List Bool} (hl : L.Chained h l) (hnodup : (l.map L.hash).Nodup)
    (hlength : keep.length = l.length) : L.Linked none (kept l keep) ↔ ¬[true, false, true].Sublist keep := by
  induction l generalizing h keep with
  | nil =>
    rw [List.length_eq_zero_iff.1 hlength]
    simp [kept, Linked]
  | cons b l ih =>
    rcases keep with - | ⟨_ | _, keep⟩
    · cases hlength
    · have hkeep : [true, false, true].Sublist (false :: keep) ↔ [true, false, true].Sublist keep := by
        simp [List.cons_sublist_cons']
      rw [kept, hkeep]
      exact ih hl.2 (List.nodup_cons.1 hnodup).2 (Nat.succ.inj hlength)
    · rw [kept, List.cons_sublist_cons, ← hl.2.linked_kept_some_iff hnodup (Nat.succ.inj hlength)]
      constructor
      · exact fun hlinked => hlinked.2
      · exact fun hlinked => ⟨nofun, hlinked⟩

/-- Where no hash occurs twice, just the blocks of a chain are linked. -/
theorem Chained.linked_iff_isInfix {log : List α} (hlog : L.Chained none log) (hnodup : (log.map L.hash).Nodup)
    (hsub : ∀ b ∈ l, b ∈ log) : L.Linked none l ↔ l <:+: log := by
  constructor
  · intro hl
    induction l with
    | nil => exact List.nil_infix
    | cons a l ih =>
      cases l with
      | nil => exact (List.singleton_infix_iff _ _).2 (hsub a List.mem_cons_self)
      | cons b l =>
        obtain ⟨before, after, rfl⟩ := ih (fun c hc => hsub c (List.mem_cons_of_mem _ hc)) hl.2.of_some
        have hprev : before.getLast?.map L.hash = some (L.hash a) := by
          rw [← hl.2.1 _ rfl]
          rw [List.append_assoc, List.cons_append] at hlog
          exact hlog.prev_eq.symm
        obtain ⟨c, hc, hhash⟩ := Option.map_eq_some_iff.1 hprev
        obtain ⟨before, rfl⟩ := List.getLast?_eq_some_iff.1 hc
        have hmem : c ∈ before ++ [c] ++ b :: l ++ after := by simp
        obtain rfl : c = a := List.inj_on_of_nodup_map hnodup hmem (hsub a List.mem_cons_self) hhash
        exact ⟨before, after, by simp⟩
  · rintro ⟨before, after, rfl⟩
    exact (chained_append.1 (chained_append.1 hlog).1).2.linked.of_some

end HashLink

end Lib
