import Mathlib
/-!
# Numbered calls under way

Calls that take consecutive numbers when they start and are done in the order of
their numbers. What a call under way has come to is a predicate of the call and its
number; a call that is done has no number any more.
-/

namespace Lib

/-- The calls under way have the numbers from `a` to `m`, each once, and satisfy `P`. -/
structure InFlight {κ : Type*} (number : κ → Option ℕ) (calls : ℕ → Option κ) (a m : ℕ) (P : κ → ℕ → Prop) : Prop where
  stage : ∀ id c n, calls id = some c → number c = some n → a ≤ n ∧ n < m ∧ P c n
  exists_call : ∀ n, a ≤ n → n < m → ∃ id c, calls id = some c ∧ number c = some n
  unique : ∀ id id' c c' n, calls id = some c → calls id' = some c' → number c = some n → number c' = some n → id = id'

namespace InFlight

variable {κ : Type*} {number : κ → Option ℕ} {calls : ℕ → Option κ} {a m : ℕ} {P Q : κ → ℕ → Prop}

theorem none : InFlight number (fun _ => Option.none) a a P where
  stage := by simp
  exists_call := by omega
  unique := by simp

/-- A call under way has a number of its own. -/
theorem ne_of_ne (h : InFlight number calls a m P) {id id' : ℕ} {c c' : κ} {n n' : ℕ} (hc : calls id = some c)
    (hc' : calls id' = some c') (hn : number c = some n) (hn' : number c' = some n') (hne : id' ≠ id) : n' ≠ n := by
  rintro rfl
  exact hne (h.unique id' id c' c n' hc' hc hn' hn)

/-- A call starts under the next number. -/
theorem start (h : InFlight number calls a m P) (ham : a ≤ m) {id : ℕ} {c : κ} (hid : calls id = Option.none)
    (hn : number c = some m) (hc : Q c m) (hPQ : ∀ d k, k < m → P d k → Q d k) :
    InFlight number (Function.update calls id (some c)) a (m + 1) Q := by
  refine ⟨?_, ?_, ?_⟩
  · intro id' d k hd hk
    by_cases heq : id' = id
    · simp only [heq, Function.update_self, Option.some.injEq] at hd
      rw [← hd, hn, Option.some.injEq] at hk
      exact ⟨by omega, by omega, hk ▸ hd ▸ hc⟩
    · rw [Function.update_of_ne heq] at hd
      obtain ⟨hak, hkm, hP⟩ := h.stage id' d k hd hk
      exact ⟨hak, by omega, hPQ d k hkm hP⟩
  · intro k hak hkm
    by_cases heq : k = m
    · exact ⟨id, c, Function.update_self .., heq ▸ hn⟩
    · obtain ⟨id', d, hd, hk⟩ := h.exists_call k hak (by omega)
      have hne : id' ≠ id := by
        rintro rfl
        rw [hid] at hd
        cases hd
      exact ⟨id', d, by rw [Function.update_of_ne hne, hd], hk⟩
  · intro id₁ id₂ c₁ c₂ k h₁ h₂ hk₁ hk₂
    have hold : ∀ id' d, Function.update calls id (some c) id' = some d → number d = some k → id' ≠ id → k < m := by
      intro id' d hd hk hne
      rw [Function.update_of_ne hne] at hd
      exact (h.stage id' d k hd hk).2.1
    have hnew : ∀ d, Function.update calls id (some c) id = some d → number d = some k → k = m := by
      intro d hd hk
      rw [Function.update_self, Option.some.injEq] at hd
      rw [← hd, hn, Option.some.injEq] at hk
      exact hk.symm
    by_cases heq₁ : id₁ = id
    · by_cases heq₂ : id₂ = id
      · rw [heq₁, heq₂]
      · have := hold id₂ c₂ h₂ hk₂ heq₂
        have := hnew c₁ (heq₁ ▸ h₁) hk₁
        omega
    · by_cases heq₂ : id₂ = id
      · have := hold id₁ c₁ h₁ hk₁ heq₁
        have := hnew c₂ (heq₂ ▸ h₂) hk₂
        omega
      · rw [Function.update_of_ne heq₁] at h₁
        rw [Function.update_of_ne heq₂] at h₂
        exact h.unique id₁ id₂ c₁ c₂ k h₁ h₂ hk₁ hk₂

/-- A call takes a step and keeps its number. -/
theorem move (h : InFlight number calls a m P) {id n : ℕ} {c c' : κ} (hid : calls id = some c)
    (hn : number c = some n) (hn' : number c' = some n) (hc' : Q c' n) (hPQ : ∀ d k, k ≠ n → P d k → Q d k) :
    InFlight number (Function.update calls id (some c')) a m Q := by
  have hbounds := h.stage id c n hid hn
  refine ⟨?_, ?_, ?_⟩
  · intro id' d k hd hk
    by_cases heq : id' = id
    · simp only [heq, Function.update_self, Option.some.injEq] at hd
      rw [← hd, hn', Option.some.injEq] at hk
      exact ⟨by omega, by omega, hk ▸ hd ▸ hc'⟩
    · rw [Function.update_of_ne heq] at hd
      obtain ⟨hak, hkm, hP⟩ := h.stage id' d k hd hk
      exact ⟨hak, hkm, hPQ d k (h.ne_of_ne hid hd hn hk heq) hP⟩
  · intro k hak hkm
    obtain ⟨id', d, hd, hk⟩ := h.exists_call k hak hkm
    by_cases heq : id' = id
    · rw [heq, hid, Option.some.injEq] at hd
      rw [← hd, hn] at hk
      exact ⟨id, c', Function.update_self .., hn'.trans hk⟩
    · exact ⟨id', d, by rw [Function.update_of_ne heq, hd], hk⟩
  · intro id₁ id₂ c₁ c₂ k h₁ h₂ hk₁ hk₂
    have hbefore : ∀ id' d, Function.update calls id (some c') id' = some d → number d = some k →
        ∃ d', calls id' = some d' ∧ number d' = some k := by
      intro id' d hd hk
      by_cases heq : id' = id
      · rw [heq, Function.update_self, Option.some.injEq] at hd
        exact ⟨c, heq ▸ hid, by rw [hn, ← hn', hd, hk]⟩
      · exact ⟨d, by rwa [Function.update_of_ne heq] at hd, hk⟩
    obtain ⟨d₁, hd₁, hdk₁⟩ := hbefore id₁ c₁ h₁ hk₁
    obtain ⟨d₂, hd₂, hdk₂⟩ := hbefore id₂ c₂ h₂ hk₂
    exact h.unique id₁ id₂ d₁ d₂ k hd₁ hd₂ hdk₁ hdk₂

/-- What is left when a call gives up its number, which was the lowest one. -/
theorem finish (h : InFlight number calls a m P) {id : ℕ} {c : κ} {c' : Option κ} (hid : calls id = some c)
    (hn : number c = some a) (hn' : ∀ d ∈ c', number d = Option.none) (hPQ : ∀ d k, k ≠ a → P d k → Q d k) :
    InFlight number (Function.update calls id c') (a + 1) m Q := by
  have hother : ∀ id' d k, Function.update calls id c' id' = some d → number d = some k →
      id' ≠ id ∧ calls id' = some d := by
    intro id' d k hd hk
    have hne : id' ≠ id := by
      rintro rfl
      rw [Function.update_self] at hd
      rw [hn' d hd] at hk
      cases hk
    exact ⟨hne, by rwa [Function.update_of_ne hne] at hd⟩
  refine ⟨?_, ?_, ?_⟩
  · intro id' d k hd hk
    obtain ⟨hne, hd⟩ := hother id' d k hd hk
    obtain ⟨hak, hkm, hP⟩ := h.stage id' d k hd hk
    have hka := h.ne_of_ne hid hd hn hk hne
    exact ⟨by omega, hkm, hPQ d k hka hP⟩
  · intro k hak hkm
    obtain ⟨id', d, hd, hk⟩ := h.exists_call k (by omega) hkm
    have hne : id' ≠ id := by
      rintro rfl
      rw [hid, Option.some.injEq] at hd
      rw [← hd, hn, Option.some.injEq] at hk
      omega
    exact ⟨id', d, by rw [Function.update_of_ne hne, hd], hk⟩
  · intro id₁ id₂ c₁ c₂ k h₁ h₂ hk₁ hk₂
    obtain ⟨-, h₁⟩ := hother id₁ c₁ k h₁ hk₁
    obtain ⟨-, h₂⟩ := hother id₂ c₂ k h₂ hk₂
    exact h.unique id₁ id₂ c₁ c₂ k h₁ h₂ hk₁ hk₂

/-- A call without a number leaves. -/
theorem leave (h : InFlight number calls a m P) {id : ℕ} {c : κ} (hid : calls id = some c)
    (hn : number c = Option.none) :
    InFlight number (Function.update calls id Option.none) a m P := by
  have hsame : ∀ id' d, Function.update calls id Option.none id' = some d → calls id' = some d := by
    intro id' d hd
    have hne : id' ≠ id := by
      rintro rfl
      simp at hd
    rwa [Function.update_of_ne hne] at hd
  refine ⟨fun id' d k hd => h.stage id' d k (hsame id' d hd), ?_, ?_⟩
  · intro k hak hkm
    obtain ⟨id', d, hd, hk⟩ := h.exists_call k hak hkm
    have hne : id' ≠ id := by
      rintro rfl
      rw [hid, Option.some.injEq] at hd
      rw [← hd, hn] at hk
      cases hk
    exact ⟨id', d, by rw [Function.update_of_ne hne, hd], hk⟩
  · intro id₁ id₂ c₁ c₂ k h₁ h₂
    exact h.unique id₁ id₂ c₁ c₂ k (hsame id₁ c₁ h₁) (hsame id₂ c₂ h₂)

end InFlight

end Lib
