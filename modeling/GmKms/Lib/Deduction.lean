import Mathlib
/-!
# Deduction from messages

Messages as terms over names that nobody knows unless told, with ideal primitives: an
authenticated cipher that opens under exactly the key, nonce and additional data it was
sealed under, public-key encryption that opens with the private key, and a hash that
cannot be inverted. `Derives` is what can be computed from a set of known terms, and
`Denotes` relates a term to the value that a run of a program gives it.
-/

namespace Lib

inductive Term (D N : Type) : Type where
  /-- A value that everyone knows. -/
  | data (d : D)
  /-- A secret: a key, a private key, a nonce. -/
  | name (n : N)
  /-- The public key of a private key. -/
  | pub (n : N)
  /-- Two values one after the other, one of them of a fixed length. -/
  | append (a b : Term D N)
  | hash (a : Term D N)
  | ciphertext (key nonce aad a : Term D N)
  | tag (key nonce aad a : Term D N)
  /-- Encryption to the public key of `n`. -/
  | encrypted (n : N) (a : Term D N)

namespace Term

variable {D N β : Type}

/-- What can be computed from the terms in `K`. -/
inductive Derives (K : Set (Term D N)) : Term D N → Prop
  | known {t : Term D N} (h : t ∈ K) : Derives K t
  | data (d : D) : Derives K (data d)
  | pub {n : N} (h : Derives K (name n)) : Derives K (pub n)
  | append {a b : Term D N} (ha : Derives K a) (hb : Derives K b) : Derives K (append a b)
  | left {a b : Term D N} (h : Derives K (append a b)) : Derives K a
  | right {a b : Term D N} (h : Derives K (append a b)) : Derives K b
  | hash {a : Term D N} (h : Derives K a) : Derives K (hash a)
  | sealed {k n d a : Term D N} (hk : Derives K k) (hn : Derives K n) (hd : Derives K d) (ha : Derives K a) :
      Derives K (ciphertext k n d a)
  | tagged {k n d a : Term D N} (hk : Derives K k) (hn : Derives K n) (hd : Derives K d) (ha : Derives K a) :
      Derives K (tag k n d a)
  | opened {k n d a : Term D N} (hc : Derives K (ciphertext k n d a)) (ht : Derives K (tag k n d a))
      (hk : Derives K k) (hn : Derives K n) (hd : Derives K d) : Derives K a
  | encrypted {n : N} {a : Term D N} (hn : Derives K (pub n)) (ha : Derives K a) : Derives K (encrypted n a)
  | decrypted {n : N} {a : Term D N} (h : Derives K (encrypted n a)) (hn : Derives K (name n)) : Derives K a

/-! ## What cannot be derived -/

/-- The term gives away none of the names in `hidden`: no name of them stands in it
but under a hash, or under keys and nonces of which one is not given away either. -/
def Guards (hidden : Set N) : Term D N → Prop
  | data _ | pub _ | hash _ | tag .. => True
  | name n => n ∉ hidden
  | append a b => a.Guards hidden ∧ b.Guards hidden
  | ciphertext k n _ a => k.Guards hidden → n.Guards hidden → a.Guards hidden
  | encrypted n a => n ∉ hidden → a.Guards hidden

/-- From terms that guard the names only such terms follow. -/
theorem Derives.guards {K : Set (Term D N)} {hidden : Set N} (hK : ∀ t ∈ K, t.Guards hidden) {t : Term D N}
    (h : Derives K t) : t.Guards hidden := by
  induction h with
  | known h => exact hK _ h
  | data | pub | hash | tagged => trivial
  | append _ _ iha ihb => exact ⟨iha, ihb⟩
  | left _ ih => exact ih.1
  | right _ ih => exact ih.2
  | sealed _ _ _ _ _ _ _ iha => exact fun _ _ => iha
  | opened _ _ _ _ _ ihc _ ihk ihn _ => exact ihc ihk ihn
  | encrypted _ _ _ iha => exact fun _ => iha
  | decrypted _ _ ih ihn => exact ih ihn

theorem not_derives_name {K : Set (Term D N)} {hidden : Set N} (hK : ∀ t ∈ K, t.Guards hidden) {n : N}
    (hn : n ∈ hidden) : ¬ Derives K (name n) := fun h => h.guards hK hn

/-! ## Values -/

/-- What the constructors of terms stand for. -/
structure Algebra (D N β : Type) where
  data : D → β
  name : N → β
  pub : N → β
  append : β → β → β
  hash : β → β
  /-- Sealing under a key, a nonce and additional data: a ciphertext and a tag. -/
  seals : β → β → β → β → β → β → Prop
  /-- One of the encryptions to a public key. -/
  encrypts : β → β → β → Prop

/-- The term has this value. -/
inductive Denotes (A : Algebra D N β) : Term D N → β → Prop
  | data (d : D) : Denotes A (data d) (A.data d)
  | name (n : N) : Denotes A (name n) (A.name n)
  | pub (n : N) : Denotes A (pub n) (A.pub n)
  | append {a b : Term D N} {x y : β} (ha : Denotes A a x) (hb : Denotes A b y) : Denotes A (append a b) (A.append x y)
  | hash {a : Term D N} {x : β} (ha : Denotes A a x) : Denotes A (hash a) (A.hash x)
  | ciphertext {k n d a : Term D N} {kx nx dx x c t : β} (hk : Denotes A k kx) (hn : Denotes A n nx)
      (hd : Denotes A d dx) (ha : Denotes A a x) (h : A.seals kx nx dx x c t) : Denotes A (ciphertext k n d a) c
  | tag {k n d a : Term D N} {kx nx dx x c t : β} (hk : Denotes A k kx) (hn : Denotes A n nx)
      (hd : Denotes A d dx) (ha : Denotes A a x) (h : A.seals kx nx dx x c t) : Denotes A (tag k n d a) t
  | encrypted {n : N} {a : Term D N} {x y : β} (ha : Denotes A a x) (h : A.encrypts (A.pub n) x y) :
      Denotes A (encrypted n a) y

end Term

end Lib
