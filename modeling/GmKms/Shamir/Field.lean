import GmKms.Lib.Interpolation
/-!
# Arithmetic of the share values

The operations modulo the prime 2^61 - 1 on 64-bit numbers, and the field they compute in.
-/

namespace GmKms.Shamir

/-- `FIELD_PRIME`, 2^61 - 1. -/
def fieldPrime : UInt64 := 2305843009213693951

structure ShamirSecretSharing where
  prime : UInt64

namespace ShamirSecretSharing

def new : ShamirSecretSharing := ⟨fieldPrime⟩

variable (sss : ShamirSecretSharing)

def addMod (a b : UInt64) : UInt64 := (a + b) % sss.prime

def subMod (a b : UInt64) : UInt64 := (a + sss.prime - b) % sss.prime

/-- The product has up to 128 bits. -/
def mulMod (a b : UInt64) : UInt64 := .ofNat (a.toNat * b.toNat % sss.prime.toNat)

/-- The loop of `pow_mod`, which halves the exponent in each round. -/
def powLoop : ℕ → UInt64 → UInt64 → UInt64 → UInt64
  | 0, result, _, _ => result
  | rounds + 1, result, base, exp =>
    if 0 < exp then
      powLoop rounds (if exp % 2 = 1 then sss.mulMod result base else result) (sss.mulMod base base) (exp / 2)
    else result

/-- An exponent of 64 bits is used up in 64 rounds. -/
def powMod (base exp : UInt64) : UInt64 :=
  if exp = 0 then 1 else sss.powLoop 64 1 (base % sss.prime) exp

def invMod (a : UInt64) : UInt64 := sss.powMod a (sss.prime - 2)

def evaluateLoop (x : UInt64) : List UInt64 → UInt64 → UInt64 → UInt64
  | [], result, _ => result
  | coeff :: coefficients, result, xPower =>
    evaluateLoop x coefficients (sss.addMod result (sss.mulMod coeff xPower)) (sss.mulMod xPower x)

def evaluatePolynomial (coefficients : List UInt64) (x : UInt64) : UInt64 := sss.evaluateLoop x coefficients 0 1

/-- `random_field_element`, of the 64 random bits it reads. -/
def randomFieldElement (random : UInt64) : UInt64 :=
  let value := random % sss.prime
  if value = 0 then 1 else value

end ShamirSecretSharing

/-! ## The field -/

/-- GF(2^61 - 1). -/
abbrev FieldElement := ZMod 2305843009213693951

instance prime_fieldPrime : Fact (Nat.Prime 2305843009213693951) :=
  ⟨lucas_lehmer_sufficiency 61 (by norm_num) (by norm_num)⟩

/-- The element that a number stands for. -/
def element (a : UInt64) : FieldElement := a.toNat

theorem toNat_fieldPrime : fieldPrime.toNat = 2305843009213693951 := rfl

theorem lt_fieldPrime_iff {a : UInt64} : a < fieldPrime ↔ a.toNat < 2305843009213693951 := Iff.rfl

theorem element_injOn {a b : UInt64} (ha : a < fieldPrime) (hb : b < fieldPrime) (h : element a = element b) :
    a = b := by
  have hval := congrArg ZMod.val h
  rw [element, element, ZMod.val_natCast_of_lt (lt_fieldPrime_iff.1 ha),
    ZMod.val_natCast_of_lt (lt_fieldPrime_iff.1 hb)] at hval
  exact UInt64.toNat_inj.1 hval

/-- The number below the prime that stands for an element. -/
def ofElement (a : FieldElement) : UInt64 := .ofNat a.val

theorem toNat_ofElement (a : FieldElement) : (ofElement a).toNat = a.val := by
  rw [ofElement, UInt64.toNat_ofNat_of_lt' ((ZMod.val_lt a).trans (by decide))]

theorem ofElement_lt (a : FieldElement) : ofElement a < fieldPrime := by
  rw [lt_fieldPrime_iff, toNat_ofElement]
  exact ZMod.val_lt a

theorem element_ofElement (a : FieldElement) : element (ofElement a) = a := by
  rw [element, toNat_ofElement, ZMod.natCast_zmod_val]

theorem ofElement_element {a : UInt64} (ha : a < fieldPrime) : ofElement (element a) = a :=
  element_injOn (ofElement_lt _) ha (element_ofElement _)

theorem toUInt64_lt_fieldPrime (x : UInt32) : x.toUInt64 < fieldPrime := by
  have hx := x.toNat_lt
  rw [lt_fieldPrime_iff, UInt32.toNat_toUInt64]
  omega

theorem element_toUInt64_injective : Function.Injective fun x : UInt32 => element x.toUInt64 := by
  intro x y h
  have heq := element_injOn (toUInt64_lt_fieldPrime x) (toUInt64_lt_fieldPrime y) h
  have hnat := congrArg UInt64.toNat heq
  exact UInt32.toNat_inj.1 (by simpa using hnat)

/-! ## The operations -/

namespace ShamirSecretSharing

variable {a b : UInt64}

theorem toNat_new_prime : new.prime.toNat = 2305843009213693951 := rfl

theorem addMod_lt (a b : UInt64) : new.addMod a b < fieldPrime := by
  rw [lt_fieldPrime_iff, addMod, UInt64.toNat_mod]
  exact Nat.mod_lt _ (by decide)

theorem element_addMod (ha : a < fieldPrime) (hb : b < fieldPrime) :
    element (new.addMod a b) = element a + element b := by
  rw [lt_fieldPrime_iff] at ha hb
  have hsum : (a + b).toNat = a.toNat + b.toNat := by
    rw [UInt64.toNat_add, Nat.mod_eq_of_lt (by omega)]
  rw [element, addMod, UInt64.toNat_mod, hsum, toNat_new_prime, ZMod.natCast_mod, Nat.cast_add]
  rfl

theorem element_subMod (ha : a < fieldPrime) (hb : b < fieldPrime) :
    element (new.subMod a b) = element a - element b := by
  rw [lt_fieldPrime_iff] at ha hb
  have hsub : (a + fieldPrime - b).toNat = a.toNat + 2305843009213693951 - b.toNat := by
    rw [UInt64.toNat_sub_of_le, UInt64.toNat_add, toNat_fieldPrime, Nat.mod_eq_of_lt (by omega)]
    rw [UInt64.le_iff_toNat_le, UInt64.toNat_add, toNat_fieldPrime, Nat.mod_eq_of_lt (by omega)]
    omega
  have hprime : new.prime = fieldPrime := rfl
  rw [element, subMod, UInt64.toNat_mod, hprime, hsub, toNat_fieldPrime, ZMod.natCast_mod, Nat.cast_sub (by omega),
    Nat.cast_add, ZMod.natCast_self, add_zero]
  rfl

theorem toNat_mulMod (a b : UInt64) : (new.mulMod a b).toNat = a.toNat * b.toNat % 2305843009213693951 := by
  rw [mulMod, toNat_new_prime, UInt64.toNat_ofNat_of_lt' ((Nat.mod_lt _ (by decide)).trans (by decide))]

theorem mulMod_lt (a b : UInt64) : new.mulMod a b < fieldPrime := by
  rw [lt_fieldPrime_iff, toNat_mulMod]
  exact Nat.mod_lt _ (by decide)

theorem element_mulMod (a b : UInt64) : element (new.mulMod a b) = element a * element b := by
  rw [element, toNat_mulMod, ZMod.natCast_mod, Nat.cast_mul]
  rfl

/-- Square and multiply: the rounds that are left turn the base into its power. -/
theorem element_powLoop {rounds : ℕ} {result base exp : UInt64} (hexp : exp.toNat < 2 ^ rounds) :
    element (new.powLoop rounds result base exp) = element result * element base ^ exp.toNat := by
  induction rounds generalizing result base exp with
  | zero =>
    have hzero : exp.toNat = 0 := by omega
    rw [powLoop, hzero, pow_zero, mul_one]
  | succ rounds ih =>
    rw [powLoop]
    split
    · have hhalf : (exp / 2).toNat = exp.toNat / 2 := UInt64.toNat_div _ _
      have hparity : exp % 2 = 1 ↔ exp.toNat % 2 = 1 := by
        rw [← UInt64.toNat_inj, UInt64.toNat_mod]
        rfl
      rw [ih (by rw [hhalf]; omega), hhalf, element_mulMod, ← pow_two, ← pow_mul]
      by_cases hodd : exp.toNat % 2 = 1
      · rw [if_pos (hparity.2 hodd), element_mulMod, mul_assoc, ← pow_succ']
        congr 2
        omega
      · rw [if_neg fun h => hodd (hparity.1 h)]
        congr 2
        omega
    · rename_i hzero
      have hzero' : exp.toNat = 0 := by
        rw [UInt64.lt_iff_toNat_lt] at hzero
        simpa using hzero
      rw [hzero', pow_zero, mul_one]

theorem element_mod (a : UInt64) : element (a % new.prime) = element a := by
  rw [element, UInt64.toNat_mod, toNat_new_prime, ZMod.natCast_mod]
  rfl

theorem element_powMod (base exp : UInt64) : element (new.powMod base exp) = element base ^ exp.toNat := by
  rw [powMod]
  split
  · rename_i hzero
    simp [hzero, element]
  · rw [element_powLoop exp.toNat_lt, element_mod]
    simp [element]

/-- By Fermat's little theorem. -/
theorem element_invMod (a : UInt64) : element (new.invMod a) = (element a)⁻¹ := by
  have hexp : (new.prime - 2).toNat = 2305843009213693949 := rfl
  rw [invMod, element_powMod, hexp]
  by_cases ha : element a = 0
  · rw [ha, inv_zero, zero_pow (by decide)]
  · have hfermat : element a ^ 2305843009213693950 = 1 := ZMod.pow_card_sub_one_eq_one ha
    apply eq_inv_of_mul_eq_one_left
    rw [← pow_succ]
    exact hfermat

/-- The loop of `evaluate_polynomial`, from a partial sum and a power of `x`. -/
theorem evaluateLoop_spec (coefficients : List UInt64) (x : UInt64) {result xPower : UInt64}
    (hresult : result < fieldPrime) :
    (new.evaluateLoop x coefficients result xPower) < fieldPrime ∧
      element (new.evaluateLoop x coefficients result xPower) =
        element result + element xPower * (Lib.ofCoeffs (coefficients.map element)).eval (element x) := by
  induction coefficients generalizing result xPower with
  | nil => simpa [evaluateLoop, Lib.ofCoeffs] using hresult
  | cons coeff coefficients ih =>
    obtain ⟨hlt, heval⟩ := ih (addMod_lt result (new.mulMod coeff xPower))
    refine ⟨hlt, heval.trans ?_⟩
    rw [element_addMod hresult (mulMod_lt _ _), element_mulMod, element_mulMod, List.map_cons, Lib.ofCoeffs,
      Polynomial.eval_add, Polynomial.eval_C, Polynomial.eval_mul, Polynomial.eval_X]
    ring

theorem evaluatePolynomial_lt (coefficients : List UInt64) (x : UInt64) :
    new.evaluatePolynomial coefficients x < fieldPrime :=
  (evaluateLoop_spec coefficients x (by decide)).1

/-- The value of the polynomial, whatever numbers the coefficients are. -/
theorem element_evaluatePolynomial (coefficients : List UInt64) (x : UInt64) :
    element (new.evaluatePolynomial coefficients x) =
      (Lib.ofCoeffs (coefficients.map element)).eval (element x) := by
  have hzero : element 0 = 0 := by simp [element]
  have hone : element 1 = 1 := by simp [element]
  rw [evaluatePolynomial, (evaluateLoop_spec coefficients x (by decide)).2, hzero, hone, zero_add, one_mul]

end ShamirSecretSharing

end GmKms.Shamir
