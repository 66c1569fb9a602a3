import SecretWeb.Python.Exceptions
import Mathlib.Algebra.Order.Ring.Int
import Mathlib.Data.Int.GCD
import Mathlib.Data.Int.ModEq
import Mathlib.Tactic.LinearCombination

/-! # Modular inverses

`pow(base, -1, modulus)` by the extended Euclidean algorithm, for a positive modulus. -/

namespace SecretWeb.Python

/-- A common divisor of `a` and `b` with the two factors that combine them into it; `fuel`
bounds the number of divisions. -/
def extendedGcd : (fuel : Nat) → Int → Int → Int × Int × Int
  | 0, a, _ => (a, 1, 0)
  | fuel + 1, a, b =>
    if b = 0 then (a, 1, 0)
    else
      match extendedGcd fuel b (a % b) with
      | (divisor, left, right) => (divisor, right, left - a / b * right)

theorem extendedGcd_combines (fuel : Nat) (a b : Int) :
    (extendedGcd fuel a b).2.1 * a + (extendedGcd fuel a b).2.2 * b = (extendedGcd fuel a b).1 := by
  induction fuel generalizing a b with
  | zero => simp [extendedGcd]
  | succ fuel inductionHypothesis =>
    by_cases zero : b = 0
    · simp [extendedGcd, zero]
    · have division := Int.emod_add_mul_ediv a b
      have combined := inductionHypothesis b (a % b)
      simp only [extendedGcd, zero, ↓reduceIte]
      linear_combination combined - (extendedGcd fuel b (a % b)).2.2 * division

theorem extendedGcd_fst (fuel : Nat) (a b : Int) (aNonneg : 0 ≤ a) (bNonneg : 0 ≤ b)
    (enough : b < fuel) : (extendedGcd fuel a b).1 = Int.gcd a b := by
  induction fuel generalizing a b with
  | zero => omega
  | succ fuel inductionHypothesis =>
    by_cases zero : b = 0
    · simp [extendedGcd, zero, Int.natAbs_of_nonneg aNonneg]
    · have positive : 0 < b := by omega
      have smaller := Int.emod_lt_of_pos a positive
      have step := inductionHypothesis b (a % b) bNonneg (Int.emod_nonneg a zero) (by omega)
      simp only [extendedGcd, zero, ↓reduceIte, step]
      rw [Int.gcd_comm b, Int.gcd_emod, Int.gcd_comm a]

def powInverse (base modulus : Int) : Except PyException Int :=
  match extendedGcd (modulus.toNat + 1) (base % modulus) modulus with
  | (divisor, factor, _) =>
    if divisor = 1 then .ok (factor % modulus)
    else .error (.valueError "base is not invertible for the given modulus")

/-- An invertible base has its inverse returned, reduced. -/
theorem powInverse_ok (base modulus : Int) (positive : 0 < modulus) (coprime : Int.gcd base modulus = 1) :
    ∃ inverse, powInverse base modulus = .ok inverse ∧ inverse * base ≡ 1 [ZMOD modulus] := by
  have reduced : Int.gcd (base % modulus) modulus = 1 := by
    rw [Int.gcd_comm, Int.gcd_comm, Int.gcd_emod]
    exact coprime
  have divisor := extendedGcd_fst (modulus.toNat + 1) (base % modulus) modulus
    (Int.emod_nonneg base positive.ne') positive.le (by omega)
  have combined := extendedGcd_combines (modulus.toNat + 1) (base % modulus) modulus
  generalize result : extendedGcd (modulus.toNat + 1) (base % modulus) modulus = triple at divisor combined
  obtain ⟨greatest, factor, other⟩ := triple
  simp only [reduced, Nat.cast_one] at divisor combined
  refine ⟨factor % modulus, by simp [powInverse, result, divisor], ?_⟩
  calc factor % modulus * base ≡ factor * (base % modulus) [ZMOD modulus] :=
        (Int.mod_modEq _ _).mul (Int.mod_modEq _ _).symm
    _ ≡ factor * (base % modulus) + other * modulus [ZMOD modulus] := by
        simp [Int.modEq_iff_dvd]
    _ = 1 := by rw [combined, divisor]

end SecretWeb.Python
