import SecretWeb.Python.Arithmetic
import Mathlib.NumberTheory.LucasLehmer
import Mathlib.FieldTheory.Finite.Basic

/-! # The field the shares live in

`PRIME` is the Mersenne number `2 ^ 127 - 1`; the program's reduced integers are read in
`ZMod PRIME`. -/

namespace SecretWeb.Shamir

open SecretWeb.Python

def PRIME : Nat := 2 ^ 127 - 1

def MAX_SECRET_BYTES : Nat := 1000000

theorem prime_PRIME : PRIME.Prime := by
  have lucasLehmer := lucas_lehmer_sufficiency 127 (by norm_num) (by norm_num)
  simpa [mersenne, PRIME] using lucasLehmer

instance : Fact PRIME.Prime := ⟨prime_PRIME⟩

instance : NeZero PRIME := ⟨prime_PRIME.ne_zero⟩

instance : NeZero (PRIME - 1) := ⟨by decide⟩

theorem PRIME_pos : (0 : Int) < PRIME := by decide

/-- A point `(x, y)` of a share. -/
abbrev Point := Int × Int

/-- The residue an integer of the program stands for. -/
abbrev residue (value : Int) : ZMod PRIME := (value : ZMod PRIME)

theorem residue_emod (value : Int) : residue (value % PRIME) = residue value := by
  simp [residue]

theorem residue_eq_zero_iff (value : Int) : residue value = 0 ↔ (PRIME : Int) ∣ value :=
  ZMod.intCast_zmod_eq_zero_iff_dvd value PRIME

/-- Reduced integers with one residue are equal. -/
theorem eq_of_residue_eq {left right : Int} (leftNonneg : 0 ≤ left) (leftBound : left < PRIME)
    (rightNonneg : 0 ≤ right) (rightBound : right < PRIME) (same : residue left = residue right) :
    left = right := by
  have congruent := (ZMod.intCast_eq_intCast_iff' left right PRIME).mp same
  rwa [Int.emod_eq_of_lt leftNonneg leftBound, Int.emod_eq_of_lt rightNonneg rightBound] at congruent

theorem residue_ne_zero {value : Int} (positive : 0 < value) (bounded : value < PRIME) :
    residue value ≠ 0 := by
  rw [Ne, residue_eq_zero_iff]
  intro divides
  have := Int.le_of_dvd positive divides
  omega

/-- `pow(den, -1, PRIME)` succeeds on every nonzero residue and returns its inverse. -/
theorem powInverse_PRIME (base : Int) (nonzero : residue base ≠ 0) :
    ∃ inverse, powInverse base PRIME = .ok inverse ∧ residue inverse = (residue base)⁻¹ := by
  have coprime : Int.gcd base PRIME = 1 := by
    rw [Ne, residue_eq_zero_iff] at nonzero
    rw [Int.gcd_comm]
    exact (Nat.Prime.coprime_iff_not_dvd prime_PRIME).mpr
      (fun divides => nonzero (Int.natCast_dvd.mpr divides))
  obtain ⟨inverse, computed, congruent⟩ := powInverse_ok base PRIME PRIME_pos coprime
  refine ⟨inverse, computed, eq_inv_of_mul_eq_one_left ?_⟩
  have product := (ZMod.intCast_eq_intCast_iff (inverse * base) 1 PRIME).mpr congruent
  simpa using product

end SecretWeb.Shamir
