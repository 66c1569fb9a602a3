import Mathlib.LinearAlgebra.Lagrange
import Mathlib.LinearAlgebra.FiniteDimensional.Lemmas
import Mathlib.FieldTheory.Finiteness
import Mathlib.Probability.Distributions.Uniform

/-! # Interpolation at zero and the number of polynomials through given points

For distinct nodes of a field: the value at zero of a polynomial of small degree is the
Lagrange combination of its values at the nodes, and through nodes other than zero the
coefficients above the constant one can be chosen to take any prescribed values, in as
many ways for one choice of the values as for any other.  Uniformly drawn coefficients
therefore show the same distribution of values at those nodes whatever the constant is. -/

namespace SecretWeb.Algebra

open Polynomial Finset

variable {F : Type*} [Field F]

/-! ## Recovering the constant coefficient -/

/-- The weight of the value at node `j` in the value at zero. -/
noncomputable def weightAtZero {k : ℕ} (nodes : Fin k → F) (j : Fin k) : F :=
  (∏ i ∈ univ.erase j, -nodes i) * (∏ i ∈ univ.erase j, (nodes j - nodes i))⁻¹

theorem eval_zero_basis {k : ℕ} (nodes : Fin k → F) (j : Fin k) :
    (Lagrange.basis univ nodes j).eval 0 = weightAtZero nodes j := by
  simp only [Lagrange.basis, Lagrange.basisDivisor, eval_prod, eval_mul, eval_C, eval_sub, eval_X,
    zero_sub, prod_mul_distrib, prod_inv_distrib, weightAtZero]
  ring

/-- Any number of distinct nodes above the degree recovers the value at zero. -/
theorem sum_weightAtZero {k : ℕ} (nodes : Fin k → F) (distinct : Function.Injective nodes)
    (polynomial : F[X]) (bounded : polynomial.degree < k) :
    ∑ j, polynomial.eval (nodes j) * weightAtZero nodes j = polynomial.eval 0 := by
  have interpolated : polynomial =
      Lagrange.interpolate univ nodes (fun j => polynomial.eval (nodes j)) :=
    Lagrange.eq_interpolate distinct.injOn (by simpa using bounded)
  conv_rhs => rw [interpolated, Lagrange.interpolate_apply]
  simp [eval_finsetSum, eval_zero_basis]

/-! ## Polynomials with given coefficients -/

/-- The polynomial whose coefficient of `X ^ i` is `coefficients i`. -/
noncomputable def ofCoefficients {m : ℕ} (coefficients : Fin m → F) : F[X] :=
  ∑ i, C (coefficients i) * X ^ (i : ℕ)

theorem degree_ofCoefficients_lt {m : ℕ} (coefficients : Fin m → F) :
    (ofCoefficients coefficients).degree < m :=
  degree_sum_fin_lt coefficients

theorem eval_ofCoefficients {m : ℕ} (coefficients : Fin m → F) (x : F) :
    (ofCoefficients coefficients).eval x = ∑ i, coefficients i * x ^ (i : ℕ) := by
  simp [ofCoefficients, eval_finsetSum]

/-! ## Choosing the coefficients above the constant one -/

/-- The values at the nodes of the part of a polynomial above its constant coefficient. -/
def higherTerms {k m : ℕ} (nodes : Fin k → F) : (Fin m → F) →ₗ[F] (Fin k → F) where
  toFun coefficients i := ∑ j, coefficients j * nodes i ^ ((j : ℕ) + 1)
  map_add' left right := by
    funext i
    simp [add_mul, sum_add_distrib]
  map_smul' scalar coefficients := by
    funext i
    simp [mul_assoc, mul_sum]

@[simp] theorem higherTerms_apply {k m : ℕ} (nodes : Fin k → F) (coefficients : Fin m → F)
    (i : Fin k) :
    higherTerms nodes coefficients i = ∑ j, coefficients j * nodes i ^ ((j : ℕ) + 1) := rfl

/-- With no more nodes than free coefficients and no node at zero, every assignment of
values is reached: interpolate the values divided by the nodes and multiply by `X`. -/
theorem higherTerms_surjective {k m : ℕ} (nodes : Fin k → F) (distinct : Function.Injective nodes)
    (nonzero : ∀ i, nodes i ≠ 0) (enough : k ≤ m) :
    Function.Surjective (higherTerms (m := m) nodes) := by
  intro values
  let quotient : F[X] := Lagrange.interpolate univ nodes (fun i => values i / nodes i)
  have bounded : quotient.natDegree < m ∨ quotient = 0 := by
    by_cases zero : quotient = 0
    · exact .inr zero
    · left
      have degreeBound : quotient.degree < (univ : Finset (Fin k)).card :=
        Lagrange.degree_interpolate_lt _ distinct.injOn
      rw [card_univ, Fintype.card_fin] at degreeBound
      exact lt_of_lt_of_le ((natDegree_lt_iff_degree_lt zero).mpr degreeBound) enough
  refine ⟨fun j => quotient.coeff j, ?_⟩
  funext i
  have value : quotient.eval (nodes i) = values i / nodes i :=
    Lagrange.eval_interpolate_at_node _ distinct.injOn (mem_univ i)
  have expanded : quotient.eval (nodes i) = ∑ j : Fin m, quotient.coeff j * nodes i ^ (j : ℕ) := by
    rw [Fin.sum_univ_eq_sum_range (fun j => quotient.coeff j * nodes i ^ j)]
    rcases bounded with below | zero
    · exact eval_eq_sum_range' below (nodes i)
    · simp [zero]
  calc ∑ j : Fin m, quotient.coeff j * nodes i ^ ((j : ℕ) + 1)
      = (∑ j : Fin m, quotient.coeff j * nodes i ^ (j : ℕ)) * nodes i := by
        rw [sum_mul]
        exact sum_congr rfl fun j _ => by ring
    _ = values i := by rw [← expanded, value, div_mul_cancel₀ _ (nonzero i)]

/-- Exactly `|F| ^ (m - k)` coefficient vectors take given values at `k` nodes, whatever
the values are. -/
theorem card_higherTerms_eq [Finite F] {k m : ℕ} (nodes : Fin k → F)
    (distinct : Function.Injective nodes) (nonzero : ∀ i, nodes i ≠ 0) (enough : k ≤ m)
    (values : Fin k → F) :
    Nat.card {coefficients : Fin m → F // higherTerms nodes coefficients = values} =
      Nat.card F ^ (m - k) := by
  obtain ⟨base, baseValue⟩ := higherTerms_surjective nodes distinct nonzero enough values
  -- the solutions are one of them translated by the kernel
  have translated : {coefficients : Fin m → F // higherTerms nodes coefficients = values} ≃
      LinearMap.ker (higherTerms (m := m) nodes) :=
    { toFun := fun solution => ⟨solution.1 - base, by
        rw [LinearMap.mem_ker, map_sub, solution.2, baseValue, sub_self]⟩
      invFun := fun difference => ⟨difference.1 + base, by
        rw [map_add, LinearMap.mem_ker.mp difference.2, baseValue, zero_add]⟩
      left_inv := fun solution => by simp
      right_inv := fun difference => by simp }
  have rangeFull : LinearMap.range (higherTerms (m := m) nodes) = ⊤ :=
    LinearMap.range_eq_top.mpr (higherTerms_surjective nodes distinct nonzero enough)
  have dimension := LinearMap.finrank_range_add_finrank_ker (higherTerms (m := m) nodes)
  rw [rangeFull, finrank_top, Module.finrank_fin_fun, Module.finrank_fin_fun] at dimension
  rw [Nat.card_congr translated, Module.natCard_eq_pow_finrank (K := F)]
  congr 1
  omega

/-- Prescribed values at any few points other than zero. -/
theorem exists_higherTerms {m : ℕ} (points : Finset F) (nonzero : 0 ∉ points)
    (few : points.card ≤ m) (values : F → F) :
    ∃ coefficients : Fin m → F,
      ∀ x ∈ points, ∑ j, coefficients j * x ^ ((j : ℕ) + 1) = values x := by
  let nodes : Fin points.card → F := fun i => (points.equivFin.symm i).1
  have distinct : Function.Injective nodes :=
    Subtype.val_injective.comp points.equivFin.symm.injective
  have nodesNonzero : ∀ i, nodes i ≠ 0 := fun i zero =>
    nonzero (zero ▸ (points.equivFin.symm i).2)
  obtain ⟨coefficients, reached⟩ :=
    higherTerms_surjective nodes distinct nodesNonzero few fun i => values (nodes i)
  refine ⟨coefficients, fun x member => ?_⟩
  have found : nodes (points.equivFin ⟨x, member⟩) = x := by simp [nodes]
  have value := congrFun reached (points.equivFin ⟨x, member⟩)
  rwa [higherTerms_apply, found] at value

/-! ## Uniform draws -/

theorem uniformOfFintype_map_equiv {α : Type*} [Fintype α] [Nonempty α] (permutation : α ≃ α) :
    (PMF.uniformOfFintype α).map permutation = PMF.uniformOfFintype α := by
  ext outcome
  rw [PMF.map_apply, tsum_eq_single (permutation.symm outcome)]
  · simp
  · intro other different
    have missed : outcome ≠ permutation other := by
      rintro rfl
      exact different (permutation.symm_apply_apply other).symm
    rw [if_neg missed]

/-- Two observations of one uniform draw that a permutation of the draws carries into each
other have one distribution. -/
theorem uniformOfFintype_map_eq {α β : Type*} [Fintype α] [Nonempty α] (permutation : α ≃ α)
    (left right : α → β) (carried : ∀ draw, left draw = right (permutation draw)) :
    (PMF.uniformOfFintype α).map left = (PMF.uniformOfFintype α).map right := by
  conv_rhs => rw [← uniformOfFintype_map_equiv permutation, PMF.map_comp]
  congr 1
  funext draw
  exact carried draw

end SecretWeb.Algebra
