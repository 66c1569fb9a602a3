import SecretWeb.Shamir.Decoder
import SecretWeb.Algebra.Interpolation

/-! # Interpolation undoes evaluation

The loops of `_polynom` and `_reconstruct_secret` are read in the field: a dealt point
lies on the graph of a polynomial of degree below the treshold, and combining points with
distinct x-coordinates gives the Lagrange value at zero. -/

namespace SecretWeb.Shamir

open SecretWeb.Algebra SecretWeb.Python Polynomial Finset

/-! ## Evaluation -/

/-- The polynomial of a coefficient list, which holds the constant last. -/
noncomputable def graph (coefficients : List Int) : (ZMod PRIME)[X] :=
  ofCoefficients fun i : Fin coefficients.reverse.length => residue coefficients.reverse[i]

theorem residue_polynom_fold (x : Int) (values : List Int) (start : Nat) (point : Int) :
    residue ((values.zipIdx start).foldl
      (fun point entry => (point + x ^ entry.2 % PRIME * entry.1) % PRIME) point) =
      residue point + ∑ i : Fin values.length, residue (values.get i) * residue x ^ (start + i) := by
  induction values generalizing start point with
  | nil => simp
  | cons value rest inductionHypothesis =>
    rw [List.zipIdx_cons, List.foldl_cons, inductionHypothesis, residue_emod]
    have shifted : ∀ i : Fin rest.length, start + 1 + (i : ℕ) = start + (i.succ : ℕ) := by
      intro i
      rw [Fin.val_succ]
      omega
    have head : residue (point + x ^ start % PRIME * value) =
        residue point + residue value * residue x ^ start := by
      have power := residue_emod (x ^ start)
      simp only [residue, Int.cast_add, Int.cast_mul] at power ⊢
      rw [power, Int.cast_pow, mul_comm]
    show _ = residue point +
      ∑ i : Fin (rest.length + 1), residue ((value :: rest).get i) * residue x ^ (start + (i : ℕ))
    rw [head, Fin.sum_univ_succ, add_assoc]
    simp [shifted]

theorem residue_polynom (x : Int) (coefficients : List Int) :
    residue (polynom x coefficients) = (graph coefficients).eval (residue x) := by
  have folded := residue_polynom_fold x coefficients.reverse 0 0
  rw [graph, eval_ofCoefficients]
  exact folded.trans (by simp)

theorem degree_graph_lt (coefficients : List Int) :
    (graph coefficients).degree < coefficients.length := by
  have bounded : (graph coefficients).degree < coefficients.reverse.length :=
    degree_ofCoefficients_lt _
  simpa only [List.length_reverse] using bounded

theorem eval_zero_graph (higher : List Int) (secret : Int) :
    (graph (higher ++ [secret])).eval 0 = residue secret := by
  have constant : (⟨0, by simp⟩ : Fin (higher ++ [secret]).reverse.length) ∈ univ := mem_univ _
  rw [graph, eval_ofCoefficients, sum_eq_single_of_mem _ constant]
  · simp
  · intro i _ other
    have positive : (i : ℕ) ≠ 0 := fun zero => other (Fin.ext zero)
    rw [zero_pow positive, mul_zero]

theorem polynom_mem_range (x : Int) (coefficients : List Int) :
    0 ≤ polynom x coefficients ∧ polynom x coefficients < PRIME := by
  have kept : ∀ (values : List (Int × Nat)) (point : Int), 0 ≤ point ∧ point < PRIME →
      let result := values.foldl (fun point entry => (point + x ^ entry.2 % PRIME * entry.1) % PRIME) point
      0 ≤ result ∧ result < PRIME := by
    intro values
    induction values with
    | nil => exact fun point inRange => inRange
    | cons value rest inductionHypothesis =>
      intro point _
      exact inductionHypothesis _
        ⟨Int.emod_nonneg _ PRIME_pos.ne', Int.emod_lt_of_pos _ PRIME_pos⟩
  exact kept _ 0 ⟨le_refl 0, PRIME_pos⟩

/-! ## Combination -/

/-- The x-coordinates of a list of points, in the field. -/
def nodes (shares : List Point) : Fin shares.length → ZMod PRIME := fun i => residue shares[i].1

theorem residue_lagrangeTerms_fold (shares : List Point) (start j : Nat) (xj num den : Int) :
    let terms := (shares.zipIdx start).foldl
      (fun (num, den) (shareI, i) =>
        if i ≠ j then (num * -shareI.1 % PRIME, den * (xj - shareI.1) % PRIME) else (num, den))
      (num, den)
    residue terms.1 = residue num *
        ∏ i : Fin shares.length, (if start + i = j then 1 else -nodes shares i) ∧
      residue terms.2 = residue den *
        ∏ i : Fin shares.length, (if start + i = j then 1 else residue xj - nodes shares i) := by
  -- on the shares; the own share is skipped, in the loop as in the product
  induction shares generalizing start num den with
  | nil => simp
  | cons share rest inductionHypothesis =>
    have shifted : ∀ i : Fin rest.length, start + (i.succ : ℕ) = start + 1 + (i : ℕ) := by
      intro i
      rw [Fin.val_succ]
      omega
    have tail : ∀ i : Fin rest.length, nodes (share :: rest) i.succ = nodes rest i := fun i => rfl
    have first : nodes (share :: rest) 0 = residue share.1 := rfl
    simp only [List.zipIdx_cons, List.foldl_cons, List.length_cons, Fin.prod_univ_succ, shifted,
      tail, first, Fin.val_zero, add_zero]
    by_cases own : start = j
    · simpa only [own, ne_eq, not_true_eq_false, ↓reduceIte, one_mul] using
        inductionHypothesis (start + 1) num den
    · obtain ⟨numerator, denominator⟩ := inductionHypothesis (start + 1) (num * -share.1 % PRIME)
        (den * (xj - share.1) % PRIME)
      simp only [ne_eq, own, not_false_eq_true, ↓reduceIte]
      rw [numerator, denominator, residue_emod, residue_emod]
      constructor <;> simp [residue, mul_assoc]

theorem residue_lagrangeTerms (shares : List Point) (j : Fin shares.length) :
    residue (lagrangeTerms shares j shares[j].1).1 = ∏ i ∈ univ.erase j, -nodes shares i ∧
      residue (lagrangeTerms shares j shares[j].1).2 =
        ∏ i ∈ univ.erase j, (nodes shares j - nodes shares i) := by
  have skipped : ∀ term : Fin shares.length → ZMod PRIME,
      ∏ i : Fin shares.length, (if 0 + (i : ℕ) = j then 1 else term i) =
        ∏ i ∈ univ.erase j, term i := by
    intro term
    rw [← mul_prod_erase univ _ (mem_univ j)]
    simp only [zero_add, ↓reduceIte, one_mul]
    refine prod_congr rfl fun i member => ?_
    rw [if_neg fun same => (mem_erase.mp member).1 (Fin.ext same)]
  have folded := residue_lagrangeTerms_fold shares 0 j shares[j].1 1 1
  simp only [skipped] at folded
  simpa [lagrangeTerms, residue, nodes] using folded

/-- One round of the outer loop succeeds and adds one Lagrange term. -/
theorem addTerm_ok (shares : List Point) (distinct : Function.Injective (nodes shares))
    (sums : Int) (j : Fin shares.length) :
    ∃ total : Int, addTerm shares sums shares[j] j = .ok total ∧ 0 ≤ total ∧ total < PRIME ∧
      residue total =
        residue sums + residue shares[j].2 * weightAtZero (nodes shares) j := by
  obtain ⟨numerator, denominator⟩ := residue_lagrangeTerms shares j
  have invertible : residue (lagrangeTerms shares j shares[j].1).2 ≠ 0 := by
    rw [denominator, prod_ne_zero_iff]
    intro i member
    exact sub_ne_zero.mpr fun same => (mem_erase.mp member).1 (distinct same).symm
  obtain ⟨inverse, computed, inverseValue⟩ := powInverse_PRIME _ invertible
  refine ⟨(sums + shares[j].2 *
    ((lagrangeTerms shares j shares[j].1).1 * inverse % PRIME)) % PRIME, ?_,
    Int.emod_nonneg _ PRIME_pos.ne', Int.emod_lt_of_pos _ PRIME_pos, ?_⟩
  · simp only [addTerm, computed]
  · have lagrange := residue_emod ((lagrangeTerms shares j shares[j].1).1 * inverse)
    rw [residue_emod]
    simp only [residue, Int.cast_add, Int.cast_mul] at lagrange numerator inverseValue denominator ⊢
    rw [lagrange, numerator, inverseValue, denominator, weightAtZero]

/-- The outer loop from position `start` on. -/
theorem foldlM_addTerm_ok (shares : List Point) (distinct : Function.Injective (nodes shares))
    (rest : List Point) (start : Nat) (suffix : shares.drop start = rest) (sums : Int)
    (nonneg : 0 ≤ sums) (bounded : sums < PRIME) :
    ∃ total : Int, (rest.zipIdx start).foldlM
        (fun sums (shareJ, j) => addTerm shares sums shareJ j) sums = .ok total ∧
      0 ≤ total ∧ total < PRIME ∧
      residue total = residue sums + ∑ j : Fin shares.length,
        if start ≤ j then residue shares[j].2 * weightAtZero (nodes shares) j else 0 := by
  induction rest generalizing start sums with
  | nil =>
    have past : shares.length ≤ start := List.drop_eq_nil_iff.mp suffix
    refine ⟨sums, rfl, nonneg, bounded, ?_⟩
    rw [sum_eq_zero, add_zero]
    intro j _
    rw [if_neg (by have := j.isLt; omega)]
  | cons share rest inductionHypothesis =>
    have inside : start < shares.length := by
      by_contra outside
      rw [List.drop_eq_nil_of_le (by omega)] at suffix
      cases suffix
    rw [List.drop_eq_getElem_cons inside] at suffix
    obtain ⟨headEqual, tailEqual⟩ := List.cons.inj suffix
    obtain ⟨next, computed, nextNonneg, nextBounded, nextValue⟩ :=
      addTerm_ok shares distinct sums ⟨start, inside⟩
    simp only [Fin.getElem_fin, headEqual] at computed nextValue
    obtain ⟨total, finished, totalNonneg, totalBounded, totalValue⟩ :=
      inductionHypothesis (start + 1) tailEqual next nextNonneg nextBounded
    refine ⟨total, ?_, totalNonneg, totalBounded, ?_⟩
    · rw [List.zipIdx_cons, List.foldlM_cons]
      show (addTerm shares sums share start >>= _) = _
      rw [computed, ok_bind]
      exact finished
    · rw [totalValue, nextValue, add_assoc]
      congr 1
      rw [← add_sum_erase univ (fun j : Fin shares.length => if start ≤ (j : ℕ) then
        residue shares[j].2 * weightAtZero (nodes shares) j else 0) (mem_univ ⟨start, inside⟩),
        ← add_sum_erase univ (fun j : Fin shares.length => if start + 1 ≤ (j : ℕ) then
        residue shares[j].2 * weightAtZero (nodes shares) j else 0) (mem_univ ⟨start, inside⟩)]
      simp only [Fin.getElem_fin, headEqual, le_refl, ↓reduceIte, Nat.not_succ_le_self, zero_add]
      congr 1
      refine sum_congr rfl fun j member => ?_
      have other : (j : ℕ) ≠ start := fun same => (mem_erase.mp member).1 (Fin.ext same)
      by_cases later : start ≤ (j : ℕ)
      · rw [if_pos later, if_pos (by omega)]
      · rw [if_neg later, if_neg (by omega)]

/-- Combining points with distinct nodes never fails and yields the reduced Lagrange value
at zero. -/
theorem reconstructSecret_ok (shares : List Point) (distinct : Function.Injective (nodes shares)) :
    ∃ secret : Int, reconstructSecret shares = .ok secret ∧ 0 ≤ secret ∧ secret < PRIME ∧
      residue secret = ∑ j, residue shares[j].2 * weightAtZero (nodes shares) j := by
  obtain ⟨secret, computed, nonneg, bounded, value⟩ :=
    foldlM_addTerm_ok shares distinct shares 0 rfl 0 (le_refl 0) PRIME_pos
  refine ⟨secret, computed, nonneg, bounded, ?_⟩
  simpa [residue] using value

/-- Points in range whose integer x-coordinates differ have distinct nodes. -/
theorem nodes_injective {shares : List Point} (distinct : (shares.map Prod.fst).Nodup)
    (inRange : ∀ share ∈ shares, 0 < share.1 ∧ share.1 < PRIME) :
    Function.Injective (nodes shares) := by
  intro i j same
  have iRange := inRange shares[i] (List.getElem_mem i.isLt)
  have jRange := inRange shares[j] (List.getElem_mem j.isLt)
  have equal : shares[i].1 = shares[j].1 :=
    eq_of_residue_eq iRange.1.le iRange.2 jRange.1.le jRange.2 same
  have iInside : (i : ℕ) < (shares.map Prod.fst).length := by simp
  have jInside : (j : ℕ) < (shares.map Prod.fst).length := by simp
  have indexed : (shares.map Prod.fst)[(i : ℕ)] = (shares.map Prod.fst)[(j : ℕ)] := by
    simpa using equal
  exact Fin.ext ((List.Nodup.getElem_inj_iff distinct).mp indexed)

/-- Points of a graph of degree below their number combine into the residue of its constant. -/
theorem reconstructSecret_emod (shares : List Point) (higher : List Int) (secret : Int)
    (distinct : (shares.map Prod.fst).Nodup)
    (inRange : ∀ share ∈ shares, 0 < share.1 ∧ share.1 < PRIME)
    (onGraph : ∀ share ∈ shares,
      residue share.2 = residue (polynom share.1 (higher ++ [secret])))
    (enough : higher.length + 1 ≤ shares.length) :
    reconstructSecret shares = .ok (secret % PRIME) := by
  have injective := nodes_injective distinct inRange
  obtain ⟨combined, computed, nonneg, bounded, value⟩ := reconstructSecret_ok shares injective
  have degree : (graph (higher ++ [secret])).degree < shares.length := by
    refine lt_of_lt_of_le (degree_graph_lt _) ?_
    rw [List.length_append, List.length_singleton]
    exact_mod_cast enough
  have same : residue combined = residue (secret % PRIME) := by
    rw [value, residue_emod, ← eval_zero_graph higher secret,
      ← sum_weightAtZero (nodes shares) injective _ degree]
    refine sum_congr rfl fun j _ => ?_
    rw [Fin.getElem_fin, onGraph shares[(j : ℕ)] (List.getElem_mem j.isLt), residue_polynom]
    rfl
  rw [computed, eq_of_residue_eq nonneg bounded (Int.emod_nonneg _ PRIME_pos.ne')
    (Int.emod_lt_of_pos _ PRIME_pos) same]

theorem reconstructSecret_of_graph (shares : List Point) (higher : List Int) (secret : Int)
    (nonneg : 0 ≤ secret) (bounded : secret < PRIME)
    (distinct : (shares.map Prod.fst).Nodup)
    (inRange : ∀ share ∈ shares, 0 < share.1 ∧ share.1 < PRIME)
    (onGraph : ∀ share ∈ shares,
      residue share.2 = residue (polynom share.1 (higher ++ [secret])))
    (enough : higher.length + 1 ≤ shares.length) :
    reconstructSecret shares = .ok secret := by
  have combined := reconstructSecret_emod shares higher secret distinct inRange onGraph enough
  rwa [Int.emod_eq_of_lt nonneg bounded] at combined

end SecretWeb.Shamir
