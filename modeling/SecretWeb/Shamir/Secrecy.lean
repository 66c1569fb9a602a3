import SecretWeb.Shamir.Quorum

/-! # Secrecy below the treshold

Through fewer points than the treshold there are equally many coefficient vectors for every
constant term, so what a coalition below the treshold is handed has one distribution for
all secrets with the same number of chunks. -/

namespace SecretWeb.Shamir

open SecretWeb.Algebra SecretWeb.Data SecretWeb.Python Finset

/-! ## Drawn coefficients as field elements -/

def drawnValue (value : ZMod PRIME) : Fin PRIME := ⟨value.val, value.val_lt⟩

@[simp] theorem drawnValue_cast (value : ZMod PRIME) :
    ((drawnValue value).val : ZMod PRIME) = value :=
  ZMod.natCast_zmod_val value

theorem drawnValue_natCast (drawn : Fin PRIME) : drawnValue (drawn.val : ZMod PRIME) = drawn :=
  Fin.ext (ZMod.val_cast_of_lt drawn.isLt)

theorem cast_add_drawn (left right : Fin PRIME) :
    (((left + right : Fin PRIME).val : Nat) : ZMod PRIME) = left.val + right.val := by
  rw [Fin.val_add, ZMod.natCast_mod, Nat.cast_add]

theorem residue_polynom_constant (x secret : Int) (values : List Int) :
    residue (polynom x (values.reverse ++ [secret])) =
      residue secret + ∑ i : Fin values.length, residue (values.get i) * residue x ^ ((i : Nat) + 1) := by
  rw [polynom, List.reverse_append, List.reverse_reverse, List.reverse_singleton, List.singleton_append]
  apply (residue_polynom_fold x (secret :: values) 0 0).trans
  show residue 0 + ∑ i : Fin (values.length + 1),
    residue ((secret :: values).get i) * residue x ^ (0 + (i : Nat)) = _
  rw [Fin.sum_univ_succ]
  simp

/-- The value of a dealt polynomial: the constant, and above it the drawn coefficients in
reverse order. -/
theorem residue_polynom_drawn {degree : Nat} (drawn : Fin degree → Fin PRIME) (secret x : Int) :
    residue (polynom x ((List.ofFn drawn).map (fun value => (value.val : Int)) ++ [secret])) =
      residue secret +
        ∑ j : Fin degree, ((drawn j.rev).val : ZMod PRIME) * residue x ^ ((j : Nat) + 1) := by
  -- `coeff` puts the highest coefficient first
  have reversed : (List.ofFn drawn).map (fun value => (value.val : Int)) =
      (List.ofFn fun j : Fin degree => ((drawn j.rev).val : Int)).reverse := by
    apply List.ext_getElem
    · simp
    · intro index leftBound rightBound
      simp only [List.getElem_map, List.getElem_ofFn, List.getElem_reverse, List.length_ofFn]
      congr 3
      ext
      simp only [List.length_map, List.length_ofFn] at leftBound
      simp only [Fin.val_rev]
      omega
  rw [reversed, residue_polynom_constant]
  congr 1
  apply Fintype.sum_equiv (finCongr List.length_ofFn)
  intro i
  simp only [List.get_eq_getElem, List.getElem_ofFn]
  exact congrArg₂ (· * ·) (Int.cast_natCast _) rfl

/-! ## Counting -/

/-- The coefficient vectors that put given values at given points, over the constant
`secret`, are as many as the field has vectors of the remaining length. -/
theorem card_coeff_through {treshold secret : Int} {k : Nat} (few : (k : Int) ≤ treshold - 1)
    (xs ys : Fin k → Int) (distinct : Function.Injective xs)
    (xRange : ∀ i, 0 < xs i ∧ xs i < PRIME) (yRange : ∀ i, 0 ≤ ys i ∧ ys i < PRIME) :
    Nat.card {drawn : List (Fin PRIME) // ∃ coefficients, coeff treshold secret drawn = some coefficients ∧
        ∀ i, polynom (xs i) coefficients = ys i} =
      PRIME ^ ((treshold - 1).toNat - k) := by
  have nodesDistinct : Function.Injective fun i => residue (xs i) := fun left right same =>
    distinct (eq_of_residue_eq (xRange left).1.le (xRange left).2 (xRange right).1.le
      (xRange right).2 same)
  have counted := card_higherTerms_eq (m := (treshold - 1).toNat) (fun i => residue (xs i))
    nodesDistinct (fun i => residue_ne_zero (xRange i).1 (xRange i).2) (by omega)
    (fun i => residue (ys i) - residue secret)
  rw [Nat.card_zmod] at counted
  rw [← counted]
  -- passing through the points is a linear system in the drawn coefficients
  have through : ∀ (drawn : Fin (treshold - 1).toNat → Fin PRIME) (i : Fin k),
      polynom (xs i) ((List.ofFn drawn).map (fun value => (value.val : Int)) ++ [secret]) = ys i ↔
        higherTerms (fun i => residue (xs i)) (fun j => ((drawn j.rev).val : ZMod PRIME)) i =
          residue (ys i) - residue secret := by
    intro drawn i
    have value := residue_polynom_drawn drawn secret (xs i)
    rw [higherTerms_apply, eq_sub_iff_add_eq, add_comm, ← value]
    constructor
    · exact congrArg residue
    · exact eq_of_residue_eq (polynom_mem_range _ _).1 (polynom_mem_range _ _).2 (yRange i).1 (yRange i).2
  symm
  refine Nat.card_eq_of_bijective
    (fun solution => ⟨List.ofFn fun j => drawnValue (solution.1 j.rev), _, if_pos (by simp), ?_⟩) ?_
  · intro i
    refine (through _ i).mpr ?_
    simpa using congrFun solution.2 i
  · constructor
    · intro left right same
      -- no two solutions give the same draw, and every draw gives one
      have lists := List.ofFn_injective (congrArg Subtype.val same)
      refine Subtype.ext (funext fun j => ?_)
      have value := congrArg (fun drawn : Fin PRIME => (drawn.val : ZMod PRIME)) (congrFun lists j.rev)
      simpa using value
    · rintro ⟨drawn, coefficients, drew, values⟩
      simp only [coeff, Option.ite_none_right_eq_some, Option.some.injEq] at drew
      obtain ⟨length, rfl⟩ := drew
      obtain ⟨vector, rfl⟩ : ∃ vector : Fin (treshold - 1).toNat → Fin PRIME, List.ofFn vector = drawn :=
        ⟨fun j => drawn[j.val], by apply List.ext_getElem <;> simp [length]⟩
      refine ⟨⟨fun j => ((vector j.rev).val : ZMod PRIME), funext fun i => (through vector i).mp (values i)⟩, ?_⟩
      refine Subtype.ext ?_
      simp [drawnValue_natCast]

/-! ## Masking the coefficients of one chunk

The x-coordinates a row gets are drawn without looking at the coefficients.  At the
x-coordinates a coalition sees, a fixed shift of the coefficients makes up for any change
of the constant. -/

/-- The x-coordinates that the drawing loop of a row settles on. -/
def drawX (nShares : Int) : List (Fin (PRIME - 1)) → List Int → Option (List Int)
  | [], xValues => if (xValues.length : Int) < nShares then none else some xValues
  | draw :: rest, xValues =>
    if (xValues.length : Int) < nShares then
      if (draw.val : Int) + 1 ∈ xValues then drawX nShares rest xValues
      else drawX nShares rest (xValues ++ [(draw.val : Int) + 1])
    else some xValues

def onGraph (coefficients : List Int) (x : Int) : Point := (x, polynom x coefficients)

theorem drawShares_eq_drawX (coefficients : List Int) (nShares : Int) (draws : List (Fin (PRIME - 1)))
    (xValues : List Int) :
    drawShares coefficients nShares draws (xValues.map (onGraph coefficients)) xValues =
      (drawX nShares draws xValues).map (List.map (onGraph coefficients)) := by
  induction draws generalizing xValues with
  | nil =>
    simp only [drawShares, drawX, List.length_map]
    split <;> rfl
  | cons draw rest inductionHypothesis =>
    simp only [drawShares, drawX, List.length_map]
    split
    · split
      · exact inductionHypothesis xValues
      · rw [← inductionHypothesis, List.map_append]
        rfl
    · rfl

theorem generateShares_ofFn (nShares treshold secret : Int)
    (drawn : Fin (treshold - 1).toNat → Fin PRIME) (xDraws : List (Fin (PRIME - 1))) :
    generateShares nShares treshold secret ⟨List.ofFn drawn, xDraws⟩ =
      (drawX nShares xDraws []).map (List.map (onGraph
        ((List.ofFn drawn).map (fun value => (value.val : Int)) ++ [secret]))) := by
  rw [generateShares, coeff, if_pos (List.length_ofFn)]
  exact drawShares_eq_drawX _ nShares xDraws []

/-- Two rows look the same at the places of the coalition. -/
def AgreeOn (coalition : Finset Nat) (left right : List Point) : Prop :=
  left.length = right.length ∧ ∀ index ∈ coalition, left[index]? = right[index]?

theorem exists_mask (nShares treshold leftSecret rightSecret : Int) (xDraws : List (Fin (PRIME - 1)))
    (coalition : Finset Nat) (few : (coalition.card : Int) < treshold) :
    ∃ mask : Fin (treshold - 1).toNat → Fin PRIME, ∀ drawn,
      Option.Rel (AgreeOn coalition)
        (generateShares nShares treshold leftSecret ⟨List.ofFn drawn, xDraws⟩)
        (generateShares nShares treshold rightSecret ⟨List.ofFn (drawn + mask), xDraws⟩) := by
  cases drewX : drawX nShares xDraws [] with
  | none =>
    refine ⟨0, fun drawn => ?_⟩
    rw [generateShares_ofFn, generateShares_ofFn, drewX]
    exact .none
  | some xValues =>
    have xRange : ∀ x ∈ xValues, 0 < x ∧ x < PRIME := by
      have generated := generateShares_ofFn nShares treshold 0 0 xDraws
      rw [drewX, Option.map_some] at generated
      obtain ⟨_, _, dealt⟩ := generateShares_spec generated
      intro x member
      exact dealt.inRange _ (List.mem_map_of_mem member)
    let seen : Finset (ZMod PRIME) := coalition.image fun index => residue ((xValues[index]?).getD 1)
    have nonzero : 0 ∉ seen := by
      intro zero
      obtain ⟨index, _, value⟩ := mem_image.mp zero
      cases found : xValues[index]? with
      | none => simp [found] at value
      | some x =>
        have range := xRange x (List.mem_of_getElem? found)
        rw [found] at value
        exact residue_ne_zero range.1 range.2 value
    have seenFew : seen.card ≤ (treshold - 1).toNat := by
      have bound : seen.card ≤ coalition.card := card_image_le
      omega
    obtain ⟨shift, shifts⟩ := exists_higherTerms seen nonzero seenFew
      fun _ => residue leftSecret - residue rightSecret
    refine ⟨fun j => drawnValue (shift j.rev), fun drawn => ?_⟩
    rw [generateShares_ofFn, generateShares_ofFn, drewX]
    refine .some ⟨by simp, fun index member => ?_⟩
    simp only [List.getElem?_map]
    cases found : xValues[index]? with
    | none => rfl
    | some x =>
      have shifted := shifts (residue x) (mem_image.mpr ⟨index, member, by rw [found]; rfl⟩)
      refine congrArg some (Prod.ext rfl ?_)
      refine eq_of_residue_eq (polynom_mem_range _ _).1 (polynom_mem_range _ _).2
        (polynom_mem_range _ _).1 (polynom_mem_range _ _).2 ?_
      simp only [onGraph, residue_polynom_drawn, Pi.add_apply, cast_add_drawn, drawnValue_cast, Fin.rev_rev, add_mul,
        sum_add_distrib, shifted]
      ring

/-! ## Masking a whole secret -/

theorem generateRows_agree (nShares treshold : Int) (coalition : Finset Nat)
    {leftIntegers rightIntegers : List Int} {leftDraws rightDraws : List ChunkDraws}
    (sameChunks : leftIntegers.length = rightIntegers.length)
    (leftCount : leftDraws.length = leftIntegers.length)
    (rightCount : rightDraws.length = rightIntegers.length)
    (chunkwise : ∀ (index : Nat) (leftSecret rightSecret : Int) (left right : ChunkDraws),
      leftIntegers[index]? = some leftSecret → rightIntegers[index]? = some rightSecret →
      leftDraws[index]? = some left → rightDraws[index]? = some right →
      Option.Rel (AgreeOn coalition) (generateShares nShares treshold leftSecret left)
        (generateShares nShares treshold rightSecret right)) :
    Option.Rel (List.Forall₂ (AgreeOn coalition)) (generateRows nShares treshold leftIntegers leftDraws)
      (generateRows nShares treshold rightIntegers rightDraws) := by
  induction leftIntegers generalizing rightIntegers leftDraws rightDraws with
  | nil =>
    obtain rfl : rightIntegers = [] := List.length_eq_zero_iff.mp sameChunks.symm
    exact .some .nil
  | cons leftSecret leftRest inductionHypothesis =>
    cases rightIntegers with
    | nil => cases sameChunks
    | cons rightSecret rightRest =>
      cases leftDraws with
      | nil => cases leftCount
      | cons left leftOthers =>
        cases rightDraws with
        | nil => cases rightCount
        | cons right rightOthers =>
          have first := chunkwise 0 leftSecret rightSecret left right rfl rfl rfl rfl
          have others := inductionHypothesis (Nat.succ.inj sameChunks) (Nat.succ.inj leftCount)
            (Nat.succ.inj rightCount) fun index => chunkwise (index + 1)
          simp only [generateRows, Option.bind_eq_bind]
          generalize generateShares nShares treshold leftSecret left = leftRow at first
          generalize generateShares nShares treshold rightSecret right = rightRow at first
          generalize generateRows nShares treshold leftRest leftOthers = leftRows at others
          generalize generateRows nShares treshold rightRest rightOthers = rightRows at others
          cases first with
          | none => exact .none
          | some agreeFirst =>
            cases others with
            | none => exact .none
            | some agreeOthers => exact .some (.cons agreeFirst agreeOthers)

theorem column_agree {coalition : Finset Nat} {left right : List (List Point)}
    (agree : List.Forall₂ (AgreeOn coalition) left right) {index : Nat} (member : index ∈ coalition) :
    column left index = column right index := by
  induction agree with
  | nil => rfl
  | cons agreeFirst _ inductionHypothesis =>
    simp only [column, List.map_cons] at inductionHypothesis ⊢
    rw [agreeFirst.2 index member, inductionHypothesis]

/-- What the members of a coalition get to see of one run: the `keys` of their records. -/
def coalitionKeys (sha256 : Bytes → String) (coalition : Finset Nat) (dealer : ShamirSecret)
    (secret now : String) (draws : List ChunkDraws) : Option (coalition → Option (List Point)) :=
  match dealer.createSecret sha256 secret now draws with
  | .ok (some dealt) =>
    match dealt.iterateParticipants with
    | .ok records => some fun participant => records[participant.1]?.map (·.keys)
    | .error _ => none
  | _ => none

theorem coalitionKeys_fresh (sha256 : Bytes → String) (coalition : Finset Nat) (name owner : Json)
    (shares treshold : Int) (uuid now : String) {secret : String} (draws : List ChunkDraws)
    (bounded : (encodeUtf8 secret).length ≤ MAX_SECRET_BYTES) :
    coalitionKeys sha256 coalition (ShamirSecret.fresh name owner shares treshold uuid) secret now draws =
      (generateRows shares treshold (stringToIntegers secret 8) draws).map fun rows participant =>
        if participant.1 < shares.toNat then some (column rows participant.1) else none := by
  have small : ¬(encodeUtf8 secret).length > MAX_SECRET_BYTES := by omega
  simp only [coalitionKeys, ShamirSecret.createSecret, if_neg small, ShamirSecret.fresh]
  cases generated : generateRows shares treshold (stringToIntegers secret 8) draws with
  | none => rfl
  | some rows =>
    obtain ⟨chunks, secrets, _, rowsDealt⟩ := generateRows_spec generated
    have someRow : rows ≠ [] := by
      rintro rfl
      cases rowsDealt
      cases secrets
    have wide : ∀ row ∈ rows, row.length = shares.toNat := length_of_dealtRows rowsDealt
    simp only [Option.map_some, List.nil_append]
    rw [iterateParticipants_ok _ shares.toNat someRow wide]
    refine congrArg some (funext fun participant => ?_)
    simp only [List.getElem?_map]
    by_cases inside : participant.1 < shares.toNat
    · simp [inside]
    · simp [inside]

/-- The draws of a run: uniform coefficients, and x-coordinates from any source that does not
look at them. -/
def drawsOf {chunks degree : Nat} (coefficients : Fin chunks → Fin degree → Fin PRIME)
    (xDraws : Fin chunks → List (Fin (PRIME - 1))) : List ChunkDraws :=
  List.ofFn fun chunk => ⟨List.ofFn (coefficients chunk), xDraws chunk⟩

noncomputable def dealing {chunks : Nat} (degree : Nat)
    (xDraws : PMF (Fin chunks → List (Fin (PRIME - 1)))) : PMF (List ChunkDraws) :=
  xDraws.bind fun xs =>
    (PMF.uniformOfFintype (Fin chunks → Fin degree → Fin PRIME)).map fun coefficients =>
      drawsOf coefficients xs

theorem coalitionKeys_eq (sha256 : Bytes → String) {chunks : Nat} {leftSecret rightSecret : String}
    (leftName leftOwner rightName rightOwner : Json) (leftUuid rightUuid leftNow rightNow : String)
    (shares : Int) {treshold : Int} {coalition : Finset Nat}
    (few : (coalition.card : Int) < treshold)
    (leftBounded : (encodeUtf8 leftSecret).length ≤ MAX_SECRET_BYTES)
    (rightBounded : (encodeUtf8 rightSecret).length ≤ MAX_SECRET_BYTES)
    (leftChunks : (stringToIntegers leftSecret 8).length = chunks)
    (rightChunks : (stringToIntegers rightSecret 8).length = chunks)
    (xDraws : PMF (Fin chunks → List (Fin (PRIME - 1)))) :
    (dealing (treshold - 1).toNat xDraws).map (coalitionKeys sha256 coalition
        (ShamirSecret.fresh leftName leftOwner shares treshold leftUuid) leftSecret leftNow) =
      (dealing (treshold - 1).toNat xDraws).map (coalitionKeys sha256 coalition
        (ShamirSecret.fresh rightName rightOwner shares treshold rightUuid) rightSecret rightNow) := by
  rw [dealing, PMF.map_bind, PMF.map_bind]
  refine congrArg _ (funext fun xs => ?_)
  rw [PMF.map_comp, PMF.map_comp]
  choose mask masks using fun chunk : Fin chunks =>
    exists_mask shares treshold ((stringToIntegers leftSecret 8)[chunk.val]?.getD 0)
      ((stringToIntegers rightSecret 8)[chunk.val]?.getD 0) (xs chunk) coalition few
  refine uniformOfFintype_map_eq (Equiv.addRight mask) _ _ fun coefficients => ?_
  simp only [Function.comp_apply, coalitionKeys_fresh _ _ _ _ _ _ _ _ _ leftBounded,
    coalitionKeys_fresh _ _ _ _ _ _ _ _ _ rightBounded]
  have rows : Option.Rel (List.Forall₂ (AgreeOn coalition))
      (generateRows shares treshold (stringToIntegers leftSecret 8) (drawsOf coefficients xs))
      (generateRows shares treshold (stringToIntegers rightSecret 8) (drawsOf (coefficients + mask) xs)) := by
    refine generateRows_agree shares treshold coalition (leftChunks.trans rightChunks.symm)
      (by simp [drawsOf, leftChunks]) (by simp [drawsOf, rightChunks]) ?_
    intro index leftInteger rightInteger left right leftFound rightFound leftDrawn rightDrawn
    have inside : index < chunks := leftChunks ▸ (List.getElem?_eq_some_iff.mp leftFound).1
    simp only [drawsOf, List.getElem?_ofFn, inside, ↓reduceDIte, Option.some.injEq] at leftDrawn rightDrawn
    have masked := masks ⟨index, inside⟩ (coefficients ⟨index, inside⟩)
    rw [leftFound, rightFound, Option.getD_some, Option.getD_some] at masked
    rw [← leftDrawn, ← rightDrawn]
    exact masked
  rw [Equiv.coe_addRight]
  generalize generateRows shares treshold (stringToIntegers leftSecret 8) _ = leftRows at rows
  generalize generateRows shares treshold (stringToIntegers rightSecret 8) _ = rightRows at rows
  cases rows with
  | none => rfl
  | some agree =>
    refine congrArg some (funext fun participant => ?_)
    show (if participant.1 < shares.toNat then some (column _ participant.1) else none) =
      if participant.1 < shares.toNat then some (column _ participant.1) else none
    rw [column_agree agree participant.2]

/-! ## Perfect secrecy -/

/-- Counting and, from it, the two-run statement: below the treshold the coefficient vectors
through given points do not depend on the constant, and a coalition's keys are distributed
alike for any two secrets with the same number of chunks. -/
theorem perfect_secrecy (treshold : Int) :
    (∀ (secret : Int) (k : Nat) (xs ys : Fin k → Int),
      (k : Int) ≤ treshold - 1 → Function.Injective xs → (∀ i, 1 ≤ xs i ∧ xs i ≤ PRIME - 1) →
      (∀ i, 0 ≤ ys i ∧ ys i < PRIME) →
      Nat.card {drawn : List (Fin PRIME) // ∃ coefficients,
          coeff treshold secret drawn = some coefficients ∧
          ∀ i, polynom (xs i) coefficients = ys i} =
        PRIME ^ ((treshold - 1).toNat - k)) ∧
    (∀ (sha256 : Bytes → String) (chunks : Nat) (leftSecret rightSecret : String)
      (leftName leftOwner rightName rightOwner : Json)
      (leftUuid rightUuid leftNow rightNow : String) (shares : Int) (leftDealer rightDealer : ShamirSecret)
      (coalition : Finset Nat) (xDraws : PMF (Fin chunks → List (Fin (PRIME - 1)))),
      ShamirSecret.init leftName leftOwner shares treshold leftUuid = .ok leftDealer →
      ShamirSecret.init rightName rightOwner shares treshold rightUuid = .ok rightDealer →
      (encodeUtf8 leftSecret).length ≤ MAX_SECRET_BYTES →
      (encodeUtf8 rightSecret).length ≤ MAX_SECRET_BYTES →
      (stringToIntegers leftSecret 8).length = chunks →
      (stringToIntegers rightSecret 8).length = chunks →
      (coalition.card : Int) < treshold →
      (dealing (treshold - 1).toNat xDraws).map
          (coalitionKeys sha256 coalition leftDealer leftSecret leftNow) =
        (dealing (treshold - 1).toNat xDraws).map
          (coalitionKeys sha256 coalition rightDealer rightSecret rightNow)) := by
  constructor
  · intro secret k xs ys few distinct xRange yRange
    exact card_coeff_through few xs ys distinct
      (fun i => ⟨by have := xRange i; omega, by have := xRange i; omega⟩) yRange
  · intro sha256 chunks leftSecret rightSecret leftName leftOwner rightName rightOwner leftUuid rightUuid
      leftNow rightNow shares leftDealer rightDealer coalition xDraws leftInit rightInit leftBounded
      rightBounded leftChunks rightChunks few
    obtain ⟨_, _, rfl⟩ := ShamirSecret.init_eq_ok.mp leftInit
    obtain ⟨_, _, rfl⟩ := ShamirSecret.init_eq_ok.mp rightInit
    exact coalitionKeys_eq sha256 leftName leftOwner rightName rightOwner leftUuid rightUuid leftNow
      rightNow shares few leftBounded rightBounded leftChunks rightChunks xDraws

/-- One participant of a treshold of two: one coefficient vector for every point, and the
same keys whether the secret is `a` or `b`. -/
theorem perfect_secrecy_pair :
    Nat.card {drawn : List (Fin PRIME) // ∃ coefficients, coeff 2 7 drawn = some coefficients ∧
      ∀ i : Fin 1, polynom ((fun _ => 3) i) coefficients = 11} = PRIME ^ 0 ∧
    (dealing 1 (PMF.pure fun _ : Fin 2 => [0, 1])).map
        (coalitionKeys (fun _ => "") {0} (ShamirSecret.fresh .null .null 2 2 "u") "a" "now") =
      (dealing 1 (PMF.pure fun _ : Fin 2 => [0, 1])).map
        (coalitionKeys (fun _ => "") {0} (ShamirSecret.fresh .null .null 2 2 "u") "b" "now") := by
  obtain ⟨counting, distribution⟩ := perfect_secrecy 2
  constructor
  · exact counting 7 1 (fun _ => 3) (fun _ => 11) (by decide)
      (fun left right _ => Subsingleton.elim left right) (fun _ => by decide) (fun _ => by decide)
  · exact distribution (fun _ => "") 2 "a" "b" .null .null .null .null "u" "u" "now" "now" 2 _ _ {0} _
      rfl rfl (by decide) (by decide) (by decide) (by decide) (by decide)

end SecretWeb.Shamir
