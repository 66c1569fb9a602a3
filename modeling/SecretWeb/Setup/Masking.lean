import SecretWeb.Setup.TypedHosts
import SecretWeb.Shamir.Records

/-! # Dealing another KEY1 unnoticed

Whatever fewer hosts than the treshold have been dealt, there are draws that deal them the same
points of any other KEY1 with as many chunks. -/

namespace SecretWeb.Setup

open SecretWeb.Data SecretWeb.Python SecretWeb.Shamir

/-! ## Other draws -/

theorem exists_generateShares_agree {nShares treshold leftSecret : Int} {draws : ChunkDraws} {row : List Point}
    (generated : generateShares nShares treshold leftSecret draws = some row) (rightSecret : Int)
    {coalition : Finset Nat} (few : (coalition.card : Int) < treshold) :
    ∃ masked other, generateShares nShares treshold rightSecret masked = some other ∧ AgreeOn coalition row other := by
  obtain ⟨drawn, xDraws⟩ := draws
  obtain ⟨coefficients, drew, _⟩ := Option.bind_eq_some_iff.mp generated
  simp only [coeff, Option.ite_none_right_eq_some] at drew
  obtain ⟨vector, rfl⟩ : ∃ vector : Fin (treshold - 1).toNat → Fin PRIME, List.ofFn vector = drawn :=
    ⟨fun j => drawn[j.val], by apply List.ext_getElem <;> simp [drew.1]⟩
  obtain ⟨mask, masks⟩ := exists_mask nShares treshold leftSecret rightSecret xDraws coalition few
  have agree := masks vector
  rw [generated] at agree
  cases masked : generateShares nShares treshold rightSecret ⟨List.ofFn (vector + mask), xDraws⟩ with
  | none =>
    rw [masked] at agree
    cases agree
  | some other =>
    rw [masked] at agree
    cases agree with
    | some agreeRows => exact ⟨_, other, masked, agreeRows⟩

theorem exists_generateRows_agree {nShares treshold : Int} {leftIntegers rightIntegers : List Int}
    {draws : List ChunkDraws} {rows : List (List Point)}
    (generated : generateRows nShares treshold leftIntegers draws = some rows)
    (sameChunks : rightIntegers.length = leftIntegers.length) {coalition : Finset Nat}
    (few : (coalition.card : Int) < treshold) :
    ∃ masked others, generateRows nShares treshold rightIntegers masked = some others ∧
      List.Forall₂ (AgreeOn coalition) rows others := by
  induction leftIntegers generalizing rightIntegers draws rows with
  | nil =>
    obtain rfl := List.length_eq_zero_iff.mp sameChunks
    cases generated
    exact ⟨[], [], rfl, .nil⟩
  | cons leftSecret leftRest inductionHypothesis =>
    cases rightIntegers with
    | nil => cases sameChunks
    | cons rightSecret rightRest =>
      obtain ⟨first, rest, row, tail, rfl, rowGenerated, tailGenerated, rfl⟩ := generateRows_cons generated
      obtain ⟨masked, other, otherGenerated, agree⟩ := exists_generateShares_agree rowGenerated rightSecret few
      obtain ⟨maskedRest, others, othersGenerated, agreeRest⟩ :=
        inductionHypothesis tailGenerated (Nat.succ.inj sameChunks)
      refine ⟨masked :: maskedRest, other :: others, ?_, .cons agree agreeRest⟩
      simp only [generateRows, otherGenerated, othersGenerated, Option.bind_eq_bind, Option.bind_some, Option.pure_def]

/-! ## Dealing KEY1 -/

section Dealing

variable {sha256 : Bytes → String} {key1 ownName uuid4 now : String} {hosts : List Host} {draws : List ChunkDraws}

theorem iterateParticipants_dealt {name owner : Json} {shares treshold : Int} {secret hash : String}
    {rows : List (List Point)} (generated : generateRows shares treshold (stringToIntegers secret 8) draws = some rows) :
    { ShamirSecret.fresh name owner shares treshold uuid4 with
      secretHash := .str hash
      creationDate := .str now
      secretMatrix := [] ++ rows
      readyToDecode := true }.iterateParticipants =
      .ok ((List.range shares.toNat).map fun index =>
        (ShamirSecret.fresh name owner shares treshold uuid4).handsOut hash now (column rows index)) := by
  obtain ⟨chunks, secrets, _, rowsDealt⟩ := generateRows_spec generated
  have someRow : rows ≠ [] := by
    rintro rfl
    cases rowsDealt
    cases secrets
  rw [iterateParticipants_ok _ shares.toNat (by simpa using someRow)
    (by simpa using length_of_dealtRows rowsDealt)]
  rfl

theorem createSecret_of_rows {name owner : Json} {shares treshold : Int} {secret : String} {rows : List (List Point)}
    (bounded : (encodeUtf8 secret).length ≤ MAX_SECRET_BYTES)
    (generated : generateRows shares treshold (stringToIntegers secret 8) draws = some rows) :
    (ShamirSecret.fresh name owner shares treshold uuid4).createSecret sha256 secret now draws =
      .ok (some { ShamirSecret.fresh name owner shares treshold uuid4 with
        secretHash := .str (sha256 (encodeUtf8 secret))
        creationDate := .str now
        secretMatrix := [] ++ rows
        readyToDecode := true }) := by
  rw [ShamirSecret.createSecret, if_neg (by omega)]
  simp only [ShamirSecret.fresh, generated]
  rfl

/-- What is published: one column of the rows for each of the other hosts. -/
def publicationOf (sha256 : Bytes → String) (key1 ownName uuid4 now : String) (hosts : List Host)
    (rows : List (List Point)) : Key1Publication :=
  let others := otherHosts hosts ownName
  let (shares, treshold) := sharesAndTreshold others
  { uuid := .str uuid4
    treshold := treshold
    shares := shares
    deliveries := others.zip ((List.range shares.toNat).map fun index =>
      (ShamirSecret.fresh (.str "key1") (.str ownName) shares treshold uuid4).handsOut (sha256 (encodeUtf8 key1)) now
        (column rows index)) }

theorem delivery_publicationOf {rows : List (List Point)} {index : Nat} {host : Host} {record : ParticipantData} :
    (publicationOf sha256 key1 ownName uuid4 now hosts rows).deliveries[index]? = some (host, record) ↔
      (otherHosts hosts ownName)[index]? = some host ∧
      record = (ShamirSecret.fresh (.str "key1") (.str ownName) (sharesAndTreshold (otherHosts hosts ownName)).1
        (sharesAndTreshold (otherHosts hosts ownName)).2 uuid4).handsOut (sha256 (encodeUtf8 key1)) now
        (column rows index) := by
  simp only [publicationOf, List.getElem?_zip_eq_some, List.getElem?_map, Option.map_eq_some_iff, sharesAndTreshold,
    Int.toNat_natCast]
  constructor
  · rintro ⟨hostFound, place, placeFound, rfl⟩
    obtain ⟨_, rfl⟩ := List.getElem?_eq_some_iff.mp placeFound
    exact ⟨hostFound, by rw [List.getElem_range]⟩
  · rintro ⟨hostFound, rfl⟩
    exact ⟨hostFound, index, List.getElem?_range (List.getElem?_eq_some_iff.mp hostFound).1, rfl⟩

theorem dealKey1_eq_ok_iff {publication : Key1Publication} :
    dealKey1 sha256 key1 hosts ownName uuid4 now draws = .ok (some publication) ↔
      (encodeUtf8 key1).length ≤ MAX_SECRET_BYTES ∧
      2 ≤ (sharesAndTreshold (otherHosts hosts ownName)).2 ∧
      (sharesAndTreshold (otherHosts hosts ownName)).2 ≤ (sharesAndTreshold (otherHosts hosts ownName)).1 ∧
      ∃ rows, generateRows (sharesAndTreshold (otherHosts hosts ownName)).1
          (sharesAndTreshold (otherHosts hosts ownName)).2 (stringToIntegers key1 8) draws = some rows ∧
        publication = publicationOf sha256 key1 ownName uuid4 now hosts rows := by
  constructor
  · intro dealt
    unfold dealKey1 at dealt
    obtain ⟨secret, constructed, dealt⟩ := bind_eq_ok.mp dealt
    obtain ⟨created, creation, dealt⟩ := bind_eq_ok.mp dealt
    cases created with
    | none => cases dealt
    | some object =>
      obtain ⟨records, iterated, returned⟩ := bind_eq_ok.mp dealt
      cases returned
      obtain ⟨lower, upper, rfl⟩ := ShamirSecret.init_eq_ok.mp constructed
      obtain ⟨bounded, rows, generated, rfl⟩ := createSecret_eq_ok sha256 creation
      obtain rfl := Except.ok.inj (iterated.symm.trans (iterateParticipants_dealt generated))
      exact ⟨bounded, lower, upper, rows, generated, rfl⟩
  · rintro ⟨bounded, lower, upper, rows, generated, rfl⟩
    have constructed := ShamirSecret.init_eq_ok.mpr
      ⟨lower, upper, (rfl : ShamirSecret.fresh (.str "key1") (.str ownName) _ _ uuid4 = _)⟩
    have created := @createSecret_of_rows sha256 uuid4 now draws (.str "key1") (.str ownName) _ _ _ _ bounded generated
    unfold dealKey1
    exact bind_eq_ok.mpr ⟨_, constructed, bind_eq_ok.mpr ⟨_, created,
      bind_eq_ok.mpr ⟨_, iterateParticipants_dealt generated, rfl⟩⟩⟩

/-- There are draws that deal another KEY1 so that no host of a coalition is dealt anything else,
apart from the checksum. -/
theorem dealKey1_masked {publication : Key1Publication}
    (dealt : dealKey1 sha256 key1 hosts ownName uuid4 now draws = .ok (some publication)) {other : String}
    (bounded : (encodeUtf8 other).length ≤ MAX_SECRET_BYTES)
    (sameChunks : (stringToIntegers other 8).length = (stringToIntegers key1 8).length) {coalition : Finset Nat}
    (few : (coalition.card : Int) < publication.treshold) :
    ∃ masked disguise, dealKey1 sha256 other hosts ownName uuid4 now masked = .ok (some disguise) ∧
      ∀ index ∈ coalition, ∀ host record, publication.deliveries[index]? = some (host, record) →
        ∃ disguised, disguise.deliveries[index]? = some (host, disguised) ∧
          record = { disguised with secretHash := .str (sha256 (encodeUtf8 key1)) } := by
  obtain ⟨_, lower, upper, rows, generated, rfl⟩ := dealKey1_eq_ok_iff.mp dealt
  obtain ⟨masked, others, othersGenerated, agree⟩ := exists_generateRows_agree generated sameChunks few
  refine ⟨masked, _, dealKey1_eq_ok_iff.mpr ⟨bounded, lower, upper, others, othersGenerated, rfl⟩, ?_⟩
  intro index member host record found
  obtain ⟨hostFound, rfl⟩ := delivery_publicationOf.mp found
  refine ⟨_, delivery_publicationOf.mpr ⟨hostFound, rfl⟩, ?_⟩
  rw [column_agree agree member]
  rfl

end Dealing

end SecretWeb.Setup
