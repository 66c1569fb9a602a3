import SecretWeb.Shamir.Split

/-! # Any quorum reconstructs

What the dealer yields is a split whose shares do not collide, so every sub-collection of
at least `treshold` records, in every order, takes a fresh decoder through the invariant
`Holding` to the original secret. -/

namespace SecretWeb.Shamir

open SecretWeb.Data SecretWeb.Python

/-! ## Dealt rows -/

structure DealtRow (coefficients : List Int) (row : List Point) : Prop where
  distinct : (row.map Prod.fst).Nodup
  inRange : ∀ point ∈ row, 0 < point.1 ∧ point.1 < PRIME
  onGraph : ∀ point ∈ row, point.2 = polynom point.1 coefficients

theorem dealtRow_nil (coefficients : List Int) : DealtRow coefficients [] where
  distinct := List.nodup_nil
  inRange := by simp
  onGraph := by simp

theorem DealtRow.append {coefficients : List Int} {row : List Point} (dealt : DealtRow coefficients row)
    (draw : Fin (PRIME - 1)) (unseen : (draw.val : Int) + 1 ∉ row.map Prod.fst) :
    DealtRow coefficients
      (row ++ [((draw.val : Int) + 1, polynom ((draw.val : Int) + 1) coefficients)]) where
  distinct := by
    rw [List.map_append, List.map_singleton]
    refine List.nodup_append.mpr ⟨dealt.distinct, List.nodup_singleton _, ?_⟩
    intro earlier member last lastMember same
    rw [same, List.mem_singleton.mp lastMember] at member
    exact unseen member
  inRange := by
    intro point member
    rcases List.mem_append.mp member with earlier | last
    · exact dealt.inRange point earlier
    · rw [List.mem_singleton.mp last]
      have bound := draw.isLt
      simp only
      omega
  onGraph := by
    intro point member
    rcases List.mem_append.mp member with earlier | last
    · exact dealt.onGraph point earlier
    · rw [List.mem_singleton.mp last]

theorem drawShares_dealtRow {coefficients : List Int} {nShares : Int} (draws : List (Fin (PRIME - 1)))
    {shares row : List Point} {xValues : List Int} (xValuesEqual : xValues = shares.map Prod.fst)
    (dealt : DealtRow coefficients shares) (within : shares.length ≤ nShares.toNat)
    (drawn : drawShares coefficients nShares draws shares xValues = some row) :
    DealtRow coefficients row ∧ row.length = nShares.toNat := by
  induction draws generalizing shares xValues with
  | nil =>
    rw [drawShares] at drawn
    split at drawn
    · cases drawn
    · cases drawn
      exact ⟨dealt, by omega⟩
  | cons draw rest inductionHypothesis =>
    rw [drawShares] at drawn
    split at drawn
    · rename_i short
      dsimp only at drawn
      split at drawn
      · exact inductionHypothesis xValuesEqual dealt within drawn
      · rename_i unseen
        refine inductionHypothesis ?_ (dealt.append draw (xValuesEqual ▸ unseen)) ?_ drawn
        · simp [xValuesEqual]
        · simp only [List.length_append, List.length_singleton]
          omega
    · cases drawn
      exact ⟨dealt, by omega⟩

/-- The drawing loop ends as soon as the tape holds enough different x-coordinates. -/
theorem drawShares_isSome (coefficients : List Int) {nShares : Int} (draws : List (Fin (PRIME - 1)))
    {shares : List Point} {xValues : List Int} (xValuesLength : xValues.length = shares.length)
    (enough : nShares ≤ (xValues ++ draws.map fun draw => (draw.val : Int) + 1).toFinset.card) :
    (drawShares coefficients nShares draws shares xValues).isSome := by
  -- on the draws: the distinct values still to come are enough
  induction draws generalizing shares xValues with
  | nil =>
    have bound := List.toFinset_card_le xValues
    rw [List.map_nil, List.append_nil] at enough
    rw [drawShares, if_neg (by omega)]
    rfl
  | cons draw rest inductionHypothesis =>
    rw [drawShares]
    split
    · dsimp only
      split
      · rename_i seen
        refine inductionHypothesis xValuesLength ?_
        have sameSet : (xValues ++ (draw :: rest).map fun draw => (draw.val : Int) + 1).toFinset =
            (xValues ++ rest.map fun draw => (draw.val : Int) + 1).toFinset := by
          ext value
          simp only [List.map_cons, List.mem_toFinset, List.mem_append, List.mem_cons]
          constructor
          · rintro (old | rfl | new)
            · exact .inl old
            · exact .inl seen
            · exact .inr new
          · rintro (old | new)
            · exact .inl old
            · exact .inr (.inr new)
        rwa [sameSet] at enough
      · refine inductionHypothesis (by simp [xValuesLength]) ?_
        simpa only [List.map_cons, List.append_assoc, List.singleton_append] using enough
    · rfl

/-! ## Dealt matrices -/

/-- A complete outcome of the draws for one chunk: as many coefficients as are asked for, and
enough different x-coordinates for the loop to end. -/
structure ChunkDraws.Complete (draws : ChunkDraws) (nShares treshold : Int) : Prop where
  coefficients : draws.coefficients.length = (treshold - 1).toNat
  xDraws : nShares ≤ draws.xDraws.toFinset.card

def ChunkDraws.higher (draws : ChunkDraws) : List Int :=
  draws.coefficients.map fun value => (value.val : Int)

theorem generateShares_spec {nShares m secret : Int} {draws : ChunkDraws} {row : List Point}
    (generated : generateShares nShares m secret draws = some row) :
    draws.higher.length = (m - 1).toNat ∧ row.length = nShares.toNat ∧
      DealtRow (draws.higher ++ [secret]) row := by
  simp only [generateShares, Option.bind_eq_bind, Option.bind_eq_some_iff, coeff,
    Option.ite_none_right_eq_some, Option.some.injEq] at generated
  obtain ⟨_, ⟨count, rfl⟩, drawn⟩ := generated
  obtain ⟨dealt, length⟩ := drawShares_dealtRow draws.xDraws rfl (dealtRow_nil _) (by simp) drawn
  exact ⟨by simpa [ChunkDraws.higher] using count, length, dealt⟩

theorem generateShares_isSome {nShares m : Int} (secret : Int) {draws : ChunkDraws}
    (complete : draws.Complete nShares m) : (generateShares nShares m secret draws).isSome := by
  have injective : Function.Injective fun draw : Fin (PRIME - 1) => (draw.val : Int) + 1 := by
    intro left right same
    exact Fin.ext (by simpa using same)
  have card : (draws.xDraws.map fun draw => (draw.val : Int) + 1).toFinset.card =
      draws.xDraws.toFinset.card := by
    have image : (draws.xDraws.map fun draw => (draw.val : Int) + 1).toFinset =
        draws.xDraws.toFinset.image fun draw => (draw.val : Int) + 1 := by
      ext value
      simp
    rw [image, Finset.card_image_of_injective _ injective]
  simp only [generateShares, coeff, complete.coefficients, ↓reduceIte, Option.bind_eq_bind,
    Option.bind_some]
  refine drawShares_isSome _ draws.xDraws rfl ?_
  rw [List.nil_append, card]
  exact complete.xDraws

/-- A matrix for a further chunk is a row on top of the matrix of the others. -/
theorem generateRows_cons {nShares m integer : Int} {rest : List Int} {draws : List ChunkDraws}
    {rows : List (List Point)} (generated : generateRows nShares m (integer :: rest) draws = some rows) :
    ∃ first others row tail, draws = first :: others ∧ generateShares nShares m integer first = some row ∧
      generateRows nShares m rest others = some tail ∧ rows = row :: tail := by
  cases draws with
  | nil => cases generated
  | cons first others =>
    simp only [generateRows, Option.bind_eq_bind, Option.bind_eq_some_iff, Option.pure_def,
      Option.some.injEq] at generated
    obtain ⟨row, rowGenerated, tail, tailGenerated, rfl⟩ := generated
    exact ⟨first, others, row, tail, rfl, rowGenerated, tailGenerated, rfl⟩

/-- The rows of the matrix carry a polynomial for every chunk. -/
theorem generateRows_spec {nShares m : Int} {integers : List Int} {draws : List ChunkDraws}
    {rows : List (List Point)} (generated : generateRows nShares m integers draws = some rows) :
    ∃ chunks : List Chunk, chunks.map (·.secret) = integers ∧
      (∀ chunk ∈ chunks, chunk.higher.length = (m - 1).toNat) ∧
      List.Forall₂ (fun chunk row => row.length = nShares.toNat ∧
        DealtRow (chunk.higher ++ [chunk.secret]) row) chunks rows := by
  induction integers generalizing draws rows with
  | nil =>
    cases generated
    exact ⟨[], rfl, by simp, .nil⟩
  | cons integer rest inductionHypothesis =>
    obtain ⟨first, others, row, tail, rfl, rowGenerated, tailGenerated, rfl⟩ := generateRows_cons generated
    obtain ⟨chunks, secrets, degrees, dealt⟩ := inductionHypothesis tailGenerated
    obtain ⟨degree, length, rowDealt⟩ := generateShares_spec rowGenerated
    refine ⟨⟨integer, first.higher⟩ :: chunks, by simp [secrets], ?_, .cons ⟨length, rowDealt⟩ dealt⟩
    intro chunk member
    rcases List.mem_cons.mp member with rfl | later
    · exact degree
    · exact degrees chunk later

theorem length_of_dealtRows {count : Nat} {chunks : List Chunk} {rows : List (List Point)}
    (rowsDealt : List.Forall₂ (fun chunk row => row.length = count ∧
      DealtRow (chunk.higher ++ [chunk.secret]) row) chunks rows) : ∀ row ∈ rows, row.length = count := by
  induction rowsDealt with
  | nil => simp
  | cons dealt _ inductionHypothesis => exact List.forall_mem_cons.mpr ⟨dealt.1, inductionHypothesis⟩

theorem generateRows_isSome {nShares m : Int} (integers : List Int) {draws : List ChunkDraws}
    (count : draws.length = integers.length)
    (complete : ∀ chunkDraws ∈ draws, chunkDraws.Complete nShares m) :
    (generateRows nShares m integers draws).isSome := by
  induction integers generalizing draws with
  | nil => rfl
  | cons integer rest inductionHypothesis =>
    cases draws with
    | nil => simp at count
    | cons first others =>
      obtain ⟨row, rowGenerated⟩ := Option.isSome_iff_exists.mp
        (generateShares_isSome integer (complete first List.mem_cons_self))
      obtain ⟨rows, rowsGenerated⟩ := Option.isSome_iff_exists.mp
        (inductionHypothesis (by simpa using count)
          fun chunkDraws member => complete chunkDraws (List.mem_cons_of_mem _ member))
      simp [generateRows, rowGenerated, rowsGenerated]

/-! ## Participants -/

/-- What participant `index` holds of the matrix. -/
def column (matrix : List (List Point)) (index : Nat) : List Point :=
  matrix.map fun row => (row[index]?).getD (0, 0)

theorem singleParticipantData_ok {matrix : List (List Point)} {index : Nat}
    (wide : ∀ row ∈ matrix, index < row.length) :
    ShamirSecret.singleParticipantData matrix index = .ok (column matrix index) := by
  refine mapM_eq_ok matrix fun row member => ?_
  rw [List.getElem?_eq_getElem (wide row member)]
  rfl

/-- All records have the fields of the dealer. -/
theorem iterateParticipants_record {dealt : ShamirSecret} {records : List ParticipantData}
    (iterated : dealt.iterateParticipants = .ok records) {record : ParticipantData} (member : record ∈ records) :
    record = { keys := record.keys, creationDate := dealt.creationDate, owner := dealt.owner, name := dealt.name
               uuid := dealt.uuid, treshold := dealt.treshold, shares := dealt.shares
               secretHash := dealt.secretHash } := by
  unfold ShamirSecret.iterateParticipants at iterated
  split at iterated
  · cases iterated
  · obtain ⟨participantData, _, returned⟩ := bind_eq_ok.mp iterated
    cases returned
    obtain ⟨keys, _, rfl⟩ := List.mem_map.mp member
    rfl

theorem iterateParticipants_ok (self : ShamirSecret) (count : Nat) (dealt : self.secretMatrix ≠ [])
    (wide : ∀ row ∈ self.secretMatrix, row.length = count) :
    self.iterateParticipants = .ok ((List.range count).map fun index =>
      { keys := column self.secretMatrix index, creationDate := self.creationDate,
        owner := self.owner, name := self.name, uuid := self.uuid, treshold := self.treshold,
        shares := self.shares, secretHash := self.secretHash }) := by
  obtain ⟨first, others, shape⟩ := List.exists_cons_of_ne_nil dealt
  have firstLength : first.length = count := wide first (by simp [shape])
  have columns := mapM_eq_ok (List.range count) fun index member =>
    singleParticipantData_ok fun (row : List Point) (rowMember : row ∈ self.secretMatrix) => by
      rw [wide row rowMember]
      exact List.mem_range.mp member
  rw [shape] at columns
  simp only [ShamirSecret.iterateParticipants, shape, firstLength, columns, ok_bind]
  simp [pure, Except.pure]

theorem carries_column {chunks : List Chunk} {rows : List (List Point)} {count index : Nat}
    (dealt : List.Forall₂ (fun chunk row => row.length = count ∧
      DealtRow (chunk.higher ++ [chunk.secret]) row) chunks rows) (inside : index < count) :
    List.Forall₂ Chunk.Carries chunks (column rows index) := by
  refine List.forall₂_map_right_iff.mpr (dealt.imp ?_)
  rintro chunk row ⟨length, rowDealt⟩
  have found : row[index]? = some row[index] := List.getElem?_eq_getElem (by omega)
  have member : row[index] ∈ row := List.getElem_mem (by omega)
  rw [found, Option.getD_some]
  exact ⟨rowDealt.inRange _ member, congrArg residue (rowDealt.onGraph _ member)⟩

theorem column_collide {chunks : List Chunk} {rows : List (List Point)} {count left right : Nat}
    (dealt : List.Forall₂ (fun chunk row => row.length = count ∧
      DealtRow (chunk.higher ++ [chunk.secret]) row) chunks rows)
    (leftInside : left < count) (rightInside : right < count)
    (collide : Collide (column rows left) (column rows right)) : left = right := by
  obtain ⟨index, leftPoint, rightPoint, leftFound, rightFound, same⟩ := collide
  simp only [column, List.getElem?_map, Option.map_eq_some_iff] at leftFound rightFound
  obtain ⟨row, rowFound, rfl⟩ := leftFound
  obtain ⟨row', rowFound', rfl⟩ := rightFound
  obtain rfl : row = row' := Option.some.inj (rowFound.symm.trans rowFound')
  -- both columns meet in one row, where every x comes once
  obtain ⟨inside, rowEqual⟩ := List.getElem?_eq_some_iff.mp rowFound
  have chunkInside : index < chunks.length := by
    rw [dealt.length_eq]
    exact inside
  obtain ⟨length, rowDealt⟩ := dealt.get chunkInside inside
  simp only [List.get_eq_getElem, rowEqual] at length rowDealt
  have leftFits : left < (row.map Prod.fst).length := by simpa [length] using leftInside
  have rightFits : right < (row.map Prod.fst).length := by simpa [length] using rightInside
  rw [List.getElem?_eq_getElem (by omega), List.getElem?_eq_getElem (by omega)] at same
  have sameX : (row.map Prod.fst)[left] = (row.map Prod.fst)[right] := by simpa using same
  exact rowDealt.distinct.getElem_inj_iff.mp sameX

/-! ## What `create_secret` fixes -/

/-- The split is of this text: its chunks, and the digest that travels with every share. -/
structure Split.Hides (split : Split) (sha256 : Bytes → String) (secret : String) : Prop where
  chunked : split.chunks.map (·.secret) = stringToIntegers secret 8
  hashed : split.secretHash = sha256 (encodeUtf8 secret)

/-- The shares handed out by one run of the dealer. -/
structure Split.Deals (split : Split) (participants : List (List Point)) : Prop where
  count : (participants.length : Int) = split.shares
  carried : ∀ keys ∈ participants, split.Carries keys
  apart : participants.Pairwise fun left right => ¬Collide left right

theorem stringToIntegers_reduced {secret : String} (bounded : (encodeUtf8 secret).length ≤ MAX_SECRET_BYTES) :
    ∀ integer ∈ stringToIntegers secret 8, 0 ≤ integer ∧ integer < PRIME := by
  intro integer member
  obtain ⟨nonneg, length | fits⟩ := mem_stringToIntegers member
  · refine ⟨nonneg, ?_⟩
    simp only [MAX_SECRET_BYTES] at bounded
    simp only [PRIME]
    omega
  · refine ⟨nonneg, fits.trans ?_⟩
    norm_num [PRIME]

section Hash

variable (sha256 : Bytes → String)

/-- The draws being complete, the dealer finishes. -/
theorem createSecret_ok (self : ShamirSecret) (now : String) {secret : String} {draws : List ChunkDraws}
    (bounded : (encodeUtf8 secret).length ≤ MAX_SECRET_BYTES)
    (count : draws.length = (stringToIntegers secret self.bytesPerInteger).length)
    (complete : ∀ chunkDraws ∈ draws, chunkDraws.Complete self.shares self.treshold) :
    ∃ dealt, self.createSecret sha256 secret now draws = .ok (some dealt) := by
  obtain ⟨rows, generated⟩ := Option.isSome_iff_exists.mp (generateRows_isSome _ count complete)
  rw [ShamirSecret.createSecret, if_neg (by omega)]
  dsimp only
  rw [generated]
  exact ⟨_, rfl⟩

/-- A dealer that finishes has the rows of the secret added to its matrix. -/
theorem createSecret_eq_ok {self dealt : ShamirSecret} {secret now : String} {draws : List ChunkDraws}
    (created : self.createSecret sha256 secret now draws = .ok (some dealt)) :
    (encodeUtf8 secret).length ≤ MAX_SECRET_BYTES ∧ ∃ rows,
      generateRows self.shares self.treshold (stringToIntegers secret self.bytesPerInteger) draws = some rows ∧
      dealt = { self with
        secretHash := .str (sha256 (encodeUtf8 secret))
        creationDate := .str now
        secretMatrix := self.secretMatrix ++ rows
        readyToDecode := true } := by
  unfold ShamirSecret.createSecret at created
  split at created
  · cases created
  · simp only [Except.ok.injEq, Option.map_eq_some_iff] at created
    obtain ⟨rows, generated, rfl⟩ := created
    exact ⟨by omega, rows, generated, rfl⟩

theorem createSecret_uuid {self dealt : ShamirSecret} {secret now : String} {draws : List ChunkDraws}
    (created : self.createSecret sha256 secret now draws = .ok (some dealt)) : dealt.uuid = self.uuid := by
  obtain ⟨_, rows, _, rfl⟩ := createSecret_eq_ok sha256 created
  rfl

/-- Whatever the draws, a dealer that finishes hands out a split of its secret. -/
theorem createSecret_deals {secret name owner uuid now : String} {shares treshold : Int}
    {draws : List ChunkDraws} {dealt : ShamirSecret} (lower : 2 ≤ treshold) (upper : treshold ≤ shares)
    (created : (ShamirSecret.fresh (.str name) (.str owner) shares treshold uuid).createSecret
      sha256 secret now draws = .ok (some dealt)) :
    ∃ (split : Split) (participants : List (List Point)),
      split.Hides sha256 secret ∧ split.Deals participants ∧
      split.treshold = treshold ∧ split.shares = shares ∧
      split.name = name ∧ split.owner = owner ∧ split.uuid = uuid ∧
      dealt.iterateParticipants = .ok (participants.map split.record) := by
  obtain ⟨small, rows, generated, rfl⟩ := createSecret_eq_ok sha256 created
  obtain ⟨chunks, secrets, degrees, rowsDealt⟩ := generateRows_spec generated
  have reduced := stringToIntegers_reduced small
  have someChunk : chunks ≠ [] := by
    rintro rfl
    cases secrets
  have someRow : rows ≠ [] := by
    rintro rfl
    cases rowsDealt
    exact someChunk rfl
  let split : Split :=
    { chunks := chunks, treshold := treshold, shares := shares, creationDate := now, owner := owner
      name := name, uuid := uuid, secretHash := sha256 (encodeUtf8 secret)
      nonempty := someChunk, tresholdLower := lower, tresholdUpper := upper
      reduced := fun chunk member => reduced chunk.secret (by
        rw [← show chunks.map (·.secret) = stringToIntegers secret 8 from secrets]
        exact List.mem_map_of_mem member)
      degree := fun chunk member => by
        have degree := degrees chunk member
        simp only [ShamirSecret.fresh] at degree
        omega }
  refine ⟨split, (List.range shares.toNat).map (column rows), ⟨secrets, rfl⟩, ?_, rfl, rfl, rfl, rfl, rfl, ?_⟩
  · refine ⟨?_, ?_, ?_⟩
    · rw [List.length_map, List.length_range, Int.toNat_of_nonneg (by omega)]
    · intro keys member
      obtain ⟨index, inside, rfl⟩ := List.mem_map.mp member
      exact carries_column rowsDealt (List.mem_range.mp inside)
    · refine List.pairwise_map.mpr (List.nodup_range.imp_of_mem ?_)
      intro left right leftInside rightInside different collide
      exact different (column_collide rowsDealt (List.mem_range.mp leftInside)
        (List.mem_range.mp rightInside) collide)
  · rw [iterateParticipants_ok _ shares.toNat]
    · simp only [ShamirSecret.fresh, List.nil_append, List.map_map]
      rfl
    · simpa [ShamirSecret.fresh] using someRow
    · intro row member
      simp only [ShamirSecret.fresh, List.nil_append] at member
      exact length_of_dealtRows rowsDealt row member

end Hash

/-! ## Runs of a decoder -/

/-- Submits documents one after another: what each call returns and the object it leaves. -/
def submit : ShamirSecret → List Json → List (Except PyException Int × ShamirSecret)
  | _, [] => []
  | decoder, document :: rest =>
    let outcome := decoder.populateDecoder document
    outcome :: submit outcome.2 rest

/-- A run on shares that collide with nothing: every call is accepted, counts, and keeps
the invariant. -/
theorem Holding.accepts {split : Split} {accepted : List (List Point)} {decoder : ShamirSecret}
    (holding : Holding split accepted decoder) {submitted : List (List Point)}
    (carried : ∀ keys ∈ submitted, split.Carries keys)
    (apart : (accepted ++ submitted).Pairwise fun left right => ¬Collide left right) :
    ∀ index < submitted.length, ∃ after,
      (submit decoder (submitted.map fun keys => (split.record keys).toJson))[index]? =
        some (.ok ((accepted.length : Int) + (index + 1) - split.treshold), after) ∧
      Holding split (accepted ++ submitted.take (index + 1)) after := by
  induction submitted generalizing accepted decoder with
  | nil => simp
  | cons keys rest inductionHypothesis =>
    have keysApart : ∀ earlier ∈ accepted, ¬Collide earlier keys := fun earlier member =>
      (List.pairwise_append.mp apart).2.2 earlier member keys List.mem_cons_self
    obtain ⟨after, accepts, holdingAfter⟩ := holding.populateDecoder
      (carried keys List.mem_cons_self) keysApart (reads_toJson _)
    intro index inside
    cases index with
    | zero =>
      refine ⟨after, ?_, holdingAfter⟩
      simp [submit, accepts]
    | succ index =>
      have restApart : ((accepted ++ [keys]) ++ rest).Pairwise fun left right => ¬Collide left right := by
        simpa using apart
      obtain ⟨last, found, holdingLast⟩ := inductionHypothesis holdingAfter
        (fun other member => carried other (List.mem_cons_of_mem _ member)) restApart index
        (by simpa using inside)
      refine ⟨last, ?_, by simpa using holdingLast⟩
      rw [List.map_cons, submit, accepts]
      simp only [List.getElem?_cons_succ, found, List.length_append, List.length_singleton]
      congr 3
      push_cast
      omega

/-! ## Sub-collections -/

theorem Split.Deals.subperm {split : Split} {participants : List (List Point)}
    (deals : split.Deals participants) {submitted : List ParticipantData}
    (selected : submitted.Subperm (participants.map split.record)) :
    ∃ keysList : List (List Point), submitted = keysList.map split.record ∧
      (∀ keys ∈ keysList, split.Carries keys) ∧
      keysList.Pairwise fun left right => ¬Collide left right := by
  have selectedKeys : (submitted.map (·.keys)).Subperm participants := by
    obtain ⟨arranged, permutation, sublist⟩ := selected
    refine ⟨arranged.map (·.keys), permutation.map _, ?_⟩
    simpa [Function.comp_def, Split.record] using sublist.map (·.keys)
  refine ⟨submitted.map (·.keys), ?_, ?_, ?_⟩
  · rw [List.map_map]
    refine (List.map_id submitted).symm.trans (List.map_congr_left ?_)
    intro record member
    obtain ⟨keys, _, rfl⟩ := List.mem_map.mp (selected.subset member)
    rfl
  · intro keys member
    exact deals.carried keys (selectedKeys.subset member)
  · obtain ⟨arranged, permutation, sublist⟩ := selectedKeys
    refine (deals.apart.sublist sublist).perm permutation ?_
    intro left right apart collide
    exact apart collide.symm

/-- Every sub-collection of at least `treshold` of the dealt records, in every order and for
every decoder built with the same or no name and owner, reconstructs the secret. -/
theorem any_quorum_reconstructs (sha256 : Bytes → String) (secret name owner uuid now : String)
    (shares treshold : Int) (draws : List ChunkDraws) (lower : 2 ≤ treshold) (upper : treshold ≤ shares)
    (bounded : (encodeUtf8 secret).length ≤ MAX_SECRET_BYTES)
    (count : draws.length = (stringToIntegers secret 8).length)
    (complete : ∀ chunkDraws ∈ draws, chunkDraws.Complete shares treshold) :
    ∃ (dealer dealt : ShamirSecret) (records : List ParticipantData),
      ShamirSecret.init (.str name) (.str owner) shares treshold uuid = .ok dealer ∧
      dealer.createSecret sha256 secret now draws = .ok (some dealt) ∧
      dealt.iterateParticipants = .ok records ∧ (records.length : Int) = shares ∧
      ∀ submitted : List ParticipantData, submitted.Subperm records → treshold ≤ submitted.length →
        ∀ (decoderName decoderOwner : Json) (decoderShares decoderTreshold : Int)
          (decoderUuid : String) (decoder : ShamirSecret),
          Expects decoderName name → Expects decoderOwner owner →
          ShamirSecret.init decoderName decoderOwner decoderShares decoderTreshold decoderUuid =
            .ok decoder →
          ∀ index < submitted.length, ∃ after : ShamirSecret,
            (submit decoder (submitted.map ParticipantData.toJson))[index]? =
              some (.ok ((index : Int) + 1 - treshold), after) ∧
            (after.readyToDecode = true ↔ treshold ≤ (index : Int) + 1) ∧
            (treshold ≤ (index : Int) + 1 → after.decode sha256 = .ok secret) := by
  obtain ⟨dealt, created⟩ := createSecret_ok sha256
    (ShamirSecret.fresh (.str name) (.str owner) shares treshold uuid) now bounded count complete
  obtain ⟨split, participants, hides, deals, rfl, rfl, rfl, rfl, rfl, records⟩ :=
    createSecret_deals sha256 lower upper created
  refine ⟨_, dealt, _, ShamirSecret.init_of_valid _ _ _ lower upper, created, records,
    by rw [List.length_map, deals.count], ?_⟩
  intro submitted selected _ decoderName decoderOwner _ _ _ decoder expectsName expectsOwner built
  obtain ⟨_, _, rfl⟩ := ShamirSecret.init_eq_ok.mp built
  obtain ⟨keysList, rfl, carried, apart⟩ := deals.subperm selected
  intro index inside
  rw [List.length_map] at inside
  obtain ⟨after, found, holding⟩ :=
    (holding_fresh split _ _ _ expectsName expectsOwner).accepts carried apart index inside
  have acceptedCount : ((([] : List (List Point)) ++ keysList.take (index + 1)).length : Int) = index + 1 := by
    simp only [List.nil_append, List.length_take]
    omega
  refine ⟨after, ?_, ?_, ?_⟩
  · simpa [List.map_map, Function.comp_def] using found
  · rw [holding.ready, acceptedCount, decide_eq_true_iff]
  · intro enough
    exact holding.decode_secret (by rwa [acceptedCount]) sha256 secret hides.chunked hides.hashed

/-- SHA-256 on the two texts of the examples below. -/
def sampleSha256 (bytes : Bytes) : String :=
  if bytes = encodeUtf8 "hi" then "8f434346648f6b96df89dda901c5176b10a6d83961dd3c1ac88b59b2dc327aa4"
  else if bytes = encodeUtf8 "no" then "9390298f3fb0c5b160498935d79cb139aef28e1c47358b4bbba61862b9c26e59"
  else ""

/-- Two chunks, two participants, one x-coordinate drawn twice; the last record first. -/
theorem any_quorum_reconstructs_hi :
    ∃ (dealer dealt decoder after : ShamirSecret) (records : List ParticipantData),
      ShamirSecret.init (.str "wifi") (.str "host1") 2 2 "u" = .ok dealer ∧
      dealer.createSecret sampleSha256 "hi" "now" [⟨[5], [0, 0, 1]⟩, ⟨[7], [2, 3]⟩] = .ok (some dealt) ∧
      dealt.iterateParticipants = .ok records ∧
      ShamirSecret.init (.str "wifi") (.str "") 5 3 "v" = .ok decoder ∧
      (submit decoder (records.reverse.map ParticipantData.toJson))[1]? = some (.ok 0, after) ∧
      after.decode sampleSha256 = .ok "hi" := by
  have complete : ∀ chunkDraws ∈ [(⟨[5], [0, 0, 1]⟩ : ChunkDraws), ⟨[7], [2, 3]⟩],
      chunkDraws.Complete 2 2 := by
    intro chunkDraws member
    simp only [List.mem_cons, List.not_mem_nil, or_false] at member
    rcases member with rfl | rfl
    · exact ⟨by decide, by decide⟩
    · exact ⟨by decide, by decide⟩
  obtain ⟨dealer, dealt, records, constructed, created, iterated, count, reconstructs⟩ :=
    any_quorum_reconstructs sampleSha256 "hi" "wifi" "host1" "u" "now" 2 2 _ (by decide) (by decide)
      (by decide) (by decide) complete
  have pair : records.reverse.length = 2 := by
    rw [List.length_reverse]
    exact_mod_cast count
  obtain ⟨after, found, _, decoded⟩ := reconstructs records.reverse records.reverse_perm.subperm
    (by rw [pair]; decide) (.str "wifi") (.str "") 5 3 "v" _ (.inl rfl) (.inr rfl) rfl 1
    (by rw [pair]; decide)
  exact ⟨dealer, dealt, _, after, records, constructed, created, iterated, rfl, found,
    decoded (by decide)⟩

end SecretWeb.Shamir
