import SecretWeb.Shamir.Secrecy

/-! # What a holder is handed

A record carries more than its points.  Everything beside them is known before the draws,
so it adds nothing to what a coalition learns, apart from the checksum: that is a function
of the secret, and it comes with every record. -/

namespace SecretWeb.Shamir

open SecretWeb.Data SecretWeb.Python

/-- What the members of a coalition get to see of one run: their complete records. -/
def coalitionRecords (sha256 : Bytes → String) (coalition : Finset Nat) (dealer : ShamirSecret)
    (secret now : String) (draws : List ChunkDraws) : Option (coalition → Option ParticipantData) :=
  match dealer.createSecret sha256 secret now draws with
  | .ok (some dealt) =>
    match dealt.iterateParticipants with
    | .ok records => some fun participant => records[participant.1]?
    | .error _ => none
  | _ => none

/-- The record with these keys. -/
def ShamirSecret.handsOut (dealer : ShamirSecret) (secretHash now : String) (keys : List Point) : ParticipantData where
  keys := keys
  creationDate := .str now
  owner := dealer.owner
  name := dealer.name
  uuid := dealer.uuid
  treshold := dealer.treshold
  shares := dealer.shares
  secretHash := .str secretHash

def ParticipantData.withoutHash (record : ParticipantData) : ParticipantData := { record with secretHash := .null }

section Views

variable {α β γ : Type} {coalition : Finset Nat}

/-- One function on whatever each member has been handed. -/
def onEach (change : α → β) (view : Option (coalition → Option α)) : Option (coalition → Option β) :=
  view.map fun records participant => (records participant).map change

theorem onEach_onEach (first : α → β) (second : β → γ) (view : Option (coalition → Option α)) :
    onEach second (onEach first view) = onEach (second ∘ first) view := by
  simp [onEach, Function.comp_def]

end Views

section Coalition

variable {sha256 : Bytes → String} {coalition : Finset Nat}

/-! ## One run -/

/-- The records are the keys with the same fields around all of them. -/
theorem coalitionRecords_eq (dealer : ShamirSecret) (secret now : String) (draws : List ChunkDraws) :
    coalitionRecords sha256 coalition dealer secret now draws =
      onEach (dealer.handsOut (sha256 (encodeUtf8 secret)) now)
        (coalitionKeys sha256 coalition dealer secret now draws) := by
  unfold coalitionRecords coalitionKeys
  cases created : dealer.createSecret sha256 secret now draws with
  | error exception => rfl
  | ok outcome =>
    cases outcome with
    | none => rfl
    | some dealt =>
      dsimp only
      cases iterated : dealt.iterateParticipants with
      | error exception => rfl
      | ok records =>
        have fields : ∀ keys, dealer.handsOut (sha256 (encodeUtf8 secret)) now keys =
            { keys := keys, creationDate := dealt.creationDate, owner := dealt.owner, name := dealt.name
              uuid := dealt.uuid, treshold := dealt.treshold, shares := dealt.shares
              secretHash := dealt.secretHash } := by
          intro keys
          obtain ⟨_, rows, _, rfl⟩ := createSecret_eq_ok sha256 created
          rfl
        refine congrArg some (funext fun participant => ?_)
        dsimp only
        cases found : records[participant.1]? with
        | none => rfl
        | some record =>
          rw [Option.map_some, Option.map_some, fields]
          exact congrArg some (iterateParticipants_record iterated (List.mem_of_getElem? found))

/-- A run in which the loops over the x-coordinates end hands a record to every member. -/
theorem coalitionRecords_some {name owner : Json} {shares treshold : Int} {uuid4 secret now : String}
    {draws : List ChunkDraws} (bounded : (encodeUtf8 secret).length ≤ MAX_SECRET_BYTES)
    (count : draws.length = (stringToIntegers secret 8).length)
    (complete : ∀ chunkDraws ∈ draws, chunkDraws.Complete shares treshold) {participant : Nat}
    (member : participant ∈ coalition) (inside : participant < shares.toNat) :
    ∃ view keys, coalitionRecords sha256 coalition (ShamirSecret.fresh name owner shares treshold uuid4) secret now
        draws = some view ∧
      view ⟨participant, member⟩ = some ((ShamirSecret.fresh name owner shares treshold uuid4).handsOut
        (sha256 (encodeUtf8 secret)) now keys) := by
  obtain ⟨rows, generated⟩ := Option.isSome_iff_exists.mp (generateRows_isSome _ count complete)
  rw [coalitionRecords_eq, coalitionKeys_fresh _ _ _ _ _ _ _ _ _ bounded, generated]
  refine ⟨_, column rows participant, rfl, ?_⟩
  dsimp only
  rw [if_pos inside]
  rfl

/-- Any record of a run carries the checksum of its secret. -/
theorem secretHash_of_coalitionRecords {dealer : ShamirSecret} {secret now : String} {draws : List ChunkDraws}
    {view : coalition → Option ParticipantData} {record : ParticipantData}
    (dealt : coalitionRecords sha256 coalition dealer secret now draws = some view) {participant : coalition}
    (found : view participant = some record) : record.secretHash = .str (sha256 (encodeUtf8 secret)) := by
  rw [coalitionRecords_eq, onEach, Option.map_eq_some_iff] at dealt
  obtain ⟨keys, _, rfl⟩ := dealt
  simp only [Option.map_eq_some_iff] at found
  obtain ⟨points, _, rfl⟩ := found
  rfl

/-! ## Distributions -/

/-- The complete records of a coalition: the uuid is drawn apart from the rest. -/
noncomputable def recordsDealt (sha256 : Bytes → String) (coalition : Finset Nat) (name owner : Json)
    (shares treshold : Int) {chunks : Nat} (uuids : PMF String) (xDraws : PMF (Fin chunks → List (Fin (PRIME - 1))))
    (secret now : String) : PMF (Option (coalition → Option ParticipantData)) :=
  uuids.bind fun uuid4 =>
    (dealing (treshold - 1).toNat xDraws).map
      (coalitionRecords sha256 coalition (ShamirSecret.fresh name owner shares treshold uuid4) secret now)

section Dealing

variable {name owner : Json} {shares treshold : Int} {chunks : Nat} {uuids : PMF String}
  {xDraws : PMF (Fin chunks → List (Fin (PRIME - 1)))} {now : String}

/-- Whatever is done to the records, the secret matters only through its checksum. -/
theorem recordsDealt_map {α : Type} (change : ParticipantData → α) (hash : String) {leftSecret rightSecret : String}
    (few : (coalition.card : Int) < treshold)
    (leftBounded : (encodeUtf8 leftSecret).length ≤ MAX_SECRET_BYTES)
    (rightBounded : (encodeUtf8 rightSecret).length ≤ MAX_SECRET_BYTES)
    (leftChunks : (stringToIntegers leftSecret 8).length = chunks)
    (rightChunks : (stringToIntegers rightSecret 8).length = chunks)
    (leftHash : ∀ (dealer : ShamirSecret) (keys : List Point) (_ : coalition),
      change (dealer.handsOut (sha256 (encodeUtf8 leftSecret)) now keys) = change (dealer.handsOut hash now keys))
    (rightHash : ∀ (dealer : ShamirSecret) (keys : List Point) (_ : coalition),
      change (dealer.handsOut (sha256 (encodeUtf8 rightSecret)) now keys) = change (dealer.handsOut hash now keys)) :
    (recordsDealt sha256 coalition name owner shares treshold uuids xDraws leftSecret now).map (onEach change) =
      (recordsDealt sha256 coalition name owner shares treshold uuids xDraws rightSecret now).map
        (onEach change) := by
  -- seen through `change`, a record depends on the secret through its keys only
  have common : ∀ secret : String,
      (∀ (dealer : ShamirSecret) (keys : List Point) (_ : coalition),
        change (dealer.handsOut (sha256 (encodeUtf8 secret)) now keys) = change (dealer.handsOut hash now keys)) →
      ∀ uuid4 draws, onEach change (coalitionRecords sha256 coalition
          (ShamirSecret.fresh name owner shares treshold uuid4) secret now draws) =
        onEach (change ∘ (ShamirSecret.fresh name owner shares treshold uuid4).handsOut hash now)
          (coalitionKeys sha256 coalition (ShamirSecret.fresh name owner shares treshold uuid4) secret now draws) := by
    intro secret sameHash uuid4 draws
    rw [coalitionRecords_eq, onEach_onEach]
    refine congrArg (fun view => Option.map view _) (funext fun keys => funext fun participant => ?_)
    refine congrArg (fun change => Option.map change _) (funext fun points => ?_)
    exact sameHash _ points participant
  rw [recordsDealt, recordsDealt, PMF.map_bind, PMF.map_bind]
  refine congrArg _ (funext fun uuid4 => ?_)
  rw [PMF.map_comp, PMF.map_comp]
  have left : onEach change ∘ coalitionRecords sha256 coalition
      (ShamirSecret.fresh name owner shares treshold uuid4) leftSecret now = _ ∘ _ :=
    funext fun draws => common leftSecret leftHash uuid4 draws
  have right : onEach change ∘ coalitionRecords sha256 coalition
      (ShamirSecret.fresh name owner shares treshold uuid4) rightSecret now = _ ∘ _ :=
    funext fun draws => common rightSecret rightHash uuid4 draws
  rw [left, right, ← PMF.map_comp, ← PMF.map_comp, coalitionKeys_eq sha256 name owner name owner uuid4 uuid4 now now
    shares few leftBounded rightBounded leftChunks rightChunks xDraws]

/-- What any single member is handed tells the checksums of two secrets apart. -/
theorem hash_of_recordsDealt_eq {leftSecret rightSecret : String}
    {xDraws : PMF (Fin (stringToIntegers leftSecret 8).length → List (Fin (PRIME - 1)))}
    (bounded : (encodeUtf8 leftSecret).length ≤ MAX_SECRET_BYTES) {participant : Nat}
    (member : participant ∈ coalition) (inside : participant < shares.toNat)
    (ends : ∀ xs ∈ xDraws.support, ∀ chunk, shares ≤ (xs chunk).toFinset.card)
    (same : recordsDealt sha256 coalition name owner shares treshold uuids xDraws leftSecret now =
      recordsDealt sha256 coalition name owner shares treshold uuids xDraws rightSecret now) :
    sha256 (encodeUtf8 leftSecret) = sha256 (encodeUtf8 rightSecret) := by
  obtain ⟨uuid4, uuidDrawn⟩ := uuids.support_nonempty
  obtain ⟨xs, xsDrawn⟩ := xDraws.support_nonempty
  let draws := @drawsOf _ (treshold - 1).toNat (fun _ _ => 0) xs
  have complete : ∀ chunkDraws ∈ draws, chunkDraws.Complete shares treshold := by
    intro chunkDraws drawn
    obtain ⟨chunk, rfl⟩ := (List.mem_ofFn' _ _).mp drawn
    exact ⟨by simp, ends xs xsDrawn chunk⟩
  obtain ⟨view, keys, dealt, shown⟩ := @coalitionRecords_some sha256 coalition name owner shares treshold uuid4
    leftSecret now draws bounded (by simp [draws, drawsOf]) complete participant member inside
  have possible : some view ∈
      (recordsDealt sha256 coalition name owner shares treshold uuids xDraws leftSecret now).support := by
    rw [recordsDealt, PMF.mem_support_bind_iff]
    refine ⟨uuid4, uuidDrawn, ?_⟩
    rw [PMF.mem_support_map_iff]
    refine ⟨draws, ?_, dealt⟩
    rw [dealing, PMF.mem_support_bind_iff]
    refine ⟨xs, xsDrawn, ?_⟩
    rw [PMF.mem_support_map_iff]
    exact ⟨fun _ _ => 0, by simp, rfl⟩
  rw [same, recordsDealt, PMF.mem_support_bind_iff] at possible
  obtain ⟨otherUuid, _, otherPossible⟩ := possible
  rw [PMF.mem_support_map_iff] at otherPossible
  obtain ⟨otherDraws, _, otherDealt⟩ := otherPossible
  have hash := secretHash_of_coalitionRecords otherDealt shown
  exact Json.str.inj hash

end Dealing

end Coalition

/-- Below the treshold the records of a coalition, less their checksums, have one
distribution for all secrets of one length; with them they have one distribution exactly
for secrets with one checksum, unless nobody is in the coalition. -/
theorem records_secrecy (sha256 : Bytes → String) (leftSecret rightSecret : String)
    (sameLength : (encodeUtf8 leftSecret).length = (encodeUtf8 rightSecret).length)
    (bounded : (encodeUtf8 leftSecret).length ≤ MAX_SECRET_BYTES) (name owner : Json) (shares treshold : Int)
    (lower : 2 ≤ treshold) (upper : treshold ≤ shares) (coalition : Finset Nat)
    (participants : ∀ participant ∈ coalition, participant < shares.toNat)
    (few : (coalition.card : Int) < treshold) (uuids : PMF String)
    (xDraws : PMF (Fin (stringToIntegers leftSecret 8).length → List (Fin (PRIME - 1))))
    (ends : ∀ xs ∈ xDraws.support, ∀ chunk, shares ≤ (xs chunk).toFinset.card) (now : String) :
    (∀ uuid4, ShamirSecret.init name owner shares treshold uuid4 =
      .ok (ShamirSecret.fresh name owner shares treshold uuid4)) ∧
    (recordsDealt sha256 coalition name owner shares treshold uuids xDraws leftSecret now).map
        (onEach ParticipantData.withoutHash) =
      (recordsDealt sha256 coalition name owner shares treshold uuids xDraws rightSecret now).map
        (onEach ParticipantData.withoutHash) ∧
    (recordsDealt sha256 coalition name owner shares treshold uuids xDraws leftSecret now =
        recordsDealt sha256 coalition name owner shares treshold uuids xDraws rightSecret now ↔
      coalition = ∅ ∨ sha256 (encodeUtf8 leftSecret) = sha256 (encodeUtf8 rightSecret)) := by
  have rightBounded : (encodeUtf8 rightSecret).length ≤ MAX_SECRET_BYTES := sameLength ▸ bounded
  have rightChunks : (stringToIntegers rightSecret 8).length = (stringToIntegers leftSecret 8).length := by
    rw [length_stringToIntegers, length_stringToIntegers, sameLength]
  refine ⟨fun uuid4 => ShamirSecret.init_of_valid name owner uuid4 lower upper, ?_, ?_, ?_⟩
  · exact recordsDealt_map ParticipantData.withoutHash "" few bounded rightBounded rfl rightChunks
      (fun _ _ _ => rfl) (fun _ _ _ => rfl)
  · intro same
    by_contra separate
    obtain ⟨someone, different⟩ := not_or.mp separate
    obtain ⟨participant, member⟩ := Finset.nonempty_iff_ne_empty.mpr someone
    exact different (hash_of_recordsDealt_eq bounded member (participants participant member) ends same)
  · intro either
    have unchanged : ∀ view : Option (coalition → Option ParticipantData), onEach id view = view := by
      intro view
      cases view with
      | none => rfl
      | some records => simp [onEach]
    have both := @recordsDealt_map sha256 coalition name owner shares treshold _ uuids xDraws now _ id
      (sha256 (encodeUtf8 rightSecret)) leftSecret rightSecret few bounded rightBounded rfl rightChunks
      (by
        intro dealer keys member
        cases either with
        | inl nobody =>
          have impossible := member.2
          simp [nobody] at impossible
        | inr hashes => rw [hashes])
      (fun _ _ _ => rfl)
    have identity : (onEach id : Option (coalition → Option ParticipantData) → _) = id := funext unchanged
    rwa [identity, PMF.map_id, PMF.map_id] at both

/-- Two x-coordinates for each of two participants, always the same. -/
noncomputable def fixedX (chunks : Nat) : PMF (Fin chunks → List (Fin (PRIME - 1))) := PMF.pure fun _ => [0, 1]

theorem fixedX_ends (chunks : Nat) :
    ∀ xs ∈ (fixedX chunks).support, ∀ chunk, (2 : Int) ≤ (xs chunk).toFinset.card := by
  intro xs drawn chunk
  rw [fixedX, PMF.support_pure, Set.mem_singleton_iff] at drawn
  rw [drawn]
  show (2 : Int) ≤ (([0, 1] : List (Fin (PRIME - 1))).toFinset.card : Nat)
  decide

theorem records_secrecy_pair :
    (recordsDealt sampleSha256 {0} .null .null 2 2 (PMF.pure "u") (fixedX (stringToIntegers "hi" 8).length) "hi"
        "now").map (onEach ParticipantData.withoutHash) =
      (recordsDealt sampleSha256 {0} .null .null 2 2 (PMF.pure "u") (fixedX (stringToIntegers "hi" 8).length) "no"
        "now").map (onEach ParticipantData.withoutHash) :=
  (records_secrecy sampleSha256 "hi" "no" (by decide) (by decide) .null .null 2 2 (by decide) (by decide) {0}
    (by decide) (by decide) (PMF.pure "u") (fixedX _) (fixedX_ends _) "now").2.1

/-- The one holder of a share tells `hi` from `no` by the checksum in its record. -/
theorem records_differ :
    (encodeUtf8 "hi").length = (encodeUtf8 "no").length ∧
    recordsDealt sampleSha256 {0} .null .null 2 2 (PMF.pure "u") (fixedX (stringToIntegers "hi" 8).length) "hi"
        "now" ≠
      recordsDealt sampleSha256 {0} .null .null 2 2 (PMF.pure "u") (fixedX (stringToIntegers "hi" 8).length) "no"
        "now" := by
  refine ⟨by decide, fun same => ?_⟩
  have hashes := hash_of_recordsDealt_eq (by decide) (Finset.mem_singleton_self 0) (by decide) (fixedX_ends _) same
  revert hashes
  decide

end SecretWeb.Shamir
