import SecretWeb.Machine.Runs
import SecretWeb.Shamir.Quorum

/-! # Dealing again

`create_secret` replaces the checksum and the creation date of an object, but it adds to the
matrix.  After a second call the records hold a point for every chunk of both secrets. -/

namespace SecretWeb.Shamir

open SecretWeb.Data SecretWeb.Python SecretWeb.Machine

/-- A call of `create_secret`, and what is drawn in it. -/
structure Deal where
  secretRaw : String
  now : String
  draws : List ChunkDraws

/-- The call neither exceeds the size limit nor draws forever. -/
structure Deal.Returns (deal : Deal) (shares treshold : Int) : Prop where
  small : (encodeUtf8 deal.secretRaw).length ≤ MAX_SECRET_BYTES
  count : deal.draws.length = (stringToIntegers deal.secretRaw 8).length
  complete : ∀ chunkDraws ∈ deal.draws, chunkDraws.Complete shares treshold

/-- The number of points a record gets from the call. -/
def Deal.chunks (deal : Deal) : Nat := (stringToIntegers deal.secretRaw 8).length

theorem Deal.chunks_pos (deal : Deal) : 0 < deal.chunks := by
  rw [chunks, length_stringToIntegers]
  omega

/-- Calls on one object, one after the other. -/
def createSecrets (sha256 : Bytes → String) : ShamirSecret → List Deal → Except PyException (Option ShamirSecret)
  | self, [] => .ok (some self)
  | self, deal :: rest =>
    match self.createSecret sha256 deal.secretRaw deal.now deal.draws with
    | .error exception => .error exception
    | .ok none => .ok none
    | .ok (some after) => createSecrets sha256 after rest

/-! ## The matrix grows -/

/-- So many rows have been added, and what later calls look at is as it was. -/
structure Grown (object after : ShamirSecret) (count : Nat) : Prop where
  matrix : ∃ rows, after.secretMatrix = object.secretMatrix ++ rows ∧ rows.length = count ∧
    ∀ row ∈ rows, row.length = object.shares.toNat
  shares : after.shares = object.shares
  treshold : after.treshold = object.treshold
  width : after.bytesPerInteger = object.bytesPerInteger

theorem grown_refl (object : ShamirSecret) : Grown object object 0 where
  matrix := ⟨[], by simp⟩
  shares := rfl
  treshold := rfl
  width := rfl

theorem Grown.trans {first second third : ShamirSecret} {left right : Nat} (earlier : Grown first second left)
    (later : Grown second third right) : Grown first third (left + right) where
  matrix := by
    obtain ⟨leftRows, leftMatrix, leftCount, leftWide⟩ := earlier.matrix
    obtain ⟨rightRows, rightMatrix, rightCount, rightWide⟩ := later.matrix
    refine ⟨leftRows ++ rightRows, by rw [rightMatrix, leftMatrix, List.append_assoc],
      by rw [List.length_append, leftCount, rightCount], ?_⟩
    intro row member
    cases List.mem_append.mp member with
    | inl inLeft => exact leftWide row inLeft
    | inr inRight => rw [rightWide row inRight, earlier.shares]
  shares := later.shares.trans earlier.shares
  treshold := later.treshold.trans earlier.treshold
  width := later.width.trans earlier.width

section Calls

variable {sha256 : Bytes → String}

theorem createSecret_grown {object after : ShamirSecret} {deal : Deal} (width : object.bytesPerInteger = 8)
    (created : object.createSecret sha256 deal.secretRaw deal.now deal.draws = .ok (some after)) :
    Grown object after deal.chunks := by
  obtain ⟨_, rows, generated, rfl⟩ := createSecret_eq_ok sha256 created
  obtain ⟨chunks, secrets, _, dealt⟩ := generateRows_spec generated
  refine ⟨⟨rows, rfl, ?_, length_of_dealtRows dealt⟩, rfl, rfl, rfl⟩
  have count := congrArg List.length secrets
  rw [List.length_map, width] at count
  rw [← dealt.length_eq, count, Deal.chunks]

/-- The run lemma: every call adds the rows of its own secret. -/
theorem createSecrets_grown {object : ShamirSecret} (width : object.bytesPerInteger = 8) (deals : List Deal)
    (returns : ∀ deal ∈ deals, deal.Returns object.shares object.treshold) :
    ∃ after, createSecrets sha256 object deals = .ok (some after) ∧
      Grown object after (deals.map Deal.chunks).sum := by
  induction deals generalizing object with
  | nil => exact ⟨object, rfl, grown_refl object⟩
  | cons deal rest inductionHypothesis =>
    have first := returns deal List.mem_cons_self
    obtain ⟨next, created⟩ := createSecret_ok sha256 object deal.now first.small (by rw [width]; exact first.count)
      first.complete
    have grown := createSecret_grown width created
    have others : ∀ other ∈ rest, other.Returns next.shares next.treshold := by
      rw [grown.shares, grown.treshold]
      exact fun other member => returns other (List.mem_cons_of_mem _ member)
    obtain ⟨after, finished, grownLater⟩ := inductionHypothesis (grown.width.trans width) others
    refine ⟨after, ?_, by rw [List.map_cons, List.sum_cons]; exact grown.trans grownLater⟩
    rw [createSecrets, created]
    exact finished

/-- What the records look like after the calls. -/
theorem Grown.iterateParticipants {object after : ShamirSecret} {count : Nat} (grown : Grown object after count)
    (blank : object.secretMatrix = []) (positive : 0 < count) :
    ∃ records, after.iterateParticipants = .ok records ∧ records.length = object.shares.toNat ∧
      ∀ record ∈ records, record.keys.length = count := by
  obtain ⟨rows, matrix, length, wide⟩ := grown.matrix
  rw [blank, List.nil_append] at matrix
  have dealt : after.secretMatrix ≠ [] := by
    intro none
    rw [← matrix, none, List.length_nil] at length
    omega
  refine ⟨_, iterateParticipants_ok after object.shares.toNat dealt (by rw [matrix]; exact wide), by simp, ?_⟩
  intro record member
  obtain ⟨index, _, rfl⟩ := List.mem_map.mp member
  show (column after.secretMatrix index).length = count
  rw [column, List.length_map, matrix, length]

end Calls

/-! ## The shares of one secret -/

/-- The records of the object are shares of this secret: a point for each of its chunks, and as
many as the treshold asks for take every fresh decoder to it. -/
def BelongsTo (sha256 : Bytes → String) (name owner : String) (dealt : ShamirSecret) (secret : String) : Prop :=
  ∃ records, dealt.iterateParticipants = .ok records ∧
    (∀ record ∈ records, record.keys.length = (stringToIntegers secret 8).length) ∧
    ∀ submitted : List ParticipantData, submitted.Subperm records → (submitted.length : Int) = dealt.treshold →
      ∀ (decoderName decoderOwner : Json) (decoderShares decoderTreshold : Int) (decoderUuid : String)
        (decoder : ShamirSecret), Expects decoderName name → Expects decoderOwner owner →
        ShamirSecret.init decoderName decoderOwner decoderShares decoderTreshold decoderUuid = .ok decoder →
        (run ShamirSecret.populateDecoder decoder (submitted.map ParticipantData.toJson)).decode sha256 = .ok secret

theorem Holding.run {split : Split} {accepted : List (List Point)} {decoder : ShamirSecret}
    (holding : Holding split accepted decoder) {submitted : List (List Point)}
    (carried : ∀ keys ∈ submitted, split.Carries keys)
    (apart : (accepted ++ submitted).Pairwise fun left right => ¬Collide left right) :
    Holding split (accepted ++ submitted)
      (Machine.run ShamirSecret.populateDecoder decoder (submitted.map fun keys => (split.record keys).toJson)) := by
  induction submitted generalizing accepted decoder with
  | nil => rwa [List.append_nil]
  | cons keys rest inductionHypothesis =>
    have keysApart : ∀ earlier ∈ accepted, ¬Collide earlier keys := fun earlier member =>
      (List.pairwise_append.mp apart).2.2 earlier member keys List.mem_cons_self
    obtain ⟨after, accepts, holdingAfter⟩ := holding.populateDecoder (carried keys List.mem_cons_self) keysApart
      (reads_toJson _)
    rw [List.append_cons] at apart
    have later := inductionHypothesis holdingAfter (fun other member => carried other (List.mem_cons_of_mem _ member))
      apart
    rw [List.map_cons, Machine.run, accepts, List.append_cons]
    exact later

theorem belongsTo_of_createSecret {sha256 : Bytes → String} {name owner uuid secret now : String}
    {shares treshold : Int} {draws : List ChunkDraws} {dealt : ShamirSecret} (lower : 2 ≤ treshold)
    (upper : treshold ≤ shares)
    (created : (ShamirSecret.fresh (.str name) (.str owner) shares treshold uuid).createSecret sha256 secret now draws =
      .ok (some dealt)) : BelongsTo sha256 name owner dealt secret := by
  have same : dealt.treshold = treshold := (@createSecret_grown sha256 _ dealt ⟨secret, now, draws⟩ rfl created).treshold
  obtain ⟨split, participants, hides, deals, rfl, rfl, rfl, rfl, rfl, iterated⟩ :=
    createSecret_deals sha256 lower upper created
  refine ⟨_, iterated, ?_, ?_⟩
  · intro record member
    obtain ⟨keys, keysMember, rfl⟩ := List.mem_map.mp member
    show keys.length = _
    rw [(deals.carried keys keysMember).length_eq, ← hides.chunked, List.length_map]
  · intro submitted selected quorum decoderName decoderOwner decoderShares decoderTreshold decoderUuid decoder
      expectsName expectsOwner built
    obtain ⟨_, _, rfl⟩ := ShamirSecret.init_eq_ok.mp built
    obtain ⟨keysList, rfl, carried, apart⟩ := deals.subperm selected
    have holding := (holding_fresh split decoderShares decoderTreshold decoderUuid expectsName
      expectsOwner).run carried apart
    rw [List.nil_append] at holding
    rw [List.map_map]
    refine holding.decode_secret ?_ sha256 secret hides.chunked hides.hashed
    rw [← same, ← quorum, List.length_map]

/-- The shares of an object belong to its latest secret exactly as long as that is its first. -/
theorem belongsTo_latest_iff (sha256 : Bytes → String) (name owner uuid : String) (shares treshold : Int)
    (dealer : ShamirSecret)
    (constructed : ShamirSecret.init (.str name) (.str owner) shares treshold uuid = .ok dealer)
    (earlier : List Deal) (latest : Deal) (returns : ∀ deal ∈ earlier ++ [latest], deal.Returns shares treshold) :
    ∃ dealt, createSecrets sha256 dealer (earlier ++ [latest]) = .ok (some dealt) ∧
      (BelongsTo sha256 name owner dealt latest.secretRaw ↔ earlier = []) := by
  obtain ⟨lower, upper, rfl⟩ := ShamirSecret.init_eq_ok.mp constructed
  obtain ⟨dealt, created, grown⟩ := @createSecrets_grown sha256
    (ShamirSecret.fresh (.str name) (.str owner) shares treshold uuid) rfl (earlier ++ [latest]) returns
  rw [List.map_append, List.sum_append] at grown
  refine ⟨dealt, created, ?_, ?_⟩
  · rintro ⟨records, iterated, lengths, _⟩
    have latestPositive := latest.chunks_pos
    have total : ([latest].map Deal.chunks).sum = latest.chunks := by simp
    rw [total] at grown
    obtain ⟨others, othersIterated, count, keysLength⟩ := grown.iterateParticipants rfl (by omega)
    obtain rfl : others = records := Except.ok.inj (othersIterated.symm.trans iterated)
    have someone : 0 < others.length := by
      rw [count]
      show 0 < shares.toNat
      omega
    obtain ⟨record, rest, shape⟩ := List.exists_cons_of_length_pos someone
    have member : record ∈ others := by simp [shape]
    have same : (earlier.map Deal.chunks).sum + latest.chunks = latest.chunks :=
      (keysLength record member).symm.trans (lengths record member)
    cases earlier with
    | nil => rfl
    | cons first more =>
      have firstPositive := first.chunks_pos
      rw [List.map_cons, List.sum_cons] at same
      omega
  · rintro rfl
    simp only [List.nil_append, createSecrets] at created
    cases outcome : (ShamirSecret.fresh (.str name) (.str owner) shares treshold uuid).createSecret sha256
        latest.secretRaw latest.now latest.draws with
    | error exception =>
      rw [outcome] at created
      cases created
    | ok finished =>
      rw [outcome] at created
      cases finished with
      | none => cases created
      | some after =>
        cases created
        exact belongsTo_of_createSecret lower upper outcome

def hiDeal : Deal := ⟨"hi", "2026-01-01T00:00:00+00:00", [⟨[5], [0, 0, 1]⟩, ⟨[7], [2, 3]⟩]⟩

def noDeal : Deal := ⟨"no", "2026-01-02T00:00:00+00:00", [⟨[3], [4, 5]⟩, ⟨[8], [6, 7]⟩]⟩

theorem hiDeal_returns : hiDeal.Returns 2 2 where
  small := by decide
  count := by decide
  complete := by
    intro chunkDraws member
    simp only [hiDeal, List.mem_cons, List.not_mem_nil, or_false] at member
    cases member with
    | inl first =>
      subst first
      exact ⟨by decide, by decide⟩
    | inr second =>
      subst second
      exact ⟨by decide, by decide⟩

theorem belongsTo_latest_hi :
    ∃ dealt, createSecrets sampleSha256 (.fresh (.str "wifi") (.str "host1") 2 2 "u1") [hiDeal] = .ok (some dealt) ∧
      BelongsTo sampleSha256 "wifi" "host1" dealt "hi" := by
  obtain ⟨dealt, created, belongs⟩ := belongsTo_latest_iff sampleSha256 "wifi" "host1" "u1" 2 2 _ rfl [] hiDeal
    fun deal member => by
      rw [List.mem_singleton.mp member]
      exact hiDeal_returns
  exact ⟨dealt, created, belongs.mpr rfl⟩

/-- After `hi` and then `no`, each record has the four points of both. -/
theorem dealt_twice :
    ∃ dealt, createSecrets sampleSha256 (.fresh (.str "wifi") (.str "host1") 2 2 "u1") [hiDeal, noDeal] =
        .ok (some dealt) ∧
      (dealt.iterateParticipants.map fun records => records.map fun record => record.keys.length) = .ok [4, 4] ∧
      (stringToIntegers "no" 8).length = 2 ∧ ¬BelongsTo sampleSha256 "wifi" "host1" dealt "no" := by
  refine ⟨_, rfl, rfl, rfl, ?_⟩
  rintro ⟨records, iterated, lengths, _⟩
  cases iterated
  exact absurd (lengths _ List.mem_cons_self) (by decide)

end SecretWeb.Shamir
