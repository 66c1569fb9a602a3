import SecretWeb.Shamir.Admission
import SecretWeb.Shamir.Split
import SecretWeb.Machine.Runs

/-! # Sequences of submissions

What a refused record leaves behind, and what the records that one decoder has accepted
have in common.  The checks of `populate_decoder` come before its first assignment, but
the assignments read fields that not every branch of the checks has read. -/

namespace SecretWeb.Shamir

open SecretWeb.Python SecretWeb.Machine

/-! ## The checks, field by field -/

/-- The field is there, and equal to what is known. -/
def Agrees (known : Json) (document : Json) (field : String) : Prop :=
  ∃ value, document.getItem field = .ok value ∧ known.equals value = true

namespace ShamirSecret

/-- What the two branches of the consistency test look at. -/
structure ConsistentWith (decoder : ShamirSecret) (document : Json) (treshold shares : Int) : Prop where
  expected : decoder.decodingParticipantsKeys = [] →
    (decoder.name.truthy = true → Agrees decoder.name document "name") ∧
      (decoder.owner.truthy = true → Agrees decoder.owner document "owner")
  adopted : decoder.decodingParticipantsKeys ≠ [] →
    Agrees decoder.creationDate document "creation_date" ∧ Agrees decoder.uuid document "uuid" ∧
      Agrees decoder.secretHash document "secret_hash" ∧ Agrees decoder.name document "name" ∧
      decoder.shares = shares ∧ decoder.treshold = treshold

/-- The record gets past every check. -/
structure Passes (decoder : ShamirSecret) (document : Json) (treshold shares : Int) : Prop where
  tresholdRead : ∃ value, document.getItem "treshold" = .ok value ∧ value.asInt = some treshold
  sharesRead : ∃ value, document.getItem "shares" = .ok value ∧ value.asInt = some shares
  lower : 2 ≤ treshold
  upper : treshold ≤ shares
  keys : ∃ value, document.getItem "keys" = .ok value ∧ (decoder.validateKeys value).isSome = true
  consistent : decoder.ConsistentWith document treshold shares

/-- Every field that is read after the share has been appended is there. -/
def Complete (document : Json) : Prop :=
  ∀ field ∈ ["creation_date", "owner", "name", "uuid", "secret_hash"], ∃ value, document.getItem field = .ok value

theorem inconsistent_eq_false_iff (self : ShamirSecret) (document : Json) (treshold shares : Int) :
    self.inconsistent document treshold shares = .ok false ↔ self.ConsistentWith document treshold shares := by
  unfold inconsistent
  cases accepted : self.decodingParticipantsKeys with
  | nil =>
    have split : self.ConsistentWith document treshold shares ↔
        (self.name.truthy = true → Agrees self.name document "name") ∧
          (self.owner.truthy = true → Agrees self.owner document "owner") :=
      ⟨fun consistent => consistent.expected accepted,
        fun both => ⟨fun _ => both, fun occupied => absurd accepted occupied⟩⟩
    rw [split]
    cases nameTruth : self.name.truthy <;> cases ownerTruth : self.owner.truthy <;>
      cases name : document.getItem "name" <;> cases owner : document.getItem "owner" <;>
      simp [Agrees, name, owner, pure, Except.pure]
  | cons first others =>
    have split : self.ConsistentWith document treshold shares ↔
        Agrees self.creationDate document "creation_date" ∧ Agrees self.uuid document "uuid" ∧
          Agrees self.secretHash document "secret_hash" ∧ Agrees self.name document "name" ∧
          self.shares = shares ∧ self.treshold = treshold := by
      have occupied : self.decodingParticipantsKeys ≠ [] := by simp [accepted]
      exact ⟨fun consistent => consistent.adopted occupied,
        fun all => ⟨fun blank => absurd blank occupied, fun _ => all⟩⟩
    rw [split]
    cases creationDate : document.getItem "creation_date" <;> cases uuid : document.getItem "uuid" <;>
      cases secretHash : document.getItem "secret_hash" <;> cases name : document.getItem "name" <;>
      simp [Agrees, creationDate, uuid, secretHash, name, pure, Except.pure, and_assoc]

theorem checkSubmission_passes {self : ShamirSecret} {document : Json} {checked : Checked}
    (outcome : self.checkSubmission document = .ok checked) :
    self.Passes document checked.treshold checked.shares := by
  obtain ⟨tresholdValue, sharesValue, keysValue, tresholdRead, sharesRead, keysRead, tresholdInt, sharesInt, lower,
    upper, validated, consistent, _⟩ := (self.checkSubmission_eq_ok document checked).mp outcome
  exact
    { tresholdRead := ⟨tresholdValue, tresholdRead, tresholdInt⟩
      sharesRead := ⟨sharesValue, sharesRead, sharesInt⟩
      lower := lower
      upper := upper
      keys := ⟨keysValue, keysRead, by rw [validated]; rfl⟩
      consistent := (self.inconsistent_eq_false_iff document _ _).mp consistent }

theorem checkSubmission_of_passes {self : ShamirSecret} {document : Json} {treshold shares : Int}
    (passes : self.Passes document treshold shares) : ∃ checked, self.checkSubmission document = .ok checked := by
  obtain ⟨tresholdValue, tresholdRead, tresholdInt⟩ := passes.tresholdRead
  obtain ⟨sharesValue, sharesRead, sharesInt⟩ := passes.sharesRead
  obtain ⟨keysValue, keysRead, some⟩ := passes.keys
  obtain ⟨points, validated⟩ := Option.isSome_iff_exists.mp some
  obtain ⟨items, itemsRead, pointsRead, nonempty, sameLength, admitted⟩ :=
    (self.validateKeys_eq_some keysValue points).mp validated
  exact ⟨⟨points, treshold, shares⟩, (self.checkSubmission_eq_ok document _).mpr
    ⟨tresholdValue, sharesValue, keysValue, tresholdRead, sharesRead, keysRead, tresholdInt, sharesInt, passes.lower,
      passes.upper, validated, (self.inconsistent_eq_false_iff document _ _).mpr passes.consistent,
      self.not_mem_of_admitsPoints nonempty admitted⟩⟩

/-- An admitted share collides with none that is already there. -/
theorem not_collide_of_admitsPoints (self : ShamirSecret) {keys : List Point} (admitted : self.AdmitsPoints 0 keys) :
    ∀ earlier ∈ self.decodingParticipantsKeys, ¬Collide earlier keys := by
  intro earlier member collide
  obtain ⟨index, earlierPoint, point, earlierFound, found, same⟩ := collide
  have fresh := (admitted index point found).2
  rw [freshX, List.all_eq_true] at fresh
  have different := fresh earlier member
  simp [earlierFound, same] at different

theorem adopt_of_complete (self : ShamirSecret) {document : Json} (complete : Complete document) (checked : Checked) :
    ∃ needed after, self.adopt document checked = (.ok needed, after) := by
  obtain ⟨creationDate, creationDateRead⟩ := complete "creation_date" (by simp)
  obtain ⟨owner, ownerRead⟩ := complete "owner" (by simp)
  obtain ⟨name, nameRead⟩ := complete "name" (by simp)
  obtain ⟨uuid, uuidRead⟩ := complete "uuid" (by simp)
  obtain ⟨secretHash, secretHashRead⟩ := complete "secret_hash" (by simp)
  exact ⟨_, _, (self.adopt_eq_ok document checked _ _).mpr ⟨creationDate, owner, name, uuid, secretHash,
    creationDateRead, ownerRead, nameRead, uuidRead, secretHashRead, rfl, rfl⟩⟩

theorem complete_of_adopt {self after : ShamirSecret} {document : Json} {checked : Checked} {needed : Int}
    (adopted : self.adopt document checked = (.ok needed, after)) : Complete document := by
  obtain ⟨creationDate, owner, name, uuid, secretHash, creationDateRead, ownerRead, nameRead, uuidRead,
    secretHashRead, _⟩ := (self.adopt_eq_ok document checked needed after).mp adopted
  intro field member
  simp only [List.mem_cons, List.not_mem_nil, or_false] at member
  rcases member with rfl | rfl | rfl | rfl | rfl
  · exact ⟨creationDate, creationDateRead⟩
  · exact ⟨owner, ownerRead⟩
  · exact ⟨name, nameRead⟩
  · exact ⟨uuid, uuidRead⟩
  · exact ⟨secretHash, secretHashRead⟩

/-- In every state, whatever the record: a call that raises leaves the decoder as it was
exactly when a record that gets past the checks has every field that is read after them. -/
theorem rejected_untouched_iff (self : ShamirSecret) (document : Json) :
    (∀ exception after, self.populateDecoder document = (.error exception, after) → after = self) ↔
      ∀ treshold shares, self.Passes document treshold shares → Complete document := by
  constructor
  · intro untouched treshold shares passes
    obtain ⟨checked, outcome⟩ := checkSubmission_of_passes passes
    have call : self.populateDecoder document = self.adopt document checked := by
      rw [populateDecoder, outcome]
    cases adopted : self.adopt document checked with
    | mk result after =>
      cases result with
      | ok needed => exact complete_of_adopt adopted
      | error exception =>
        -- the appended share gives the call away
        have same := untouched exception after (call.trans adopted)
        obtain ⟨_, appended, _⟩ := adopt_raises adopted
        rw [same] at appended
        simp at appended
  · intro complete exception after raised
    cases outcome : self.checkSubmission document with
    | error refusal =>
      rw [populateDecoder, outcome] at raised
      cases raised
      rfl
    | ok checked =>
      obtain ⟨needed, adopting, adopted⟩ :=
        self.adopt_of_complete (complete _ _ (checkSubmission_passes outcome)) checked
      rw [populateDecoder, outcome] at raised
      cases adopted.symm.trans raised

/-- A record without a creation date, posted to a decoder that is still blank: the call
raises `KeyError`, and the decoder now holds the share. -/
theorem rejected_touches :
    let object := fresh (.str "wifi") (.str "host1") 5 3 "u2"
    let document : Json := .dict [("keys", .list [.list [.int 1, .int 5]]), ("owner", .str "host1"),
      ("name", .str "wifi"), ("uuid", .str "u1"), ("treshold", .int 2), ("shares", .int 2), ("secret_hash", .null)]
    init (.str "wifi") (.str "host1") 5 3 "u2" = .ok object ∧
      object.populateDecoder document =
        (.error (.keyError "creation_date"), { object with decodingParticipantsKeys := [[(1, 5)]] }) :=
  ⟨rfl, rfl⟩

end ShamirSecret

/-! ## The records that one decoder has accepted -/

structure SameIdentity (left right : ParticipantData) : Prop where
  creationDate : left.creationDate.equals right.creationDate = true
  owner : left.owner.equals right.owner = true
  name : left.name.equals right.name = true
  uuid : left.uuid.equals right.uuid = true
  secretHash : left.secretHash.equals right.secretHash = true
  treshold : left.treshold = right.treshold
  shares : left.shares = right.shares

theorem SameIdentity.trans {left middle right : ParticipantData} (first : SameIdentity left middle)
    (second : SameIdentity middle right) : SameIdentity left right where
  creationDate := Json.equals_trans first.creationDate second.creationDate
  owner := Json.equals_trans first.owner second.owner
  name := Json.equals_trans first.name second.name
  uuid := Json.equals_trans first.uuid second.uuid
  secretHash := Json.equals_trans first.secretHash second.secretHash
  treshold := first.treshold.trans second.treshold
  shares := first.shares.trans second.shares

/-- The fields of the decoder are those of the record. -/
structure Adopted (record : ParticipantData) (decoder : ShamirSecret) : Prop where
  creationDate : decoder.creationDate = record.creationDate
  owner : decoder.owner = record.owner
  name : decoder.name = record.name
  uuid : decoder.uuid = record.uuid
  secretHash : decoder.secretHash = record.secretHash
  treshold : decoder.treshold = record.treshold
  shares : decoder.shares = record.shares

/-- The records belong together, and to a decoder constructed for this name and owner. -/
structure Together (name owner : String) (records : List ParticipantData) (decoder : ShamirSecret) : Prop where
  keys : decoder.decodingParticipantsKeys = records.map ParticipantData.keys
  blank : records = [] → decoder.name = .str name ∧ decoder.owner = .str owner
  adopted : ∀ last ∈ records.getLast?, Adopted last decoder
  identity : records.Pairwise SameIdentity
  name : name ≠ "" → ∀ record ∈ records, record.name = .str name
  owner : owner ≠ "" → ∀ record ∈ records, record.owner = .str owner
  sameLength : ∀ left ∈ records, ∀ right ∈ records, left.keys.length = right.keys.length
  inRange : ∀ record ∈ records, ∀ point ∈ record.keys, 0 < point.1 ∧ point.1 < PRIME
  apart : records.Pairwise fun left right => ¬Collide left.keys right.keys

theorem truthy_str {text : String} (nonempty : text ≠ "") : (Json.str text).truthy = true := by
  simp [Json.truthy, nonempty]

/-- The step lemma.  The test of a later record skips its owner, so that is a hypothesis. -/
theorem Together.accepting {name owner : String} {records : List ParticipantData} {decoder : ShamirSecret}
    {record : ParticipantData} (together : Together name owner records decoder) (admits : decoder.Admits record)
    (owned : decoder.decodingParticipantsKeys ≠ [] → decoder.owner.equals record.owner = true) :
    Together name owner (records ++ [record]) (decoder.accepting record) := by
  have points : ∀ point ∈ record.keys, 0 < point.1 ∧ point.1 < PRIME := by
    intro point member
    obtain ⟨offset, found⟩ := List.mem_iff_getElem?.mp member
    exact (admits.points offset point found).1
  have apart : ∀ earlier ∈ records, ¬Collide earlier.keys record.keys := by
    intro earlier member
    apply decoder.not_collide_of_admitsPoints admits.points
    rw [together.keys]
    exact List.mem_map_of_mem member
  -- every earlier record agrees with the new one: the last by the test, the others through it
  have identity : ∀ earlier ∈ records, SameIdentity earlier record := by
    cases last : records.getLast? with
    | none =>
      rw [List.getLast?_eq_none_iff] at last
      simp [last]
    | some latest =>
      have occupied : decoder.decodingParticipantsKeys ≠ [] := by
        intro none
        rw [together.keys, List.map_eq_nil_iff] at none
        simp [none] at last
      have adopted := together.adopted latest last
      obtain ⟨creationDate, uuid, secretHash, sameName, shares, treshold⟩ := admits.adopted occupied
      have latestSame : SameIdentity latest record :=
        { creationDate := adopted.creationDate ▸ creationDate
          owner := adopted.owner ▸ owned occupied
          name := adopted.name ▸ sameName
          uuid := adopted.uuid ▸ uuid
          secretHash := adopted.secretHash ▸ secretHash
          treshold := adopted.treshold ▸ treshold
          shares := adopted.shares ▸ shares }
      obtain ⟨before, rfl⟩ := List.getLast?_eq_some_iff.mp last
      intro earlier member
      cases List.mem_append.mp member with
      | inl former =>
        exact ((List.pairwise_append.mp together.identity).2.2 earlier former latest (by simp)).trans latestSame
      | inr final =>
        rw [List.mem_singleton.mp final]
        exact latestSame
  have expected : records = [] →
      (name ≠ "" → record.name = .str name) ∧ (owner ≠ "" → record.owner = .str owner) := by
    intro empty
    have blank : decoder.decodingParticipantsKeys = [] := by rw [together.keys, empty, List.map_nil]
    obtain ⟨nameMatches, ownerMatches⟩ := admits.expected blank
    obtain ⟨decoderName, decoderOwner⟩ := together.blank empty
    rw [decoderName] at nameMatches
    rw [decoderOwner] at ownerMatches
    exact ⟨fun nonempty => (Json.equals_str name _).mp (nameMatches (truthy_str nonempty)),
      fun nonempty => (Json.equals_str owner _).mp (ownerMatches (truthy_str nonempty))⟩
  refine
    { keys := by rw [ShamirSecret.accepting_keys, together.keys, List.map_append]; rfl
      blank := fun empty => absurd empty (by simp)
      adopted := ?_
      identity := ?_
      name := ?_
      owner := ?_
      sameLength := ?_
      inRange := ?_
      apart := ?_ }
  · intro latest last
    simp only [List.getLast?_append, List.getLast?_singleton, Option.some_or, Option.mem_some_iff] at last
    subst last
    exact ⟨rfl, rfl, rfl, rfl, rfl, rfl, rfl⟩
  · refine List.pairwise_append.mpr ⟨together.identity, List.pairwise_singleton _ _, ?_⟩
    intro earlier member other new
    rw [List.mem_singleton.mp new]
    exact identity earlier member
  · intro nonempty other member
    cases List.mem_append.mp member with
    | inl earlier => exact together.name nonempty other earlier
    | inr new =>
      rw [List.mem_singleton.mp new]
      cases records with
      | nil => exact (expected rfl).1 nonempty
      | cons first rest =>
        have same := (identity first List.mem_cons_self).name
        rw [together.name nonempty first List.mem_cons_self] at same
        exact (Json.equals_str name _).mp same
  · intro nonempty other member
    cases List.mem_append.mp member with
    | inl earlier => exact together.owner nonempty other earlier
    | inr new =>
      rw [List.mem_singleton.mp new]
      cases records with
      | nil => exact (expected rfl).2 nonempty
      | cons first rest =>
        have same := (identity first List.mem_cons_self).owner
        rw [together.owner nonempty first List.mem_cons_self] at same
        exact (Json.equals_str owner _).mp same
  · have newLength : ∀ earlier ∈ records, earlier.keys.length = record.keys.length := by
      intro earlier member
      cases records with
      | nil => cases member
      | cons first rest =>
        have head := admits.sameLength first.keys (by rw [together.keys]; rfl)
        exact (together.sameLength earlier member first List.mem_cons_self).trans head.symm
    intro left leftMember right rightMember
    cases List.mem_append.mp leftMember with
    | inl leftOld =>
      cases List.mem_append.mp rightMember with
      | inl rightOld => exact together.sameLength left leftOld right rightOld
      | inr rightNew =>
        rw [List.mem_singleton.mp rightNew]
        exact newLength left leftOld
    | inr leftNew =>
      rw [List.mem_singleton.mp leftNew]
      cases List.mem_append.mp rightMember with
      | inl rightOld => exact (newLength right rightOld).symm
      | inr rightNew => rw [List.mem_singleton.mp rightNew]
  · intro other member
    cases List.mem_append.mp member with
    | inl earlier => exact together.inRange other earlier
    | inr new =>
      rw [List.mem_singleton.mp new]
      exact points
  · refine List.pairwise_append.mpr ⟨together.apart, List.pairwise_singleton _ _, ?_⟩
    intro earlier member other new
    rw [List.mem_singleton.mp new]
    exact apart earlier member

/-- One call of `populate_decoder`, with what it returns or raises. -/
abbrev Submission := Transition ShamirSecret Json (Except PyException Int)

def acceptedDocuments (history : List Submission) : List Json :=
  history.filterMap fun submission =>
    match submission.output with
    | .ok _ => some submission.input
    | .error _ => none

/-- The record is accepted, or refused as an invalid share. -/
def Answered (submission : Submission) : Prop :=
  (∃ needed, submission.output = .ok needed) ∨ ∃ message, submission.output = .error (.invalidShareError message)

/-- A record that gets past the checks of a decoder that has accepted a share has the
owner of that decoder. -/
def KeepsOwner (submission : Submission) : Prop :=
  submission.before.decodingParticipantsKeys ≠ [] →
    ∀ treshold shares, submission.before.Passes submission.input treshold shares →
      Agrees submission.before.owner submission.input "owner"

/-- Over every run of submissions that keep the owner, the accepted records belong
together. -/
theorem accepted_together (name owner : String) (shares treshold : Int) (uuid4 : String) (decoder : ShamirSecret)
    (constructed : ShamirSecret.init (.str name) (.str owner) shares treshold uuid4 = .ok decoder)
    (documents : List Json)
    (answered : ∀ submission ∈ transitions ShamirSecret.populateDecoder decoder documents, Answered submission)
    (keepsOwner : ∀ submission ∈ transitions ShamirSecret.populateDecoder decoder documents,
      KeepsOwner submission) :
    ∃ records,
      List.Forall₂ Reads (acceptedDocuments (transitions ShamirSecret.populateDecoder decoder documents)) records ∧
      Together name owner records (run ShamirSecret.populateDecoder decoder documents) := by
  have start : Together name owner [] decoder := by
    obtain ⟨_, _, rfl⟩ := ShamirSecret.init_eq_ok.mp constructed
    exact
      { keys := rfl
        blank := fun _ => ⟨rfl, rfl⟩
        adopted := by simp
        identity := .nil
        name := by simp
        owner := by simp
        sameLength := by simp
        inRange := by simp
        apart := .nil }
  refine (@invariant_of_history _ _ _ ShamirSecret.populateDecoder
    (fun history decoder => ∃ records, List.Forall₂ Reads (acceptedDocuments history) records ∧
      Together name owner records decoder)
    (fun submission => Answered submission ∧ KeepsOwner submission) [] decoder documents ?_ ⟨[], .nil, start⟩
    fun submission member => ⟨answered submission member, keepsOwner submission member⟩).2
  intro history submission allowed invariant stepped
  obtain ⟨before, document, output, after⟩ := submission
  obtain ⟨records, reads, together⟩ := invariant
  dsimp only at stepped together
  cases allowed.1 with
  | inl accepted =>
    obtain ⟨needed, ok⟩ := accepted
    dsimp only at ok
    subst ok
    obtain ⟨record, read, admits, _, rfl⟩ := (before.populateDecoder_eq_ok document needed after).mp stepped
    refine ⟨records ++ [record], ?_, together.accepting admits ?_⟩
    · rw [acceptedDocuments, List.filterMap_append]
      exact List.rel_append reads (.cons read .nil)
    · intro occupied
      cases outcome : before.checkSubmission document with
      | error refusal =>
        rw [ShamirSecret.populateDecoder, outcome] at stepped
        cases stepped
      | ok checked =>
        obtain ⟨value, found, same⟩ := allowed.2 occupied _ _ (ShamirSecret.checkSubmission_passes outcome)
        cases found.symm.trans read.owner
        exact same
  | inr refused =>
    obtain ⟨message, invalid⟩ := refused
    dsimp only at invalid
    subst invalid
    obtain ⟨_, rfl⟩ := ShamirSecret.populateDecoder_refused stepped
    refine ⟨records, ?_, together⟩
    rw [acceptedDocuments, List.filterMap_append]
    simpa [acceptedDocuments] using reads

/-- A share at `x` of a secret of `owner`. -/
def wifiShare (owner : String) (x : Int) : Json :=
  .dict [("keys", .list [.list [.int x, .int 5]]), ("creation_date", .str "2026-01-01T00:00:00+00:00"),
    ("owner", .str owner), ("name", .str "wifi"), ("uuid", .str "u1"), ("treshold", .int 2), ("shares", .int 3),
    ("secret_hash", .null)]

def wifiDecoder : ShamirSecret := ShamirSecret.fresh (.str "wifi") (.str "host1") 5 3 "u2"

theorem accepted_together_pair :
    ∃ records,
      List.Forall₂ Reads (acceptedDocuments (transitions ShamirSecret.populateDecoder wifiDecoder
        [wifiShare "host1" 1, wifiShare "host1" 2])) records ∧
      Together "wifi" "host1" records (run ShamirSecret.populateDecoder wifiDecoder
        [wifiShare "host1" 1, wifiShare "host1" 2]) := by
  refine accepted_together "wifi" "host1" 5 3 "u2" wifiDecoder rfl _ ?_ ?_
  · intro submission member
    simp only [transitions, List.mem_cons, List.not_mem_nil, or_false] at member
    cases member with
    | inl first =>
      subst first
      exact .inl ⟨-1, rfl⟩
    | inr second =>
      subst second
      exact .inl ⟨0, rfl⟩
  · intro submission member
    simp only [transitions, List.mem_cons, List.not_mem_nil, or_false] at member
    cases member with
    | inl first =>
      subst first
      exact fun occupied => absurd rfl occupied
    | inr second =>
      subst second
      exact fun _ _ _ _ => ⟨.str "host1", rfl, rfl⟩

/-- A decoder constructed for `host1` accepts a share of `host1` and then one that differs
from it in its owner, which becomes the owner of the decoder. -/
theorem owner_replaced :
    ShamirSecret.init (.str "wifi") (.str "host1") 5 3 "u2" = .ok wifiDecoder ∧
    (transitions ShamirSecret.populateDecoder wifiDecoder [wifiShare "host1" 1, wifiShare "host9" 2]).map
      Transition.output = [.ok (-1), .ok 0] ∧
    (wifiShare "host9" 2).getItem "owner" = .ok (.str "host9") ∧
    (run ShamirSecret.populateDecoder wifiDecoder [wifiShare "host1" 1, wifiShare "host9" 2]).owner = .str "host9" :=
  ⟨rfl, rfl, rfl, rfl⟩

end SecretWeb.Shamir
