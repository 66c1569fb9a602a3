import SecretWeb.Shamir.Decoder

/-! # What one submission does to a decoder

`populateDecoder_eq_ok` says it once: a record is accepted exactly when it reads as a
`ParticipantData` that the decoder admits, and then the decoder adopts that data.  Every
invariant of the decoder is derived from this and never unfolds `populateDecoder`. -/

namespace SecretWeb.Shamir

open SecretWeb.Data SecretWeb.Python

/-! ## Reading a record -/

/-- The JSON value spells out the record: every field is there and has the right shape. -/
structure Reads (document : Json) (record : ParticipantData) : Prop where
  treshold : ∃ value, document.getItem "treshold" = .ok value ∧ value.asInt = some record.treshold
  shares : ∃ value, document.getItem "shares" = .ok value ∧ value.asInt = some record.shares
  keys : ∃ value items, document.getItem "keys" = .ok value ∧ value.asList = some items ∧
    items.mapM asPoint = some record.keys
  creationDate : document.getItem "creation_date" = .ok record.creationDate
  owner : document.getItem "owner" = .ok record.owner
  name : document.getItem "name" = .ok record.name
  uuid : document.getItem "uuid" = .ok record.uuid
  secretHash : document.getItem "secret_hash" = .ok record.secretHash

@[simp] theorem asPoint_pointJson (point : Point) : asPoint (pointJson point) = some point := rfl

theorem mapM_asPoint_pointJson (keys : List Point) :
    (keys.map pointJson).mapM asPoint = some keys := by
  induction keys with
  | nil => rfl
  | cons key rest inductionHypothesis => simp [inductionHypothesis]

/-- A dealt record is read back as itself. -/
theorem reads_toJson (record : ParticipantData) : Reads record.toJson record where
  treshold := ⟨.int record.treshold, rfl, rfl⟩
  shares := ⟨.int record.shares, rfl, rfl⟩
  keys := ⟨.list (record.keys.map pointJson), _, rfl, rfl, mapM_asPoint_pointJson record.keys⟩
  creationDate := rfl
  owner := rfl
  name := rfl
  uuid := rfl
  secretHash := rfl

/-- A JSON value reads as one record at most. -/
theorem Reads.unique {document : Json} {left right : ParticipantData} (first : Reads document left)
    (second : Reads document right) : left = right := by
  obtain ⟨tresholdValue, tresholdRead, tresholdInt⟩ := first.treshold
  obtain ⟨tresholdValue', tresholdRead', tresholdInt'⟩ := second.treshold
  obtain ⟨sharesValue, sharesRead, sharesInt⟩ := first.shares
  obtain ⟨sharesValue', sharesRead', sharesInt'⟩ := second.shares
  obtain ⟨keysValue, items, keysRead, keysList, keysPoints⟩ := first.keys
  obtain ⟨keysValue', items', keysRead', keysList', keysPoints'⟩ := second.keys
  obtain ⟨keys, creationDate, owner, name, uuid, treshold, shares, secretHash⟩ := left
  obtain ⟨keys', creationDate', owner', name', uuid', treshold', shares', secretHash'⟩ := right
  have creationDates := first.creationDate.symm.trans second.creationDate
  have owners := first.owner.symm.trans second.owner
  have names := first.name.symm.trans second.name
  have uuids := first.uuid.symm.trans second.uuid
  have hashes := first.secretHash.symm.trans second.secretHash
  simp_all

namespace ShamirSecret

/-! ## The acceptance test -/

/-- The points of a submission, from chunk `chunkIndex` on, are in range and collide with
no accepted share. -/
def AdmitsPoints (self : ShamirSecret) (chunkIndex : Nat) (points : List Point) : Prop :=
  ∀ (offset : Nat) (point : Point), points[offset]? = some point →
    (0 < point.1 ∧ point.1 < PRIME) ∧ self.freshX (chunkIndex + offset) point.1 = true

/-- A blank decoder holds the record against the identity it was constructed with. -/
def MatchesExpected (self : ShamirSecret) (record : ParticipantData) : Prop :=
  (self.name.truthy → self.name.equals record.name) ∧
    (self.owner.truthy → self.owner.equals record.owner)

/-- A decoder that has accepted a share holds the record against what it adopted. -/
def MatchesAdopted (self : ShamirSecret) (record : ParticipantData) : Prop :=
  self.creationDate.equals record.creationDate ∧ self.uuid.equals record.uuid ∧
    self.secretHash.equals record.secretHash ∧ self.name.equals record.name ∧
    self.shares = record.shares ∧ self.treshold = record.treshold

structure Admits (decoder : ShamirSecret) (record : ParticipantData) : Prop where
  tresholdLower : 2 ≤ record.treshold
  tresholdUpper : record.treshold ≤ record.shares
  nonempty : record.keys ≠ []
  sameLength : ∀ first ∈ decoder.decodingParticipantsKeys.head?, record.keys.length = first.length
  points : decoder.AdmitsPoints 0 record.keys
  expected : decoder.decodingParticipantsKeys = [] → decoder.MatchesExpected record
  adopted : decoder.decodingParticipantsKeys ≠ [] → decoder.MatchesAdopted record

/-- The decoder after it has accepted the record. -/
def accepting (self : ShamirSecret) (record : ParticipantData) : ShamirSecret :=
  { self with
    decodingParticipantsKeys := self.decodingParticipantsKeys ++ [record.keys]
    creationDate := record.creationDate
    owner := record.owner
    name := record.name
    uuid := record.uuid
    secretHash := record.secretHash
    treshold := record.treshold
    shares := record.shares
    readyToDecode := self.readyToDecode ||
      decide (record.treshold ≤ self.decodingParticipantsKeys.length + 1) }

@[simp] theorem accepting_keys (self : ShamirSecret) (record : ParticipantData) :
    (self.accepting record).decodingParticipantsKeys =
      self.decodingParticipantsKeys ++ [record.keys] := rfl

@[simp] theorem accepting_readyToDecode (self : ShamirSecret) (record : ParticipantData) :
    (self.accepting record).readyToDecode = (self.readyToDecode ||
      decide (record.treshold ≤ self.decodingParticipantsKeys.length + 1)) := rfl

/-! ## The validation loop -/

theorem admitsPoints_nil (self : ShamirSecret) (chunkIndex : Nat) : self.AdmitsPoints chunkIndex [] := by
  intro offset point found
  simp at found

theorem admitsPoints_cons (self : ShamirSecret) (chunkIndex : Nat) (point : Point)
    (points : List Point) :
    self.AdmitsPoints chunkIndex (point :: points) ↔
      ((0 < point.1 ∧ point.1 < PRIME) ∧ self.freshX chunkIndex point.1 = true) ∧
        self.AdmitsPoints (chunkIndex + 1) points := by
  constructor
  · intro admitted
    refine ⟨by simpa using admitted 0 point rfl, ?_⟩
    intro offset other found
    have shifted := admitted (offset + 1) other (by simpa using found)
    rwa [show chunkIndex + (offset + 1) = chunkIndex + 1 + offset by omega] at shifted
  · rintro ⟨head, tail⟩ offset other found
    cases offset with
    | zero =>
      simp only [List.getElem?_cons_zero, Option.some.injEq] at found
      subst found
      simpa using head
    | succ offset =>
      have shifted := tail offset other (by simpa using found)
      rwa [show chunkIndex + 1 + offset = chunkIndex + (offset + 1) by omega] at shifted

theorem validatePoints_eq_some (self : ShamirSecret) (chunkIndex : Nat) (items : List Json)
    (points : List Point) :
    self.validatePoints chunkIndex items = some points ↔
      items.mapM asPoint = some points ∧ self.AdmitsPoints chunkIndex points := by
  induction items generalizing chunkIndex points with
  | nil =>
    simp only [validatePoints, List.mapM_nil, Option.pure_def, Option.some.injEq]
    constructor
    · rintro rfl
      exact ⟨rfl, self.admitsPoints_nil chunkIndex⟩
    · exact fun both => both.1
  | cons item rest inductionHypothesis =>
    rw [validatePoints, List.mapM_cons]
    cases asPoint item with
    | none => simp
    | some point =>
      obtain ⟨x, y⟩ := point
      simp only [Option.bind_eq_bind, Option.bind_some]
      constructor
      · intro validated
        split at validated
        · cases validated
        · rename_i inRange
          split at validated
          · cases validated
          · rename_i fresh
            simp only [Option.bind_eq_some_iff, Option.pure_def, Option.some.injEq] at validated
            obtain ⟨tail, tailValidated, rfl⟩ := validated
            obtain ⟨tailRead, tailAdmitted⟩ := (inductionHypothesis _ _).mp tailValidated
            refine ⟨by simp [tailRead], (self.admitsPoints_cons chunkIndex (x, y) tail).mpr
              ⟨⟨not_not.mp inRange, by simpa using fresh⟩, tailAdmitted⟩⟩
      · rintro ⟨read, admitted⟩
        simp only [Option.bind_eq_some_iff, Option.pure_def, Option.some.injEq] at read
        obtain ⟨tail, tailRead, rfl⟩ := read
        obtain ⟨⟨inRange, fresh⟩, tailAdmitted⟩ :=
          (self.admitsPoints_cons chunkIndex (x, y) tail).mp admitted
        have tailValidated := (inductionHypothesis _ _).mpr ⟨tailRead, tailAdmitted⟩
        simp [inRange, fresh, tailValidated]

theorem validateKeys_eq_some (self : ShamirSecret) (keys : Json) (points : List Point) :
    self.validateKeys keys = some points ↔
      ∃ items, keys.asList = some items ∧ items.mapM asPoint = some points ∧ points ≠ [] ∧
        (∀ first ∈ self.decodingParticipantsKeys.head?, points.length = first.length) ∧
        self.AdmitsPoints 0 points := by
  unfold validateKeys
  cases keys.asList with
  | none => simp
  | some items =>
    cases items with
    | nil =>
      simp only [reduceCtorEq, Option.some.injEq, exists_eq_left', List.mapM_nil, Option.pure_def,
        false_iff, not_and]
      rintro rfl nonempty
      exact absurd rfl nonempty
    | cons item rest =>
      have nonemptyOf : ∀ {points : List Point}, (item :: rest).mapM asPoint = some points →
          points ≠ [] := by
        rintro points read rfl
        simpa using length_of_mapM_eq_some read
      simp only [Option.some.injEq, exists_eq_left']
      -- the first submission sets the length for the others
      cases accepted : self.decodingParticipantsKeys with
      | nil =>
        rw [validatePoints_eq_some]
        constructor
        · rintro ⟨read, admitted⟩
          exact ⟨read, nonemptyOf read, by simp, admitted⟩
        · rintro ⟨read, _, _, admitted⟩
          exact ⟨read, admitted⟩
      | cons first others =>
        dsimp only
        split
        · rename_i different
          simp only [reduceCtorEq, false_iff]
          rintro ⟨read, _, agrees, _⟩
          exact different ((length_of_mapM_eq_some read).symm.trans (agrees first (by simp)))
        · rename_i agrees
          rw [validatePoints_eq_some]
          constructor
          · rintro ⟨read, admitted⟩
            refine ⟨read, nonemptyOf read, ?_, admitted⟩
            simp only [List.head?_cons, Option.mem_some_iff, forall_eq']
            exact (length_of_mapM_eq_some read).trans (not_not.mp agrees)
          · rintro ⟨read, _, _, admitted⟩
            exact ⟨read, admitted⟩

/-! ## The whole call -/

/-- A share that collides with no accepted one is none of them, so the `keys in` test of the
source never decides anything. -/
theorem not_mem_of_admitsPoints (self : ShamirSecret) {keys : List Point} (nonempty : keys ≠ [])
    (admitted : self.AdmitsPoints 0 keys) : keys ∉ self.decodingParticipantsKeys := by
  intro member
  obtain ⟨point, rest, rfl⟩ := List.exists_cons_of_ne_nil nonempty
  obtain ⟨_, fresh⟩ := admitted 0 point rfl
  simpa using (List.all_eq_true.mp fresh) _ member

theorem inconsistent_eq_ok_false (self : ShamirSecret) (document : Json) (record : ParticipantData)
    (owner : document.getItem "owner" = .ok record.owner)
    (name : document.getItem "name" = .ok record.name)
    (creationDate : document.getItem "creation_date" = .ok record.creationDate)
    (uuid : document.getItem "uuid" = .ok record.uuid)
    (secretHash : document.getItem "secret_hash" = .ok record.secretHash) :
    self.inconsistent document record.treshold record.shares = .ok false ↔
      (self.decodingParticipantsKeys = [] → self.MatchesExpected record) ∧
        (self.decodingParticipantsKeys ≠ [] → self.MatchesAdopted record) := by
  unfold inconsistent MatchesExpected MatchesAdopted
  cases accepted : self.decodingParticipantsKeys with
  | nil =>
    cases nameTruth : self.name.truthy <;> cases ownerTruth : self.owner.truthy <;>
      simp [name, owner, pure, Except.pure]
  | cons first others =>
    simp [creationDate, uuid, secretHash, name, pure, Except.pure, and_assoc]

theorem adopt_eq_ok (self : ShamirSecret) (document : Json) (checked : Checked) (needed : Int)
    (after : ShamirSecret) :
    self.adopt document checked = (.ok needed, after) ↔
      ∃ creationDate owner name uuid secretHash,
        document.getItem "creation_date" = .ok creationDate ∧
        document.getItem "owner" = .ok owner ∧ document.getItem "name" = .ok name ∧
        document.getItem "uuid" = .ok uuid ∧ document.getItem "secret_hash" = .ok secretHash ∧
        needed = self.decodingParticipantsKeys.length + 1 - checked.treshold ∧
        after = self.accepting
          { keys := checked.keys, creationDate := creationDate, owner := owner, name := name,
            uuid := uuid, treshold := checked.treshold, shares := checked.shares,
            secretHash := secretHash } := by
  unfold adopt
  cases document.getItem "creation_date" with
  | error exception => simp
  | ok creationDate =>
    cases document.getItem "owner" with
    | error exception => simp
    | ok owner =>
      cases document.getItem "name" with
      | error exception => simp
      | ok name =>
        cases document.getItem "uuid" with
        | error exception => simp
        | ok uuid =>
          cases document.getItem "secret_hash" with
          | error exception => simp
          | ok secretHash =>
            have count : 0 - checked.treshold +
                ((self.decodingParticipantsKeys ++ [checked.keys]).length : Int) =
                self.decodingParticipantsKeys.length + 1 - checked.treshold := by
              simp only [List.length_append, List.length_singleton, Nat.cast_add, Nat.cast_one]
              omega
            simp only [count, Prod.mk.injEq, Except.ok.injEq, exists_and_left, exists_eq_left']
            rw [@eq_comm _ _ needed, @eq_comm _ _ after]
            apply and_congr_right
            rintro rfl
            by_cases enough : checked.treshold ≤ self.decodingParticipantsKeys.length + 1
            · simp [accepting, enough]
            · simp [accepting, enough]

/-- The other way for the assignments to end: one of the fields they read is not there.  By
then the share has been appended; the treshold and the flag are still the old ones. -/
theorem adopt_raises {self after : ShamirSecret} {document : Json} {checked : Checked} {exception : PyException}
    (raised : self.adopt document checked = (.error exception, after)) :
    (∃ field ∈ ["creation_date", "owner", "name", "uuid", "secret_hash"], document.getItem field = .error exception) ∧
      after.decodingParticipantsKeys = self.decodingParticipantsKeys ++ [checked.keys] ∧
      after.readyToDecode = self.readyToDecode ∧ after.treshold = self.treshold := by
  unfold adopt at raised
  -- the keys have been appended before the first lookup
  cases creationDate : document.getItem "creation_date" with
  | error missing =>
    simp only [creationDate] at raised
    cases raised
    exact ⟨⟨"creation_date", by simp, creationDate⟩, rfl, rfl, rfl⟩
  | ok value =>
    simp only [creationDate] at raised
    cases owner : document.getItem "owner" with
    | error missing =>
      simp only [owner] at raised
      cases raised
      exact ⟨⟨"owner", by simp, owner⟩, rfl, rfl, rfl⟩
    | ok value =>
      simp only [owner] at raised
      cases name : document.getItem "name" with
      | error missing =>
        simp only [name] at raised
        cases raised
        exact ⟨⟨"name", by simp, name⟩, rfl, rfl, rfl⟩
      | ok value =>
        simp only [name] at raised
        cases uuid : document.getItem "uuid" with
        | error missing =>
          simp only [uuid] at raised
          cases raised
          exact ⟨⟨"uuid", by simp, uuid⟩, rfl, rfl, rfl⟩
        | ok value =>
          simp only [uuid] at raised
          cases secretHash : document.getItem "secret_hash" with
          | error missing =>
            simp only [secretHash] at raised
            cases raised
            exact ⟨⟨"secret_hash", by simp, secretHash⟩, rfl, rfl, rfl⟩
          | ok value =>
            simp only [secretHash] at raised
            cases raised

theorem checkSubmission_eq_ok (self : ShamirSecret) (document : Json) (checked : Checked) :
    self.checkSubmission document = .ok checked ↔
      ∃ tresholdValue sharesValue keysValue,
        document.getItem "treshold" = .ok tresholdValue ∧
        document.getItem "shares" = .ok sharesValue ∧
        document.getItem "keys" = .ok keysValue ∧
        tresholdValue.asInt = some checked.treshold ∧ sharesValue.asInt = some checked.shares ∧
        2 ≤ checked.treshold ∧ checked.treshold ≤ checked.shares ∧
        self.validateKeys keysValue = some checked.keys ∧
        self.inconsistent document checked.treshold checked.shares = .ok false ∧
        checked.keys ∉ self.decodingParticipantsKeys := by
  obtain ⟨keys, treshold, shares⟩ := checked
  unfold checkSubmission
  constructor
  · intro accepted
    simp only [bind_eq_ok] at accepted
    obtain ⟨tresholdValue, tresholdRead, sharesValue, sharesRead, keysValue, keysRead, rest⟩ :=
      accepted
    refine ⟨tresholdValue, sharesValue, keysValue, tresholdRead, sharesRead, keysRead, ?_⟩
    cases tresholdInt : tresholdValue.asInt with
    | none => simp [tresholdInt] at rest
    | some tresholdNumber =>
      cases sharesInt : sharesValue.asInt with
      | none => simp [tresholdInt, sharesInt] at rest
      | some sharesNumber =>
        simp only [tresholdInt, sharesInt] at rest
        split at rest
        · cases rest
        · rename_i inRange
          cases validated : self.validateKeys keysValue with
          | none => simp [validated] at rest
          | some points =>
            simp only [validated, bind_eq_ok] at rest
            obtain ⟨failed, consistent, rest⟩ := rest
            split at rest
            · cases rest
            · rename_i passed
              cases rest
              simp only [Bool.or_eq_true, decide_eq_true_eq, not_or, Bool.not_eq_true] at passed
              refine ⟨rfl, rfl, by dsimp only; omega, by dsimp only; omega, rfl, ?_, passed.2⟩
              rw [consistent, passed.1]
  · rintro ⟨tresholdValue, sharesValue, keysValue, tresholdRead, sharesRead, keysRead, tresholdInt,
      sharesInt, lower, upper, validated, consistent, unseen⟩
    have inRange : ¬(treshold < 2 ∨ shares < 2 ∨ treshold > shares) := by
      simp only at lower upper
      omega
    simp only [tresholdRead, sharesRead, keysRead, ok_bind, tresholdInt, sharesInt, inRange,
      ↓reduceIte, validated, consistent, unseen, decide_false, Bool.or_false, Bool.false_eq_true]

/-- The spec of `populate_decoder`: it accepts exactly the records it reads and admits, adopts
them, and returns the number of accepted shares less the treshold. -/
theorem populateDecoder_eq_ok (self : ShamirSecret) (document : Json) (needed : Int)
    (after : ShamirSecret) :
    self.populateDecoder document = (.ok needed, after) ↔
      ∃ record, Reads document record ∧ self.Admits record ∧
        needed = self.decodingParticipantsKeys.length + 1 - record.treshold ∧
        after = self.accepting record := by
  unfold populateDecoder
  constructor
  · intro accepted
    cases checkedResult : self.checkSubmission document with
    | error exception => simp [checkedResult] at accepted
    | ok checked =>
      simp only [checkedResult] at accepted
      obtain ⟨tresholdValue, sharesValue, keysValue, tresholdRead, sharesRead, keysRead,
        tresholdInt, sharesInt, lower, upper, validated, consistent, _⟩ :=
        (self.checkSubmission_eq_ok document checked).mp checkedResult
      obtain ⟨creationDate, owner, name, uuid, secretHash, creationDateRead, ownerRead, nameRead,
        uuidRead, secretHashRead, count, adopted⟩ :=
        (self.adopt_eq_ok document checked needed after).mp accepted
      obtain ⟨items, itemsRead, pointsRead, nonempty, sameLength, points⟩ :=
        (self.validateKeys_eq_some keysValue checked.keys).mp validated
      obtain ⟨expected, matching⟩ := (self.inconsistent_eq_ok_false document
        { keys := checked.keys, creationDate := creationDate, owner := owner, name := name,
          uuid := uuid, treshold := checked.treshold, shares := checked.shares,
          secretHash := secretHash }
        ownerRead nameRead creationDateRead uuidRead secretHashRead).mp consistent
      exact ⟨_,
        { treshold := ⟨tresholdValue, tresholdRead, tresholdInt⟩
          shares := ⟨sharesValue, sharesRead, sharesInt⟩
          keys := ⟨keysValue, items, keysRead, itemsRead, pointsRead⟩
          creationDate := creationDateRead
          owner := ownerRead
          name := nameRead
          uuid := uuidRead
          secretHash := secretHashRead },
        { tresholdLower := lower
          tresholdUpper := upper
          nonempty := nonempty
          sameLength := sameLength
          points := points
          expected := expected
          adopted := matching },
        count, adopted⟩
  · rintro ⟨record, read, admitted, rfl, rfl⟩
    obtain ⟨tresholdValue, tresholdRead, tresholdInt⟩ := read.treshold
    obtain ⟨sharesValue, sharesRead, sharesInt⟩ := read.shares
    obtain ⟨keysValue, items, keysRead, itemsRead, pointsRead⟩ := read.keys
    have validated := (self.validateKeys_eq_some keysValue record.keys).mpr
      ⟨items, itemsRead, pointsRead, admitted.nonempty, admitted.sameLength, admitted.points⟩
    have consistent := (self.inconsistent_eq_ok_false document record read.owner read.name
      read.creationDate read.uuid read.secretHash).mpr ⟨admitted.expected, admitted.adopted⟩
    have checked := (self.checkSubmission_eq_ok document
      { keys := record.keys, treshold := record.treshold, shares := record.shares }).mpr
      ⟨tresholdValue, sharesValue, keysValue, tresholdRead, sharesRead, keysRead, tresholdInt,
        sharesInt, admitted.tresholdLower, admitted.tresholdUpper, validated, consistent,
        self.not_mem_of_admitsPoints admitted.nonempty admitted.points⟩
    rw [checked]
    exact (self.adopt_eq_ok document _ _ _).mpr
      ⟨record.creationDate, record.owner, record.name, record.uuid, record.secretHash,
        read.creationDate, read.owner, read.name, read.uuid, read.secretHash, rfl, rfl⟩

/-- A refused submission leaves the decoder as it was: what raises `InvalidShareError`
comes before the first assignment. -/
theorem populateDecoder_refused {self after : ShamirSecret} {document : Json} {message : String}
    (refused : self.populateDecoder document = (.error (.invalidShareError message), after)) :
    self.checkSubmission document = .error (.invalidShareError message) ∧ after = self := by
  unfold populateDecoder at refused
  cases outcome : self.checkSubmission document with
  | error exception =>
    rw [outcome] at refused
    cases refused
    exact ⟨rfl, rfl⟩
  | ok checked =>
    rw [outcome] at refused
    obtain ⟨⟨field, _, missing⟩, _⟩ := adopt_raises refused
    rcases Json.getItem_eq_error missing with impossible | impossible
    · cases impossible
    · cases impossible

/-- Where every field is there, the consistency test does not raise. -/
theorem inconsistent_ok (self : ShamirSecret) {document : Json} {record : ParticipantData}
    (reads : Reads document record) (treshold shares : Int) :
    ∃ failed, self.inconsistent document treshold shares = .ok failed := by
  unfold inconsistent
  rw [reads.name, reads.owner, reads.creationDate, reads.uuid, reads.secretHash]
  by_cases blank : self.decodingParticipantsKeys.isEmpty = true
  · rw [if_pos blank]
    cases self.name.truthy with
    | true =>
      cases self.owner.truthy with
      | true => exact ⟨_, rfl⟩
      | false => exact ⟨_, rfl⟩
    | false =>
      cases self.owner.truthy with
      | true => exact ⟨_, rfl⟩
      | false => exact ⟨_, rfl⟩
  · rw [if_neg blank]
    exact ⟨_, rfl⟩

/-- A complete record that is not admitted is refused with `InvalidShareError`. -/
theorem checkSubmission_refuses (self : ShamirSecret) {document : Json} {record : ParticipantData}
    (reads : Reads document record) (refused : ¬self.Admits record) :
    ∃ message, self.checkSubmission document = .error (.invalidShareError message) := by
  cases outcome : self.checkSubmission document with
  | ok checked =>
    have populated : self.populateDecoder document = self.adopt document checked := by
      rw [populateDecoder, outcome]
    have adopted := (self.adopt_eq_ok document checked _ _).mpr ⟨record.creationDate, record.owner, record.name,
      record.uuid, record.secretHash, reads.creationDate, reads.owner, reads.name, reads.uuid, reads.secretHash,
      rfl, rfl⟩
    obtain ⟨read, isRead, admitted, _⟩ := (self.populateDecoder_eq_ok document _ _).mp (populated.trans adopted)
    exact absurd (isRead.unique reads ▸ admitted) refused
  | error exception =>
    obtain ⟨tresholdValue, tresholdRead, tresholdInt⟩ := reads.treshold
    obtain ⟨sharesValue, sharesRead, sharesInt⟩ := reads.shares
    obtain ⟨keysValue, items, keysRead, _, _⟩ := reads.keys
    obtain ⟨failed, consistent⟩ := self.inconsistent_ok reads record.treshold record.shares
    unfold checkSubmission at outcome
    simp only [tresholdRead, sharesRead, keysRead, ok_bind, tresholdInt, sharesInt] at outcome
    split at outcome
    · cases outcome
      exact ⟨_, rfl⟩
    · split at outcome
      · cases outcome
        exact ⟨_, rfl⟩
      · rw [consistent, ok_bind] at outcome
        split at outcome
        · cases outcome
          exact ⟨_, rfl⟩
        · cases outcome
end ShamirSecret

end SecretWeb.Shamir
