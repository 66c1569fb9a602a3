import SecretWeb.Shamir.Quorum
import SecretWeb.Shamir.Submissions

/-! # What is ready decodes

`populate_decoder` lets in only shares that can be combined, so `decode` has two endings on
an object that is fed by nothing else.  The flag in front of `decode` belongs to the dealer's
side of the class as well; the second half follows it through every operation. -/

namespace SecretWeb.Shamir

open SecretWeb.Data SecretWeb.Python SecretWeb.Machine

/-! ## Shares that combine -/

/-- One point for each chunk, in range, and no x-coordinate twice in a chunk. -/
structure Combinable (accepted : List (List Point)) : Prop where
  nonempty : ∀ keys ∈ accepted, keys ≠ []
  sameLength : ∀ left ∈ accepted, ∀ right ∈ accepted, left.length = right.length
  inRange : ∀ keys ∈ accepted, ∀ point ∈ keys, 0 < point.1 ∧ point.1 < PRIME
  apart : accepted.Pairwise fun left right => ¬Collide left right

theorem combinable_nil : Combinable [] where
  nonempty := by simp
  sameLength := by simp
  inRange := by simp
  apart := List.Pairwise.nil

/-- A share that `_validate_keys` returns `True` for. -/
structure ShamirSecret.Fits (decoder : ShamirSecret) (keys : List Point) : Prop where
  nonempty : keys ≠ []
  sameLength : ∀ first ∈ decoder.decodingParticipantsKeys.head?, keys.length = first.length
  points : decoder.AdmitsPoints 0 keys

theorem ShamirSecret.Admits.fits {self : ShamirSecret} {record : ParticipantData} (admits : self.Admits record) :
    self.Fits record.keys :=
  ⟨admits.nonempty, admits.sameLength, admits.points⟩

theorem Combinable.append {self : ShamirSecret} {keys : List Point}
    (combinable : Combinable self.decodingParticipantsKeys) (fits : self.Fits keys) :
    Combinable (self.decodingParticipantsKeys ++ [keys]) where
  nonempty := by
    intro share member
    cases List.mem_append.mp member with
    | inl earlier => exact combinable.nonempty share earlier
    | inr last =>
      rw [List.mem_singleton.mp last]
      exact fits.nonempty
  sameLength := by
    have agrees : ∀ earlier ∈ self.decodingParticipantsKeys, earlier.length = keys.length := by
      intro earlier member
      obtain ⟨first, rest, shape⟩ := List.exists_cons_of_ne_nil (List.ne_nil_of_mem member)
      have firstLength := fits.sameLength first (by simp [shape])
      exact (combinable.sameLength earlier member first (by simp [shape])).trans firstLength.symm
    intro left leftMember right rightMember
    cases List.mem_append.mp leftMember with
    | inl leftEarlier =>
      cases List.mem_append.mp rightMember with
      | inl rightEarlier => exact combinable.sameLength left leftEarlier right rightEarlier
      | inr rightLast =>
        rw [List.mem_singleton.mp rightLast]
        exact agrees left leftEarlier
    | inr leftLast =>
      rw [List.mem_singleton.mp leftLast]
      cases List.mem_append.mp rightMember with
      | inl rightEarlier => exact (agrees right rightEarlier).symm
      | inr rightLast => rw [List.mem_singleton.mp rightLast]
  inRange := by
    intro share member
    cases List.mem_append.mp member with
    | inl earlier => exact combinable.inRange share earlier
    | inr last =>
      rw [List.mem_singleton.mp last]
      intro point pointMember
      obtain ⟨offset, found⟩ := List.mem_iff_getElem?.mp pointMember
      exact (fits.points offset point found).1
  apart := by
    refine List.pairwise_append.mpr ⟨combinable.apart, List.pairwise_singleton _ _, ?_⟩
    intro earlier member last lastMember
    rw [List.mem_singleton.mp lastMember]
    exact self.not_collide_of_admitsPoints fits.points earlier member

/-- The points of one chunk, as `decode` collects them. -/
theorem Combinable.points {accepted : List (List Point)} (combinable : Combinable accepted) {first : List Point}
    (member : first ∈ accepted) {keyInd : Nat} (inside : keyInd < first.length) :
    ∃ points, ShamirSecret.encryptedInts accepted keyInd = .ok points ∧ points.length = accepted.length ∧
      Function.Injective (nodes points) := by
  have present : ∀ keys ∈ accepted, keyInd < keys.length := fun keys keysMember =>
    (combinable.sameLength first member keys keysMember) ▸ inside
  have pointOf : ∀ keys ∈ accepted, ∃ point ∈ keys, keys[keyInd]? = some point := fun keys keysMember =>
    ⟨_, List.getElem_mem (present keys keysMember), List.getElem?_eq_getElem (present keys keysMember)⟩
  refine ⟨_, encryptedInts_ok accepted keyInd present, List.length_map _, nodes_injective ?_ ?_⟩
  · rw [List.map_map]
    refine List.pairwise_map.mpr (combinable.apart.imp_of_mem ?_)
    intro left right leftMember rightMember apart same
    obtain ⟨leftPoint, _, leftFound⟩ := pointOf left leftMember
    obtain ⟨rightPoint, _, rightFound⟩ := pointOf right rightMember
    simp only [Function.comp_apply, leftFound, rightFound, Option.getD_some] at same
    exact apart ⟨keyInd, leftPoint, rightPoint, leftFound, rightFound, same⟩
  · intro point pointMember
    obtain ⟨keys, keysMember, rfl⟩ := List.mem_map.mp pointMember
    obtain ⟨own, ownMember, found⟩ := pointOf keys keysMember
    rw [found]
    exact combinable.inRange keys keysMember own ownMember

/-- Every denominator of a chunk can be inverted: the handler for colliding x-coordinates is
never entered. -/
theorem powInverse_of_injective {points : List Point} (distinct : Function.Injective (nodes points)) {index : Nat}
    {point : Point} (found : points[index]? = some point) :
    ∃ inverse, powInverse (lagrangeTerms points index point.1).2 PRIME = .ok inverse := by
  obtain ⟨inside, rfl⟩ := List.getElem?_eq_some_iff.mp found
  obtain ⟨total, added, _⟩ := addTerm_ok points distinct 0 ⟨index, inside⟩
  cases outcome : powInverse (lagrangeTerms points index points[index].1).2 PRIME with
  | ok inverse => exact ⟨inverse, rfl⟩
  | error exception =>
    simp only [addTerm, Fin.getElem_fin, outcome] at added
    cases added

theorem Combinable.decryptedInts {accepted : List (List Point)} (combinable : Combinable accepted)
    {first : List Point} (member : first ∈ accepted) :
    ∃ integers, ShamirSecret.decryptedInts accepted first.length = .ok integers ∧ integers.length = first.length ∧
      ∀ integer ∈ integers, 0 ≤ integer ∧ integer < PRIME := by
  have chunkwise : ∀ keyInd ∈ List.range first.length, ∃ integer : Int,
      (do
        let thisPartsEncryptedInts ← ShamirSecret.encryptedInts accepted keyInd
        reconstructSecret thisPartsEncryptedInts) = .ok integer ∧ 0 ≤ integer ∧ integer < PRIME := by
    intro keyInd inside
    obtain ⟨points, collected, _, distinct⟩ := combinable.points member (List.mem_range.mp inside)
    obtain ⟨integer, combined, nonneg, bounded, _⟩ := reconstructSecret_ok points distinct
    refine ⟨integer, ?_, nonneg, bounded⟩
    rw [collected, ok_bind, combined]
  obtain ⟨integers, computed, length, good⟩ := mapM_exists_ok (List.range first.length) chunkwise
  exact ⟨integers, computed, by rw [length, List.length_range], good⟩

/-! ## What becomes of the integers -/

/-- A string, or the exception that `decode` announces. -/
def Decodes (result : Except PyException String) : Prop :=
  (∃ text, result = .ok text) ∨ ∃ message, result = .error (.shareReconstructionError message)

theorem checkedResult_decodes (sha256 : Bytes → String) (self : ShamirSecret) {integers : List Int}
    (nonempty : integers ≠ []) : Decodes (self.checkedResult sha256 integers) := by
  obtain ⟨byteLength, rest, rfl⟩ := List.exists_cons_of_ne_nil nonempty
  unfold ShamirSecret.checkedResult
  cases outcome : integerListToString (byteLength :: rest) self.bytesPerInteger with
  | error exception =>
    cases integerListToString_error outcome with
    | inl overflow =>
      subst overflow
      exact .inr ⟨_, rfl⟩
    | inr undecodable =>
      subst undecodable
      exact .inr ⟨_, rfl⟩
  | ok result =>
    dsimp only
    split
    · exact .inr ⟨_, rfl⟩
    · exact .inl ⟨_, rfl⟩

theorem Combinable.decodes (sha256 : Bytes → String) {object : ShamirSecret}
    (combinable : Combinable object.decodingParticipantsKeys)
    (started : object.readyToDecode = true → object.decodingParticipantsKeys ≠ []) :
    Decodes (object.decode sha256) := by
  unfold ShamirSecret.decode
  cases ready : object.readyToDecode with
  | false => exact .inl ⟨"", rfl⟩
  | true =>
    obtain ⟨first, rest, shape⟩ := List.exists_cons_of_ne_nil (started ready)
    have member : first ∈ object.decodingParticipantsKeys := by simp [shape]
    obtain ⟨integers, decrypted, length, _⟩ := combinable.decryptedInts member
    have someInteger : integers ≠ [] := by
      intro none
      rw [none] at length
      exact combinable.nonempty first member (List.eq_nil_of_length_eq_zero length.symm)
    rw [shape] at decrypted ⊢
    simp only [Bool.not_true, Bool.false_eq_true, ↓reduceIte, decrypted, ok_bind]
    exact checkedResult_decodes sha256 object someInteger

/-! ## One submission -/

namespace ShamirSecret

/-- What a call of `populate_decoder` can come to.  `broken` is a record that gets past the
checks without the fields that are read after them. -/
inductive Submission (decoder : ShamirSecret) : Except PyException Int → ShamirSecret → Prop where
  | refused (exception : PyException) : Submission decoder (.error exception) decoder
  | broken (exception : PyException) (after : ShamirSecret) (keys : List Point) (fits : decoder.Fits keys)
      (appended : after.decodingParticipantsKeys = decoder.decodingParticipantsKeys ++ [keys])
      (ready : after.readyToDecode = decoder.readyToDecode) (treshold : after.treshold = decoder.treshold) :
      Submission decoder (.error exception) after
  | accepted (needed : Int) (record : ParticipantData) (admits : decoder.Admits record) :
      Submission decoder (.ok needed) (decoder.accepting record)

theorem populateDecoder_submission (self : ShamirSecret) (document : Json) :
    self.Submission (self.populateDecoder document).1 (self.populateDecoder document).2 := by
  cases outcome : self.populateDecoder document with
  | mk result after =>
    cases result with
    | ok needed =>
      obtain ⟨record, _, admits, _, rfl⟩ := (self.populateDecoder_eq_ok document needed after).mp outcome
      exact .accepted needed record admits
    | error exception =>
      unfold populateDecoder at outcome
      cases checks : self.checkSubmission document with
      | error refusal =>
        rw [checks] at outcome
        cases outcome
        exact .refused exception
      | ok checked =>
        rw [checks] at outcome
        obtain ⟨_, appended, ready, treshold⟩ := adopt_raises outcome
        obtain ⟨_, _, keysValue, _, _, _, _, _, _, _, validated, _⟩ :=
          (self.checkSubmission_eq_ok document checked).mp checks
        obtain ⟨_, _, _, nonempty, sameLength, points⟩ := (self.validateKeys_eq_some keysValue checked.keys).mp validated
        exact .broken exception after checked.keys ⟨nonempty, sameLength, points⟩ appended ready treshold

end ShamirSecret

/-! ## The flag -/

/-- The shares combine, and there are enough of them where the flag is up, unless
`create_secret` has put it up. -/
structure Sound (created : Bool) (object : ShamirSecret) : Prop where
  combinable : Combinable object.decodingParticipantsKeys
  lower : 2 ≤ object.treshold
  ready : object.readyToDecode = true → created = false → object.treshold ≤ object.decodingParticipantsKeys.length

theorem sound_fresh (created : Bool) (name owner : Json) {shares treshold : Int} (uuid4 : String)
    (lower : 2 ≤ treshold) : Sound created (ShamirSecret.fresh name owner shares treshold uuid4) where
  combinable := combinable_nil
  lower := lower
  ready := fun ready => by cases ready

theorem Sound.submission {created : Bool} {object after : ShamirSecret} {result : Except PyException Int}
    (sound : Sound created object) (submission : object.Submission result after) : Sound created after := by
  cases submission with
  | refused exception => exact sound
  | broken exception after keys fits appended ready treshold =>
    refine ⟨by rw [appended]; exact sound.combinable.append fits, by rw [treshold]; exact sound.lower, ?_⟩
    rw [ready, treshold, appended]
    intro up untouched
    have enough := sound.ready up untouched
    rw [List.length_append, List.length_singleton]
    omega
  | accepted needed record admits =>
    refine ⟨sound.combinable.append admits.fits, admits.tresholdLower, fun up untouched => ?_⟩
    rw [ShamirSecret.accepting_readyToDecode, Bool.or_eq_true, decide_eq_true_iff] at up
    rw [ShamirSecret.accepting_keys, List.length_append, List.length_singleton]
    show record.treshold ≤ _
    cases up with
    | inr enough => exact_mod_cast enough
    | inl before =>
      -- the flag was up, so shares were there and the record agrees with them on the treshold
      have enough := sound.ready before untouched
      have lower := sound.lower
      have occupied : object.decodingParticipantsKeys ≠ [] := by
        intro blank
        rw [blank, List.length_nil] at enough
        omega
      have same : object.treshold = record.treshold := (admits.adopted occupied).2.2.2.2.2
      omega

theorem Sound.started {object : ShamirSecret} (sound : Sound false object) (ready : object.readyToDecode = true) :
    object.decodingParticipantsKeys ≠ [] := by
  intro blank
  have enough := sound.ready ready rfl
  have lower := sound.lower
  rw [blank, List.length_nil] at enough
  omega

/-! ## A decoder that is only fed -/

/-- Whatever has been submitted to a decoder, and whatever came of it: once it is ready, every
chunk interpolates to a reduced integer without a denominator that has no inverse, and `decode`
returns a string or raises `ShareReconstructionError`. -/
theorem decode_of_submissions (sha256 : Bytes → String) (name owner : Json) (shares treshold : Int) (uuid4 : String)
    (decoder : ShamirSecret) (constructed : ShamirSecret.init name owner shares treshold uuid4 = .ok decoder)
    (submissions : List Json)
    (ready : (run ShamirSecret.populateDecoder decoder submissions).readyToDecode = true) :
    let object := run ShamirSecret.populateDecoder decoder submissions
    (∃ first rest, object.decodingParticipantsKeys = first :: rest ∧
      (∀ keyInd < first.length, ∃ points, ShamirSecret.encryptedInts object.decodingParticipantsKeys keyInd = .ok points ∧
        ∀ index point, points[index]? = some point →
          ∃ inverse, powInverse (lagrangeTerms points index point.1).2 PRIME = .ok inverse) ∧
      ∃ integers, ShamirSecret.decryptedInts object.decodingParticipantsKeys first.length = .ok integers ∧
        ∀ integer ∈ integers, 0 ≤ integer ∧ integer < PRIME) ∧
    ((∃ text, object.decode sha256 = .ok text) ∨
      ∃ message, object.decode sha256 = .error (.shareReconstructionError message)) := by
  intro object
  obtain ⟨lower, _, rfl⟩ := ShamirSecret.init_eq_ok.mp constructed
  have sound : Sound false object := by
    refine (@invariant_of_steps _ _ _ ShamirSecret.populateDecoder (Sound false) (fun _ => True) _ submissions ?_
      (sound_fresh false name owner uuid4 lower) fun _ _ => trivial).2
    intro transition _ sound stepped
    have submission := transition.before.populateDecoder_submission transition.input
    rw [stepped] at submission
    exact sound.submission submission
  have started := sound.started ready
  obtain ⟨first, rest, shape⟩ := List.exists_cons_of_ne_nil started
  have member : first ∈ object.decodingParticipantsKeys := by simp [shape]
  refine ⟨⟨first, rest, shape, fun keyInd inside => ?_, ?_⟩, sound.combinable.decodes sha256 fun _ => started⟩
  · obtain ⟨points, collected, _, distinct⟩ := sound.combinable.points member inside
    exact ⟨points, collected, fun index point found => powInverse_of_injective distinct found⟩
  · obtain ⟨integers, decrypted, _, reduced⟩ := sound.combinable.decryptedInts member
    exact ⟨integers, decrypted, reduced⟩

/-- Two shares, an accepted checksum of `None`, and y-coordinates of 5: no valid length code. -/
theorem decode_of_submissions_pair :
    (∃ text, (run ShamirSecret.populateDecoder wifiDecoder [wifiShare "host1" 1, wifiShare "host1" 2]).decode
        sampleSha256 = .ok text) ∨
      ∃ message, (run ShamirSecret.populateDecoder wifiDecoder [wifiShare "host1" 1, wifiShare "host1" 2]).decode
        sampleSha256 = .error (.shareReconstructionError message) :=
  (decode_of_submissions sampleSha256 (.str "wifi") (.str "host1") 5 3 "u2" wifiDecoder rfl
    [wifiShare "host1" 1, wifiShare "host1" 2] rfl).2

/-! ## Dealer and decoder in one object -/

/-- `__exit__` runs the constructor again, with its defaults. -/
def ShamirSecret.exit (uuid4 : String) : ShamirSecret := .fresh (.str "") (.str "") 5 3 uuid4

theorem ShamirSecret.init_exit (uuid4 : String) : init (.str "") (.str "") 5 3 uuid4 = .ok (exit uuid4) := rfl

inductive Operation where
  | createSecret (secretRaw now : String) (draws : List ChunkDraws)
  | iterateParticipants
  | populateDecoder (participantData : Json)
  | decode
  | exit (uuid4 : String)

inductive Outcome where
  | created (result : Except PyException Unit)
  /-- The tape has ended inside `create_secret`. -/
  | drawing
  | yielded (result : Except PyException (List ParticipantData))
  | populated (result : Except PyException Int)
  | decoded (result : Except PyException String)
  | exited

def perform (sha256 : Bytes → String) (object : ShamirSecret) : Operation → Outcome × ShamirSecret
  | .createSecret secretRaw now draws =>
    match object.createSecret sha256 secretRaw now draws with
    | .error exception => (.created (.error exception), object)
    | .ok none => (.drawing, object)
    | .ok (some after) => (.created (.ok ()), after)
  | .iterateParticipants => (.yielded object.iterateParticipants, object)
  | .populateDecoder participantData =>
    match object.populateDecoder participantData with
    | (result, after) => (.populated result, after)
  | .decode => (.decoded (object.decode sha256), object)
  | .exit uuid4 => (.exited, .exit uuid4)

/-- What has been done to an object since it was constructed or last left as a context: whether
a `create_secret` has returned, and how many calls of `populate_decoder` have. -/
structure Tally where
  created : Bool
  accepted : Nat

def Tally.after (tally : Tally) : Outcome → Tally
  | .created (.ok _) => { tally with created := true }
  | .populated (.ok _) => { tally with accepted := tally.accepted + 1 }
  | .exited => ⟨false, 0⟩
  | _ => tally

def tally (history : List (Transition ShamirSecret Operation Outcome)) : Tally :=
  history.foldl (fun tally transition => tally.after transition.output) ⟨false, 0⟩

theorem tally_append (history : List (Transition ShamirSecret Operation Outcome))
    (transition : Transition ShamirSecret Operation Outcome) :
    tally (history ++ [transition]) = (tally history).after transition.output := by
  simp only [tally, List.foldl_append, List.foldl_cons, List.foldl_nil]

section Objects

variable {sha256 : Bytes → String}

theorem createSecret_decoder {self after : ShamirSecret} {secretRaw now : String} {draws : List ChunkDraws}
    (created : self.createSecret sha256 secretRaw now draws = .ok (some after)) :
    after.decodingParticipantsKeys = self.decodingParticipantsKeys ∧ after.treshold = self.treshold := by
  obtain ⟨_, rows, _, rfl⟩ := createSecret_eq_ok sha256 created
  exact ⟨rfl, rfl⟩

/-- The step lemma. -/
theorem Sound.perform {tally : Tally} {object : ShamirSecret} (sound : Sound tally.created object)
    (operation : Operation) :
    Sound (tally.after (perform sha256 object operation).1).created (Shamir.perform sha256 object operation).2 := by
  cases operation with
  | createSecret secretRaw now draws =>
    rw [Shamir.perform]
    cases outcome : object.createSecret sha256 secretRaw now draws with
    | error exception => exact sound
    | ok finished =>
      cases finished with
      | none => exact sound
      | some after =>
        obtain ⟨keys, treshold⟩ := createSecret_decoder outcome
        exact ⟨by rw [keys]; exact sound.combinable, by rw [treshold]; exact sound.lower,
          fun _ untouched => by cases untouched⟩
  | iterateParticipants => exact sound
  | populateDecoder participantData =>
    have submission := object.populateDecoder_submission participantData
    have after := sound.submission submission
    show Sound (tally.after (.populated (object.populateDecoder participantData).1)).created _
    cases outcome : (object.populateDecoder participantData).1 with
    | ok needed => exact after
    | error exception => exact after
  | decode => exact sound
  | exit uuid4 => exact sound_fresh false _ _ uuid4 (by decide)

/-- A call of `populate_decoder` that has raised has left the object as it was. -/
def Clean (transition : Transition ShamirSecret Operation Outcome) : Prop :=
  ∀ exception, transition.output = .populated (.error exception) → transition.after = transition.before

theorem length_perform {tally : Tally} {object : ShamirSecret}
    (counted : object.decodingParticipantsKeys.length = tally.accepted) (operation : Operation)
    (clean : ∀ exception, (perform sha256 object operation).1 = .populated (.error exception) →
      (perform sha256 object operation).2 = object) :
    (perform sha256 object operation).2.decodingParticipantsKeys.length =
      (tally.after (perform sha256 object operation).1).accepted := by
  cases operation with
  | createSecret secretRaw now draws =>
    rw [perform]
    cases outcome : object.createSecret sha256 secretRaw now draws with
    | error exception => exact counted
    | ok finished =>
      cases finished with
      | none => exact counted
      | some after =>
        show after.decodingParticipantsKeys.length = tally.accepted
        rw [(createSecret_decoder outcome).1]
        exact counted
  | iterateParticipants => exact counted
  | populateDecoder participantData =>
    have submission := object.populateDecoder_submission participantData
    cases outcome : object.populateDecoder participantData with
    | mk result after =>
      rw [outcome] at submission
      simp only [perform, outcome] at clean ⊢
      cases result with
      | error exception =>
        rw [clean exception rfl]
        exact counted
      | ok needed =>
        cases submission with
        | accepted needed record admits =>
          show (object.decodingParticipantsKeys ++ [record.keys]).length = tally.accepted + 1
          rw [List.length_append, List.length_singleton, counted]
  | decode => exact counted
  | exit uuid4 => rfl

end Objects

/-- A dealer that has dealt is ready without a share, and its `decode` looks for the first one. -/
theorem dealer_is_ready :
    ShamirSecret.init (.str "wifi") (.str "host1") 2 2 "u1" = .ok (.fresh (.str "wifi") (.str "host1") 2 2 "u1") ∧
    let reached := run (perform sampleSha256) (.fresh (.str "wifi") (.str "host1") 2 2 "u1")
      [.createSecret "" "2026-01-01T00:00:00+00:00" [⟨[5], [0, 1]⟩]]
    reached.readyToDecode = true ∧ reached.treshold = 2 ∧ reached.decodingParticipantsKeys = [] ∧
      reached.decode sampleSha256 = .error .indexError :=
  ⟨rfl, rfl, rfl, rfl, rfl⟩

/-- In every state that any operations on a constructed object lead to.  Where the flag is up,
`create_secret` has put it there, or the treshold is met; an object on which `create_secret` has
not returned decodes without an empty share list or too few points; and the shares in the list
are those of the calls that have returned, unless a call has raised after its checks. -/
theorem ready_sound (sha256 : Bytes → String) (name owner : Json) (shares treshold : Int) (uuid4 : String)
    (object : ShamirSecret) (constructed : ShamirSecret.init name owner shares treshold uuid4 = .ok object)
    (operations : List Operation) :
    let reached := run (perform sha256) object operations
    let history := transitions (perform sha256) object operations
    (reached.readyToDecode = true →
      (tally history).created = true ∨ reached.treshold ≤ reached.decodingParticipantsKeys.length) ∧
    ((tally history).created = false →
      Decodes (reached.decode sha256) ∧
      (reached.readyToDecode = true → reached.decodingParticipantsKeys ≠ [] ∧
        ∀ keyInd points, ShamirSecret.encryptedInts reached.decodingParticipantsKeys keyInd = .ok points →
          reached.treshold ≤ points.length)) ∧
    ((∀ transition ∈ history, Clean transition) →
      reached.decodingParticipantsKeys.length = (tally history).accepted) := by
  intro reached history
  obtain ⟨lower, _, rfl⟩ := ShamirSecret.init_eq_ok.mp constructed
  -- the tally says whether a secret has been created, which makes ready without any keys
  have sound : Sound (tally history).created reached := by
    refine (@invariant_of_history _ _ _ (perform sha256) (fun history object => Sound (tally history).created object)
      (fun _ => True) [] _ operations ?_ (sound_fresh false name owner uuid4 lower) fun _ _ => trivial).2
    intro history transition _ sound stepped
    rw [tally_append]
    have after := @Sound.perform sha256 _ _ sound transition.input
    rwa [stepped] at after
  refine ⟨fun ready => ?_, fun untouched => ?_, fun clean => ?_⟩
  · cases created : (tally history).created with
    | true => exact .inl rfl
    | false => exact .inr (sound.ready ready created)
  · rw [untouched] at sound
    refine ⟨sound.combinable.decodes sha256 sound.started, fun ready => ⟨sound.started ready, ?_⟩⟩
    intro keyInd points collected
    rw [length_of_mapM_eq_ok collected]
    exact sound.ready ready rfl
  · refine (@invariant_of_history _ _ _ (perform sha256)
      (fun history object => object.decodingParticipantsKeys.length = (tally history).accepted) Clean [] _ operations ?_
      rfl clean).2
    intro history transition clean counted stepped
    rw [tally_append]
    have after := @length_perform sha256 _ _ counted transition.input
    rw [stepped] at after
    exact after clean

/-- A share, an exit, and then two shares. -/
theorem ready_sound_again :
    let reached := run (perform sampleSha256) wifiDecoder [.populateDecoder (wifiShare "host1" 1), .exit "u3",
      .populateDecoder (wifiShare "host1" 1), .populateDecoder (wifiShare "host1" 2)]
    reached.treshold ≤ reached.decodingParticipantsKeys.length := by
  have sound := ready_sound sampleSha256 (.str "wifi") (.str "host1") 5 3 "u2" wifiDecoder rfl
    [.populateDecoder (wifiShare "host1" 1), .exit "u3", .populateDecoder (wifiShare "host1" 1),
      .populateDecoder (wifiShare "host1" 2)]
  exact (sound.1 rfl).resolve_left (by decide)

end SecretWeb.Shamir
