import SecretWeb.Server.RouteSpecs

/-! # Whatever the body

A posted body is any JSON value, and nested as deep as one likes.  The two routes turn down most
of what they cannot use, but each catches only the exceptions its author has thought of. -/

namespace SecretWeb.Shamir.ShamirSecret

open SecretWeb.Python

/-- What `store_share` catches. -/
def Malformed (exception : PyException) : Prop :=
  (∃ key, exception = .keyError key) ∨ ∃ message, exception = .invalidShareError message

/-! ## What a decoder raises -/

theorem getItem_malformed (entries : Dict Json) (key : String) :
    Ensures Malformed (fun _ => True) ((Json.dict entries).getItem key) :=
  (Json.getItem_dict_raises entries key).mono (fun _ missing => .inl ⟨key, missing⟩) fun _ _ => trivial

theorem refused_malformed {α : Type} (message : String) :
    Ensures Malformed (fun _ => True) (Except.error (.invalidShareError message) : Except PyException α) :=
  .inr ⟨message, rfl⟩

theorem inconsistent_malformed (self : ShamirSecret) (entries : Dict Json) (treshold shares : Int) :
    Ensures Malformed (fun _ => True) (self.inconsistent (.dict entries) treshold shares) := by
  have reads := getItem_malformed entries
  rw [inconsistent]
  split
  · -- which of the two fields are compared depends on the expected identity
    dsimp only
    cases named : self.name.truthy with
    | true =>
      apply (reads "name").bind
      intro name _
      cases owned : self.owner.truthy with
      | true =>
        apply (reads "owner").bind
        intro owner _
        exact trivial
      | false => exact trivial
    | false =>
      cases owned : self.owner.truthy with
      | true =>
        apply (reads "owner").bind
        intro owner _
        exact trivial
      | false => exact trivial
  · apply (reads "creation_date").bind
    intro creationDate _
    apply (reads "uuid").bind
    intro uuid _
    apply (reads "secret_hash").bind
    intro secretHash _
    apply (reads "name").bind
    intro name _
    exact trivial

theorem checkSubmission_malformed (self : ShamirSecret) (entries : Dict Json) :
    Ensures Malformed (fun _ => True) (self.checkSubmission (.dict entries)) := by
  have reads := getItem_malformed entries
  rw [checkSubmission]
  apply (reads "treshold").bind
  intro tresholdValue _
  apply (reads "shares").bind
  intro sharesValue _
  apply (reads "keys").bind
  intro keysValue _
  split
  · split
    · exact refused_malformed _
    · split
      · exact refused_malformed _
      · apply (self.inconsistent_malformed entries _ _).bind
        intro failed _
        split
        · exact refused_malformed _
        · exact trivial
  · exact refused_malformed _

theorem adopt_malformed (self : ShamirSecret) (entries : Dict Json) (checked : Checked) :
    Ensures Malformed (fun _ => True) (self.adopt (.dict entries) checked).1 := by
  cases outcome : self.adopt (.dict entries) checked with
  | mk result after =>
    cases result with
    | ok needed => exact trivial
    | error exception =>
      obtain ⟨⟨field, _, missing⟩, _⟩ := adopt_raises outcome
      exact (getItem_malformed entries field).raised missing

/-- On a dictionary `populate_decoder` raises nothing that `store_share` does not catch. -/
theorem populateDecoder_malformed (self : ShamirSecret) (entries : Dict Json) :
    Ensures Malformed (fun _ => True) (self.populateDecoder (.dict entries)).1 := by
  rw [populateDecoder]
  cases outcome : self.checkSubmission (.dict entries) with
  | error exception => exact (self.checkSubmission_malformed entries).raised outcome
  | ok checked => exact self.adopt_malformed entries checked

end SecretWeb.Shamir.ShamirSecret

namespace SecretWeb.Server

open SecretWeb.Python SecretWeb.Shamir SecretWeb.HostsData

/-- A client error. -/
def Failure.Aborts : Failure → Prop
  | .aborted status _ => 400 ≤ status ∧ status < 500
  | .raised _ => False

/-- The route returns with 200 or 201, or aborts with a 4xx status and has changed nothing. -/
def Handled (server : Server) (outcome : Except Failure Answer × Server) : Prop :=
  (∀ answer, outcome.1 = .ok answer → answer.1 = 200 ∨ answer.1 = 201) ∧
  ∀ failure, outcome.1 = .error failure → failure.Aborts ∧ outcome.2 = server

/-! ## Texts -/

/-- How far down `json.loads` and `json.dumps` can go where the routes call them; beyond that each
of them raises `RecursionError`. -/
structure Depths where
  loads : Nat
  dumps : Nat

/-- `bottle.request.json`, of the text of a JSON value. -/
def Depths.parsed (depths : Depths) (body : Json) : Except Failure Json :=
  if body.nesting ≤ depths.loads then .ok body else .error (.raised .recursionError)

def sharesDocument (store : Store) : Json := .dict [("shares", .dict store.shares)]

def secretsDocument (store : Store) : Json := .dict [("secrets", .dict store.secrets)]

/-- A route with the text that it writes: with 201 it has saved a map, and `json.dumps` may have
raised when the map in memory was changed already. -/
def Depths.written (depths : Depths) (document : Store → Json) (server : Server) :
    Except Failure Answer × Server → Except Failure Answer × Server
  | (.ok answer, after) =>
    if answer.1 = 201 ∧ depths.dumps < (document after.memory).nesting then
      (.error (.raised .recursionError), { after with disk := server.disk })
    else (.ok answer, after)
  | outcome => outcome

section Texts

variable (lower : String → String) (intOf : String → Option Int) (depths : Depths) (server : Server)

/-- `store_share` of a JSON text, when every file can be written. -/
def storeShareText (shareUuid : String) (commonName : Option String) (body : Json) : Except Failure Answer × Server :=
  depths.written sharesDocument server (storeShare lower server shareUuid commonName (depths.parsed body) true)

/-- `store_secret_metadata` of a JSON text, when every file can be written. -/
def storeSecretMetadataText (name : String) (commonName : Option String) (body : Json) (now : String) :
    Except Failure Answer × Server :=
  depths.written secretsDocument server
    (storeSecretMetadata lower intOf server name commonName (depths.parsed body) now true)

end Texts

/-! ## What is not caught -/

/-- A value without the method `lower`. -/
def NotText (value : Json) : Prop := ∀ text, value ≠ .str text

/-- A valid share of the uuid in the path, from a client with a name, whose owner is no string. -/
def OwnerRaises (shareUuid : String) (commonName : Option String) (body : Json) : Prop :=
  body.getItem "uuid" = .ok (.str shareUuid) ∧ commonName.isSome ∧
    ∃ record, Reads body record ∧ throwaway.Admits record ∧ NotText record.owner

/-- `int(body[key])` returns. -/
def Converts (intOf : String → Option Int) (body : Json) (key : String) : Prop :=
  ∃ value count, body.getItem key = .ok value ∧ pyInt intOf value = .ok count

def Infinite (body : Json) (key : String) : Prop := ∃ negative, body.getItem key = .ok (.float (.infinity negative))

/-- A record with a uuid and an infinite count, which `int` answers with `OverflowError`. -/
def CountRaises (intOf : String → Option Int) (body : Json) : Prop :=
  (∃ uuid, body.getItem "uuid" = .ok uuid) ∧
    (Infinite body "treshold" ∨ Converts intOf body "treshold" ∧ Infinite body "shares_saved")

/-- A good record, from a client with a name, when the name of this server is no string. -/
def NameRaises (intOf : String → Option Int) (entry : Json) (commonName : Option String) (body : Json) : Prop :=
  (∃ uuid, body.getItem "uuid" = .ok uuid) ∧ Converts intOf body "treshold" ∧ Converts intOf body "shares_saved" ∧
    commonName.isSome ∧ ∃ own, entry.getItem "name" = .ok own ∧ NotText own

/-- The owner is the client. -/
def IsClient (lower : String → String) (commonName : Option String) (owner : Json) : Prop :=
  ∃ presented text, commonName = some presented ∧ owner = .str text ∧
    lower (hostnameFromCommonName presented) = lower text

/-- A valid share of the uuid in the path, and the client's own. -/
def Acceptable (lower : String → String) (shareUuid : String) (commonName : Option String) (body : Json) : Prop :=
  body.getItem "uuid" = .ok (.str shareUuid) ∧
    ∃ record, Reads body record ∧ throwaway.Admits record ∧ IsClient lower commonName record.owner

/-- A share that is stored as new, and with which the shares are nested too deep to be written. -/
def SharesTooDeep (lower : String → String) (depths : Depths) (server : Server) (shareUuid : String)
    (commonName : Option String) (body : Json) : Prop :=
  Acceptable lower shareUuid commonName body ∧ Dict.get server.memory.shares shareUuid = none ∧
    depths.dumps <
      (sharesDocument { server.memory with shares := Dict.set server.memory.shares shareUuid body }).nesting

/-- A record that is stored, and with which the secrets are nested too deep to be written. -/
def SecretsTooDeep (lower : String → String) (intOf : String → Option Int) (depths : Depths) (server : Server)
    (entry : Json) (name : String) (commonName : Option String) (body : Json) (now : String) : Prop :=
  ∃ uuid tresholdValue treshold sharesSavedValue sharesSaved own, body.getItem "uuid" = .ok uuid ∧
    body.getItem "treshold" = .ok tresholdValue ∧ pyInt intOf tresholdValue = .ok treshold ∧
    body.getItem "shares_saved" = .ok sharesSavedValue ∧ pyInt intOf sharesSavedValue = .ok sharesSaved ∧
    entry.getItem "name" = .ok own ∧ IsClient lower commonName own ∧
    depths.dumps < (secretsDocument { server.memory with
      secrets := Dict.set server.memory.secrets name (.dict [("uuid", uuid), ("treshold", .int treshold),
        ("shares_saved", .int sharesSaved), ("last_updated", .str now)]) }).nesting

section Bodies

variable {lower : String → String} {intOf : String → Option Int}

/-! ## Ways to end -/

theorem handled_of_answer {server after : Server} {answer : Answer} (fine : answer.1 = 200 ∨ answer.1 = 201) :
    Handled server (.ok answer, after) := by
  constructor
  · intro other answered
    cases answered
    exact fine
  · intro failure raised
    cases raised

theorem handled_of_aborts {server : Server} {failure : Failure} (aborts : failure.Aborts) :
    Handled server (.error failure, server) := by
  constructor
  · intro answer answered
    cases answered
  · intro other raised
    cases raised
    exact ⟨aborts, rfl⟩

theorem not_handled_of_raised {server after : Server} {exception : PyException} :
    ¬Handled server (.error (.raised exception), after) := by
  intro handled
  exact (handled.2 _ rfl).1

/-- A route with its text is handled as without it, unless the map it saves is nested too deep. -/
theorem handled_written {depths : Depths} {document : Store → Json} {server : Server}
    (outcome : Except Failure Answer × Server) :
    Handled server (depths.written document server outcome) ↔
      Handled server outcome ∧
        ¬∃ answer, outcome.1 = .ok answer ∧ answer.1 = 201 ∧ depths.dumps < (document outcome.2.memory).nesting := by
  obtain ⟨result, after⟩ := outcome
  cases result with
  | error failure => simp [Depths.written]
  | ok answer =>
    rw [Depths.written]
    by_cases deep : answer.1 = 201 ∧ depths.dumps < (document after.memory).nesting
    · simp [deep, not_handled_of_raised]
    · rw [if_neg deep]
      simpa using fun _ => not_and.mp deep

/-! ## Posting a share -/

theorem requireOwnerMatchesClientCert_aborts {commonName : Option String} {owner : Json} {failure : Failure}
    (refused : requireOwnerMatchesClientCert lower commonName owner = .error failure) :
    failure.Aborts ∨ commonName.isSome ∧ NotText owner := by
  unfold requireOwnerMatchesClientCert at refused
  split at refused
  · cases refused
    exact .inl ⟨by decide, by decide⟩
  · split at refused
    · split at refused
      · cases refused
        exact .inl ⟨by decide, by decide⟩
      · cases refused
    · rename_i notText
      exact .inr ⟨rfl, fun text same => notText text same⟩

theorem requireOwnerMatchesClientCert_raises {commonName : Option String} {owner : Json}
    (named : commonName.isSome) (notText : NotText owner) :
    requireOwnerMatchesClientCert lower commonName owner = .error (.raised (.attributeError "lower")) := by
  obtain ⟨presented, rfl⟩ := Option.isSome_iff_exists.mp named
  cases owner with
  | str text => exact absurd rfl (notText text)
  | _ => rfl

theorem checkShare_aborts {shareUuid : String} {commonName : Option String} {body : Json} {failure : Failure}
    (refused : checkShare lower shareUuid commonName (.ok body) = .error failure) :
    failure.Aborts ∨ OwnerRaises shareUuid commonName body := by
  unfold checkShare at refused
  rw [ok_bind] at refused
  cases body with
  | dict entries =>
    simp only [Json.asDict] at refused
    split at refused
    · cases refused
      exact .inl ⟨by decide, by decide⟩
    · rename_i uuidMatches
      have uuidRead : (Json.dict entries).getItem "uuid" = .ok (.str shareUuid) :=
        getItem_of_matches (by simpa using uuidMatches)
      split at refused
      · cases refused
        exact .inl ⟨by decide, by decide⟩
      · cases refused
        exact .inl ⟨by decide, by decide⟩
      · rename_i exception notKey notInvalid populated
        rcases (ShamirSecret.populateDecoder_malformed _ entries).raised populated with ⟨key, rfl⟩ | ⟨message, rfl⟩
        · exact absurd rfl (notKey key)
        · exact absurd rfl (notInvalid message)
      · rename_i needed populated
        obtain ⟨record, read, admitted, _⟩ := (throwaway.populateDecoder_eq_ok (.dict entries) needed _).mp
          (Prod.ext populated rfl)
        rw [read.owner] at refused
        dsimp only at refused
        cases bind_eq_error.mp refused with
        | inl unmatched =>
          rcases requireOwnerMatchesClientCert_aborts unmatched with aborts | ⟨named, notText⟩
          · exact .inl aborts
          · exact .inr ⟨uuidRead, named, record, read, admitted, notText⟩
        | inr matched =>
          obtain ⟨_, _, returned⟩ := matched
          cases returned
  | _ =>
    cases refused
    exact .inl ⟨by decide, by decide⟩

theorem checkShare_raises {shareUuid : String} {commonName : Option String} {body : Json}
    (raises : OwnerRaises shareUuid commonName body) :
    checkShare lower shareUuid commonName (.ok body) = .error (.raised (.attributeError "lower")) := by
  obtain ⟨uuidRead, named, record, read, admitted, notText⟩ := raises
  cases body with
  | dict entries =>
    have uuidFound : Dict.get entries "uuid" = some (.str shareUuid) := Json.getItem_dict_eq_ok.mp uuidRead
    have populated := (throwaway.populateDecoder_eq_ok (.dict entries) _ _).mpr ⟨record, read, admitted, rfl, rfl⟩
    have refused : requireOwnerMatchesClientCert lower commonName record.owner =
        .error (.raised (.attributeError "lower")) := requireOwnerMatchesClientCert_raises named notText
    rw [throwaway] at populated
    simp only [checkShare, ok_bind, Json.asDict, uuidFound, Option.getD_some, Json.equals_str_str, decide_true,
      Bool.not_true, Bool.false_eq_true, ↓reduceIte, populated, read.owner, refused, error_bind]
  | _ => cases uuidRead

theorem storeShare_handled_iff (server : Server) (shareUuid : String) (commonName : Option String) (body : Json) :
    Handled server (storeShare lower server shareUuid commonName (.ok body) true) ↔
      ¬OwnerRaises shareUuid commonName body := by
  constructor
  · intro handled raises
    have refused : checkShare lower shareUuid commonName (.ok body) = .error (.raised (.attributeError "lower")) :=
      checkShare_raises raises
    have outcome := @storeShare_unchecked lower server _ _ _ _ true refused
    rw [outcome] at handled
    exact not_handled_of_raised handled
  · intro quiet
    cases checked : checkShare lower shareUuid commonName (.ok body) with
    | error failure =>
      rw [storeShare_unchecked true checked]
      exact handled_of_aborts ((checkShare_aborts checked).resolve_right quiet)
    | ok payload =>
      rcases storeShare_checked true checked with ⟨existing, _, outcome⟩ | ⟨_, outcome⟩
      · rw [outcome]
        -- a share that is there already is only answered, 200 if it is the same and 409 if not
        cases existing.equals payload with
        | true => exact handled_of_answer (.inl rfl)
        | false => exact handled_of_aborts ⟨by decide, by decide⟩
      · rw [outcome]
        exact handled_of_answer (.inr rfl)

theorem acceptable_of_checked {shareUuid : String} {commonName : Option String} {body payload : Json}
    (checked : checkShare lower shareUuid commonName (.ok body) = .ok payload) :
    payload = body ∧ Acceptable lower shareUuid commonName body := by
  obtain ⟨bodyRead, uuidRead, record, presented, owner, read, admitted, named, ownerRead, same⟩ := checkShare_eq_ok checked
  cases bodyRead
  refine ⟨rfl, uuidRead, record, read, admitted, presented, owner, named, ?_, same⟩
  exact Except.ok.inj (read.owner.symm.trans ownerRead)

theorem checkShare_of_acceptable {shareUuid : String} {commonName : Option String} {body : Json}
    (acceptable : Acceptable lower shareUuid commonName body) :
    checkShare lower shareUuid commonName (.ok body) = .ok body := by
  obtain ⟨uuidRead, record, read, admitted, client⟩ := acceptable
  cases body with
  | dict entries =>
    have uuidFound : Dict.get entries "uuid" = some (.str shareUuid) := Json.getItem_dict_eq_ok.mp uuidRead
    have populated := (throwaway.populateDecoder_eq_ok (.dict entries) _ _).mpr ⟨record, read, admitted, rfl, rfl⟩
    have matched := (requireOwnerMatchesClientCert_eq_ok lower commonName record.owner).mpr client
    rw [throwaway] at populated
    simp only [checkShare, ok_bind, Json.asDict, uuidFound, Option.getD_some, Json.equals_str_str, decide_true,
      Bool.not_true, Bool.false_eq_true, ↓reduceIte, populated, read.owner, matched]
    rfl
  | _ => cases uuidRead

/-- A share is answered with 201 when it is stored as new. -/
theorem storeShare_saves_iff {depths : Depths} {server : Server} {shareUuid : String} {commonName : Option String}
    {body : Json} :
    (∃ answer, (storeShare lower server shareUuid commonName (.ok body) true).1 = .ok answer ∧ answer.1 = 201 ∧
      depths.dumps <
        (sharesDocument (storeShare lower server shareUuid commonName (.ok body) true).2.memory).nesting) ↔
      SharesTooDeep lower depths server shareUuid commonName body := by
  cases checked : checkShare lower shareUuid commonName (.ok body) with
  | error failure =>
    rw [storeShare_unchecked true checked]
    constructor
    · rintro ⟨answer, impossible, _⟩
      cases impossible
    · rintro ⟨acceptable, _⟩
      cases checked.symm.trans (checkShare_of_acceptable acceptable)
  | ok payload =>
    obtain ⟨rfl, acceptable⟩ := acceptable_of_checked checked
    rcases @storeShare_checked lower server _ _ _ _ true checked with ⟨existing, found, outcome⟩ | ⟨absent, outcome⟩
    · rw [outcome]
      constructor
      · rintro ⟨answer, answered, created, _⟩
        dsimp only at answered
        split at answered
        · cases answered
          cases created
        · cases answered
      · rintro ⟨_, absent, _⟩
        cases found.symm.trans absent
    · rw [outcome]
      constructor
      · rintro ⟨_, _, _, deep⟩
        exact ⟨acceptable, absent, deep⟩
      · rintro ⟨_, _, deep⟩
        exact ⟨_, rfl, rfl, deep⟩

/-- A body that is nested too deep is never read. -/
theorem parsed_eq (depths : Depths) (body : Json) :
    depths.parsed body = .ok body ∧ body.nesting ≤ depths.loads ∨
      depths.parsed body = .error (.raised .recursionError) ∧ ¬body.nesting ≤ depths.loads := by
  rw [Depths.parsed]
  by_cases shallow : body.nesting ≤ depths.loads
  · simp [shallow]
  · simp [shallow]

theorem storeShareText_handled_iff (depths : Depths) (server : Server) (shareUuid : String)
    (commonName : Option String) (body : Json) :
    Handled server (storeShareText lower depths server shareUuid commonName body) ↔
      body.nesting ≤ depths.loads ∧ ¬OwnerRaises shareUuid commonName body ∧
        ¬SharesTooDeep lower depths server shareUuid commonName body := by
  rw [storeShareText]
  obtain ⟨read, shallow⟩ | ⟨unread, deep⟩ := parsed_eq depths body
  · rw [read, handled_written, storeShare_handled_iff, storeShare_saves_iff]
    simp only [shallow, true_and]
  · have refused : checkShare lower shareUuid commonName (depths.parsed body) = .error (.raised .recursionError) := by
      rw [unread]
      rfl
    rw [storeShare_unchecked true refused, handled_written]
    simp only [not_handled_of_raised, false_and, deep]

/-! ## Posting a record -/

theorem pyInt_error {value : Json} {exception : PyException} (raised : pyInt intOf value = .error exception) :
    exception = .typeError ∨ (∃ message, exception = .valueError message) ∨
      exception = .overflowError ∧ ∃ negative, value = .float (.infinity negative) := by
  unfold pyInt at raised
  split at raised
  · cases raised
  · cases raised
  · cases raised
  · cases raised
  · cases raised
    exact .inr (.inl ⟨_, rfl⟩)
  · rename_i negative
    cases raised
    exact .inr (.inr ⟨rfl, negative, rfl⟩)
  · split at raised
    · cases raised
    · cases raised
      exact .inr (.inl ⟨_, rfl⟩)
  · cases raised
    exact .inl rfl

/-- What `store_secret_metadata` catches. -/
def Rejected (exception : PyException) : Prop :=
  (∃ key, exception = .keyError key) ∨ exception = .typeError ∨ ∃ message, exception = .valueError message

theorem getItem_rejected {body : Json} {key : String} {exception : PyException}
    (raised : body.getItem key = .error exception) : Rejected exception := by
  cases Json.getItem_eq_error raised with
  | inl missing => exact .inl ⟨key, missing⟩
  | inr noDict => exact .inr (.inl noDict)

/-- `int(body[key])` raises what is caught, or the field is infinite. -/
theorem converts_or {body : Json} {key : String} :
    Converts intOf body key ∨ Infinite body key ∨
      ∃ exception, Rejected exception ∧ (body.getItem key >>= pyInt intOf) = .error exception := by
  cases read : body.getItem key with
  | error exception => exact .inr (.inr ⟨exception, getItem_rejected read, rfl⟩)
  | ok value =>
    cases converted : pyInt intOf value with
    | ok count => exact .inl ⟨value, count, read, converted⟩
    | error exception =>
      rcases pyInt_error converted with noNumber | ⟨message, malformed⟩ | ⟨_, negative, infinite⟩
      · exact .inr (.inr ⟨exception, .inr (.inl noNumber), converted⟩)
      · exact .inr (.inr ⟨exception, .inr (.inr ⟨message, malformed⟩), converted⟩)
      · rw [infinite] at read
        exact .inr (.inl ⟨negative, read⟩)

theorem metadataFields_eq (body : Json) :
    metadataFields intOf body =
      (body.getItem "uuid" >>= fun uuid => (body.getItem "treshold" >>= pyInt intOf) >>= fun treshold =>
        (body.getItem "shares_saved" >>= pyInt intOf) >>= fun sharesSaved => pure (uuid, treshold, sharesSaved)) := by
  simp only [metadataFields, bind_assoc]

theorem Converts.bind {body : Json} {key : String} (converts : Converts intOf body key) :
    ∃ count, (body.getItem key >>= pyInt intOf) = .ok count := by
  obtain ⟨value, count, read, converted⟩ := converts
  exact ⟨count, by rw [read, ok_bind, converted]⟩

theorem Infinite.bind {body : Json} {key : String} (infinite : Infinite body key) :
    (body.getItem key >>= pyInt intOf) = .error .overflowError := by
  obtain ⟨negative, read⟩ := infinite
  rw [read, ok_bind]
  rfl

theorem metadataFields_overflow {body : Json} (raises : CountRaises intOf body) :
    metadataFields intOf body = .error .overflowError := by
  obtain ⟨⟨uuid, uuidRead⟩, tresholdInfinite | ⟨treshold, sharesInfinite⟩⟩ := raises
  · rw [metadataFields_eq, uuidRead, ok_bind, tresholdInfinite.bind, error_bind]
  · obtain ⟨count, converted⟩ := treshold.bind
    rw [metadataFields_eq, uuidRead, ok_bind, converted, ok_bind, sharesInfinite.bind, error_bind]

theorem metadataFields_ok {body : Json} (uuid : ∃ uuid, body.getItem "uuid" = .ok uuid)
    (treshold : Converts intOf body "treshold") (sharesSaved : Converts intOf body "shares_saved") :
    ∃ fields, metadataFields intOf body = .ok fields := by
  obtain ⟨uuid, uuidRead⟩ := uuid
  obtain ⟨count, converted⟩ := treshold.bind
  obtain ⟨other, otherConverted⟩ := sharesSaved.bind
  refine ⟨(uuid, count, other), ?_⟩
  rw [metadataFields_eq, uuidRead, ok_bind, converted, ok_bind, otherConverted, ok_bind]
  rfl

/-- The fields are read, or what is raised is caught, or a count is infinite. -/
theorem metadataFields_cases (body : Json) :
    ((∃ uuid, body.getItem "uuid" = .ok uuid) ∧ Converts intOf body "treshold" ∧ Converts intOf body "shares_saved") ∨
    (∃ exception, Rejected exception ∧ metadataFields intOf body = .error exception) ∨
    CountRaises intOf body := by
  cases uuidRead : body.getItem "uuid" with
  | error exception =>
    exact .inr (.inl ⟨exception, getItem_rejected uuidRead, by rw [metadataFields_eq, uuidRead, error_bind]⟩)
  | ok uuid =>
    rcases @converts_or intOf body "treshold" with treshold | infinite | ⟨exception, rejected, raised⟩
    · rcases @converts_or intOf body "shares_saved" with sharesSaved | infinite | ⟨exception, rejected, raised⟩
      · exact .inl ⟨⟨uuid, rfl⟩, treshold, sharesSaved⟩
      · exact .inr (.inr ⟨⟨uuid, uuidRead⟩, .inr ⟨treshold, infinite⟩⟩)
      · obtain ⟨count, converted⟩ := treshold.bind
        refine .inr (.inl ⟨exception, rejected, ?_⟩)
        rw [metadataFields_eq, uuidRead, ok_bind, converted, ok_bind, raised, error_bind]
    · exact .inr (.inr ⟨⟨uuid, uuidRead⟩, .inl infinite⟩)
    · refine .inr (.inl ⟨exception, rejected, ?_⟩)
      rw [metadataFields_eq, uuidRead, ok_bind, raised, error_bind]

theorem asDict_of_getItem {body value : Json} {key : String} (read : body.getItem key = .ok value) :
    ∃ entries, body.asDict = some entries := by
  cases body with
  | dict entries => exact ⟨entries, rfl⟩
  | _ => cases read

theorem checkMetadata_rejected {server : Server} {commonName : Option String} {body : Json} {exception : PyException}
    (now : String) (rejected : Rejected exception) (raised : metadataFields intOf body = .error exception) :
    ∃ text, checkMetadata lower intOf server commonName (.ok body) now = .error (.aborted 400 text) := by
  rw [checkMetadata, ok_bind]
  cases body.asDict with
  | none => exact ⟨_, rfl⟩
  | some entries =>
    rw [raised]
    rcases rejected with ⟨key, rfl⟩ | rfl | ⟨message, rfl⟩
    · exact ⟨_, rfl⟩
    · exact ⟨_, rfl⟩
    · exact ⟨_, rfl⟩

theorem checkMetadata_overflow {server : Server} {commonName : Option String} {body : Json} (now : String)
    (raises : CountRaises intOf body) :
    checkMetadata lower intOf server commonName (.ok body) now = .error (.raised .overflowError) := by
  obtain ⟨uuid, uuidRead⟩ := raises.1
  obtain ⟨entries, dict⟩ := asDict_of_getItem uuidRead
  rw [checkMetadata, ok_bind, dict]
  dsimp only
  rw [metadataFields_overflow raises]

/-- A record that passes the checks has good fields, and the client is the server's own host. -/
theorem fields_of_checked {server : Server} {commonName : Option String} {body own record : Json} {now : String}
    (named : ownName server = .ok own) (checked : checkMetadata lower intOf server commonName (.ok body) now = .ok record) :
    ∃ uuid tresholdValue treshold sharesSavedValue sharesSaved, body.getItem "uuid" = .ok uuid ∧
      body.getItem "treshold" = .ok tresholdValue ∧ pyInt intOf tresholdValue = .ok treshold ∧
      body.getItem "shares_saved" = .ok sharesSavedValue ∧ pyInt intOf sharesSavedValue = .ok sharesSaved ∧
      IsClient lower commonName own := by
  rw [checkMetadata, ok_bind] at checked
  split at checked
  · cases checked
  · split at checked
    · cases checked
    · cases checked
    · cases checked
    · cases checked
    · rename_i fields
      rw [named, ok_bind] at checked
      obtain ⟨_, matched, _⟩ := bind_eq_ok.mp checked
      obtain ⟨uuid, uuidRead, fields⟩ := bind_eq_ok.mp fields
      obtain ⟨tresholdValue, tresholdRead, fields⟩ := bind_eq_ok.mp fields
      obtain ⟨treshold, tresholdIs, fields⟩ := bind_eq_ok.mp fields
      obtain ⟨sharesSavedValue, sharesRead, fields⟩ := bind_eq_ok.mp fields
      obtain ⟨sharesSaved, sharesAre, _⟩ := bind_eq_ok.mp fields
      exact ⟨uuid, tresholdValue, treshold, sharesSavedValue, sharesSaved, uuidRead, tresholdRead, tresholdIs,
        sharesRead, sharesAre, (requireOwnerMatchesClientCert_eq_ok lower commonName own).mp matched⟩

theorem checkMetadata_read {server : Server} {commonName : Option String} {body own uuid : Json}
    {treshold sharesSaved : Int} (now : String) (named : ownName server = .ok own)
    (read : metadataFields intOf body = .ok (uuid, treshold, sharesSaved)) :
    checkMetadata lower intOf server commonName (.ok body) now =
      (requireOwnerMatchesClientCert lower commonName own >>= fun _ =>
        .ok (.dict [("uuid", uuid), ("treshold", .int treshold), ("shares_saved", .int sharesSaved),
          ("last_updated", .str now)])) := by
  obtain ⟨first, uuidRead, _⟩ := bind_eq_ok.mp read
  obtain ⟨entries, dict⟩ := asDict_of_getItem uuidRead
  rw [checkMetadata, ok_bind, dict]
  dsimp only
  rw [read]
  dsimp only
  rw [named, ok_bind]
  rfl

theorem ownName_eq {server : Server} {entry own : Json} (isLocal : ownHostEntry server.hosts = .ok entry)
    (named : entry.getItem "name" = .ok own) : ownName server = .ok own := by
  rw [ownName, isLocal, ok_bind, named]

/-- With a good record everything hangs on the name of this server. -/
theorem nameRaises_iff {entry own body : Json} {commonName : Option String} (named : entry.getItem "name" = .ok own)
    (uuid : ∃ uuid, body.getItem "uuid" = .ok uuid) (treshold : Converts intOf body "treshold")
    (sharesSaved : Converts intOf body "shares_saved") :
    NameRaises intOf entry commonName body ↔ commonName.isSome ∧ NotText own := by
  constructor
  · rintro ⟨_, _, _, presented, other, otherNamed, notText⟩
    rw [named] at otherNamed
    cases otherNamed
    exact ⟨presented, notText⟩
  · intro raises
    exact ⟨uuid, treshold, sharesSaved, raises.1, own, named, raises.2⟩

theorem storeSecretMetadata_handled_iff {server : Server} {entry : Json}
    (isLocal : ownHostEntry server.hosts = .ok entry) (name : String) (commonName : Option String) (body : Json)
    (now : String) :
    Handled server (storeSecretMetadata lower intOf server name commonName (.ok body) now true) ↔
      ¬CountRaises intOf body ∧ ¬NameRaises intOf entry commonName body := by
  obtain ⟨own, named⟩ := getItem_name_of_ownHostEntry isLocal
  have ownNamed : ownName server = .ok own := ownName_eq isLocal named
  rcases @metadataFields_cases intOf body with ⟨uuid, treshold, sharesSaved⟩ | ⟨exception, rejected, raised⟩ | raises
  · obtain ⟨fields, read⟩ := metadataFields_ok uuid treshold sharesSaved
    have noOverflow : ¬CountRaises intOf body := by
      intro raises
      rw [metadataFields_overflow raises] at read
      cases read
    have checks := @checkMetadata_read lower intOf server commonName body own _ _ _ now ownNamed read
    rw [nameRaises_iff named uuid treshold sharesSaved]
    by_cases raises : commonName.isSome ∧ NotText own
    · rw [requireOwnerMatchesClientCert_raises raises.1 raises.2, error_bind] at checks
      rw [storeSecretMetadata_unchecked true checks]
      simp only [not_handled_of_raised, raises, and_self, not_true, and_false]
    · simp only [noOverflow, raises, not_false_iff, and_self, iff_true]
      cases matched : requireOwnerMatchesClientCert lower commonName own with
      | ok done =>
        rw [matched, ok_bind] at checks
        rw [storeSecretMetadata_checked true checks]
        exact handled_of_answer (.inr rfl)
      | error failure =>
        rw [matched, error_bind] at checks
        rw [storeSecretMetadata_unchecked true checks]
        exact handled_of_aborts ((requireOwnerMatchesClientCert_aborts matched).resolve_right raises)
  · obtain ⟨text, checks⟩ := @checkMetadata_rejected lower intOf server commonName body exception now rejected raised
    rw [storeSecretMetadata_unchecked true checks]
    have aborted := @handled_of_aborts server (.aborted 400 text) ⟨by decide, by decide⟩
    simp only [aborted, true_iff]
    constructor
    · intro raises
      rw [metadataFields_overflow raises] at raised
      cases raised
      simp [Rejected] at rejected
    · intro raises
      obtain ⟨fields, read⟩ := metadataFields_ok raises.1 raises.2.1 raises.2.2.1
      rw [read] at raised
      cases raised
  · rw [storeSecretMetadata_unchecked true (checkMetadata_overflow now raises)]
    simp only [not_handled_of_raised, raises, not_true, false_and]

/-- A record is answered with 201 when it is stored. -/
theorem storeSecretMetadata_saves_iff {depths : Depths} {server : Server} {entry : Json}
    (isLocal : ownHostEntry server.hosts = .ok entry) {name : String} {commonName : Option String} {body : Json}
    {now : String} :
    (∃ answer, (storeSecretMetadata lower intOf server name commonName (.ok body) now true).1 = .ok answer ∧
      answer.1 = 201 ∧ depths.dumps <
        (secretsDocument (storeSecretMetadata lower intOf server name commonName (.ok body) now true).2.memory).nesting) ↔
      SecretsTooDeep lower intOf depths server entry name commonName body now := by
  obtain ⟨own, named⟩ := getItem_name_of_ownHostEntry isLocal
  have ownNamed : ownName server = .ok own := ownName_eq isLocal named
  have stored : ∀ {uuid tresholdValue sharesSavedValue : Json} {treshold sharesSaved : Int},
      body.getItem "uuid" = .ok uuid → body.getItem "treshold" = .ok tresholdValue →
      pyInt intOf tresholdValue = .ok treshold → body.getItem "shares_saved" = .ok sharesSavedValue →
      pyInt intOf sharesSavedValue = .ok sharesSaved → IsClient lower commonName own →
      checkMetadata lower intOf server commonName (.ok body) now =
        .ok (.dict [("uuid", uuid), ("treshold", .int treshold), ("shares_saved", .int sharesSaved),
          ("last_updated", .str now)]) := by
    intro uuid tresholdValue sharesSavedValue treshold sharesSaved uuidRead tresholdRead tresholdIs sharesRead sharesAre
      client
    have read : metadataFields intOf body = .ok (uuid, treshold, sharesSaved) := by
      simp only [metadataFields, uuidRead, tresholdRead, tresholdIs, sharesRead, sharesAre, ok_bind]
      rfl
    rw [checkMetadata_read now ownNamed read, (requireOwnerMatchesClientCert_eq_ok lower commonName own).mpr client,
      ok_bind]
  constructor
  · rintro ⟨answer, answered, _, deep⟩
    cases checked : checkMetadata lower intOf server commonName (.ok body) now with
    | error failure =>
      rw [storeSecretMetadata_unchecked true checked] at answered
      cases answered
    | ok record =>
      rw [storeSecretMetadata_checked true checked] at deep
      obtain ⟨uuid, tresholdValue, treshold, sharesSavedValue, sharesSaved, uuidRead, tresholdRead, tresholdIs,
        sharesRead, sharesAre, client⟩ := fields_of_checked ownNamed checked
      cases checked.symm.trans (stored uuidRead tresholdRead tresholdIs sharesRead sharesAre client)
      exact ⟨uuid, tresholdValue, treshold, sharesSavedValue, sharesSaved, own, uuidRead, tresholdRead, tresholdIs,
        sharesRead, sharesAre, named, client, deep⟩
  · rintro ⟨uuid, tresholdValue, treshold, sharesSavedValue, sharesSaved, other, uuidRead, tresholdRead, tresholdIs,
      sharesRead, sharesAre, otherNamed, client, deep⟩
    cases named.symm.trans otherNamed
    have checked := stored uuidRead tresholdRead tresholdIs sharesRead sharesAre client
    rw [storeSecretMetadata_checked true checked]
    exact ⟨_, rfl, rfl, deep⟩

theorem storeSecretMetadataText_handled_iff (depths : Depths) {server : Server} {entry : Json}
    (isLocal : ownHostEntry server.hosts = .ok entry) (name : String) (commonName : Option String) (body : Json)
    (now : String) :
    Handled server (storeSecretMetadataText lower intOf depths server name commonName body now) ↔
      body.nesting ≤ depths.loads ∧ ¬CountRaises intOf body ∧ ¬NameRaises intOf entry commonName body ∧
        ¬SecretsTooDeep lower intOf depths server entry name commonName body now := by
  rw [storeSecretMetadataText]
  obtain ⟨read, shallow⟩ | ⟨unread, deep⟩ := parsed_eq depths body
  · rw [read, handled_written, storeSecretMetadata_handled_iff isLocal, storeSecretMetadata_saves_iff isLocal]
    simp only [shallow, true_and, and_assoc]
  · have refused : checkMetadata lower intOf server commonName (depths.parsed body) now =
        .error (.raised .recursionError) := by
      rw [unread]
      rfl
    rw [storeSecretMetadata_unchecked true refused, handled_written]
    simp only [not_handled_of_raised, false_and, deep]

end Bodies

def localServer : Server where
  hosts := .dict [("hosts", .dict [("host1", .dict [("status", .str "local")])])]
  memory := ⟨[], []⟩
  disk := ⟨[], []⟩

def sampleDepths : Depths := ⟨990, 980⟩

def shareOwnedBy (owner extra : Json) : Json :=
  .dict [("keys", .list [.list [.int 1, .int 7]]), ("creation_date", .str "2026-01-01T00:00:00+00:00"),
    ("owner", owner), ("name", .str "s"), ("uuid", .str "u"), ("treshold", .int 2), ("shares", .int 3),
    ("secret_hash", .null), ("extra", extra)]

def infiniteRecord : Json :=
  .dict [("uuid", .str "u"), ("treshold", .float (.infinity false)), ("shares_saved", .int 3)]

/-- So many lists around nothing. -/
def nest : Nat → Json
  | 0 => .null
  | count + 1 => .list [nest count]

theorem nesting_nest (count : Nat) : (nest count).nesting = count := by
  induction count with
  | zero => rfl
  | succ count inductionHypothesis => simp [nest, Json.nesting, Json.nestingItems, inductionHypothesis]

end SecretWeb.Server
