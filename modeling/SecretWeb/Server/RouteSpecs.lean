import SecretWeb.Server.Routes
import SecretWeb.Shamir.Admission

/-! # What the routes do

One spec lemma for each check and each route; runs of the server are analysed through
these and never unfold a route. -/

namespace SecretWeb.Server

open SecretWeb.Python SecretWeb.Shamir

section Routes

variable {lower : String → String} {intOf : String → Option Int}

/-! ## The checks on a share -/

/-- The decoder a posted share is tried on. -/
def throwaway : ShamirSecret := ShamirSecret.fresh (.str "") (.str "") 5 3 ""

/-- What compares equal to the uuid of the path is there, and is that uuid. -/
theorem getItem_of_matches {entries : Dict Json} {shareUuid : String}
    (agrees : ((Dict.get entries "uuid").getD .null).equals (.str shareUuid) = true) :
    (Json.dict entries).getItem "uuid" = .ok (.str shareUuid) := by
  have same := (Json.str_equals shareUuid _).mp agrees
  rw [Json.getItem_dict_eq_ok]
  cases found : Dict.get entries "uuid" with
  | none =>
    rw [found] at same
    cases same
  | some value =>
    rw [found] at same
    exact congrArg some same

/-- A posted share passes the checks exactly when it is a dictionary with the uuid of the
path, a blank decoder admits it, and its owner is the client. -/
theorem checkShare_eq_ok {shareUuid : String} {commonName : Option String} {body : Except Failure Json}
    {payload : Json} (checked : checkShare lower shareUuid commonName body = .ok payload) :
    body = .ok payload ∧ payload.getItem "uuid" = .ok (.str shareUuid) ∧
      ∃ record presented owner, Reads payload record ∧ throwaway.Admits record ∧
        commonName = some presented ∧ payload.getItem "owner" = .ok (.str owner) ∧
        lower (hostnameFromCommonName presented) = lower owner := by
  unfold checkShare at checked
  obtain ⟨document, bodyRead, afterBody⟩ := bind_eq_ok.mp checked
  cases document with
  | dict entries =>
    simp only [Json.asDict] at afterBody
    split at afterBody
    · cases afterBody
    · rename_i uuidMatches
      split at afterBody
      · cases afterBody
      · cases afterBody
      · cases afterBody
      · rename_i needed populated
        split at afterBody
        · cases afterBody
        · rename_i owner ownerRead
          obtain ⟨_, matched, returned⟩ := bind_eq_ok.mp afterBody
          cases returned
          obtain ⟨presented, text, presentedName, rfl, same⟩ :=
            (requireOwnerMatchesClientCert_eq_ok lower commonName owner).mp matched
          obtain ⟨record, read, admitted, _⟩ := (throwaway.populateDecoder_eq_ok (.dict entries) needed _).mp
            (Prod.ext populated rfl)
          refine ⟨bodyRead, ?_, record, presented, text, read, admitted, presentedName, ownerRead, same⟩
          exact getItem_of_matches (by simpa using uuidMatches)
  | _ => cases afterBody

/-! ## The checks on a record -/

/-- A record takes its uuid from the body and everything else from numbers and the time. -/
theorem checkMetadata_eq_ok {server : Server} {commonName : Option String} {body : Except Failure Json} {now : String}
    {record : Json} (checked : checkMetadata lower intOf server commonName body now = .ok record) :
    ∃ payload uuid treshold sharesSaved, body = .ok payload ∧ payload.getItem "uuid" = .ok uuid ∧
      record = .dict [("uuid", uuid), ("treshold", .int treshold), ("shares_saved", .int sharesSaved),
        ("last_updated", .str now)] := by
  unfold checkMetadata at checked
  obtain ⟨payload, bodyRead, afterBody⟩ := bind_eq_ok.mp checked
  split at afterBody
  · cases afterBody
  · split at afterBody
    · cases afterBody
    · cases afterBody
    · cases afterBody
    · cases afterBody
    · rename_i uuid treshold sharesSaved fields
      obtain ⟨ownName, _, afterName⟩ := bind_eq_ok.mp afterBody
      obtain ⟨_, _, returned⟩ := bind_eq_ok.mp afterName
      cases returned
      obtain ⟨first, uuidRead, afterUuid⟩ := bind_eq_ok.mp fields
      obtain ⟨_, _, afterTreshold⟩ := bind_eq_ok.mp afterUuid
      obtain ⟨_, _, afterInt⟩ := bind_eq_ok.mp afterTreshold
      obtain ⟨_, _, afterShares⟩ := bind_eq_ok.mp afterInt
      obtain ⟨_, _, fieldsRead⟩ := bind_eq_ok.mp afterShares
      cases fieldsRead
      exact ⟨payload, uuid, treshold, sharesSaved, bodyRead, uuidRead, rfl⟩

/-! ## The routes that write -/

/-- `store_share` once its checks have passed. -/
theorem storeShare_checked {server : Server} {shareUuid : String} {commonName : Option String}
    {body : Except Failure Json} {payload : Json} (saved : Bool)
    (checked : checkShare lower shareUuid commonName body = .ok payload) :
    (∃ existing, Dict.get server.memory.shares shareUuid = some existing ∧
      storeShare lower server shareUuid commonName body saved =
        (if existing.equals payload then .ok (200, .dict [("status", .str "already-stored")])
          else .error (.aborted 409 "a different share is already stored for this uuid"), server)) ∨
    (Dict.get server.memory.shares shareUuid = none ∧
      storeShare lower server shareUuid commonName body saved =
        let shares := Dict.set server.memory.shares shareUuid payload
        if saved then
          (.ok (201, .dict [("status", .str "stored")]),
            { server with memory := { server.memory with shares := shares }
                          disk := { server.disk with shares := shares } })
        else (.error (.raised .osError), { server with memory := { server.memory with shares := shares } })) := by
  cases found : Dict.get server.memory.shares shareUuid with
  | some existing =>
    refine .inl ⟨existing, rfl, ?_⟩
    simp only [storeShare, checked, found]
    cases existing.equals payload with
    | true => rfl
    | false => rfl
  | none =>
    refine .inr ⟨rfl, ?_⟩
    simp only [storeShare, checked, found]
    cases saved with
    | true => rfl
    | false => rfl

theorem storeShare_unchecked {server : Server} {shareUuid : String} {commonName : Option String}
    {body : Except Failure Json} {failure : Failure} (saved : Bool)
    (checked : checkShare lower shareUuid commonName body = .error failure) :
    storeShare lower server shareUuid commonName body saved = (.error failure, server) := by
  simp only [storeShare, checked]

/-- `store_secret_metadata` once its checks have passed. -/
theorem storeSecretMetadata_checked {server : Server} {name : String} {commonName : Option String}
    {body : Except Failure Json} {now : String} {record : Json} (saved : Bool)
    (checked : checkMetadata lower intOf server commonName body now = .ok record) :
    storeSecretMetadata lower intOf server name commonName body now saved =
      let secrets := Dict.set server.memory.secrets name record
      if saved then
        (.ok (201, record),
          { server with memory := { server.memory with secrets := secrets }
                        disk := { server.disk with secrets := secrets } })
      else
        (.error (.raised .osError),
          { server with memory := { server.memory with secrets := secrets } }) := by
  simp only [storeSecretMetadata, checked]
  cases saved with
  | true => rfl
  | false => rfl

theorem storeSecretMetadata_unchecked {server : Server} {name : String} {commonName : Option String}
    {body : Except Failure Json} {now : String} {failure : Failure} (saved : Bool)
    (checked : checkMetadata lower intOf server commonName body now = .error failure) :
    storeSecretMetadata lower intOf server name commonName body now saved = (.error failure, server) := by
  simp only [storeSecretMetadata, checked]

/-- Posting a record leaves the shares alone. -/
theorem storeSecretMetadata_shares (server : Server) (name : String) (commonName : Option String)
    (body : Except Failure Json) (now : String) (saved : Bool) :
    (storeSecretMetadata lower intOf server name commonName body now saved).2.memory.shares = server.memory.shares ∧
      (storeSecretMetadata lower intOf server name commonName body now saved).2.disk.shares = server.disk.shares := by
  cases checked : checkMetadata lower intOf server commonName body now with
  | error failure =>
    rw [storeSecretMetadata_unchecked saved checked]
    exact ⟨rfl, rfl⟩
  | ok record =>
    rw [storeSecretMetadata_checked saved checked]
    cases saved with
    | true => exact ⟨rfl, rfl⟩
    | false => exact ⟨rfl, rfl⟩

/-! ## Failures -/

/-- The request is answered with an error status, never with 200 or 201. -/
def Failure.Errs : Failure → Prop
  | .aborted status _ => status ≠ 200 ∧ status ≠ 201
  | .raised _ => True

theorem requireOwnerMatchesClientCert_errs {commonName : Option String} {owner : Json} {failure : Failure}
    (refused : requireOwnerMatchesClientCert lower commonName owner = .error failure) : failure.Errs := by
  unfold requireOwnerMatchesClientCert at refused
  split at refused
  · cases refused
    exact ⟨by decide, by decide⟩
  · split at refused
    · split at refused
      · cases refused
        exact ⟨by decide, by decide⟩
      · cases refused
    · cases refused
      exact trivial

/-- So is what a route returns to the owner only. -/
theorem owned_errs {α : Type} {commonName : Option String} {owner : Json} {value : α} {failure : Failure}
    (refused : (requireOwnerMatchesClientCert lower commonName owner >>= fun _ => pure value) = .error failure) :
    failure.Errs := by
  cases bind_eq_error.mp refused with
  | inl unmatched => exact requireOwnerMatchesClientCert_errs unmatched
  | inr matched =>
    obtain ⟨_, _, returned⟩ := matched
    cases returned

theorem ownName_errs {server : Server} {failure : Failure} (failed : ownName server = .error failure) :
    failure.Errs := by
  unfold ownName at failed
  split at failed
  · cases failed
  · cases failed
    exact trivial

/-- A share that is read and then refused is refused with an error status. -/
theorem checkShare_errs {shareUuid : String} {commonName : Option String} {body : Json} {failure : Failure}
    (refused : checkShare lower shareUuid commonName (.ok body) = .error failure) : failure.Errs := by
  unfold checkShare at refused
  rw [ok_bind] at refused
  split at refused
  · cases refused
    exact ⟨by decide, by decide⟩
  · split at refused
    · cases refused
      exact ⟨by decide, by decide⟩
    · split at refused
      · cases refused
        exact ⟨by decide, by decide⟩
      · cases refused
        exact ⟨by decide, by decide⟩
      · cases refused
        exact trivial
      · split at refused
        · cases refused
          exact trivial
        · exact owned_errs refused

/-- A post that is not acknowledged is answered with an error status. -/
theorem storeShare_errs {server : Server} {shareUuid : String} {commonName : Option String}
    {body : Except Failure Json} {saved : Bool} {failure : Failure}
    (unread : ∀ failure, body = .error failure → failure.Errs)
    (refused : (storeShare lower server shareUuid commonName body saved).1 = .error failure) : failure.Errs := by
  cases checked : checkShare lower shareUuid commonName body with
  | error reason =>
    rw [storeShare_unchecked saved checked] at refused
    cases refused
    cases body with
    | error reason =>
      cases checked
      exact unread _ rfl
    | ok document => exact checkShare_errs checked
  | ok payload =>
    cases storeShare_checked saved checked with
    | inl present =>
      obtain ⟨existing, _, outcome⟩ := present
      rw [outcome] at refused
      cases same : existing.equals payload with
      | true =>
        rw [same] at refused
        cases refused
      | false =>
        rw [same] at refused
        cases refused
        exact ⟨by decide, by decide⟩
    | inr fresh =>
      rw [fresh.2] at refused
      cases saved with
      | true => cases refused
      | false =>
        cases refused
        exact trivial

end Routes

end SecretWeb.Server
