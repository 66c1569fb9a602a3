import SecretWeb.Mesh.Steps

/-! # Whose shares a server holds

Under the uuid of a KEY1 a server holds what the setup of its host has sent there, or something
that belongs to somebody else.  The host gets its own share back or it is refused. -/

namespace SecretWeb.Mesh

open SecretWeb.Data SecretWeb.Python SecretWeb.Python.JsonText SecretWeb.HostsData SecretWeb.Shamir SecretWeb.Storage
  SecretWeb.Client SecretWeb.Network SecretWeb.Setup SecretWeb.Initiator SecretWeb.Server SecretWeb.Server.Recovery

section Ownership

variable {Place : Type} (web : Web Place)

/-- What is stored at the place under the uuid of a KEY1 is a parcel of its host, if it belongs
to that host at all. -/
def Web.Owned (place : Place) (store : Store) : Prop :=
  ∀ owner share, Dict.get store.shares (web.member owner).uuid4 = some share →
    ∃ text, share.getItem "owner" = .ok (.str text) ∧
      (web.platform.lower text = web.platform.lower (web.member owner).ownName →
        ∃ parcel ∈ (web.member owner).parcels, web.platform.place parcel.host = place ∧ share = parcel.document.value)

/-- A share that is posted at the place under the uuid of a KEY1, with the certificate of its
host, is a parcel of that host. -/
def Web.Genuine (place : Place) (post : Recovery.Post web.platform.floats) : Prop :=
  ∀ owner presented document, post = .share (web.member owner).uuid4 (some presented) (.ok document) →
    web.platform.lower (hostnameFromCommonName presented) = web.platform.lower (web.member owner).ownName →
    ∃ parcel ∈ (web.member owner).parcels, web.platform.place parcel.host = place ∧
      document.value = parcel.document.value

/-- Nobody posts under the uuid of a KEY1 with the certificate of its host. -/
def Web.Foreign (post : Recovery.Post web.platform.floats) : Prop :=
  ∀ owner presented body, post = .share (web.member owner).uuid4 (some presented) body →
    web.platform.lower (hostnameFromCommonName presented) ≠ web.platform.lower (web.member owner).ownName

/-- Whichever host it is: only its setup posts under the uuid of its KEY1 in its name. -/
def Web.Fair : Event Place web.platform.floats → Prop
  | .server _ (.post post _) => web.Foreign post
  | _ => True

variable {web}

theorem genuine_of_foreign {place : Place} {post : Recovery.Post web.platform.floats} (foreign : web.Foreign post) :
    web.Genuine place post :=
  fun owner presented document isShare sameName => absurd sameName (foreign owner presented (.ok document) isShare)

/-- A setup has the certificate of its own host, and that of no other. -/
theorem genuine_of_parcel {publisher : Place} {parcel : Parcel web.platform.floats}
    (sent : parcel ∈ (web.member publisher).parcels) {post : Recovery.Post web.platform.floats}
    (posted : (web.member publisher).post parcel = some post) :
    web.Genuine (web.platform.place parcel.host) post := by
  intro owner presented document isShare sameName
  rw [(web.member publisher).post_parcel sent] at posted
  cases posted
  injection isShare with uuid name body
  cases name
  by_cases own : owner = publisher
  · subst own
    refine ⟨parcel, sent, rfl, ?_⟩
    rw [arrived] at body
    split at body
    · cases body
    · cases body
      rfl
  · exact absurd sameName (web.certificates owner publisher own)

theorem owned_initial (place : Place) : web.Owned place ⟨[], []⟩ := by
  intro owner share found
  cases found

/-- A request keeps the shares where they belong. -/
theorem Web.Owned.applied {place : Place} {store : Store} (owned : web.Owned place store)
    {post : Recovery.Post web.platform.floats} (genuine : web.Genuine place post) :
    web.Owned place (Recovery.applied web.platform.lower web.platform.intOf (web.member place).hosts store post) := by
  obtain unchanged | ⟨shareUuid, commonName, document, rfl, checked, _, written⟩ :=
    @applied_shares web.platform.lower web.platform.intOf (web.member place).hosts _ store post
  · intro owner share found
    rw [unchanged] at found
    exact owned owner share found
  · intro owner share found
    rw [written, Dict.get_set] at found
    split at found
    · rename_i same
      cases found
      obtain ⟨_, _, _, presented, text, _, _, rfl, ownerRead, matching⟩ := checkShare_eq_ok checked
      refine ⟨text, ownerRead, fun sameOwner => ?_⟩
      exact genuine owner presented document (by rw [same]) (matching.trans sameOwner)
    · exact owned owner share found

/-! ## A parcel that is acknowledged -/

/-- Two parcels of a host that go to one place are one parcel. -/
theorem parcel_unique {owner : Place} {left right : Parcel web.platform.floats}
    (leftSent : left ∈ (web.member owner).parcels) (rightSent : right ∈ (web.member owner).parcels)
    (same : web.platform.place left.host = web.platform.place right.host) :
    left.document.value = right.document.value := by
  obtain ⟨leftRecord, leftDealt, leftValue⟩ := (web.member owner).mem_parcels leftSent
  obtain ⟨rightRecord, rightDealt, rightValue⟩ := (web.member owner).mem_parcels rightSent
  have hosts : left.host = right.host := (web.member owner).placedApart _
    ((web.member owner).typed_of_other ((web.member owner).other_of_delivery leftDealt)) _
    ((web.member owner).typed_of_other ((web.member owner).other_of_delivery rightDealt)) same
  obtain ⟨_, records⟩ := Prod.mk.inj ((web.member owner).delivery_unique leftDealt rightDealt (by rw [hosts]))
  rw [leftValue, rightValue, records]

/-- What compares equal to a dictionary has what it has. -/
theorem getItem_of_equals {existing document : Json} {key text : String} (equal : existing.equals document = true)
    (there : existing.getItem key = .ok (.str text)) : document.getItem key = .ok (.str text) := by
  cases existing with
  | dict entries =>
    obtain ⟨others, rfl, _, sameEntries⟩ := (Json.equals_dict entries document).mp equal
    obtain ⟨other, found, sameValue⟩ := Json.equalsEntries_get sameEntries
      (Dict.mem_of_get (Json.getItem_dict_eq_ok.mp there))
    rw [(Json.sameMember_str text other).mp sameValue] at found
    exact Json.getItem_dict_eq_ok.mpr found
  | _ => cases there

/-- What setup takes for an acknowledgement is one. -/
theorem answer_of_acknowledged {server : Server} {shareUuid : String} {commonName : Option String}
    {document : Document web.platform.floats} {answer : Except Failure Answer}
    (answered : (Server.storeShare web.platform.lower server shareUuid commonName
      ((arrived document).map Document.value) true).1 = answer)
    (acknowledged : Client.storeShare (delivered web.platform.floats (reply answer)) = .ok ()) :
    ∃ answer', answer = .ok answer' := by
  cases answer with
  | ok answer' => exact ⟨answer', rfl⟩
  | error failure =>
    have errs : failure.Errs := by
      refine storeShare_errs (fun reason unread => ?_) answered
      rw [arrived] at unread
      split at unread
      · cases unread
        exact ⟨by decide, by decide⟩
      · cases unread
    rw [delivered_failure] at acknowledged
    obtain ⟨_, failed, _⟩ := storeShare_of_fails (fails_reply errs)
    cases failed.symm.trans acknowledged

/-- Once it is acknowledged, a parcel is stored where it was sent. -/
theorem Web.Owned.acknowledged {owner : Place} {parcel : Parcel web.platform.floats}
    (sent : parcel ∈ (web.member owner).parcels) {post : Recovery.Post web.platform.floats}
    (posted : (web.member owner).post parcel = some post) {store : Store}
    (owned : web.Owned (web.platform.place parcel.host) store) {hosts : Json} {answer : Except Failure Answer}
    (answered : (handle web.platform.lower web.platform.intOf ⟨hosts, store, store⟩ post.request).1 = some answer)
    (heard : Client.storeShare (delivered web.platform.floats (reply answer)) = .ok ()) :
    Dict.get (Recovery.applied web.platform.lower web.platform.intOf hosts store post).shares
      (web.member owner).uuid4 = some parcel.document.value := by
  rw [(web.member owner).post_parcel sent] at posted
  cases posted
  obtain ⟨answered', rfl⟩ := answer_of_acknowledged (Option.some.inj answered) heard
  obtain ⟨document, arrivedAs, checked, existed | written⟩ := acknowledged_share answered
  · -- what was there already is the owner's, and so it is this parcel
    obtain ⟨existing, found, equal⟩ := existed
    obtain ⟨text, ownerRead, parcelOf⟩ := owned owner existing found
    have documentOwner := getItem_of_equals equal ownerRead
    obtain ⟨_, _, _, presented, name, _, _, isPresented, nameRead, matching⟩ := checkShare_eq_ok checked
    cases isPresented
    cases documentOwner.symm.trans nameRead
    obtain ⟨other, otherSent, there, isOther⟩ := parcelOf (matching.symm.trans (web.member owner).certified)
    rw [applied_keeps _ found, isOther, parcel_unique otherSent sent there]
  · rw [written, Dict.get_set_self]
    rw [arrived] at arrivedAs
    split at arrivedAs
    · cases arrivedAs
    · cases arrivedAs
      rfl

/-! ## The answers that an initiator gets -/

theorem passedOver_of_fails {formatted : Json → String} {uuid : Json} {reply : Reply} (fails : Fails reply) :
    PassedOver formatted uuid reply := by
  cases reply with
  | osError => exact ⟨.osError, rfl, rfl⟩
  | httpException => cases fails
  | response status body =>
    have failed : status ≠ 200 ∧ status ≠ 201 := fails
    by_cases missing : status = 404
    · exact ⟨.shareNotFoundError (formatted uuid), by rw [retrieveShare, if_pos missing], rfl⟩
    · exact ⟨.peerRequestError "retrieve_share" status, by rw [retrieveShare, if_neg missing, if_pos failed.1], rfl⟩

theorem answerOf_entry (state : State web) (place : Place) (uuid : String) (outage : Option Outage) (host : Setup.Host) :
    web.answerOf state place uuid outage ((web.member place).entry host) =
      web.shareReply (web.member place).commonName uuid outage (web.platform.place host)
        (state.servers (web.platform.place host)) := by
  rw [Web.answerOf, (web.member place).entry_address]
  rfl

/-- The share of a parcel, as the initiator asks for it. -/
theorem answersOwn_parcel {owner : Place} {parcel : Parcel web.platform.floats}
    (sent : parcel ∈ (web.member owner).parcels) :
    AnswersOwn web.platform.formatted (.str (web.member owner).uuid4) (web.member owner).publication
      (web.member owner).share ((web.member owner).entry parcel.host)
      (.response 200 (.document parcel.document.value)) := by
  obtain ⟨record, dealt, value⟩ := (web.member owner).mem_parcels sent
  refine ⟨parcel.host, record, parcel.document.value, dealt, (web.member owner).entry_name parcel.host, rfl, ?_, ?_⟩
  · rw [value]
    exact reads_toJson record
  · exact (web.member owner).share_of_delivery dealt ((web.member owner).peerName_entry parcel.host)

/-- A server that has the parcel hands it out to its owner. -/
theorem shareReply_stored {owner place : Place} {parcel : Parcel web.platform.floats}
    (sent : parcel ∈ (web.member owner).parcels) {serving : Serving Place web.platform.floats} {memory : Store}
    (waiting : serving.host.process = .running memory)
    (stored : Dict.get memory.shares (web.member owner).uuid4 = some parcel.document.value) :
    web.shareReply (web.member owner).commonName (web.member owner).uuid4 none place serving =
      .response 200 (.document parcel.document.value) := by
  obtain ⟨split, _, keys, _, _, value, _, _, owned⟩ := (web.member owner).parcel_record sent
  have arrives : routed web.platform.decodePath "/shares/" (web.member owner).uuid4 = some (web.member owner).uuid4 :=
    routed_of_plain web.platform.decodePath web.platform.decoded (baseCharacter_of_all (by decide))
      (web.member owner).plain
  have ownerRead : parcel.document.value.getItem "owner" = .ok (.str (web.member owner).ownName) := by
    rw [value, ← owned]
    rfl
  have matching : requireOwnerMatchesClientCert web.platform.lower (some (web.member owner).commonName)
      (.str (web.member owner).ownName) = .ok () :=
    (requireOwnerMatchesClientCert_eq_ok _ _ _).mpr ⟨_, _, rfl, rfl, (web.member owner).certified⟩
  simp only [Web.shareReply, waiting, Network.getShare, web.platform.formattedText, arrives, Server.getShare, stored,
    ownerRead, matching, ok_bind]
  exact delivered_document parcel.document.writable 200

/-- Whatever a peer answers: it is passed over, or it has handed out the share it was sent. -/
theorem shareReply_genuine {owner place : Place} (outage : Option Outage)
    {serving : Serving Place web.platform.floats}
    (owned : ∀ memory, serving.host.process = .running memory → web.Owned place memory) :
    PassedOver web.platform.formatted (.str (web.member owner).uuid4)
        (web.shareReply (web.member owner).commonName (web.member owner).uuid4 outage place serving) ∨
      ∃ parcel ∈ (web.member owner).parcels, web.platform.place parcel.host = place ∧
        web.shareReply (web.member owner).commonName (web.member owner).uuid4 outage place serving =
          .response 200 (.document parcel.document.value) := by
  cases outage with
  | some outage =>
    left
    exact passedOver_of_fails outage.fails
  | none =>
    cases process : serving.host.process with
    | running memory =>
      have arrives : routed web.platform.decodePath "/shares/" (web.member owner).uuid4 =
          some (web.member owner).uuid4 :=
        routed_of_plain web.platform.decodePath web.platform.decoded (baseCharacter_of_all (by decide))
          (web.member owner).plain
      cases found : Dict.get memory.shares (web.member owner).uuid4 with
      | none =>
        left
        simp only [Web.shareReply, process, Network.getShare, web.platform.formattedText, arrives, Server.getShare,
          found]
        exact passedOver_of_fails ⟨by decide, by decide⟩
      | some share =>
        obtain ⟨text, ownerRead, parcelOf⟩ := owned memory process owner share found
        by_cases same : web.platform.lower text = web.platform.lower (web.member owner).ownName
        · obtain ⟨parcel, sent, there, rfl⟩ := parcelOf same
          exact .inr ⟨parcel, sent, there, shareReply_stored sent process found⟩
        · left
          have refused : requireOwnerMatchesClientCert web.platform.lower (some (web.member owner).commonName)
              (.str text) = .error (.aborted 403 "owner does not match client certificate identity") := by
            rw [requireOwnerMatchesClientCert, if_pos]
            rw [(web.member owner).certified]
            exact Ne.symm same
          simp only [Web.shareReply, process, Network.getShare, web.platform.formattedText, arrives, Server.getShare,
            found, ownerRead, refused]
          exact passedOver_of_fails ⟨by decide, by decide⟩
    | _ =>
      left
      simp only [Web.shareReply, process]
      exact passedOver_of_fails trivial

end Ownership

end SecretWeb.Mesh
