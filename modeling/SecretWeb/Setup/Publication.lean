import SecretWeb.Setup.OwnHost
import SecretWeb.Shamir.Quorum

/-! # Publishing KEY1

Setup deals KEY1 to every other host of the list it has collected, one share for each.  A
boot finds the peers to ask in `hosts.json`, where every host of that list has one entry. -/

namespace SecretWeb.Setup

open SecretWeb.Data SecretWeb.Python SecretWeb.HostsData SecretWeb.Shamir

/-! ## The peers of a written host list -/

/-- A host list as `_build_hosts_data` writes it: each name once, and each record with an
address and without a name of its own. -/
def Listed (hosts : Json) : Prop :=
  ∃ items, hostItems hosts = .ok items ∧ (items.map Prod.fst).Nodup ∧ ∀ entry ∈ items,
    ∃ record, entry.2 = .dict record ∧ Dict.get record "name" = none ∧ (Dict.get record "address").isSome = true

/-- `peer["name"]`, where it is a text. -/
def peerName (peer : Json) : String :=
  match peer.getItem "name" with
  | .ok (.str name) => name
  | _ => ""

structure NamedApart (peers : List Json) : Prop where
  named : ∀ peer ∈ peers, peer.getItem "name" = .ok (.str (peerName peer))
  addressed : ∀ peer ∈ peers, ∃ address, peer.getItem "address" = .ok address
  apart : (peers.map peerName).Nodup

theorem peerName_eq {peer : Json} {name : String} (named : peer.getItem "name" = .ok (.str name)) :
    peerName peer = name := by
  rw [peerName, named]

theorem collectTrusted_named {ownName : Json} {items : Dict Json} {peers : List Json}
    (collected : collectTrusted ownName items = .ok peers) (names : (items.map Prod.fst).Nodup)
    (records : ∀ entry ∈ items, ∃ record, entry.2 = .dict record ∧ Dict.get record "name" = none ∧
      (Dict.get record "address").isSome = true) :
    NamedApart peers ∧ ∀ peer ∈ peers, peerName peer ∈ items.map Prod.fst := by
  induction items generalizing peers with
  | nil =>
    cases collected
    exact ⟨⟨by simp, by simp, by simp⟩, by simp⟩
  | cons entry rest inductionHypothesis =>
    obtain ⟨name, value⟩ := entry
    rw [List.map_cons, List.nodup_cons] at names
    have recordsRest : ∀ entry ∈ rest, ∃ record, entry.2 = .dict record ∧ Dict.get record "name" = none ∧
        (Dict.get record "address").isSome = true :=
      fun entry member => records entry (List.mem_cons_of_mem _ member)
    have skipped : ∀ {others}, collectTrusted ownName rest = .ok others →
        NamedApart others ∧ ∀ peer ∈ others, peerName peer ∈ ((name, value) :: rest).map Prod.fst := by
      intro others collectedRest
      obtain ⟨apart, listed⟩ := inductionHypothesis collectedRest names.2 recordsRest
      exact ⟨apart, fun peer member => List.mem_cons_of_mem _ (listed peer member)⟩
    rw [collectTrusted] at collected
    split at collected
    · exact skipped collected
    · obtain ⟨status, _, collected⟩ := bind_eq_ok.mp collected
      obtain ⟨untrusted, _, collected⟩ := bind_eq_ok.mp collected
      cases untrusted with
      | true => exact skipped collected
      | false =>
        obtain ⟨others, collectedRest, returned⟩ := bind_eq_ok.mp collected
        cases returned
        obtain ⟨apart, listed⟩ := inductionHypothesis collectedRest names.2 recordsRest
        obtain ⟨record, isRecord, nameless, addressed⟩ := records _ List.mem_cons_self
        dsimp only at isRecord
        subst isRecord
        have named : (namedEntry name record).getItem "name" = .ok (.str name) := getItem_name_namedEntry name nameless
        have own := peerName_eq named
        constructor
        · refine ⟨?_, ?_, ?_⟩
          · intro peer member
            cases List.mem_cons.mp member with
            | inl first =>
              subst first
              show (namedEntry name record).getItem "name" = .ok (.str (peerName (namedEntry name record)))
              rw [own]
              exact named
            | inr later => exact apart.named peer later
          · intro peer member
            cases List.mem_cons.mp member with
            | inl first =>
              subst first
              exact getItem_address_namedEntry name addressed
            | inr later => exact apart.addressed peer later
          · rw [List.map_cons, List.nodup_cons]
            refine ⟨fun repeated => names.1 ?_, apart.apart⟩
            obtain ⟨peer, member, same⟩ := List.mem_map.mp repeated
            have inRest := listed peer member
            rw [same] at inRest
            show name ∈ rest.map Prod.fst
            rw [← own]
            exact inRest
        · intro peer member
          cases List.mem_cons.mp member with
          | inl first =>
            subst first
            rw [show peerName (namedEntry name ((Json.dict record).asDict.getD [])) = name from own]
            exact List.mem_cons_self
          | inr later => exact List.mem_cons_of_mem _ (listed peer later)

theorem trustedPeers_named {hosts ownName : Json} {peers : List Json} (listed : Listed hosts)
    (trusted : trustedPeers hosts ownName = .ok peers) : NamedApart peers := by
  obtain ⟨items, found, names, records⟩ := listed
  rw [trustedPeers, found, ok_bind] at trusted
  exact (collectTrusted_named trusted names records).1

/-- What setup writes is such a list, whatever names have been typed in. -/
theorem listed_buildHostsData (hosts : List Host) (ownName : String) (ownPort : Int) (now : String) :
    Listed (buildHostsData hosts ownName ownPort now) := by
  have nodup : ∀ records : Dict Json, (records.map Prod.fst).Nodup → ((hosts.foldl
      (fun records host => Dict.set records host.name (hostRecord host ownName ownPort now)) records).map
        Prod.fst).Nodup := by
    induction hosts with
    | nil => exact fun records names => names
    | cons host rest inductionHypothesis =>
      exact fun records names => inductionHypothesis _ (Dict.keys_set records _ _ names).1
  refine ⟨_, rfl, nodup [] List.nodup_nil, fun entry member => ?_⟩
  have recorded : Recorded ownName ownPort now [] := by
    intro entry member
    cases member
  obtain ⟨host, _, isRecord⟩ := recorded_build hosts recorded entry member
  exact ⟨_, isRecord, rfl, rfl⟩

/-! ## Dealing KEY1 -/

/-- A dealt KEY1 on its way: what config.ini gets, and which record goes to which host. -/
structure Key1Publication where
  uuid : Json
  treshold : Int
  shares : Int
  deliveries : List (Host × ParticipantData)

section Hash

variable (sha256 : Bytes → String)

/-- `_publish_key1_to_network` up to its first request. -/
def dealKey1 (key1 : String) (hosts : List Host) (ownName uuid4 now : String) (draws : List ChunkDraws) :
    Except PyException (Option Key1Publication) := do
  let otherHosts := hosts.filter fun host => host.name ≠ ownName
  let (shares, treshold) := sharesAndTreshold otherHosts
  let secret ← ShamirSecret.init (.str "key1") (.str ownName) shares treshold uuid4
  let created ← secret.createSecret sha256 key1 now draws
  match created with
  | none => return none
  | some dealt =>
    let records ← dealt.iterateParticipants
    return some
      { uuid := dealt.uuid, treshold := treshold, shares := shares, deliveries := otherHosts.zip records }

end Hash

/-- The publication hands out a split of KEY1. -/
structure PublishesKey1 (sha256 : Bytes → String) (key1 ownName uuid4 : String) (publication : Key1Publication)
    (split : Split) (participants : List (List Point)) : Prop where
  hides : split.Hides sha256 key1
  deals : split.Deals participants
  name : split.name = "key1"
  owner : split.owner = ownName
  splitUuid : split.uuid = uuid4
  uuid : publication.uuid = .str uuid4
  treshold : publication.treshold = split.treshold
  shares : publication.shares = split.shares
  deliveries : ∃ otherHosts : List Host, publication.deliveries = otherHosts.zip (participants.map split.record)

/-- What is dealt is a split of KEY1, one share for each of the other hosts. -/
theorem dealKey1_deals {sha256 : Bytes → String} {key1 ownName uuid4 now : String} {hosts : List Host}
    {draws : List ChunkDraws} {publication : Key1Publication}
    (dealt : dealKey1 sha256 key1 hosts ownName uuid4 now draws = .ok (some publication)) :
    let otherHosts := hosts.filter fun host => host.name ≠ ownName
    ∃ (split : Split) (participants : List (List Point)),
      split.Hides sha256 key1 ∧ split.Deals participants ∧ split.treshold = (sharesAndTreshold otherHosts).2 ∧
      split.shares = (sharesAndTreshold otherHosts).1 ∧ split.name = "key1" ∧ split.owner = ownName ∧
      split.uuid = uuid4 ∧
      publication = { uuid := .str uuid4, treshold := split.treshold, shares := split.shares
                      deliveries := otherHosts.zip (participants.map split.record) } := by
  unfold dealKey1 at dealt
  obtain ⟨secret, constructed, dealt⟩ := bind_eq_ok.mp dealt
  obtain ⟨created, creation, dealt⟩ := bind_eq_ok.mp dealt
  cases created with
  | none => cases dealt
  | some object =>
    obtain ⟨records, iterated, returned⟩ := bind_eq_ok.mp dealt
    cases returned
    obtain ⟨lower, upper, rfl⟩ := ShamirSecret.init_eq_ok.mp constructed
    obtain ⟨split, participants, hides, deals, treshold, shares, name, owner, uuid, dealtRecords⟩ :=
      createSecret_deals sha256 lower upper creation
    obtain rfl := Except.ok.inj (iterated.symm.trans dealtRecords)
    obtain ⟨_, rows, _, rfl⟩ := createSecret_eq_ok sha256 creation
    refine ⟨split, participants, hides, deals, treshold, shares, name, owner, uuid, ?_⟩
    rw [treshold, shares]
    rfl

theorem dealKey1_eq_ok {sha256 : Bytes → String} {key1 ownName uuid4 now : String} {hosts : List Host}
    {draws : List ChunkDraws} {publication : Key1Publication}
    (dealt : dealKey1 sha256 key1 hosts ownName uuid4 now draws = .ok (some publication)) :
    ∃ split participants, PublishesKey1 sha256 key1 ownName uuid4 publication split participants := by
  obtain ⟨split, participants, hides, deals, _, _, name, owner, uuid, rfl⟩ := dealKey1_deals dealt
  exact ⟨split, participants, hides, deals, name, owner, uuid, rfl, rfl, rfl, _, rfl⟩

section Deliveries

variable {sha256 : Bytes → String} {key1 ownName uuid4 : String} {publication : Key1Publication} {split : Split}
  {participants : List (List Point)}

theorem PublishesKey1.carried (publishes : PublishesKey1 sha256 key1 ownName uuid4 publication split participants)
    {host : Host} {record : ParticipantData} (delivery : (host, record) ∈ publication.deliveries) :
    record = split.record record.keys ∧ split.Carries record.keys := by
  obtain ⟨otherHosts, deliveries⟩ := publishes.deliveries
  rw [deliveries] at delivery
  obtain ⟨keys, member, rfl⟩ := List.mem_map.mp (List.of_mem_zip delivery).2
  exact ⟨rfl, publishes.deals.carried keys member⟩

/-- Shares that go to hosts of different names have no x-coordinate in common. -/
theorem PublishesKey1.apart (publishes : PublishesKey1 sha256 key1 ownName uuid4 publication split participants)
    {leftHost rightHost : Host} {left right : ParticipantData}
    (leftDelivery : (leftHost, left) ∈ publication.deliveries)
    (rightDelivery : (rightHost, right) ∈ publication.deliveries) (different : leftHost.name ≠ rightHost.name) :
    ¬Collide left.keys right.keys := by
  obtain ⟨otherHosts, deliveries⟩ := publishes.deliveries
  rw [deliveries] at leftDelivery rightDelivery
  obtain ⟨leftIndex, leftFound⟩ := List.mem_iff_getElem?.mp leftDelivery
  obtain ⟨rightIndex, rightFound⟩ := List.mem_iff_getElem?.mp rightDelivery
  rw [List.getElem?_zip_eq_some] at leftFound rightFound
  have indices : leftIndex ≠ rightIndex := by
    rintro rfl
    have hosts := Option.some.inj (leftFound.1.symm.trans rightFound.1)
    exact different (congrArg Host.name hosts)
  obtain ⟨leftKeys, leftDealt, leftRecord⟩ := by
    simpa only [List.getElem?_map, Option.map_eq_some_iff] using leftFound.2
  obtain ⟨rightKeys, rightDealt, rightRecord⟩ := by
    simpa only [List.getElem?_map, Option.map_eq_some_iff] using rightFound.2
  obtain ⟨leftInside, rfl⟩ := List.getElem?_eq_some_iff.mp leftDealt
  obtain ⟨rightInside, rfl⟩ := List.getElem?_eq_some_iff.mp rightDealt
  subst leftRecord
  subst rightRecord
  have pairwise := List.pairwise_iff_getElem.mp publishes.deals.apart
  cases Nat.lt_or_gt_of_ne indices with
  | inl before => exact pairwise leftIndex rightIndex leftInside rightInside before
  | inr after => exact fun collide => pairwise rightIndex leftIndex rightInside leftInside after collide.symm

end Deliveries

end SecretWeb.Setup
