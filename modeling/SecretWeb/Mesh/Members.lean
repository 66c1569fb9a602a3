import SecretWeb.Mesh.Network

/-! # What a host knows of the others

The peers that are found in `hosts.json`, the parcels that setup sends, and the loop that the
initiator enters, all of them from the one list that was typed in. -/

namespace SecretWeb.Mesh

open SecretWeb.Data SecretWeb.Python SecretWeb.Python.JsonText SecretWeb.HostsData SecretWeb.Shamir SecretWeb.Storage
  SecretWeb.Client SecretWeb.Network SecretWeb.Setup SecretWeb.Initiator SecretWeb.Server SecretWeb.Server.Recovery

open SecretWeb.CryptoFile (Nonce)

section Members

variable {Place : Type} {platform : Platform Place} (member : Member platform)

/-- A host as `trusted_peers` hands it out. -/
def Member.entry (host : Host) : Json :=
  namedEntry host.name ((hostRecord host member.ownName member.ownPort member.now).asDict.getD [])

def Member.peers : List Json := member.others.map member.entry

/-- The points that were dealt to the host of the peer's name. -/
def Member.share (peer : Json) : List Point :=
  match member.publication.deliveries.find? fun delivery => delivery.1.name = peerName peer with
  | some delivery => delivery.2.keys
  | none => []

/-! ## The files -/

theorem Member.secrets_there : Dict.get member.directory SECRETS_FILENAME = some (blob platform.cipher platform.floats
    member.key1 SECRETS_FILE_PURPOSE (member.nonce SECRETS_FILENAME) (.dict [("secrets", .dict [])])) :=
  Dict.get_set_self _ _ _

theorem Member.shares_absent : Dict.get member.directory SHARES_FILENAME = none := by
  simp only [Member.directory, writesOf, List.foldl_cons, List.foldl_nil, Dict.get_set]
  exact member.blank

/-- The directory has the stores that setup leaves: no secrets in a file, and no file of shares. -/
theorem Member.held : Held platform.cipher member.key1 platform.floats member.directory ⟨[], []⟩ where
  writable := by
    intro file
    cases file with
    | secrets => exact writable_empty "secrets"
    | shares => exact writable_empty "shares"
  onDisk := by
    intro file
    cases file with
    | secrets => exact .inr ⟨member.nonce SECRETS_FILENAME, member.secrets_there⟩
    | shares => exact .inl ⟨member.shares_absent, rfl⟩

theorem Member.hosts_loads :
    load platform.cipher platform.floats member.directory HOSTS_FILENAME member.key1 HOSTS_FILE_PURPOSE =
      .ok member.hosts := by
  have there : Dict.get member.directory HOSTS_FILENAME = some (blob platform.cipher platform.floats member.key1
      HOSTS_FILE_PURPOSE (member.nonce HOSTS_FILENAME) member.hosts) := by
    simp only [Member.directory, writesOf, List.foldl_cons, List.foldl_nil, Dict.get_set]
    rfl
  rw [load, there]
  exact opened_blob _ _ _ (writable_buildHostsData _ _ _ _)

theorem Member.sites_loads :
    load platform.cipher platform.floats member.directory SITES_FILENAME member.key1 SITES_FILE_PURPOSE =
      .ok (.dict [("sites", .dict [])]) := by
  have there : Dict.get member.directory SITES_FILENAME = some (blob platform.cipher platform.floats member.key1
      SITES_FILE_PURPOSE (member.nonce SITES_FILENAME) (.dict [("sites", .dict [])])) := by
    simp only [Member.directory, writesOf, List.foldl_cons, List.foldl_nil, Dict.get_set]
    rfl
  rw [load, there]
  exact opened_blob _ _ _ (writable_empty "sites")

/-- The first stages of a boot go through on what setup has written. -/
theorem Member.opened :
    openOwnFiles platform.cipher platform.floats member.key1 member.directory = .ok (.dict [("sites", .dict [])]) := by
  rw [openOwnFiles, member.hosts_loads, ok_bind, member.sites_loads]

/-- The first boot gets to the file of the shares. -/
theorem Member.boots_first (secretsNonce sharesNonce : Nonce) :
    boots platform.cipher platform.floats member.key1 ⟨member.directory, .down⟩ secretsNonce sharesNonce =
      ⟨member.directory, .creatingShares defaultSecretsData (blob platform.cipher platform.floats member.key1
        SHARES_FILE_PURPOSE sharesNonce defaultSharesData) .starting⟩ := by
  have present : (Dict.get member.directory SECRETS_FILENAME).isSome = true := by
    rw [member.secrets_there, Option.isSome_some]
  have loaded : load platform.cipher platform.floats member.directory SECRETS_FILENAME member.key1
      SECRETS_FILE_PURPOSE = .ok defaultSecretsData := member.held.load_eq .secrets present
  rw [boots, member.opened]
  dsimp only
  rw [ensureSecrets, if_pos present, loaded]
  dsimp only
  rw [ensureShares, member.shares_absent, Option.isSome_none, if_neg Bool.false_ne_true]

/-! ## The peers -/

theorem Member.entry_name (host : Host) : (member.entry host).getItem "name" = .ok (.str host.name) := rfl

theorem Member.entry_address (host : Host) : (member.entry host).getItem "address" = .ok (.str host.firstAddress) := rfl

theorem Member.peerName_entry (host : Host) : peerName (member.entry host) = host.name := rfl

theorem Member.hostItems_hosts : hostItems member.hosts =
    .ok (member.typed.map fun host => (host.name, hostRecord host member.ownName member.ownPort member.now)) := by
  have built := Dict.foldl_set_apart member.typed Host.name
    (fun host => hostRecord host member.ownName member.ownPort member.now) [] (by simpa using member.namedApart)
  rw [List.nil_append] at built
  rw [Member.hosts, buildHostsData, built]
  rfl

theorem Member.collectTrusted_eq (hosts : List Host) :
    collectTrusted (.str member.ownName)
      (hosts.map fun host => (host.name, hostRecord host member.ownName member.ownPort member.now)) =
      .ok ((otherHosts hosts member.ownName).map member.entry) := by
  induction hosts with
  | nil => rfl
  | cons host rest inductionHypothesis =>
    rw [List.map_cons, collectTrusted]
    by_cases own : host.name = member.ownName
    · rw [if_pos (by simpa using own), inductionHypothesis]
      simp [otherHosts, own]
    · have status : (hostRecord host member.ownName member.ownPort member.now).getOptional "status" =
          .ok (.str "default") := by
        simp [hostRecord, Json.getOptional, Dict.get_cons, own]
      have trusted : isUntrusted (.str "default") = .ok false := by decide
      rw [if_neg (by simpa using own), status, ok_bind, trusted, ok_bind, inductionHypothesis]
      simp only [otherHosts, ne_eq, own, not_false_eq_true, decide_true, List.filter_cons_of_pos, List.map_cons]
      rfl

theorem Member.trusted : trustedPeers member.hosts (.str member.ownName) = .ok member.peers := by
  rw [trustedPeers, member.hostItems_hosts, ok_bind, member.collectTrusted_eq]
  rfl

theorem Member.peersApart : NamedApart member.peers :=
  trustedPeers_named (listed_buildHostsData _ _ _ _) member.trusted

theorem Member.mem_peers {peer : Json} (listed : peer ∈ member.peers) :
    ∃ host ∈ member.others, peer = member.entry host := by
  obtain ⟨host, there, rfl⟩ := List.mem_map.mp listed
  exact ⟨host, there, rfl⟩

theorem Member.othersApart : (member.others.map Host.name).Nodup := by
  rw [Member.others, map_name_otherHosts]
  exact member.namedApart.filter _

theorem Member.typed_of_other {host : Host} (other : host ∈ member.others) : host ∈ member.typed :=
  (mem_otherHosts.mp other).1

/-! ## The parcels -/

theorem Member.deliveries_hosts : member.publication.deliveries.map Prod.fst = member.others :=
  dealKey1_hosts member.dealt

theorem Member.other_of_delivery {host : Host} {record : ParticipantData}
    (dealt : (host, record) ∈ member.publication.deliveries) : host ∈ member.others := by
  rw [← member.deliveries_hosts]
  exact List.mem_map_of_mem dealt

/-- A host is dealt one record. -/
theorem Member.delivery_unique {left right : Host} {leftRecord rightRecord : ParticipantData}
    (leftDealt : (left, leftRecord) ∈ member.publication.deliveries)
    (rightDealt : (right, rightRecord) ∈ member.publication.deliveries) (same : left.name = right.name) :
    (left, leftRecord) = (right, rightRecord) := by
  have apart : (member.publication.deliveries.map fun delivery => delivery.1.name).Nodup := by
    have names := member.othersApart
    rw [← member.deliveries_hosts, List.map_map] at names
    exact names
  exact List.inj_on_of_nodup_map apart leftDealt rightDealt same

theorem Member.share_of_delivery {host : Host} {record : ParticipantData}
    (dealt : (host, record) ∈ member.publication.deliveries) {peer : Json} (named : peerName peer = host.name) :
    member.share peer = record.keys := by
  rw [Member.share]
  cases found : member.publication.deliveries.find? fun delivery => delivery.1.name = peerName peer with
  | none =>
    have missing := List.find?_eq_none.mp found _ dealt
    simp [named] at missing
  | some delivery =>
    have sameName := List.find?_some found
    rw [decide_eq_true_eq, named] at sameName
    have same : delivery = (host, record) :=
      member.delivery_unique (List.mem_of_find?_eq_some found) dealt sameName
    rw [same]

theorem Member.mem_parcels {parcel : Parcel platform.floats} (sent : parcel ∈ member.parcels) :
    ∃ record, (parcel.host, record) ∈ member.publication.deliveries ∧ parcel.document.value = record.toJson := by
  obtain ⟨⟨⟨host, record⟩, dealt⟩, _, rfl⟩ := List.mem_map.mp sent
  exact ⟨record, dealt, rfl⟩

theorem Member.parcel_of_delivery {host : Host} {record : ParticipantData}
    (dealt : (host, record) ∈ member.publication.deliveries) :
    ∃ parcel ∈ member.parcels, parcel.host = host ∧ parcel.document.value = record.toJson :=
  ⟨_, List.mem_map.mpr ⟨⟨(host, record), dealt⟩, List.mem_attach _ _, rfl⟩, rfl, rfl⟩

/-- A parcel is a record of one split of KEY1. -/
theorem Member.parcel_record {parcel : Parcel platform.floats} (sent : parcel ∈ member.parcels) :
    ∃ (split : Split) (participants : List (List Point)) (keys : List Point),
      PublishesKey1 platform.sha256 member.key1 member.ownName member.uuid4 member.publication split participants ∧
      (parcel.host, split.record keys) ∈ member.publication.deliveries ∧
      parcel.document.value = (split.record keys).toJson ∧ split.Carries keys ∧ split.uuid = member.uuid4 ∧
      split.owner = member.ownName := by
  obtain ⟨record, dealt, value⟩ := member.mem_parcels sent
  obtain ⟨split, participants, publishes⟩ := dealKey1_eq_ok member.dealt
  obtain ⟨isRecord, carried⟩ := publishes.carried dealt
  rw [isRecord] at dealt value
  exact ⟨split, participants, record.keys, publishes, dealt, value, carried, publishes.splitUuid, publishes.owner⟩

theorem Member.post_parcel {parcel : Parcel platform.floats} (sent : parcel ∈ member.parcels) :
    member.post parcel = some (.share member.uuid4 (some member.commonName) (arrived parcel.document)) := by
  obtain ⟨split, _, keys, _, _, value, _, uuid, _⟩ := member.parcel_record sent
  have identified : parcel.document.value.getItem "uuid" = .ok (.str member.uuid4) := by
    rw [value, ← uuid]
    rfl
  have arrives : routed platform.decodePath "/shares/" member.uuid4 = some member.uuid4 :=
    routed_of_plain platform.decodePath platform.decoded (baseCharacter_of_all (by decide)) member.plain
  rw [Member.post, identified]
  dsimp only
  rw [platform.formattedText, arrives]
  rfl

/-- What the framework makes of the bytes that `store_share` sends. -/
theorem arrived_eq {floats : FloatText} (document : Document floats) :
    (arrived document).map Document.value = requestJson floats.float (encodeUtf8 (dumps floats document.value)) := by
  rw [arrived]
  split
  · rename_i large
    rw [requestJson_large floats.float large]
    rfl
  · rename_i fits
    rw [requestJson_fits document.writable (by omega)]
    rfl

/-! ## The loop of the initiator -/

theorem no_percent_toString (value : Int) : '%' ∉ (toString value).toList := by
  have digits : ∀ count : Nat, '%' ∉ (toString count).toList := by
    intro count member
    have digit : ('%').isDigit = true := by
      refine Nat.isDigit_of_mem_toDigits (b := 10) (n := count) (by decide) (by decide) ?_
      rwa [← Nat.toList_repr]
    exact absurd digit (by decide)
  cases value with
  | ofNat count => exact digits count
  | negSucc count =>
    intro member
    have shape : (toString (Int.negSucc count)).toList = '-' :: (toString (count + 1)).toList := by
      show ("-" ++ toString (count + 1)).toList = _
      rw [String.toList_append]
      rfl
    rw [shape] at member
    cases List.mem_cons.mp member with
    | inl impossible => exact absurd impossible (by decide)
    | inr later => exact digits _ later

theorem Member.get_recorded :
    Dict.get member.recorded "key1-name" = some "key1" ∧ Dict.get member.recorded "key1-uuid" = some member.uuid4 ∧
      Dict.get member.recorded "key1-treshold" = some (toString member.publication.treshold) ∧
      Dict.get member.recorded "key1-shares" = some (toString member.publication.shares) := by
  simp [Member.recorded, setKey1Metadata, Dict.get_set]

/-- What has been recorded is read back. -/
theorem Member.readKey1Settings_recorded :
    readKey1Settings platform.lower platform.intOf member.recorded =
      .ok ⟨"key1", member.uuid4, some member.publication.treshold, some member.publication.shares⟩ := by
  obtain ⟨name, uuid, treshold, shares⟩ := member.get_recorded
  have read : ∀ option text, Dict.get member.recorded option = some text → '%' ∉ text.toList →
      ConfigParser.get platform.lower member.recorded option = .ok (some text) := by
    intro option text found plain
    rw [ConfigParser.get_plain, found]
    intro raw again
    rw [found] at again
    cases again
    exact plain
  have unescaped : '%' ∉ member.uuid4.toList := by
    intro percent
    exact absurd (member.plain.unreserved _ percent) (by decide)
  have nameRead := read _ _ name (by decide)
  have uuidRead := read _ _ uuid unescaped
  have tresholdRead := read _ _ treshold (no_percent_toString _)
  have sharesRead := read _ _ shares (no_percent_toString _)
  simp only [readKey1Settings, ConfigParser.getItem, ConfigParser.getintOrNone, nameRead, uuidRead, tresholdRead,
    sharesRead, ok_bind, ConfigParser.toInt, platform.integers]
  rfl

theorem Member.publishes :
    ∃ split participants,
      PublishesKey1 platform.sha256 member.key1 member.ownName member.uuid4 member.publication split participants :=
  dealKey1_eq_ok member.dealt

/-- The split is that of all the others, any majority of them. -/
theorem Member.treshold_eq {split : Split} {participants : List (List Point)}
    (publishes : PublishesKey1 platform.sha256 member.key1 member.ownName member.uuid4 member.publication split
      participants) : split.shares = member.others.length ∧ split.treshold = member.others.length / 2 + 1 := by
  obtain ⟨other, _, _, _, treshold, shares, _, _, _, publication⟩ := dealKey1_deals member.dealt
  have tresholdSame : member.publication.treshold = other.treshold := by rw [publication]
  have sharesSame : member.publication.shares = other.shares := by rw [publication]
  refine ⟨?_, ?_⟩
  · rw [← publishes.shares, sharesSame, shares]
    rfl
  · rw [← publishes.treshold, tresholdSame, treshold]
    rfl

theorem Member.peers_ne_nil : member.peers ≠ [] := by
  obtain ⟨split, participants, publishes⟩ := member.publishes
  obtain ⟨shares, _⟩ := member.treshold_eq publishes
  have lower := split.tresholdLower
  have upper := split.tresholdUpper
  intro nobody
  have empty : member.others = [] := List.map_eq_nil_iff.mp nobody
  rw [empty, List.length_nil] at shares
  omega

theorem Member.ownHost_hosts : ∃ entry, ownHostEntry member.hosts = .ok entry ∧
    entry.getItem "name" = .ok (.str member.ownName) :=
  ownHostEntry_buildHostsData member.ownPort member.now member.listed

/-- Once KEY1 is recorded, the initiator gets to its loop. -/
theorem Member.prepared (decoderUuid : String) :
    ∃ loop, prepareKey1 platform.lower platform.intOf member.recorded decoderUuid member.hosts = .ok loop ∧
      loop.uuid = member.uuid4 ∧ loop.peers = member.peers ∧
      ∀ split participants, PublishesKey1 platform.sha256 member.key1 member.ownName member.uuid4 member.publication
          split participants →
        loop.decoder = ShamirSecret.fresh (.str split.name) (.str split.owner) split.shares split.treshold
          decoderUuid := by
  obtain ⟨paths, port, pathsRead, portRead⟩ := member.usable
  obtain ⟨entry, found, named⟩ := member.ownHost_hosts
  obtain ⟨split, participants, publishes⟩ := member.publishes
  have settings : Initiator.key1Metadata platform.lower platform.intOf member.recorded =
      .ok ⟨"key1", member.uuid4, some member.publication.treshold, some member.publication.shares⟩ := by
    rw [Initiator.key1Metadata, member.readKey1Settings_recorded]
  have own : ownHost member.hosts = .ok entry := by rw [ownHost, found]
  have built : construct (.str "key1") (.str member.ownName) (some member.publication.shares)
      (some member.publication.treshold) decoderUuid =
        .ok (ShamirSecret.fresh (.str "key1") (.str member.ownName) member.publication.shares
          member.publication.treshold decoderUuid) := by
    rw [publishes.shares, publishes.treshold]
    exact ShamirSecret.init_of_valid _ _ decoderUuid split.tresholdLower split.tresholdUpper
  have someone : member.peers.isEmpty = false := by
    rw [← Bool.not_eq_true, List.isEmpty_iff]
    exact member.peers_ne_nil
  refine ⟨⟨member.uuid4, member.peers, paths, port, ShamirSecret.fresh (.str "key1") (.str member.ownName)
    member.publication.shares member.publication.treshold decoderUuid⟩, ?_, rfl, rfl, ?_⟩
  · rw [prepareKey1, settings, ok_bind, enterLoop, own, ok_bind, named, ok_bind, member.trusted, ok_bind, someone,
      if_neg Bool.false_ne_true]
    simp only [Member.recorded] at pathsRead portRead ⊢
    rw [pathsRead, ok_bind, portRead, ok_bind, built, ok_bind]
    rfl
  · intro other others otherPublishes
    dsimp only
    rw [otherPublishes.name, otherPublishes.owner, ← otherPublishes.shares, ← otherPublishes.treshold]

/-- Before that it reports that KEY1 has not been published. -/
theorem Member.unprepared (decoderUuid : String) :
    ∀ loop, prepareKey1 platform.lower platform.intOf member.config decoderUuid member.hosts ≠ .ok loop := by
  intro loop prepared
  obtain ⟨settings, _, _, read, _⟩ := prepareKey1_eq_ok prepared
  obtain ⟨name, _, read⟩ := bind_eq_ok.mp read
  obtain ⟨uuid, uuidRead, _⟩ := bind_eq_ok.mp read
  have missing : ConfigParser.get platform.lower member.config "key1-uuid" = .ok none := by
    rw [ConfigParser.get, member.unrecorded]
  rw [ConfigParser.getItem, missing] at uuidRead
  cases uuidRead

end Members

end SecretWeb.Mesh
