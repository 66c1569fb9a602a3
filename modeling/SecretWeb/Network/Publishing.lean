import SecretWeb.Network.Exchange
import SecretWeb.Python.JsonText
import SecretWeb.Shamir.Quorum

/-! # Publishing a dealt share

`store_share` sends a record as JSON text, and the framework refuses a body over its memory
limit before the route sees it.  Every other check admits what the dealer hands out, so a
share gets through exactly when its points do not take too much text. -/

namespace SecretWeb.Network

open SecretWeb.Data SecretWeb.Python SecretWeb.Python.JsonText SecretWeb.Client SecretWeb.Server SecretWeb.Shamir

/-! ## The request -/

/-- `bottle.BaseRequest.MEMFILE_MAX`. -/
def MEMFILE_MAX : Nat := 102400

/-- `bottle.request.json` of a body that is sent as `application/json`. -/
def requestJson (float : List Char → PyFloat) (body : Bytes) : Except Failure Json :=
  if MEMFILE_MAX < body.length then .error (.aborted 413 "Request entity too large")
  else if body = [] then .ok .null
  else
    match (decodeUtf8 body).bind (loads float) with
    | some document => .ok document
    | none => .error (.aborted 400 "Invalid JSON")

section Requests

variable (floats : FloatText) (lower : String → String) (decodePath : Bytes → String) (formatted : Json → String)

/-- The uuid in the path and the body that `peer_client.store_share` sends. -/
def shareRequest (participantData : Json) : Except PyException (String × Bytes) := do
  let shareUuid ← participantData.getItem "uuid"
  return (formatted shareUuid, encodeUtf8 (dumps floats participantData))

/-- A post to `/shares/<share_uuid>`, from its bytes. -/
def postShareBody (server : Server) (uuid : String) (commonName : Option String) (body : Bytes) (saved : Bool) :
    Reply × Server :=
  match routed decodePath "/shares/" uuid with
  | none => (notFound, server)
  | some shareUuid =>
    let (answer, after) := Server.storeShare lower server shareUuid commonName (requestJson floats.float body) saved
    (reply answer, after)

/-- The record is accepted as new and read back as it was sent. -/
def Published (server : Server) (commonName : Option String) (record : ParticipantData) : Prop :=
  ∃ uuid body after, shareRequest floats formatted record.toJson = .ok (uuid, body) ∧
    postShareBody floats lower decodePath server uuid commonName body true =
      (.response 201 (.document (.dict [("status", .str "stored")])), after) ∧
    getShare lower decodePath after uuid commonName = .response 200 (.document record.toJson)

end Requests

/-! ## The size of a body -/

/-- What one point takes, with its brackets and a separator. -/
def pointSize (point : Point) : Nat := (decimal point.1).length + (decimal point.2).length + 6

/-- The length of a record's JSON text: its points, its texts and its two numbers, and what
the names of the fields take. -/
def bodySize (keys : List Point) (texts : List String) (treshold shares : Int) : Nat :=
  103 + (keys.map pointSize).sum + (texts.map fun text => (quoted text).length).sum +
    (decimal treshold).length + (decimal shares).length

section Size

variable (floats : FloatText)

theorem length_point (point : Point) : (dumpsChars floats (pointJson point)).length + 2 = pointSize point := by
  simp only [pointJson, dumpsChars, moreItems, pointSize, List.length_cons, List.length_append, List.length_nil]
  omega

theorem length_moreItems (keys : List Point) :
    (moreItems floats (keys.map pointJson)).length = (keys.map pointSize).sum := by
  induction keys with
  | nil => rfl
  | cons point rest inductionHypothesis =>
    have first := length_point floats point
    simp only [List.map_cons, moreItems, List.length_cons, List.length_append, inductionHypothesis, List.sum_cons]
    omega

theorem length_points {keys : List Point} (nonempty : keys ≠ []) :
    (dumpsChars floats (.list (keys.map pointJson))).length = (keys.map pointSize).sum := by
  cases keys with
  | nil => exact absurd rfl nonempty
  | cons point rest =>
    have first := length_point floats point
    simp only [List.map_cons, dumpsChars, length_moreItems, List.length_cons, List.length_append, List.length_nil,
      List.sum_cons]
    omega

theorem length_record (split : Split) {keys : List Point} (nonempty : keys ≠ []) :
    (dumpsChars floats (split.record keys).toJson).length =
      bodySize keys [split.creationDate, split.owner, split.name, split.uuid, split.secretHash] split.treshold
        split.shares := by
  have points := length_points floats nonempty
  have names : (quoted "keys").length = 6 ∧ (quoted "creation_date").length = 15 ∧ (quoted "owner").length = 7 ∧
      (quoted "name").length = 6 ∧ (quoted "uuid").length = 6 ∧ (quoted "treshold").length = 10 ∧
      (quoted "shares").length = 8 ∧ (quoted "secret_hash").length = 13 := by decide
  obtain ⟨keysName, dateName, ownerName, nameName, uuidName, tresholdName, sharesName, hashName⟩ := names
  simp only [ParticipantData.toJson, Split.record, dumpsChars, entryChars, moreEntries, List.length_cons,
    List.length_append, List.length_nil, bodySize, List.map_cons, List.map_nil, List.sum_cons, List.sum_nil,
    points, keysName, dateName, ownerName, nameName, uuidName, tresholdName, sharesName, hashName]
  omega

theorem writable_record (split : Split) (keys : List Point) : Writable floats (split.record keys).toJson := by
  have items : ∀ points : List Point, ItemsWritable floats (points.map pointJson) := by
    intro points
    induction points with
    | nil => exact trivial
    | cons point rest inductionHypothesis => exact ⟨⟨trivial, trivial, trivial⟩, inductionHypothesis⟩
  have names : ["keys", "creation_date", "owner", "name", "uuid", "treshold", "shares", "secret_hash"].Nodup := by
    decide
  refine ⟨names, items keys, ?_⟩
  exact ⟨trivial, trivial, trivial, trivial, trivial, trivial, trivial, trivial⟩

/-- ASCII text takes one byte a character. -/
theorem length_encode_dumps (document : Json) :
    (encodeUtf8 (dumps floats document)).length = (dumpsChars floats document).length := by
  have ascii : ∀ c ∈ (dumps floats document).toList, c.val ≤ 127 := by
    intro c member
    rw [dumps, String.toList_ofList] at member
    have small : c.val.toNat < 128 := ascii_dumps document c member
    exact UInt32.le_iff_toNat_le.mpr (by
      show c.val.toNat ≤ 127
      omega)
  rw [encodeUtf8_of_ascii ascii, List.length_map, dumps, String.toList_ofList]

end Size

/-! ## The framework and the text of a document -/

section Bodies

variable {floats : FloatText} {document : Json}

/-- A body within the limit reaches the route as the document it is the text of. -/
theorem requestJson_fits (writable : Writable floats document)
    (fits : (encodeUtf8 (dumps floats document)).length ≤ MEMFILE_MAX) :
    requestJson floats.float (encodeUtf8 (dumps floats document)) = .ok document := by
  have something : encodeUtf8 (dumps floats document) ≠ [] := by
    obtain ⟨c, more, shape, _⟩ := opens_dumps writable
    intro empty
    have length := length_encode_dumps floats document
    rw [empty, shape] at length
    cases length
  rw [requestJson, if_neg (by omega), if_neg something, decodeUtf8_encodeUtf8, Option.bind_some, loads_dumps writable]

theorem requestJson_large {body : Bytes} (float : List Char → PyFloat) (large : MEMFILE_MAX < body.length) :
    requestJson float body = .error (.aborted 413 "Request entity too large") := by
  rw [requestJson, if_pos large]

end Bodies

/-! ## A dealt record and the route -/

section Routes

variable {floats : FloatText} {lower : String → String} {decodePath : Bytes → String} {formatted : Json → String}
  {split : Split} {keys : List Point} {presented : String}

/-- What the dealer hands out passes every check of `store_share` but the one on its size. -/
theorem checkShare_record (carried : split.Carries keys)
    (matching : lower (hostnameFromCommonName presented) = lower split.owner) :
    checkShare lower split.uuid (some presented) (.ok (split.record keys).toJson) = .ok (split.record keys).toJson := by
  obtain ⟨after, populated, _⟩ := (@holding_fresh split (.str "") (.str "") 5 3 "" (.inr rfl) (.inr rfl)).populateDecoder carried
    (by simp) (reads_toJson (split.record keys))
  have owner : requireOwnerMatchesClientCert lower (some presented) (.str split.owner) = .ok () :=
    (requireOwnerMatchesClientCert_eq_ok lower _ _).mpr ⟨presented, split.owner, rfl, rfl, matching⟩
  have uuid : ((Dict.get ((split.record keys).toJson.asDict.getD []) "uuid").getD .null).equals (.str split.uuid) =
      true := by
    show (Json.str split.uuid).equals (.str split.uuid) = true
    simp
  have ownerField : (split.record keys).toJson.getItem "owner" = .ok (.str split.owner) := rfl
  rw [checkShare, ok_bind]
  show (if !((Dict.get ((split.record keys).toJson.asDict.getD []) "uuid").getD .null).equals (.str split.uuid) then
    (.error (.aborted 400 "uuid in body does not match uuid in path") : Except Failure Json) else _) = _
  rw [uuid]
  simp only [Bool.not_true, Bool.false_eq_true, ↓reduceIte, populated, ownerField, owner, ok_bind]
  rfl

theorem published_iff_fits (known : ∀ text, decodePath (encodeUtf8 text) = text)
    (format : ∀ text, formatted (.str text) = text) (plain : Plain split.uuid) (carried : split.Carries keys)
    (nonempty : keys ≠ []) {server : Server} (nothing : Dict.get server.memory.shares split.uuid = none)
    (matching : lower (hostnameFromCommonName presented) = lower split.owner) :
    Published floats lower decodePath formatted server (some presented) (split.record keys) ↔
      bodySize keys [split.creationDate, split.owner, split.name, split.uuid, split.secretHash] split.treshold
        split.shares ≤ MEMFILE_MAX := by
  have arrives : routed decodePath "/shares/" split.uuid = some split.uuid :=
    routed_of_plain decodePath known (baseCharacter_of_all (by decide)) plain
  have request : shareRequest floats formatted (split.record keys).toJson =
      .ok (split.uuid, encodeUtf8 (dumps floats (split.record keys).toJson)) := by
    rw [shareRequest, show (split.record keys).toJson.getItem "uuid" = .ok (.str split.uuid) from rfl, ok_bind, format]
    rfl
  have size := length_record floats split nonempty
  rw [← length_encode_dumps] at size
  rw [← size]
  constructor
  · rintro ⟨uuid, body, after, requested, posted, _⟩
    obtain ⟨rfl, rfl⟩ := Prod.mk.inj (Except.ok.inj (request.symm.trans requested))
    -- a larger body is not read, and the answer is 413
    by_contra large
    rw [postShareBody, arrives, requestJson_large floats.float (by omega)] at posted
    cases (Prod.mk.inj posted).1
  · intro fits
    have read := requestJson_fits (writable_record floats split keys) fits
    have checked := checkShare_record carried matching
    cases @storeShare_checked lower server split.uuid (some presented) _ _ true checked with
    | inl taken =>
      obtain ⟨existing, found, _⟩ := taken
      rw [nothing] at found
      cases found
    | inr stored =>
      let shares := Dict.set server.memory.shares split.uuid (split.record keys).toJson
      refine ⟨split.uuid, _, ⟨server.hosts, ⟨shares, server.memory.secrets⟩, ⟨shares, server.disk.secrets⟩⟩, request,
        ?_, ?_⟩
      · rw [postShareBody, arrives, read]
        dsimp only
        rw [stored.2]
        rfl
      · have owner : requireOwnerMatchesClientCert lower (some presented) (.str split.owner) = .ok () :=
          (requireOwnerMatchesClientCert_eq_ok lower _ _).mpr ⟨presented, split.owner, rfl, rfl, matching⟩
        have ownerField : (split.record keys).toJson.getItem "owner" = .ok (.str split.owner) := rfl
        have found : Dict.get shares split.uuid = some (split.record keys).toJson := Dict.get_set_self _ _ _
        simp only [getShare, arrives, Server.getShare, found, ownerField, owner, ok_bind]
        rfl

end Routes

/-! ## Every dealt record -/

theorem createSecret_creationDate {sha256 : Bytes → String} {secret now : String} {draws : List ChunkDraws}
    {dealer dealt : ShamirSecret} {records : List ParticipantData}
    (created : dealer.createSecret sha256 secret now draws = .ok (some dealt))
    (iterated : dealt.iterateParticipants = .ok records) {record : ParticipantData} (member : record ∈ records) :
    record.creationDate = .str now := by
  have dated : dealt.creationDate = .str now := by
    obtain ⟨_, rows, _, rfl⟩ := createSecret_eq_ok sha256 created
    rfl
  rw [iterateParticipants_record iterated member]
  exact dated

/-- Whatever the draws, the records of a dealer carry shares of one split of its secret. -/
theorem createSecret_record {sha256 : Bytes → String} {secret name owner uuid now : String} {shares treshold : Int}
    {draws : List ChunkDraws} {dealer dealt : ShamirSecret} {records : List ParticipantData}
    (built : ShamirSecret.init (.str name) (.str owner) shares treshold uuid = .ok dealer)
    (created : dealer.createSecret sha256 secret now draws = .ok (some dealt))
    (iterated : dealt.iterateParticipants = .ok records) {record : ParticipantData} (member : record ∈ records) :
    ∃ split : Split, record = split.record record.keys ∧ split.Carries record.keys ∧ split.Hides sha256 secret ∧
      split.treshold = treshold ∧ split.shares = shares ∧ split.creationDate = now ∧ split.owner = owner ∧
      split.name = name ∧ split.uuid = uuid := by
  have date := createSecret_creationDate created iterated member
  obtain ⟨lower, upper, rfl⟩ := ShamirSecret.init_eq_ok.mp built
  obtain ⟨split, participants, hides, deals, tresholdSame, sharesSame, nameSame, ownerSame, uuidSame, dealtRecords⟩ :=
    createSecret_deals sha256 lower upper created
  obtain rfl := Except.ok.inj (iterated.symm.trans dealtRecords)
  obtain ⟨keys, dealtKeys, rfl⟩ := List.mem_map.mp member
  have dateSame : split.creationDate = now := Json.str.inj date
  exact ⟨split, rfl, deals.carried keys dealtKeys, hides, tresholdSame, sharesSame, dateSame, ownerSame, nameSame,
    uuidSame⟩

theorem length_keys {sha256 : Bytes → String} {secret : String} {split : Split} {keys : List Point}
    (hides : split.Hides sha256 secret) (carried : split.Carries keys) :
    keys.length = 1 + ((encodeUtf8 secret).length + 7) / 8 := by
  rw [carried.length_eq, ← List.length_map (f := (·.secret)), hides.chunked, length_stringToIntegers]
  omega

/-- A dealt record gets through if and only if its JSON text fits the framework's memory
limit; nothing else stands in its way. -/
theorem published_iff (floats : FloatText) (lower : String → String) (decodePath : Bytes → String)
    (formatted : Json → String) (known : ∀ text, decodePath (encodeUtf8 text) = text)
    (format : ∀ text, formatted (.str text) = text) (sha256 : Bytes → String)
    (secret name owner uuid now : String) (shares treshold : Int) (draws : List ChunkDraws)
    (dealer dealt : ShamirSecret) (records : List ParticipantData) (plain : Plain uuid)
    (built : ShamirSecret.init (.str name) (.str owner) shares treshold uuid = .ok dealer)
    (created : dealer.createSecret sha256 secret now draws = .ok (some dealt))
    (iterated : dealt.iterateParticipants = .ok records) (record : ParticipantData) (member : record ∈ records)
    (server : Server) (nothing : Dict.get server.memory.shares uuid = none) (presented : String)
    (matching : lower (hostnameFromCommonName presented) = lower owner) :
    Published floats lower decodePath formatted server (some presented) record ↔
      bodySize record.keys [now, owner, name, uuid, sha256 (encodeUtf8 secret)] treshold shares ≤ MEMFILE_MAX := by
  obtain ⟨split, shape, carried, hides, rfl, rfl, rfl, rfl, rfl, rfl⟩ :=
    createSecret_record built created iterated member
  have nonempty : record.keys ≠ [] := by
    intro empty
    have count := length_keys hides carried
    rw [empty, List.length_nil] at count
    omega
  rw [shape, ← hides.hashed]
  exact published_iff_fits known format plain carried nonempty nothing matching

/-! ## Which secrets are too long -/

theorem pointSize_bounds (point : Point) : 8 ≤ pointSize point := by
  have digits : ∀ value : Int, 1 ≤ (decimal value).length := by
    intro value
    obtain ⟨first, more, shape, _⟩ := opens_decimal value
    rw [shape]
    simp
  have first := digits point.1
  have second := digits point.2
  unfold pointSize
  omega

theorem sum_pointSize (keys : List Point) : 8 * keys.length ≤ (keys.map pointSize).sum := by
  induction keys with
  | nil => exact Nat.le_refl _
  | cons point rest inductionHypothesis =>
    have first := pointSize_bounds point
    simp only [List.length_cons, List.map_cons, List.sum_cons]
    omega

/-- A secret of more bytes than the limit has no share that gets through, whatever is drawn. -/
theorem bodySize_large {sha256 : Bytes → String} {secret : String} {split : Split} {keys : List Point}
    (hides : split.Hides sha256 secret) (carried : split.Carries keys)
    (long : MEMFILE_MAX ≤ (encodeUtf8 secret).length) (texts : List String) (treshold shares : Int) :
    MEMFILE_MAX < bodySize keys texts treshold shares := by
  have count := length_keys hides carried
  have points := sum_pointSize keys
  unfold bodySize
  omega

def sampleFormatted : Json → String
  | .str text => text
  | _ => ""

def samplePath (bytes : Bytes) : String := (decodeUtf8 bytes).getD ""

def emptyServer : Server := ⟨.dict [], ⟨[], []⟩, ⟨[], []⟩⟩

theorem length_letters (count : Nat) : (encodeUtf8 (String.ofList (List.replicate count 'a'))).length = count := by
  have ascii : ∀ c ∈ (String.ofList (List.replicate count 'a')).toList, c.val ≤ 127 := by
    intro c member
    rw [String.toList_ofList] at member
    rw [List.eq_of_mem_replicate member]
    decide
  rw [encodeUtf8_of_ascii ascii, List.length_map, String.toList_ofList, List.length_replicate]

/-- The letter `a`, as often as `create_secret` accepts. -/
def longestSecret : String := String.ofList (List.replicate MAX_SECRET_BYTES 'a')

theorem plain_u1 : Plain "u1" := plain_of_all (by decide) (by decide)

/-- A secret of the largest size that `create_secret` accepts: no share of it gets through. -/
theorem longestSecret_unpublished : ∃ (dealer dealt : ShamirSecret) (records : List ParticipantData),
    ShamirSecret.init (.str "wifi") (.str "host1") 2 2 "u1" = .ok dealer ∧
    dealer.createSecret sampleSha256 longestSecret "now" (List.replicate 125001 ⟨[0], [0, 1]⟩) = .ok (some dealt) ∧
    dealt.iterateParticipants = .ok records ∧ records.length = 2 ∧
    ∀ record ∈ records, ¬Published noFloats id samplePath sampleFormatted emptyServer (some "host1") record := by
  have size : (encodeUtf8 longestSecret).length = MAX_SECRET_BYTES := length_letters _
  have built : ShamirSecret.init (.str "wifi") (.str "host1") 2 2 "u1" =
      .ok (ShamirSecret.fresh (.str "wifi") (.str "host1") 2 2 "u1") :=
    ShamirSecret.init_of_valid _ _ _ (by decide) (by decide)
  have complete : ∀ chunkDraws ∈ List.replicate 125001 (⟨[0], [0, 1]⟩ : ChunkDraws), chunkDraws.Complete 2 2 := by
    intro chunkDraws member
    rw [List.eq_of_mem_replicate member]
    exact ⟨by decide, by decide⟩
  have long : (List.replicate 125001 (⟨[0], [0, 1]⟩ : ChunkDraws)).length = 125001 := List.length_replicate
  generalize List.replicate 125001 (⟨[0], [0, 1]⟩ : ChunkDraws) = draws at complete long ⊢
  have chunks : draws.length = (stringToIntegers longestSecret 8).length := by
    rw [long, length_stringToIntegers, size]
    rfl
  have bounded : (encodeUtf8 longestSecret).length ≤ MAX_SECRET_BYTES := size.le
  obtain ⟨dealt, created⟩ := createSecret_ok sampleSha256 (ShamirSecret.fresh (.str "wifi") (.str "host1") 2 2 "u1")
    "now" bounded chunks complete
  obtain ⟨_, participants, _, deals, _, shares, _, _, _, iterated⟩ :=
    createSecret_deals sampleSha256 (by decide) (by decide) created
  have count := deals.count
  refine ⟨_, dealt, _, built, created, iterated, ?_, fun record member published => ?_⟩
  · rw [List.length_map]
    omega
  · obtain ⟨split, shape, carried, hides, _, _, _, owner, _, uuid⟩ :=
      createSecret_record built created iterated member
    have keys := length_keys hides carried
    have nonempty : record.keys ≠ [] := by
      intro empty
      rw [empty, List.length_nil] at keys
      omega
    rw [shape] at published
    have fits := (published_iff_fits (fun text => by simp [samplePath]) (fun _ => rfl) (uuid ▸ plain_u1) carried
      nonempty rfl (show "host1" = split.owner from owner.symm)).mp published
    have large := bodySize_large hides carried (by rw [size]; decide)
      [split.creationDate, split.owner, split.name, split.uuid, split.secretHash] split.treshold split.shares
    omega

/-- Two shares of a short secret. -/
theorem published_hi : ∃ (dealer dealt : ShamirSecret) (records : List ParticipantData),
    ShamirSecret.init (.str "wifi") (.str "host1") 2 2 "u1" = .ok dealer ∧
    dealer.createSecret sampleSha256 "hi" "now" [⟨[5], [0, 1]⟩, ⟨[7], [2, 3]⟩] = .ok (some dealt) ∧
    dealt.iterateParticipants = .ok records ∧ records.length = 2 ∧
    ∀ record ∈ records, Published noFloats id samplePath sampleFormatted emptyServer (some "host1") record := by
  refine ⟨_, _, _, rfl, rfl, rfl, rfl, fun record member => ?_⟩
  refine (published_iff noFloats id samplePath sampleFormatted (fun text => by simp [samplePath]) (fun _ => rfl)
    sampleSha256 "hi" "wifi" "host1" "u1" "now" 2 2 [⟨[5], [0, 1]⟩, ⟨[7], [2, 3]⟩] _ _ _ plain_u1 rfl rfl rfl record
    member emptyServer rfl "host1" rfl).mpr ?_
  have cases : record = _ ∨ record ∈ [_] := List.mem_cons.mp member
  rcases cases with rfl | last
  · decide +kernel
  · rw [List.mem_singleton.mp last]
    decide +kernel

end SecretWeb.Network
