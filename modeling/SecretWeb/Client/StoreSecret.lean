import SecretWeb.Client.PeerClient
import SecretWeb.HostsData
import SecretWeb.Shamir.Quorum

/-! # Storing a secret

`store_secret_cmd` splits a secret, posts one share to each of the first `shares` trusted
peers, and has the local server record the secret once `treshold` of them have accepted.
Other commands may be served between two of its requests, so what is left of a command is
a `Phase`, and the reply to its next request takes it to the following one. -/

namespace SecretWeb.Client

open SecretWeb.Data SecretWeb.Python SecretWeb.Shamir SecretWeb.HostsData

/-! ## Before the first request -/

def sharesAndTreshold (trustedPeerCount : Nat) (shares treshold : Option Int) :
    Except PyException (Int × Int) :=
  let shares := shares.getD trustedPeerCount
  let treshold := treshold.getD (shares / 2 + 1)
  if (trustedPeerCount : Int) < shares then
    .error (.clickException ("--shares " ++ toString shares ++ " exceeds the " ++ toString trustedPeerCount ++
      " trusted peer(s) in hosts.json"))
  else if ¬(2 ≤ treshold ∧ treshold ≤ shares) then
    .error (.clickException ("treshold (" ++ toString treshold ++ ") must be between 2 and shares (" ++
      toString shares ++ ")"))
  else .ok (shares, treshold)

/-- The options of the command, and what it takes from its environment. -/
structure StoreCommand where
  name : String
  secret : String
  sharesOverride : Option Int
  tresholdOverride : Option Int
  uuid4 : String
  now : String
  draws : List ChunkDraws

/-- A split secret on its way: which record goes to which peer. -/
structure Publication where
  uuid : Json
  treshold : Int
  deliveries : List (Json × Json)

section Hash

variable (sha256 : Bytes → String)

/-- The command up to its first request; `none` means that the draws ended too early. -/
def prepare (hosts : Json) (command : StoreCommand) : Except PyException (Option Publication) := do
  let ownHost ← ownHostEntry hosts
  let ownName ← ownHost.getItem "name"
  let peers ← trustedPeers hosts ownName
  if peers.isEmpty then
    .error (.clickException "no trusted peers in hosts.json to publish shares to")
  else
    let (shares, treshold) ← sharesAndTreshold peers.length command.sharesOverride command.tresholdOverride
    let secretObj ← ShamirSecret.init (.str command.name) ownName shares treshold command.uuid4
    let created ← secretObj.createSecret sha256 command.secret command.now command.draws
    match created with
    | none => return none
    | some dealt =>
      let records ← dealt.iterateParticipants
      return some
        { uuid := dealt.uuid
          treshold := treshold
          deliveries := (peers.take shares.toNat).zip (records.map ParticipantData.toJson) }

end Hash

/-! ## From request to request -/

/-- The post of a share: the peer it goes to, and what `store_share` reads before it
connects. -/
structure Post where
  peer : Json
  address : Json
  shareUuid : Json
  participantData : Json

def Post.prepare (peer participantData : Json) : Except PyException Post := do
  let address ← peer.getItem "address"
  let shareUuid ← participantData.getItem "uuid"
  return { peer := peer, address := address, shareUuid := shareUuid, participantData := participantData }

/-- A command before its next request: the post of a share, or the post of the record. -/
inductive Phase where
  | publishing (post : Post) (rest : List (Json × Json)) (successes : Nat)
  | recording (successes : Nat)
  | exited (outcome : Except PyException Unit)

/-- The head of the loop, and what follows when it ends. -/
def Phase.begin (treshold : Int) : List (Json × Json) → (successes : Nat) → Phase
  | [], successes =>
    if (successes : Int) < treshold then .exited (.error (.systemExit 1)) else .recording successes
  | (peer, participantData) :: rest, successes =>
    match Post.prepare peer participantData with
    | .error exception => .exited (.error exception)
    | .ok post => .publishing post rest successes

/-- The reply to the post of a share. -/
def Phase.published (treshold : Int) (rest : List (Json × Json)) (successes : Nat) (reply : Reply) : Phase :=
  match storeShare reply with
  | .ok () => Phase.begin treshold rest (successes + 1)
  | .error exception =>
    if requestFailed exception then Phase.begin treshold rest successes else .exited (.error exception)

/-- The reply to the post of the record; exit code 0 is `.ok`. -/
def recorded (reply : Reply) : Except PyException Unit :=
  match recordSecret reply with
  | .error exception => if requestFailed exception then .error (.systemExit 1) else .error exception
  | .ok record => do
    let _ ← record.getItem "last_updated"
    return ()

/-- The body of `record_secret`. -/
def metadata (uuid : Json) (treshold : Int) (successes : Nat) : Json :=
  .dict [("uuid", uuid), ("treshold", .int treshold), ("shares_saved", .int successes)]

/-- The loop on the replies that the posts of the shares come to. -/
def publishAll (treshold : Int) : Phase → List Reply → Phase
  | .publishing _ rest successes, reply :: replies =>
    publishAll treshold (Phase.published treshold rest successes reply) replies
  | phase, _ => phase

/-! ## What the preparation comes to -/

theorem sharesAndTreshold_eq_ok {trustedPeerCount : Nat} {sharesOverride tresholdOverride : Option Int}
    {shares treshold : Int}
    (accepted : sharesAndTreshold trustedPeerCount sharesOverride tresholdOverride = .ok (shares, treshold)) :
    shares ≤ trustedPeerCount ∧ 2 ≤ treshold ∧ treshold ≤ shares := by
  unfold sharesAndTreshold at accepted
  dsimp only at accepted
  split at accepted
  · cases accepted
  · split at accepted
    · cases accepted
    · rename_i few valid
      cases accepted
      have bounds := not_not.mp valid
      exact ⟨by omega, bounds.1, bounds.2⟩

section Hash

variable {sha256 : Bytes → String}

/-- What a prepared command is going to publish: a split of its secret, one share for each
of the first `shares` trusted peers. -/
structure Publishes (sha256 : Bytes → String) (peers : List Json) (ownName : String)
    (command : StoreCommand) (publication : Publication) (split : Split) (participants : List (List Point)) :
    Prop where
  hides : split.Hides sha256 command.secret
  deals : split.Deals participants
  name : split.name = command.name
  owner : split.owner = ownName
  splitUuid : split.uuid = command.uuid4
  uuid : publication.uuid = .str command.uuid4
  treshold : publication.treshold = split.treshold
  agreed : sharesAndTreshold peers.length command.sharesOverride command.tresholdOverride =
    .ok (split.shares, split.treshold)
  deliveries : publication.deliveries =
    (peers.take split.shares.toNat).zip (participants.map fun keys => (split.record keys).toJson)

theorem prepare_eq_ok {hosts ownHost : Json} {ownName : String} {peers : List Json} {command : StoreCommand}
    {publication : Publication} (own : ownHostEntry hosts = .ok ownHost)
    (named : ownHost.getItem "name" = .ok (.str ownName)) (trusted : trustedPeers hosts (.str ownName) = .ok peers)
    (prepared : prepare sha256 hosts command = .ok (some publication)) :
    ∃ split participants, Publishes sha256 peers ownName command publication split participants := by
  unfold prepare at prepared
  simp only [own, named, trusted, ok_bind] at prepared
  split at prepared
  · cases prepared
  · obtain ⟨⟨shares, treshold⟩, agreed, prepared⟩ := bind_eq_ok.mp prepared
    obtain ⟨secretObj, constructed, prepared⟩ := bind_eq_ok.mp prepared
    obtain ⟨created, creation, prepared⟩ := bind_eq_ok.mp prepared
    cases created with
    | none => cases prepared
    | some dealt =>
      obtain ⟨records, iterated, prepared⟩ := bind_eq_ok.mp prepared
      cases prepared
      obtain ⟨_, _, rfl⟩ := ShamirSecret.init_eq_ok.mp constructed
      obtain ⟨_, lower, upper⟩ := sharesAndTreshold_eq_ok agreed
      obtain ⟨split, participants, hides, deals, rfl, rfl, name, owner, uuid, dealtRecords⟩ :=
        createSecret_deals sha256 lower upper creation
      obtain rfl := Except.ok.inj (iterated.symm.trans dealtRecords)
      refine ⟨split, participants, hides, deals, name, owner, uuid, createSecret_uuid sha256 creation, rfl, agreed, ?_⟩
      rw [List.map_map]
      rfl

/-- A command whose options fit, with enough draws, is prepared. -/
theorem prepare_ok {hosts ownHost : Json} {ownName : String} {peers : List Json} {command : StoreCommand}
    {shares treshold : Int} (own : ownHostEntry hosts = .ok ownHost)
    (named : ownHost.getItem "name" = .ok (.str ownName)) (trusted : trustedPeers hosts (.str ownName) = .ok peers)
    (someone : peers ≠ [])
    (agreed : sharesAndTreshold peers.length command.sharesOverride command.tresholdOverride = .ok (shares, treshold))
    (bounded : (encodeUtf8 command.secret).length ≤ MAX_SECRET_BYTES)
    (count : command.draws.length = (stringToIntegers command.secret 8).length)
    (complete : ∀ chunkDraws ∈ command.draws, chunkDraws.Complete shares treshold) :
    ∃ publication, prepare sha256 hosts command = .ok (some publication) := by
  obtain ⟨_, lower, upper⟩ := sharesAndTreshold_eq_ok agreed
  have built := ShamirSecret.init_of_valid (.str command.name) (.str ownName) command.uuid4 lower upper
  obtain ⟨dealt, created⟩ := createSecret_ok sha256
    (ShamirSecret.fresh (.str command.name) (.str ownName) shares treshold command.uuid4) command.now
    bounded count complete
  obtain ⟨split, participants, _, _, _, _, _, _, _, records⟩ := createSecret_deals sha256 lower upper created
  have notEmpty : peers.isEmpty = false := List.isEmpty_eq_false_iff.mpr someone
  simp only [prepare, own, named, trusted, ok_bind, notEmpty, Bool.false_eq_true, ↓reduceIte, agreed, built,
    created, records]
  exact ⟨_, rfl⟩

end Hash

/-! ## What publishing comes to -/

/-- A record that was dealt goes out to any peer with an address. -/
theorem Post.prepare_record {peer address : Json} (addressed : peer.getItem "address" = .ok address)
    (record : ParticipantData) :
    Post.prepare peer record.toJson = .ok ⟨peer, address, record.uuid, record.toJson⟩ := by
  rw [Post.prepare, addressed, ok_bind]
  rfl

/-- Publishing never ends the command with exit code 0. -/
theorem Phase.begin_ne_ok (treshold : Int) (deliveries : List (Json × Json)) (successes : Nat) :
    Phase.begin treshold deliveries successes ≠ .exited (.ok ()) := by
  unfold Phase.begin
  split
  · split
    · simp
    · simp
  · split
    · simp
    · simp

theorem Phase.published_ne_ok (treshold : Int) (rest : List (Json × Json)) (successes : Nat) (reply : Reply) :
    Phase.published treshold rest successes reply ≠ .exited (.ok ()) := by
  unfold Phase.published
  split
  · exact Phase.begin_ne_ok treshold rest _
  · split
    · exact Phase.begin_ne_ok treshold rest successes
    · simp

theorem publishAll_ne_ok {treshold : Int} {phase : Phase} (unfinished : phase ≠ .exited (.ok ()))
    (replies : List Reply) : publishAll treshold phase replies ≠ .exited (.ok ()) := by
  induction replies generalizing phase with
  | nil =>
    cases phase with
    | publishing post rest successes => exact unfinished
    | recording successes => exact unfinished
    | exited outcome => exact unfinished
  | cons reply rest inductionHypothesis =>
    cases phase with
    | publishing post others successes =>
      exact inductionHypothesis (Phase.published_ne_ok treshold others successes reply)
    | recording successes => exact unfinished
    | exited outcome => exact unfinished

/-- When every peer accepts, and there are enough of them, the command goes on to record. -/
theorem publishAll_accepted {treshold : Int} {deliveries : List (Json × Json)} {successes : Nat}
    (prepared : ∀ delivery ∈ deliveries, ∃ post, Post.prepare delivery.1 delivery.2 = .ok post)
    (enough : treshold ≤ successes + deliveries.length) {reply : Reply} (accepts : storeShare reply = .ok ()) :
    publishAll treshold (Phase.begin treshold deliveries successes) (List.replicate deliveries.length reply) =
      .recording (successes + deliveries.length) := by
  induction deliveries generalizing successes with
  | nil =>
    simp only [List.length_nil, Nat.cast_zero, add_zero] at enough
    simp [Phase.begin, publishAll, not_lt.mpr enough]
  | cons delivery rest inductionHypothesis =>
    obtain ⟨post, found⟩ := prepared delivery List.mem_cons_self
    simp only [List.length_cons, Nat.cast_add, Nat.cast_one] at enough
    have later := @inductionHypothesis (successes + 1)
      (fun other member => prepared other (List.mem_cons_of_mem _ member)) (by omega)
    have counted : Phase.published treshold rest successes reply = Phase.begin treshold rest (successes + 1) := by
      rw [Phase.published, accepts]
    rw [Phase.begin, found, List.length_cons, List.replicate_succ]
    dsimp only
    rw [publishAll, counted, later]
    congr 1
    omega

end SecretWeb.Client
