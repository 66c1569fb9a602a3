import SecretWeb.Initiator.Collecting
import SecretWeb.Network.World
import SecretWeb.Server.Stages
import SecretWeb.Setup.Archives
import SecretWeb.Setup.ConfigIni
import SecretWeb.Setup.TypedHosts

/-! # A network of hosts

Every host has a setup that deals its KEY1 to the others, an initiator that collects it from
them again, and a server that does for the others what they do for it.  A step is one request,
one answer, or one step of one of these processes on one host. -/

namespace SecretWeb.Mesh

open SecretWeb.Data SecretWeb.Python SecretWeb.Python.JsonText SecretWeb.HostsData SecretWeb.Shamir SecretWeb.Storage
  SecretWeb.Client SecretWeb.Network SecretWeb.Setup SecretWeb.Initiator SecretWeb.Server SecretWeb.Server.Recovery

open SecretWeb.CryptoFile (Nonce)

/-! ## The hosts -/

/-- The libraries that are the same on every host, and where an address leads. -/
structure Platform (Place : Type) where
  cipher : Cipher
  floats : FloatText
  lower : String → String
  intOf : String → Option Int
  decodePath : Bytes → String
  formatted : Json → String
  sha256 : Bytes → String
  locate : Json → Place
  decoded : ∀ text, decodePath (encodeUtf8 text) = text
  formattedText : ∀ text, formatted (.str text) = text
  integers : ∀ value : Int, intOf (toString value) = some value

def Platform.place {Place : Type} (platform : Platform Place) (host : Host) : Place :=
  platform.locate (.str host.firstAddress)

/-- What is typed in, drawn and read on a host on its way to a KEY1, the `config.ini` and the
data directory it then has, and how the KEY1 will be dealt.  Setup is run once, its old data
files are out of the way, and no share is left of an earlier KEY1; names, addresses and the
certificates of the hosts tell them apart. -/
structure Member {Place : Type} (platform : Platform Place) where
  commonName : String
  typed : List Host
  ownName : String
  ownPort : Int
  now : String
  key1 : String
  uuid4 : String
  dealtAt : String
  draws : List ChunkDraws
  publication : Key1Publication
  config : Options
  nonce : (path : String) → Nonce
  before : Directory
  listed : ∃ host ∈ typed, host.name = ownName
  namedApart : (typed.map Host.name).Nodup
  placedApart : ∀ first ∈ typed, ∀ second ∈ typed, platform.place first = platform.place second → first = second
  certified : platform.lower (hostnameFromCommonName commonName) = platform.lower ownName
  plain : Plain uuid4
  dealt : dealKey1 platform.sha256 key1 typed ownName uuid4 dealtAt draws = .ok (some publication)
  isInitiated : initiated config = true
  unrecorded : Dict.get config "key1-uuid" = none
  usable : ∃ paths port,
    certPaths platform.lower (setKey1Metadata config uuid4 publication.treshold publication.shares) = .ok paths ∧
    ConfigParser.getint platform.lower platform.intOf
      (setKey1Metadata config uuid4 publication.treshold publication.shares) "server-port" = .ok port
  blank : Dict.get before SHARES_FILENAME = none

/-- No certificate is taken for that of another host. -/
structure Web (Place : Type) where
  platform : Platform Place
  member : Place → Member platform
  certificates : ∀ place other, place ≠ other →
    platform.lower (hostnameFromCommonName (member other).commonName) ≠ platform.lower (member place).ownName

/-- A record on its way to the host it was dealt to. -/
structure Parcel (floats : FloatText) where
  host : Host
  document : Document floats

section Members

variable {Place : Type} {platform : Platform Place} (member : Member platform)

/-- The content of `hosts.dta` and `hosts.json`. -/
def Member.hosts : Json := buildHostsData member.typed member.ownName member.ownPort member.now

/-- The data directory once setup has written its files. -/
def Member.directory : Directory :=
  (writesOf platform.cipher platform.floats member.key1 member.nonce member.hosts).foldl
    (fun directory file => Dict.set directory file.1 file.2) member.before

def Member.others : List Host := otherHosts member.typed member.ownName

/-- `config.ini` once KEY1 has been published. -/
def Member.recorded : Options :=
  setKey1Metadata member.config member.uuid4 member.publication.treshold member.publication.shares

theorem Member.writable {host : Host} {record : ParticipantData}
    (dealt : (host, record) ∈ member.publication.deliveries) : Writable platform.floats record.toJson := by
  obtain ⟨split, participants, publishes⟩ := dealKey1_eq_ok member.dealt
  obtain ⟨isRecord, _⟩ := publishes.carried dealt
  rw [isRecord]
  exact writable_record platform.floats split record.keys

/-- `zip(other_hosts, secret.iterate_participants())`. -/
def Member.parcels : List (Parcel platform.floats) :=
  member.publication.deliveries.attach.map fun delivery =>
    ⟨delivery.1.1, delivery.1.2.toJson, member.writable delivery.2⟩

/-- The body of a parcel as it reaches the route. -/
def arrived {floats : FloatText} (document : Document floats) : Except Failure (Document floats) :=
  if MEMFILE_MAX < (encodeUtf8 (dumps floats document.value)).length then
    .error (.aborted 413 "Request entity too large")
  else .ok document

/-- The request of `store_share`, if its target leads to the route. -/
def Member.post (parcel : Parcel platform.floats) : Option (Recovery.Post platform.floats) :=
  match parcel.document.value.getItem "uuid" with
  | .ok shareUuid =>
    (routed platform.decodePath "/shares/" (platform.formatted shareUuid)).map fun shareUuid =>
      .share shareUuid (some member.commonName) (arrived parcel.document)
  | .error _ => none

end Members

/-! ## What goes on -/

/-- Where a setup is once it has written its files.  `queue` is what is left of a round over the
hosts that remain. -/
inductive Bootstrapping (floats : FloatText) where
  | starting
  | waiting
  | polling (remaining : Dict Host) (queue : List String)
  | publishing (left : List (Parcel floats)) (awaiting : Bool)
  | recorded
  | exited

/-- A server, the KEY1 it has been started with, and the host whose setup waits for an answer of
it. -/
structure Serving (Place : Type) (floats : FloatText) where
  host : Recovery.Host floats
  key1 : String
  client : Option Place

structure State {Place : Type} (web : Web Place) where
  servers : Place → Serving Place web.platform.floats
  setups : Place → Bootstrapping web.platform.floats
  configs : Place → Options
  initiators : Place → Option Collecting

/-- Setup starts the server, sees it ready, asks the next host whether it is up, posts the next
share, writes `config.ini` or ends early; the initiator reads its files, starts a round, asks
the next peer, starts the server or is stopped; a server takes a step of its own, is killed or
gets a request of somebody else. -/
inductive Event (Place : Type) (floats : FloatText) where
  | launch (place : Place) (secretsNonce sharesNonce : Nonce)
  | ready (place : Place)
  | poll (place : Place) (arrives : Bool)
  | publish (place : Place) (nonce : Nonce)
  | record (place : Place)
  | quit (place : Place)
  | boot (place : Place) (uuid4 : String)
  | nextRound (place : Place) (shuffle : Shuffle)
  | ask (place : Place) (outage : Option Outage)
  | start (place : Place) (secretsNonce sharesNonce : Nonce)
  | stop (place : Place)
  | server (place : Place) (event : Recovery.Event floats)

namespace Web

variable {Place : Type} (web : Web Place)

/-- Every setup has written its files. -/
def initial : State web where
  servers := fun place => ⟨⟨(web.member place).directory, .down⟩, "", none⟩
  setups := fun _ => .starting
  configs := fun place => (web.member place).config
  initiators := fun _ => none

/-- One step of a server under a KEY1. -/
def serverStep (place : Place) (key1 : String) (host : Recovery.Host web.platform.floats)
    (event : Recovery.Event web.platform.floats) :
    Option (Except Failure Answer) × Recovery.Host web.platform.floats :=
  Recovery.step web.platform.cipher key1 web.platform.lower web.platform.intOf (web.member place).hosts host event

/-- `start_server`; the port of a server that is running is taken. -/
def started (key1 : String) (secretsNonce sharesNonce : Nonce) (serving : Serving Place web.platform.floats) :
    Serving Place web.platform.floats :=
  match serving.host.process with
  | .down => ⟨boots web.platform.cipher web.platform.floats key1 serving.host secretsNonce sharesNonce, key1, none⟩
  | _ => serving

/-- A server that waits for requests answers the index route. -/
def indexReply (arrives : Bool) (serving : Serving Place web.platform.floats) : Reply :=
  match arrives, serving.host.process with
  | true, .running _ => index
  | _, _ => .osError

/-- The answer to `retrieve_share`, with what the server holds. -/
def shareReply (commonName uuid : String) (outage : Option Outage) (place : Place)
    (serving : Serving Place web.platform.floats) : Reply :=
  match outage, serving.host.process with
  | some outage, _ => outage.reply
  | none, .running memory =>
    delivered web.platform.floats (Network.getShare web.platform.lower web.platform.decodePath
      ⟨(web.member place).hosts, memory, memory⟩ (web.platform.formatted (.str uuid)) (some commonName))
  | none, _ => .osError

/-- What the peer's address leads to answers. -/
def answerOf (state : State web) (place : Place) (uuid : String) (outage : Option Outage) (peer : Json) : Reply :=
  match peer.getItem "address" with
  | .ok address =>
    web.shareReply (web.member place).commonName uuid outage (web.platform.locate address)
      (state.servers (web.platform.locate address))
  | .error _ => .osError

/-- The loop over the hosts that remain, up to its next request and with the reply to it. -/
def polled (state : State web) (place : Place) (arrives : Bool) :
    Bootstrapping web.platform.floats → Bootstrapping web.platform.floats
  | .polling remaining (name :: queue) =>
    match Dict.get remaining name with
    | some host =>
      if isReachable (web.indexReply arrives (state.servers (web.platform.place host))) then
        .polling (Dict.erase remaining name) queue
      else .polling remaining queue
    | none => .exited
  | .polling remaining [] =>
    if remaining = [] then .publishing (web.member place).parcels false
    else .polling remaining (remaining.map Prod.fst)
  | setup => setup

/-- What setup does with the answer to a post. -/
def heardAnswer (answer : Except Failure Answer) :
    Bootstrapping web.platform.floats → Bootstrapping web.platform.floats
  | .publishing (_ :: left) true =>
    match Client.storeShare (delivered web.platform.floats (reply answer)) with
    | .ok () => .publishing left false
    | .error _ => .exited
  | setup => setup

/-- A connection that breaks off ends the setup that waits for an answer. -/
def hungUp : Bootstrapping web.platform.floats → Bootstrapping web.platform.floats
  | .publishing _ true => .exited
  | setup => setup

/-- Setup may end wherever it is; the record it has made stays. -/
def quitted : Bootstrapping web.platform.floats → Bootstrapping web.platform.floats
  | .recorded => .recorded
  | _ => .exited

/-- `main` of the initiator up to the loop; whatever is raised ends it. -/
def entered (config : Options) (place : Place) (uuid4 : String) : Option Collecting :=
  if initiated config then
    match prepareKey1 web.platform.lower web.platform.intOf config uuid4 (web.member place).hosts with
    | .ok loop => some loop.enter
    | .error _ => none
  else none

end Web

/-! ## One step -/

section Steps

variable {Place : Type} {web : Web Place} [DecidableEq Place]

def State.serve (state : State web) (place : Place) (serving : Serving Place web.platform.floats) : State web :=
  { state with servers := Function.update state.servers place serving }

def State.goOn (state : State web) (place : Place) (setup : Bootstrapping web.platform.floats) : State web :=
  { state with setups := Function.update state.setups place setup }

def State.configure (state : State web) (place : Place) (config : Options) : State web :=
  { state with configs := Function.update state.configs place config }

def State.initiate (state : State web) (place : Place) (initiator : Option Collecting) : State web :=
  { state with initiators := Function.update state.initiators place initiator }

/-- The setup that waits for an answer, if there is one, hears something. -/
def State.inform (state : State web) (client : Option Place)
    (hears : Bootstrapping web.platform.floats → Bootstrapping web.platform.floats) : State web :=
  match client with
  | some place => state.goOn place (hears (state.setups place))
  | none => state

namespace Web

variable (web)

/-- A server goes on by itself, or somebody else does something to it. -/
def serverEvent (state : State web) (place : Place) : Recovery.Event web.platform.floats → State web
  -- servers are started by setup and by the initiator only
  | .start _ _ => state
  | .kill =>
    let serving := state.servers place
    (state.serve place ⟨(web.serverStep place serving.key1 serving.host .kill).2, serving.key1, none⟩).inform
      serving.client web.hungUp
  | .answer =>
    let serving := state.servers place
    match web.serverStep place serving.key1 serving.host .answer with
    | (some answer, host) => (state.serve place ⟨host, serving.key1, none⟩).inform serving.client (web.heardAnswer answer)
    | (none, _) => state
  | .elsewhere name bytes =>
    let serving := state.servers place
    -- what setup has written stays as it is
    if name ∈ DATA_FILENAMES then state
    else state.serve place { serving with host := (web.serverStep place serving.key1 serving.host (.elsewhere name bytes)).2 }
  | event =>
    let serving := state.servers place
    state.serve place { serving with host := (web.serverStep place serving.key1 serving.host event).2 }

/-- The next post of a setup, which the server takes when it waits for requests. -/
def publishNext (state : State web) (place : Place) (nonce : Nonce) (parcel : Parcel web.platform.floats)
    (left : List (Parcel web.platform.floats)) : State web :=
  let target := web.platform.place parcel.host
  let serving := state.servers target
  match serving.host.process, (web.member place).post parcel with
  | .running _, some post =>
    (state.serve target ⟨(web.serverStep target serving.key1 serving.host (.post post nonce)).2, serving.key1,
      some place⟩).goOn place (.publishing (parcel :: left) true)
  | .running _, none => state.goOn place .exited
  | _, _ => state

/-- One step; one that is not due changes nothing. -/
def step (state : State web) : Event Place web.platform.floats → Unit × State web
  | .launch place secretsNonce sharesNonce =>
    match state.setups place with
    | .starting => ((), (state.serve place (web.started (web.member place).key1 secretsNonce sharesNonce
        (state.servers place))).goOn place .waiting)
    | _ => ((), state)
  | .ready place =>
    match state.setups place, (state.servers place).host.process with
    | .waiting, .running _ =>
      ((), state.goOn place (.polling ((web.member place).others.foldl (fun hosts host => Dict.set hosts host.name host)
        []) []))
    | _, _ => ((), state)
  | .poll place arrives => ((), state.goOn place (web.polled state place arrives (state.setups place)))
  | .publish place nonce =>
    match state.setups place with
    | .publishing (parcel :: left) false => ((), web.publishNext state place nonce parcel left)
    | _ => ((), state)
  | .record place =>
    match state.setups place with
    | .publishing [] false =>
      ((), (state.goOn place .recorded).configure place (setKey1Metadata (state.configs place)
        (web.member place).uuid4 (web.member place).publication.treshold (web.member place).publication.shares))
    | _ => ((), state)
  | .quit place => ((), state.goOn place (web.quitted (state.setups place)))
  | .boot place uuid4 =>
    match state.initiators place with
    | none => ((), state.initiate place (web.entered (state.configs place) place uuid4))
    | some _ => ((), state)
  | .nextRound place shuffle =>
    match state.initiators place with
    | some collecting => ((), state.initiate place (collecting.nextRound shuffle).toOption)
    | none => ((), state)
  | .ask place outage =>
    match state.initiators place with
    | some collecting =>
      match collecting.left with
      | peer :: _ => ((), state.initiate place (collecting.heard web.platform.formatted
          (web.answerOf state place collecting.loop.uuid outage peer)).toOption)
      | [] => ((), state)
    | none => ((), state)
  | .start place secretsNonce sharesNonce =>
    match state.initiators place with
    | some collecting =>
      if collecting.decoder.readyToDecode then
        match collecting.decoder.decode web.platform.sha256 with
        | .ok key1 => ((), (state.serve place (web.started key1 secretsNonce sharesNonce
            (state.servers place))).initiate place none)
        | .error _ => ((), state.initiate place none)
      else ((), state)
    | none => ((), state)
  | .stop place => ((), state.initiate place none)
  | .server place event => ((), web.serverEvent state place event)

end Web

end Steps

end SecretWeb.Mesh
