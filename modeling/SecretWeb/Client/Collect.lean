import SecretWeb.Client.PeerClient
import SecretWeb.HostsData
import SecretWeb.Python.Logged
import SecretWeb.Shamir.Decoder

/-! # Reconstructing a secret from peer shares

`get_secret_cmd` and `get_key1_cmd` ask every trusted peer once, in a shuffled order;
`_collect_key1` goes on in rounds until its decoder is ready.  A `Round` fixes what the
program does not: the order `random.shuffle` puts the peers in and what each of them
answers.  A result `none` of `collectKey1` means that it is still retrying when the
rounds given run out. -/

namespace SecretWeb.Client

open SecretWeb.Data SecretWeb.Python SecretWeb.Shamir SecretWeb.HostsData

/-- One pass over peers: their order, and the reply each gives when asked for a uuid. -/
structure Round where
  shuffle : List Json → List Json
  permutes : ∀ peers, (shuffle peers).Perm peers
  answer : (peer uuid : Json) → Reply

def Round.asks (round : Round) (uuid : Json) (peers : List Json) : List (Json × Reply) :=
  (round.shuffle peers).map fun peer => (peer, round.answer peer uuid)

/-- The exceptions of `retrieve_share` that mean "try the next peer". -/
def unavailable : PyException → Bool
  | .osError | .shareNotFoundError _ | .peerRequestError _ _ => true
  | _ => false

section Collecting

-- `f"{value}"`, which builds the request target and the error text from a uuid
variable (formatted : Json → String)

/-- The body of the loop for one peer: whether its share was accepted, and the decoder
afterwards.  Only unavailable peers and refused shares are passed over. -/
def askPeer (uuid : Json) (decoder : ShamirSecret) (peer : Json) (reply : Reply) :
    Except PyException (Bool × ShamirSecret) := do
  let _ ← peer.getItem "address"
  match retrieveShare (formatted uuid) reply with
  | .error exception => if unavailable exception then .ok (false, decoder) else .error exception
  | .ok participantData =>
    match decoder.populateDecoder participantData with
    | (.ok _, after) => .ok (true, after)
    | (.error (.invalidShareError _), after) => .ok (false, after)
    | (.error exception, _) => .error exception

/-- A peer that is asked: the decoder before it, and the reply. -/
structure Ask where
  decoder : ShamirSecret
  peer : Json
  reply : Reply

/-- The loop over the peers: the decoder it ends with and the peers that contributed. -/
def askPeersLogged (uuid : Json) :
    ShamirSecret → List (Json × Reply) → Logged PyException Ask (ShamirSecret × List Json)
  | decoder, [] => pure (decoder, [])
  | decoder, (peer, reply) :: rest =>
    if decoder.readyToDecode then pure (decoder, [])
    else do
      let (accepted, after) ← Logged.noted ⟨decoder, peer, reply⟩ (askPeer formatted uuid decoder peer reply)
      let (last, contributors) ← askPeersLogged uuid after rest
      return (last, if accepted then peer :: contributors else contributors)

def askPeers (uuid : Json) (decoder : ShamirSecret) (asks : List (Json × Reply)) :
    Except PyException (ShamirSecret × List Json) :=
  (askPeersLogged formatted uuid decoder asks).outcome

/-- The asks a pass makes until its decoder is ready or an exception ends it. -/
def passSteps (uuid : Json) (decoder : ShamirSecret) (asks : List (Json × Reply)) : List Ask :=
  (askPeersLogged formatted uuid decoder asks).log

/-! ## The commands -/

section Hash

variable (sha256 : Bytes → String)

/-- What `get_secret_cmd` and `get_key1_cmd` do once they know whom to ask for what. -/
def reconstruct (treshold : Int) (uuid : Json) (decoder : ShamirSecret) (asks : List (Json × Reply)) :
    Except PyException String := do
  let (decoder, contributors) ← askPeers formatted uuid decoder asks
  if !decoder.readyToDecode then
    .error (.clickException ("only obtained " ++ toString contributors.length ++ " share(s), need " ++
      toString treshold ++ " - not enough peers responded"))
  else
    match decoder.decode sha256 with
    | .error (.shareReconstructionError message) =>
      .error (.clickException ("reconstruction failed: " ++ message))
    | outcome => outcome

/-- The constructor on values that were looked up: comparing anything but a number with
2 raises. -/
def construct (name owner : Json) (shares treshold : Option Int) (uuid4 : String) :
    Except PyException ShamirSecret :=
  match shares, treshold with
  | some shares, some treshold => ShamirSecret.init name owner shares treshold uuid4
  | some shares, none =>
    if shares < 2 then .error (.valueError "shares must be at least 2") else .error .typeError
  | none, _ => .error .typeError

/-- `lookup` is the local server's reply.  Its records hold integers, so a value of any
other type is not told apart from one the constructor cannot compare. -/
def getSecretCmd (name uuid4 : String) (lookup : Reply) (hosts : Json) (round : Round) :
    Except PyException String := do
  let ownRecord ← match getSecretMetadata name lookup with
    | .error .osError => .error (.clickException ("could not look up '" ++ name ++ "': " ++ PyException.osError.text))
    | .error (.peerRequestError operation status) =>
      .error (.clickException ("could not look up '" ++ name ++ "': " ++
        (PyException.peerRequestError operation status).text))
    | .error (.secretNotFoundError missing) =>
      .error (.clickException ("could not look up '" ++ name ++ "': " ++
        (PyException.secretNotFoundError missing).text))
    | outcome => outcome
  let ownHost ← ownHostEntry hosts
  let ownName ← ownHost.getItem "name"
  let peers ← trustedPeers hosts ownName
  let sharesSaved ← ownRecord.getItem "shares_saved"
  let treshold ← ownRecord.getItem "treshold"
  let decoder ← construct (.str name) ownName sharesSaved.asInt treshold.asInt uuid4
  let uuid ← ownRecord.getItem "uuid"
  reconstruct formatted sha256 (treshold.asInt.getD 0) uuid decoder (round.asks uuid peers)

/-- The key1 entries of config.ini; `getint` of an option that is not there is `None`. -/
structure Key1Settings where
  name : String
  uuid : String
  treshold : Option Int
  shares : Option Int

section Config

-- `int(text)`, which is partial
variable (intOf : String → Option Int)

def getint (config : Dict String) (option : String) : Except PyException (Option Int) :=
  match Dict.get config option with
  | none => .ok none
  | some text =>
    match intOf text with
    | some value => .ok (some value)
    | none => .error (.valueError ("invalid literal for int() with base 10: '" ++ text ++ "'"))

/-- `missing` is the class of the exception raised for an entry that is not there. -/
def key1Settings (missing : String → PyException) (config : Dict String) :
    Except PyException Key1Settings :=
  let absent (option : String) :=
    missing ("config.ini is missing key1 metadata ('" ++ option ++ "') - this host hasn't " ++
      "had key1 published to it yet (see setup_secretweb.py)")
  match Dict.get config "key1-name", Dict.get config "key1-uuid" with
  | none, _ => .error (absent "key1-name")
  | some _, none => .error (absent "key1-uuid")
  | some name, some uuid => do
    let treshold ← getint intOf config "key1-treshold"
    let shares ← getint intOf config "key1-shares"
    return { name := name, uuid := uuid, treshold := treshold, shares := shares }

def getKey1Cmd (config : Dict String) (uuid4 : String) (hosts : Json) (round : Round) :
    Except PyException String := do
  let settings ← key1Settings intOf .clickException config
  let ownHost ← ownHostEntry hosts
  let ownName ← ownHost.getItem "name"
  let peers ← trustedPeers hosts ownName
  let decoder ← construct (.str settings.name) ownName settings.shares settings.treshold uuid4
  reconstruct formatted sha256 (settings.treshold.getD 0) (.str settings.uuid) decoder
    (round.asks (.str settings.uuid) peers)

/-! ## The boot-time loop -/

/-- `[p for p in peers if p["name"] not in contributed]`. -/
def candidates (contributed : List Json) : List Json → Except PyException (List Json)
  | [] => .ok []
  | peer :: rest => do
    let name ← peer.getItem "name"
    if !name.hashable then .error .typeError
    else
      let others ← candidates contributed rest
      return if contributed.any name.sameMember then others else peer :: others

/-- `contributed.add(peer["name"])` for every contributor of a round. -/
def contributedNames : List Json → Except PyException (List Json)
  | [] => .ok []
  | peer :: rest => do
    let name ← peer.getItem "name"
    let names ← contributedNames rest
    return name :: names

def collectRoundsLogged (uuid : Json) (peers : List Json) :
    ShamirSecret → (contributed : List Json) → List Round → Logged PyException Ask ShamirSecret
  | decoder, _, [] => pure decoder
  | decoder, contributed, round :: rest =>
    if decoder.readyToDecode then pure decoder
    else do
      let asked ← Logged.silent (candidates contributed peers)
      let (after, contributors) ← askPeersLogged formatted uuid decoder (round.asks uuid asked)
      let names ← Logged.silent (contributedNames contributors)
      collectRoundsLogged uuid peers after (contributed ++ names) rest

def collectRounds (uuid : Json) (peers : List Json) (decoder : ShamirSecret) (contributed : List Json)
    (rounds : List Round) : Except PyException ShamirSecret :=
  (collectRoundsLogged formatted uuid peers decoder contributed rounds).outcome

/-- The asks `_collect_key1` makes. -/
def roundSteps (uuid : Json) (peers : List Json) (decoder : ShamirSecret) (contributed : List Json)
    (rounds : List Round) : List Ask :=
  (collectRoundsLogged formatted uuid peers decoder contributed rounds).log

def collectKey1 (config : Dict String) (uuid4 : String) (hosts : Json) (rounds : List Round) :
    Except PyException (Option String) := do
  let settings ← key1Settings intOf .key1ReconstructionError config
  let ownHost ← match ownHostEntry hosts with
    | .error .ownHostNotFoundError =>
      .error (.key1ReconstructionError PyException.ownHostNotFoundError.text)
    | outcome => outcome
  let ownName ← ownHost.getItem "name"
  let peers ← trustedPeers hosts ownName
  if peers.isEmpty then
    .error (.key1ReconstructionError "no trusted peers in hosts.json to ask for key1 shares")
  else
    let decoder ← construct (.str settings.name) ownName settings.shares settings.treshold uuid4
    let decoder ← collectRounds formatted (.str settings.uuid) peers decoder [] rounds
    if decoder.readyToDecode then
      let key1 ← decoder.decode sha256
      return some key1
    else return none

end Config

end Hash

/-! ## The loops without their logs, and the logs -/

section Loops

variable {formatted} {uuid : Json} {decoder : ShamirSecret}

theorem askPeers_cons (peer : Json) (reply : Reply) (rest : List (Json × Reply)) :
    askPeers formatted uuid decoder ((peer, reply) :: rest) =
      if decoder.readyToDecode then .ok (decoder, [])
      else do
        let (accepted, after) ← askPeer formatted uuid decoder peer reply
        let (last, contributors) ← askPeers formatted uuid after rest
        return (last, if accepted then peer :: contributors else contributors) := by
  rw [askPeers, askPeersLogged]
  cases decoder.readyToDecode with
  | true => rfl
  | false =>
    simp only [askPeers, Logged.outcome_bind, Logged.outcome_noted, Logged.outcome_pure, Bool.false_eq_true, ↓reduceIte]
    rfl

theorem passSteps_nil : passSteps formatted uuid decoder [] = [] := rfl

theorem passSteps_of_ready (ready : decoder.readyToDecode = true) (asks : List (Json × Reply)) :
    passSteps formatted uuid decoder asks = [] := by
  cases asks with
  | nil => rfl
  | cons ask rest => rw [passSteps, askPeersLogged, if_pos ready, Logged.log_pure]

theorem passSteps_cons (peer : Json) (reply : Reply) (rest : List (Json × Reply))
    (waiting : decoder.readyToDecode = false) :
    passSteps formatted uuid decoder ((peer, reply) :: rest) =
      ⟨decoder, peer, reply⟩ ::
        match askPeer formatted uuid decoder peer reply with
        | .ok (_, after) => passSteps formatted uuid after rest
        | .error _ => [] := by
  rw [passSteps, askPeersLogged, waiting, if_neg Bool.false_ne_true]
  cases asked : askPeer formatted uuid decoder peer reply with
  | error exception => rfl
  | ok result =>
    exact congrArg (_ :: ·) (Logged.log_bind_pure _ _)

theorem collectRounds_nil (peers contributed : List Json) :
    collectRounds formatted uuid peers decoder contributed [] = .ok decoder := rfl

theorem collectRounds_cons (peers contributed : List Json) (round : Round) (rest : List Round) :
    collectRounds formatted uuid peers decoder contributed (round :: rest) =
      (if decoder.readyToDecode then .ok decoder
      else do
        let asked ← candidates contributed peers
        let (after, contributors) ← askPeers formatted uuid decoder (round.asks uuid asked)
        let names ← contributedNames contributors
        collectRounds formatted uuid peers after (contributed ++ names) rest) := by
  rw [collectRounds, collectRoundsLogged]
  cases decoder.readyToDecode with
  | true => rfl
  | false =>
    simp only [collectRounds, askPeers, Logged.outcome_bind, Logged.outcome_silent, Bool.false_eq_true, ↓reduceIte]

theorem roundSteps_nil (peers contributed : List Json) :
    roundSteps formatted uuid peers decoder contributed [] = [] := rfl

theorem roundSteps_cons (peers contributed : List Json) (round : Round) (rest : List Round) :
    roundSteps formatted uuid peers decoder contributed (round :: rest) =
      if decoder.readyToDecode then []
      else
        match candidates contributed peers with
        | .error _ => []
        | .ok asked =>
          passSteps formatted uuid decoder (round.asks uuid asked) ++
            match askPeers formatted uuid decoder (round.asks uuid asked) with
            | .error _ => []
            | .ok (after, contributors) =>
              match contributedNames contributors with
              | .error _ => []
              | .ok names => roundSteps formatted uuid peers after (contributed ++ names) rest := by
  rw [roundSteps, collectRoundsLogged]
  cases decoder.readyToDecode with
  | true => rfl
  | false =>
    cases candidates contributed peers with
    | error exception => rfl
    | ok asked =>
      cases passed : askPeers formatted uuid decoder (round.asks uuid asked) with
      | error exception => simp [Logged.bind_of_error _ passed, passed, passSteps]
      | ok result =>
        cases named : contributedNames result.2 with
        | error exception => simp [Logged.bind_of_ok _ passed, passed, passSteps, named]
        | ok names => simp [Logged.bind_of_ok _ passed, passed, passSteps, roundSteps, named]

end Loops

/-! ## Once everything is looked up -/

section LookedUp

variable {formatted} {sha256 : Bytes → String} {intOf : String → Option Int} {config : Dict String} {uuid4 : String}
  {hosts ownHost ownName : Json} {peers : List Json} {settings : Key1Settings} {decoder : ShamirSecret}

/-- There are the rounds, and the decoding if they are enough. -/
theorem collectKey1_of_lookups (rounds : List Round)
    (configured : key1Settings intOf .key1ReconstructionError config = .ok settings)
    (own : ownHostEntry hosts = .ok ownHost) (named : ownHost.getItem "name" = .ok ownName)
    (trusted : trustedPeers hosts ownName = .ok peers)
    (built : construct (.str settings.name) ownName settings.shares settings.treshold uuid4 = .ok decoder) :
    collectKey1 formatted sha256 intOf config uuid4 hosts rounds =
      if peers = [] then .error (.key1ReconstructionError "no trusted peers in hosts.json to ask for key1 shares")
      else do
        let last ← collectRounds formatted (.str settings.uuid) peers decoder [] rounds
        if last.readyToDecode then
          let key1 ← last.decode sha256
          return some key1
        else return none := by
  simp only [collectKey1, configured, ok_bind, own, named, trusted, built, List.isEmpty_iff]

theorem getKey1Cmd_of_lookups (round : Round) (configured : key1Settings intOf .clickException config = .ok settings)
    (own : ownHostEntry hosts = .ok ownHost) (named : ownHost.getItem "name" = .ok ownName)
    (trusted : trustedPeers hosts ownName = .ok peers)
    (built : construct (.str settings.name) ownName settings.shares settings.treshold uuid4 = .ok decoder) :
    getKey1Cmd formatted sha256 intOf config uuid4 hosts round =
      reconstruct formatted sha256 (settings.treshold.getD 0) (.str settings.uuid) decoder
        (round.asks (.str settings.uuid) peers) := by
  simp only [getKey1Cmd, configured, ok_bind, own, named, trusted, built]

theorem getSecretCmd_of_lookups {name : String} {lookup : Reply} {ownRecord sharesSaved treshold uuid : Json}
    (round : Round) (looked : getSecretMetadata name lookup = .ok ownRecord)
    (own : ownHostEntry hosts = .ok ownHost) (named : ownHost.getItem "name" = .ok ownName)
    (trusted : trustedPeers hosts ownName = .ok peers) (saved : ownRecord.getItem "shares_saved" = .ok sharesSaved)
    (needed : ownRecord.getItem "treshold" = .ok treshold) (recorded : ownRecord.getItem "uuid" = .ok uuid)
    (built : construct (.str name) ownName sharesSaved.asInt treshold.asInt uuid4 = .ok decoder) :
    getSecretCmd formatted sha256 name uuid4 lookup hosts round =
      reconstruct formatted sha256 (treshold.asInt.getD 0) uuid decoder (round.asks uuid peers) := by
  simp only [getSecretCmd, looked, ok_bind, own, named, trusted, saved, needed, recorded, built]

end LookedUp

end Collecting

end SecretWeb.Client
