import SecretWeb.Python.ConfigParser
import SecretWeb.Client.Gathering
import SecretWeb.Shamir.Submissions

/-! # Faults that no retry would fix

Before the first peer is asked, the metadata of KEY1 is read from config.ini, this host and
its peers are looked up in hosts.json, and a decoder is constructed.  What is wrong with
either file is meant to be reported there, since the loop that follows has no end of its own. -/

namespace SecretWeb.Initiator

open SecretWeb.Data SecretWeb.Python SecretWeb.HostsData SecretWeb.Shamir SecretWeb.Client

structure CertPaths where
  certFile : String
  keyFile : String
  caFile : String

/-- What the retry loop goes by. -/
structure Key1Loop where
  uuid : String
  peers : List Json
  certPaths : CertPaths
  port : Int
  decoder : ShamirSecret

section Collecting

-- `str.lower` and `int(text)`
variable (lower : String → String) (intOf : String → Option Int) (config : Dict String)

/-- `_cert_paths`, up to the directory. -/
def certPaths : Except PyException CertPaths := do
  let certFile ← ConfigParser.getOr lower config "cert-file" "cert.pem"
  let keyFile ← ConfigParser.getOr lower config "key-file" "private.pem"
  let caFile ← ConfigParser.getOr lower config "ca-file" "ca.crt"
  return { certFile := certFile, keyFile := keyFile, caFile := caFile }

def readKey1Settings : Except PyException Key1Settings := do
  let name ← ConfigParser.getItem lower config "key1-name"
  let uuid ← ConfigParser.getItem lower config "key1-uuid"
  let treshold ← ConfigParser.getintOrNone lower intOf config "key1-treshold"
  let shares ← ConfigParser.getintOrNone lower intOf config "key1-shares"
  return { name := name, uuid := uuid, treshold := treshold, shares := shares }

/-- The metadata, with a `KeyError` reported. -/
def key1Metadata : Except PyException Key1Settings :=
  match readKey1Settings lower intOf config with
  | .error (.keyError key) =>
    .error (.key1ReconstructionError ("config.ini is missing key1 metadata (" ++ (PyException.keyError key).text ++
      ") - this host hasn't had key1 published to it yet (see setup_secretweb.py)"))
  | outcome => outcome

/-- `own_host_entry`, with an `OwnHostNotFoundError` reported. -/
def ownHost (hosts : Json) : Except PyException Json :=
  match ownHostEntry hosts with
  | .error .ownHostNotFoundError => .error (.key1ReconstructionError PyException.ownHostNotFoundError.text)
  | outcome => outcome

/-- From the metadata to the loop. -/
def enterLoop (uuid4 : String) (hosts : Json) (settings : Key1Settings) : Except PyException Key1Loop := do
  let ownHost ← ownHost hosts
  let ownName ← ownHost.getItem "name"
  let peers ← trustedPeers hosts ownName
  if peers.isEmpty then
    .error (.key1ReconstructionError "no trusted peers in hosts.json to ask for key1 shares")
  else do
    let certPaths ← certPaths lower config
    let port ← ConfigParser.getint lower intOf config "server-port"
    let decoder ← construct (.str settings.name) ownName settings.shares settings.treshold uuid4
    return { uuid := settings.uuid, peers := peers, certPaths := certPaths, port := port, decoder := decoder }

/-- `_collect_key1` up to its loop. -/
def prepareKey1 (uuid4 : String) (hosts : Json) : Except PyException Key1Loop := do
  let settings ← key1Metadata lower intOf config
  enterLoop lower intOf config uuid4 hosts settings

/-- The loop, over the rounds given. -/
def Key1Loop.runLogged (formatted : Json → String) (sha256 : Bytes → String) (loop : Key1Loop) (rounds : List Round) :
    Logged PyException Ask (Option String) := do
  let decoder ← collectRoundsLogged formatted (.str loop.uuid) loop.peers loop.decoder [] rounds
  if decoder.readyToDecode then
    let key1 ← Logged.silent (decoder.decode sha256)
    return some key1
  else return none

def Key1Loop.run (formatted : Json → String) (sha256 : Bytes → String) (loop : Key1Loop) (rounds : List Round) :
    Except PyException (Option String) :=
  (loop.runLogged formatted sha256 rounds).outcome

theorem Key1Loop.run_eq (formatted : Json → String) (sha256 : Bytes → String) (loop : Key1Loop)
    (rounds : List Round) : loop.run formatted sha256 rounds = (do
      let decoder ← collectRounds formatted (.str loop.uuid) loop.peers loop.decoder [] rounds
      if decoder.readyToDecode then
        let key1 ← decoder.decode sha256
        return some key1
      else return none) := by
  rw [Key1Loop.run, Key1Loop.runLogged, Logged.outcome_bind]
  refine bind_congr fun decoder => ?_
  cases decoder.readyToDecode with
  | false => rfl
  | true => rw [if_pos rfl, if_pos rfl, Logged.outcome_bind]; rfl

variable {lower intOf config}

/-! ## What the preparation raises -/

def Reported (exception : PyException) : Prop := ∃ message, exception = .key1ReconstructionError message

def KeyMissing (exception : PyException) : Prop := ∃ key, exception = .keyError key

/-- Neither caught while the metadata is read nor reported. -/
def Escapes (exception : PyException) : Prop := ¬Reported exception ∧ ¬KeyMissing exception

theorem escapes_of_unusable {exception : PyException} (unusable : ConfigParser.Unusable exception) :
    Escapes exception := by
  rcases unusable with rfl | ⟨message, rfl⟩
  · simp [Escapes, Reported, KeyMissing]
  · simp [Escapes, Reported, KeyMissing]

theorem getintOrNone_escapes (option : String) :
    Ensures Escapes (fun _ => True) (ConfigParser.getintOrNone lower intOf config option) :=
  (ConfigParser.getintOrNone_unusable option).mono (fun _ => escapes_of_unusable) fun _ _ => trivial

theorem getint_escapes (option : String) :
    Ensures Escapes (fun _ => True) (ConfigParser.getint lower intOf config option) :=
  (ConfigParser.getint_unusable option).mono (fun _ => escapes_of_unusable) fun _ _ => trivial

theorem certPaths_escapes : Ensures Escapes (fun _ => True) (certPaths lower config) := by
  have reads : ∀ option fallback, Ensures Escapes (fun _ => True) (ConfigParser.getOr lower config option fallback) :=
    fun option fallback =>
      (ConfigParser.getOr_unusable option fallback).mono (fun _ => escapes_of_unusable) fun _ _ => trivial
  apply (reads "cert-file" _).bind
  intro certFile _
  apply (reads "key-file" _).bind
  intro keyFile _
  exact (reads "ca-file" _).bind fun caFile _ => trivial

theorem getOptional_escapes (document : Json) (key : String) :
    Ensures Escapes (fun _ => True) (document.getOptional key) := by
  cases document with
  | dict entries => exact trivial
  | _ => exact ⟨by simp [Reported], by simp [KeyMissing]⟩

theorem hostItems_escapes (hosts : Json) : Ensures Escapes (fun _ => True) (hostItems hosts) := by
  unfold hostItems
  split
  · split
    · exact trivial
    · exact trivial
    · exact ⟨by simp [Reported], by simp [KeyMissing]⟩
  · exact ⟨by simp [Reported], by simp [KeyMissing]⟩

theorem trustedPeers_escapes (hosts ownName : Json) : Ensures Escapes (fun _ => True) (trustedPeers hosts ownName) := by
  apply (hostItems_escapes hosts).bind
  intro items _
  -- on the hosts: every lookup that fails does so with an exception that is not caught
  induction items with
  | nil => exact trivial
  | cons item rest inductionHypothesis =>
    obtain ⟨name, record⟩ := item
    rw [collectTrusted]
    split
    · exact inductionHypothesis
    · apply (getOptional_escapes record "status").bind
      intro status _
      have untrusted : Ensures Escapes (fun _ => True) (isUntrusted status) := by
        rw [isUntrusted]
        split
        · exact trivial
        · exact ⟨by simp [Reported], by simp [KeyMissing]⟩
      apply untrusted.bind
      intro refused _
      cases refused with
      | true => exact inductionHypothesis
      | false => exact inductionHypothesis.bind fun peers _ => trivial

/-- What `own_host_entry` raises is reported if it is an `OwnHostNotFoundError`. -/
theorem ensures_ownHost {returns : Json → Prop} (hosts : Json) :
    Ensures Reported returns (ownHost hosts) ↔
      ownHostEntry hosts = .error .ownHostNotFoundError ∨ ∃ entry, ownHostEntry hosts = .ok entry ∧ returns entry := by
  have raises : Ensures (fun exception => exception = .ownHostNotFoundError ∨ Escapes exception) (fun _ => True)
      (ownHostEntry hosts) := by
    apply ((hostItems_escapes hosts).mono (fun _ => .inr) fun _ _ => trivial).bind
    intro items _
    induction items with
    | nil => exact .inl rfl
    | cons item rest inductionHypothesis =>
      obtain ⟨name, record⟩ := item
      rw [findLocal]
      apply ((getOptional_escapes record "status").mono (fun _ => .inr) fun _ _ => trivial).bind
      intro status _
      split
      · exact trivial
      · exact inductionHypothesis
  unfold ownHost
  split
  · rename_i outcome
    simp [outcome, Reported]
  · rename_i other
    cases outcome : ownHostEntry hosts with
    | ok entry => simp
    | error exception =>
      rcases raises.raised outcome with rfl | escapes
      · exact absurd outcome other
      · have different : exception ≠ .ownHostNotFoundError := by
          rintro rfl
          exact other outcome
        simp [escapes.1, different]

theorem getItem_raises (option : String) :
    Ensures (fun exception => KeyMissing exception ∨ Escapes exception) (fun _ => True)
      (ConfigParser.getItem lower config option) := by
  apply ((ConfigParser.get_unusable option).mono (fun _ unusable => .inr (escapes_of_unusable unusable))
    fun _ _ => trivial).bind
  rintro (_ | text) _
  · exact .inl ⟨option, rfl⟩
  · exact trivial

theorem readKey1Settings_raises :
    Ensures (fun exception => KeyMissing exception ∨ Escapes exception) (fun _ => True)
      (readKey1Settings lower intOf config) := by
  have counts : ∀ option, Ensures (fun exception => KeyMissing exception ∨ Escapes exception) (fun _ => True)
      (ConfigParser.getintOrNone lower intOf config option) :=
    fun option => (getintOrNone_escapes option).mono (fun _ => .inr) fun _ _ => trivial
  apply (getItem_raises "key1-name").bind
  intro name _
  apply (getItem_raises "key1-uuid").bind
  intro uuid _
  apply (counts "key1-treshold").bind
  intro treshold _
  exact (counts "key1-shares").bind fun shares _ => trivial

theorem ensures_key1Metadata {returns : Key1Settings → Prop} :
    Ensures Reported returns (key1Metadata lower intOf config) ↔
      Ensures KeyMissing returns (readKey1Settings lower intOf config) := by
  unfold key1Metadata
  split
  · rename_i key outcome
    rw [outcome]
    simp [Reported, KeyMissing]
  · rename_i other
    cases outcome : readKey1Settings lower intOf config with
    | ok settings => simp
    | error exception =>
      rcases readKey1Settings_raises.raised outcome with ⟨key, rfl⟩ | escapes
      · exact absurd outcome (other key)
      · simp [escapes.1, escapes.2]

theorem ensures_readKey1Settings {returns : Key1Settings → Prop} :
    Ensures KeyMissing returns (readKey1Settings lower intOf config) ↔
      ConfigParser.get lower config "key1-name" = .ok none ∨
      ∃ name, ConfigParser.get lower config "key1-name" = .ok (some name) ∧
        (ConfigParser.get lower config "key1-uuid" = .ok none ∨
        ∃ uuid, ConfigParser.get lower config "key1-uuid" = .ok (some uuid) ∧
          ∃ treshold, ConfigParser.getintOrNone lower intOf config "key1-treshold" = .ok treshold ∧
            ∃ shares, ConfigParser.getintOrNone lower intOf config "key1-shares" = .ok shares ∧
              returns ⟨name, uuid, treshold, shares⟩) := by
  have never : ¬KeyMissing .configError := by simp [KeyMissing]
  have missing : ∀ key, KeyMissing (.keyError key) := fun key => ⟨key, rfl⟩
  have counts : ∀ option, Ensures (fun exception => ¬KeyMissing exception) (fun _ => True)
      (ConfigParser.getintOrNone lower intOf config option) :=
    fun option => (getintOrNone_escapes option).mono (fun _ escapes => escapes.2) fun _ _ => trivial
  simp only [readKey1Settings, ensures_bind, ConfigParser.ensures_getItem never, missing, and_true,
    ensures_iff_exists (counts _)]
  rfl

theorem construct_escapes (name owner : Json) (shares treshold : Option Int) (uuid4 : String) :
    Ensures Escapes (fun _ => True) (construct name owner shares treshold uuid4) := by
  have refused : ∀ message, Escapes (.valueError message) := by simp [Escapes, Reported, KeyMissing]
  have notANumber : Escapes .typeError := by simp [Escapes, Reported, KeyMissing]
  unfold construct
  split
  · unfold ShamirSecret.init
    split
    · exact refused _
    · split
      · exact refused _
      · split
        · exact refused _
        · exact trivial
  · split
    · exact refused _
    · exact notANumber
  · exact notANumber

/-! ## Entering the loop -/

/-- The numbers a loop can be entered with: a treshold the peers can reach. -/
structure Ready (loop : Key1Loop) : Prop where
  lower : 2 ≤ loop.decoder.treshold
  upper : loop.decoder.treshold ≤ loop.decoder.shares
  enough : loop.decoder.treshold ≤ loop.peers.length

section Asking

-- the addresses that `http.client` opens connections to
variable (connects : String → Bool)

/-- Where a peer can be asked. -/
def askable (peer : Json) : Option String :=
  match peer.getItem "address" with
  | .ok (.str address) => if connects address then some address else none
  | _ => none

/-- Where the peers can be asked, each address once. -/
def addresses (peers : List Json) : List String := (peers.filterMap (askable connects)).dedup

/-- What becomes a member of `contributed`. -/
def Members (peers : List Json) : Prop := ∀ peer ∈ peers, ∃ name, peer.getItem "name" = .ok name ∧ name.hashable = true

/-- An owner that a record can have, or one that is not compared. -/
def NamesOwner (owner : Json) : Prop := ∃ text, Expects owner text

/-- A loop that the peers that can be asked are enough for. -/
structure Completable (loop : Key1Loop) : Prop where
  lower : 2 ≤ loop.decoder.treshold
  upper : loop.decoder.treshold ≤ loop.decoder.shares
  shares : loop.decoder.shares < PRIME
  enough : loop.decoder.treshold ≤ (addresses connects loop.peers).length
  members : Members loop.peers
  owner : NamesOwner loop.decoder.owner

variable (lower intOf config)

/-- The other options can be read, and the numbers fit each other and the peers. -/
def Startable (treshold shares : Option Int) (ownName : Json) (peers : List Json) : Prop :=
  (∃ paths, certPaths lower config = .ok paths) ∧
  (∃ port, ConfigParser.getint lower intOf config "server-port" = .ok port) ∧
  ∃ tresholdValue sharesValue, treshold = some tresholdValue ∧ shares = some sharesValue ∧ 2 ≤ tresholdValue ∧
    tresholdValue ≤ sharesValue ∧ sharesValue < PRIME ∧ tresholdValue ≤ (addresses connects peers).length ∧
    Members peers ∧ NamesOwner ownName

/-- There is no local host, or no peer is trusted, or the loop can be started. -/
def HostsFit (treshold shares : Option Int) (hosts : Json) : Prop :=
  ownHostEntry hosts = .error .ownHostNotFoundError ∨
  ∃ entry, ownHostEntry hosts = .ok entry ∧ ∃ ownName, entry.getItem "name" = .ok ownName ∧
    ∃ peers, trustedPeers hosts ownName = .ok peers ∧
      (peers = [] ∨ Startable lower intOf config connects treshold shares ownName peers)

/-- An option that has to be there is missing, or the four can be read and the hosts fit. -/
def FilesFit (hosts : Json) : Prop :=
  ConfigParser.get lower config "key1-name" = .ok none ∨
  ∃ name, ConfigParser.get lower config "key1-name" = .ok (some name) ∧
    (ConfigParser.get lower config "key1-uuid" = .ok none ∨
    ∃ uuid, ConfigParser.get lower config "key1-uuid" = .ok (some uuid) ∧
      ∃ treshold, ConfigParser.getintOrNone lower intOf config "key1-treshold" = .ok treshold ∧
        ∃ shares, ConfigParser.getintOrNone lower intOf config "key1-shares" = .ok shares ∧
          HostsFit lower intOf config connects treshold shares hosts)

end Asking

variable {connects : String → Bool}

theorem construct_eq_ok_iff {name owner : Json} {shares treshold : Option Int} {uuid4 : String}
    {decoder : ShamirSecret} :
    construct name owner shares treshold uuid4 = .ok decoder ↔
      ∃ tresholdValue sharesValue, treshold = some tresholdValue ∧ shares = some sharesValue ∧ 2 ≤ tresholdValue ∧
        tresholdValue ≤ sharesValue ∧ decoder = ShamirSecret.fresh name owner sharesValue tresholdValue uuid4 := by
  unfold construct
  constructor
  · intro built
    split at built
    · obtain ⟨lower, upper, same⟩ := ShamirSecret.init_eq_ok.mp built
      exact ⟨_, _, rfl, rfl, lower, upper, same⟩
    · split at built
      · cases built
      · cases built
    · cases built
  · rintro ⟨tresholdValue, sharesValue, rfl, rfl, lower, upper, rfl⟩
    exact ShamirSecret.init_of_valid _ _ uuid4 lower upper

/-- The end of the preparation, with peers to ask. -/
theorem ensures_decoder {peers : List Json} {settings : Key1Settings} {ownName : Json} {uuid4 : String} :
    Ensures Reported (Completable connects) (do
      let certPaths ← certPaths lower config
      let port ← ConfigParser.getint lower intOf config "server-port"
      let decoder ← construct (.str settings.name) ownName settings.shares settings.treshold uuid4
      return ({ uuid := settings.uuid, peers := peers, certPaths := certPaths, port := port, decoder := decoder }
        : Key1Loop)) ↔
      Startable lower intOf config connects settings.treshold settings.shares ownName peers := by
  have never : ∀ {α : Type} {computation : Except PyException α}, Ensures Escapes (fun _ => True) computation →
      Ensures (fun exception => ¬Reported exception) (fun _ => True) computation :=
    fun escapes => escapes.mono (fun _ escapes => escapes.1) fun _ _ => trivial
  simp only [ensures_bind, ensures_iff_exists (never certPaths_escapes), ensures_iff_exists (never (getint_escapes _)),
    ensures_iff_exists (never (construct_escapes _ _ _ _ _)), construct_eq_ok_iff]
  constructor
  · rintro ⟨paths, pathsRead, port, portRead, decoder, ⟨treshold, shares, tresholdSome, sharesSome, _, _, rfl⟩, fits⟩
    exact ⟨⟨paths, pathsRead⟩, ⟨port, portRead⟩, treshold, shares, tresholdSome, sharesSome, fits.lower, fits.upper,
      fits.shares, fits.enough, fits.members, fits.owner⟩
  · rintro ⟨⟨paths, pathsRead⟩, ⟨port, portRead⟩, treshold, shares, tresholdSome, sharesSome, lower, upper, bounded,
      enough, members, owner⟩
    exact ⟨paths, pathsRead, port, portRead, _, ⟨treshold, shares, tresholdSome, sharesSome, lower, upper, rfl⟩,
      ⟨lower, upper, bounded, enough, members, owner⟩⟩

theorem ensures_enterLoop {uuid4 : String} {hosts : Json} {settings : Key1Settings} :
    Ensures Reported (Completable connects) (enterLoop lower intOf config uuid4 hosts settings) ↔
      HostsFit lower intOf config connects settings.treshold settings.shares hosts := by
  -- whatever `trustedPeers` raises is not caught, so it has to succeed
  have never : ∀ ownName, Ensures (fun exception => ¬Reported exception) (fun _ => True) (trustedPeers hosts ownName) :=
    fun ownName => (trustedPeers_escapes hosts ownName).mono (fun _ escapes => escapes.1) fun _ _ => trivial
  rw [enterLoop, ensures_bind, ensures_ownHost, HostsFit]
  apply or_congr_right
  apply exists_congr
  intro entry
  apply and_congr_right
  intro found
  obtain ⟨own, named⟩ := getItem_name_of_ownHostEntry found
  simp only [named, ok_bind, ensures_bind, ensures_iff_exists (never _), Except.ok.injEq, exists_eq_left']
  apply exists_congr
  intro peers
  apply and_congr_right
  intro trusted
  by_cases nobody : peers = []
  · subst nobody
    simp [Reported]
  · have someone : peers.isEmpty = false := List.isEmpty_eq_false_iff.mpr nobody
    simp only [someone, Bool.false_eq_true, ↓reduceIte, nobody, false_or]
    exact ensures_decoder

theorem ensures_prepareKey1 (uuid4 : String) (hosts : Json) :
    Ensures Reported (Completable connects) (prepareKey1 lower intOf config uuid4 hosts) ↔
      FilesFit lower intOf config connects hosts := by
  rw [prepareKey1, ensures_bind, ensures_key1Metadata, ensures_readKey1Settings, FilesFit]
  simp only [ensures_enterLoop]

/-! ## The loop that is entered -/

theorem prepareKey1_eq_ok {uuid4 : String} {hosts : Json} {loop : Key1Loop}
    (prepared : prepareKey1 lower intOf config uuid4 hosts = .ok loop) :
    ∃ settings entry ownName, readKey1Settings lower intOf config = .ok settings ∧ ownHostEntry hosts = .ok entry ∧
      entry.getItem "name" = .ok ownName ∧ trustedPeers hosts ownName = .ok loop.peers ∧ loop.peers ≠ [] ∧
      construct (.str settings.name) ownName settings.shares settings.treshold uuid4 = .ok loop.decoder ∧
      loop.uuid = settings.uuid := by
  obtain ⟨settings, read, entered⟩ := bind_eq_ok.mp prepared
  obtain ⟨entry, found, entered⟩ := bind_eq_ok.mp entered
  obtain ⟨ownName, named, entered⟩ := bind_eq_ok.mp entered
  obtain ⟨peers, trusted, entered⟩ := bind_eq_ok.mp entered
  have settingsRead : readKey1Settings lower intOf config = .ok settings := by
    unfold key1Metadata at read
    split at read
    · cases read
    · exact read
  have entryFound : ownHostEntry hosts = .ok entry := by
    unfold ownHost at found
    split at found
    · cases found
    · exact found
  split at entered
  · cases entered
  · rename_i someone
    obtain ⟨paths, _, entered⟩ := bind_eq_ok.mp entered
    obtain ⟨port, _, entered⟩ := bind_eq_ok.mp entered
    obtain ⟨decoder, constructed, returned⟩ := bind_eq_ok.mp entered
    cases returned
    refine ⟨settings, entry, ownName, settingsRead, entryFound, named, trusted, ?_, constructed, rfl⟩
    rintro empty
    exact someone (List.isEmpty_iff.mpr empty)

theorem getint_of_read {values : Dict String} {option : String} {value : Option Int}
    (same : ConfigParser.get lower config option = .ok (Dict.get values option))
    (read : ConfigParser.getintOrNone lower intOf config option = .ok value) :
    Client.getint intOf values option = .ok value := by
  rw [ConfigParser.getintOrNone, same, ok_bind] at read
  rw [Client.getint]
  cases found : Dict.get values option with
  | none =>
    rw [found] at read
    exact read
  | some text =>
    rw [found] at read
    simp only [ConfigParser.toInt] at read ⊢
    cases converted : intOf text with
    | none =>
      rw [converted] at read
      cases read
    | some number =>
      rw [converted] at read
      exact read

theorem getItem_of_read {values : Dict String} {option text : String}
    (same : ConfigParser.get lower config option = .ok (Dict.get values option))
    (read : ConfigParser.getItem lower config option = .ok text) : Dict.get values option = some text := by
  rw [ConfigParser.getItem, same, ok_bind] at read
  cases found : Dict.get values option with
  | none =>
    rw [found] at read
    cases read
  | some other =>
    rw [found] at read
    cases read
    rfl

/-- Once the loop is entered, `_collect_key1` is the loop, on the values the parser reads. -/
theorem collectKey1_of_prepared {formatted : Json → String} {sha256 : Bytes → String} {uuid4 : String} {hosts : Json}
    {values : Dict String} {loop : Key1Loop} (rounds : List Round)
    (same : ∀ option ∈ ["key1-name", "key1-uuid", "key1-treshold", "key1-shares"],
      ConfigParser.get lower config option = .ok (Dict.get values option))
    (prepared : prepareKey1 lower intOf config uuid4 hosts = .ok loop) :
    collectKey1 formatted sha256 intOf values uuid4 hosts rounds = loop.run formatted sha256 rounds := by
  obtain ⟨settings, entry, ownName, read, found, named, trusted, someone, constructed, uuid⟩ :=
    prepareKey1_eq_ok prepared
  obtain ⟨name, nameRead, read⟩ := bind_eq_ok.mp read
  obtain ⟨key1Uuid, uuidRead, read⟩ := bind_eq_ok.mp read
  obtain ⟨treshold, tresholdRead, read⟩ := bind_eq_ok.mp read
  obtain ⟨shares, sharesRead, read⟩ := bind_eq_ok.mp read
  cases read
  have nameFound := getItem_of_read (same _ (by simp)) nameRead
  have uuidFound := getItem_of_read (same _ (by simp)) uuidRead
  have settingsRead : key1Settings intOf .key1ReconstructionError values = .ok ⟨name, key1Uuid, treshold, shares⟩ := by
    rw [key1Settings, nameFound, uuidFound]
    dsimp only
    rw [getint_of_read (same _ (by simp)) tresholdRead, ok_bind, getint_of_read (same _ (by simp)) sharesRead, ok_bind]
    rfl
  rw [collectKey1_of_lookups rounds settingsRead found named trusted constructed, if_neg someone, Key1Loop.run_eq, uuid]

/-! ## Genuine answers -/

/-- Shares that one dealing has left at addresses, each of them at one. -/
structure Kept (split : Split) (participants : List (List Point)) (share : String → Option (List Point)) : Prop where
  deals : split.Deals participants
  dealt : ∀ address keys, share address = some keys → keys ∈ participants
  once : ∀ left right keys, share left = some keys → share right = some keys → left = right

/-- A peer that can be asked answers with the share at its address, unless its answer means that
the next one is to be asked; the others answer nothing. -/
def AnswersKept (formatted : Json → String) (uuid : Json) (split : Split) (connects : String → Bool)
    (share : String → Option (List Point)) (peer : Json) (reply : Reply) : Prop :=
  match askable connects peer with
  | some address =>
    PassedOver formatted uuid reply ∨ ∃ keys, share address = some keys ∧ Delivers formatted uuid split keys reply
  | none => reply = .osError ∨ reply = .httpException

/-- The rounds answer with shares of one split of KEY1, with the name, uuid, owner and numbers the
loop goes by, and the loop ends with KEY1. -/
structure Completes (formatted : Json → String) (sha256 : Bytes → String) (connects : String → Bool) (loop : Key1Loop)
    (key1 : String) (split : Split) (participants : List (List Point)) (share : String → Option (List Point))
    (rounds : List Round) : Prop where
  hides : split.Hides sha256 key1
  name : loop.decoder.name = .str split.name
  owner : Expects loop.decoder.owner split.owner
  uuid : split.uuid = loop.uuid
  treshold : split.treshold = loop.decoder.treshold
  shares : split.shares = loop.decoder.shares
  kept : Kept split participants share
  genuine : ∀ round ∈ rounds, ∀ peer ∈ loop.peers,
    AnswersKept formatted (.str loop.uuid) split connects share peer (round.answer peer (.str loop.uuid))
  completes : loop.run formatted sha256 rounds = .ok (some key1)

/-- A split of KEY1 with these numbers. -/
def splitOf (sha256 : Bytes → String) (key1 name owner uuid : String) {treshold shares : Int}
    (bounded : (encodeUtf8 key1).length ≤ MAX_SECRET_BYTES) (lower : 2 ≤ treshold) (upper : treshold ≤ shares) :
    Split where
  chunks := (stringToIntegers key1 8).map fun integer => ⟨integer, List.replicate (treshold - 1).toNat 1⟩
  treshold := treshold
  shares := shares
  creationDate := ""
  owner := owner
  name := name
  uuid := uuid
  secretHash := sha256 (encodeUtf8 key1)
  nonempty := by
    intro empty
    rw [List.map_eq_nil_iff] at empty
    cases empty
  tresholdLower := lower
  tresholdUpper := upper
  reduced := by
    intro chunk member
    obtain ⟨integer, integerMember, rfl⟩ := List.mem_map.mp member
    exact stringToIntegers_reduced bounded integer integerMember
  degree := by
    intro chunk member
    obtain ⟨integer, _, rfl⟩ := List.mem_map.mp member
    rw [List.length_replicate]
    omega

theorem splitOf_hides {sha256 : Bytes → String} {key1 name owner uuid : String} {treshold shares : Int}
    (bounded : (encodeUtf8 key1).length ≤ MAX_SECRET_BYTES) (lower : 2 ≤ treshold) (upper : treshold ≤ shares) :
    (splitOf sha256 key1 name owner uuid bounded lower upper).Hides sha256 key1 where
  chunked := by
    rw [splitOf, List.map_map]
    exact List.map_id _
  hashed := rfl

/-! ## Enough peers that can be asked -/

theorem getItem_of_askable {peer : Json} {address : String} (asked : askable connects peer = some address) :
    peer.getItem "address" = .ok (.str address) := by
  unfold askable at asked
  split at asked
  · rename_i text found
    split at asked
    · cases asked
      exact found
    · cases asked
  · cases asked

theorem mem_addresses {peers : List Json} {address : String} :
    address ∈ addresses connects peers ↔ ∃ peer ∈ peers, askable connects peer = some address := by
  rw [addresses, List.mem_dedup, List.mem_filterMap]

/-- As many shares as are dealt, at the addresses in their order. -/
def shareOf (split : Split) (places : List String) (address : String) : Option (List Point) :=
  if address ∈ places ∧ (places.idxOf address : Int) < split.shares then
    some (split.shareAt (places.idxOf address + 1))
  else none

def dealtShares (split : Split) : List (List Point) :=
  (List.range split.shares.toNat).map fun index : Nat => split.shareAt ((index : Int) + 1)

theorem shareAt_inj {split : Split} {left right : Int} (positive : 0 < left) (bounded : left < PRIME)
    (same : split.shareAt left = split.shareAt right) : left = right := by
  by_contra different
  refine not_collide_shareAt split different ?_
  rw [← same]
  exact collide_self (split.carries_shareAt positive bounded)

theorem deals_dealtShares {split : Split} (bounded : split.shares < PRIME) : split.Deals (dealtShares split) where
  count := by
    have lower := split.tresholdLower
    have upper := split.tresholdUpper
    rw [dealtShares, List.length_map, List.length_range, Int.toNat_of_nonneg (by omega)]
  carried := by
    intro keys member
    obtain ⟨index, inside, rfl⟩ := List.mem_map.mp member
    have bound := List.mem_range.mp inside
    exact split.carries_shareAt (by omega) (by omega)
  apart := by
    refine List.pairwise_map.mpr (List.nodup_range.imp fun different => ?_)
    apply not_collide_shareAt
    omega

theorem kept_shareOf {split : Split} (bounded : split.shares < PRIME) (places : List String) :
    Kept split (dealtShares split) (shareOf split places) where
  deals := deals_dealtShares bounded
  dealt := by
    intro address keys placed
    unfold shareOf at placed
    split at placed
    · rename_i there
      cases placed
      exact List.mem_map.mpr ⟨places.idxOf address, List.mem_range.mpr (by omega), rfl⟩
    · cases placed
  once := by
    intro left right keys leftPlaced rightPlaced
    unfold shareOf at leftPlaced rightPlaced
    split at leftPlaced
    · split at rightPlaced
      · rename_i leftThere rightThere
        cases leftPlaced
        have same := shareAt_inj (by omega) (by omega) (Option.some.inj rightPlaced)
        have places : places.idxOf right = places.idxOf left := by omega
        exact ((List.idxOf_inj rightThere.1).mp places).symm
      · cases rightPlaced
    · cases leftPlaced

/-- Those that can be asked come first, and all of them answer. -/
def askableFirst (connects : String → Bool) (split : Split) (share : String → Option (List Point)) : Round where
  shuffle := fun peers =>
    peers.filter (fun peer => (askable connects peer).isSome) ++ peers.filter fun peer => !(askable connects peer).isSome
  permutes := List.filter_append_perm _
  answer := fun peer _ =>
    match (askable connects peer).bind share with
    | some keys => .response 200 (.document (split.record keys).toJson)
    | none => .osError

theorem askableFirst_delivers (formatted : Json → String) {uuid peer : Json} {split : Split} {address : String}
    {keys : List Point} {share : String → Option (List Point)} (asked : askable connects peer = some address)
    (placed : share address = some keys) :
    Delivers formatted uuid split keys ((askableFirst connects split share).answer peer uuid) := by
  refine ⟨_, ?_, reads_toJson _⟩
  simp [askableFirst, asked, placed, retrieveShare, loads]

theorem askableFirst_kept (formatted : Json → String) (uuid peer : Json) (split : Split)
    (share : String → Option (List Point)) :
    AnswersKept formatted uuid split connects share peer ((askableFirst connects split share).answer peer uuid) := by
  unfold AnswersKept
  split
  · rename_i address asked
    cases placed : share address with
    | some keys => exact .inr ⟨keys, rfl, askableFirst_delivers formatted asked placed⟩
    | none => exact .inl ⟨.osError, by simp [askableFirst, asked, placed, retrieveShare], rfl⟩
  · rename_i nowhere
    exact .inl (by simp [askableFirst, nowhere])

/-- All of them are asked for their shares, which are enough. -/
theorem askPeers_askable (formatted : Json → String) (uuid : Json) {split : Split} {peers : List Json}
    {decoder : ShamirSecret} (holding : Holding split [] decoder) (bounded : split.shares < PRIME)
    (enough : split.treshold ≤ (addresses connects peers).length) :
    ∃ last contributors held, askPeers formatted uuid decoder
        ((peers.filter fun peer => (askable connects peer).isSome).map fun peer =>
          (peer, (askableFirst connects split (shareOf split (addresses connects peers))).answer peer uuid)) =
        .ok (last, contributors) ∧
      (∀ peer ∈ contributors, peer ∈ peers) ∧ Holding split held last ∧ split.treshold ≤ held.length := by
  have kept := kept_shareOf bounded (addresses connects peers)
  have asking : ∀ ask ∈ (peers.filter fun peer => (askable connects peer).isSome).map (fun peer =>
      (peer, (askableFirst connects split (shareOf split (addresses connects peers))).answer peer uuid)),
      ∃ peer address, askable connects peer = some address ∧
        ask = (peer, (askableFirst connects split (shareOf split (addresses connects peers))).answer peer uuid) := by
    intro ask member
    obtain ⟨peer, chosen, rfl⟩ := List.mem_map.mp member
    obtain ⟨address, asked⟩ := Option.isSome_iff_exists.mp (List.mem_filter.mp chosen).2
    exact ⟨peer, address, asked, rfl⟩
  have addressed : ∀ ask ∈ (peers.filter fun peer => (askable connects peer).isSome).map (fun peer =>
      (peer, (askableFirst connects split (shareOf split (addresses connects peers))).answer peer uuid)),
      ∃ address, ask.1.getItem "address" = .ok address := by
    intro ask member
    obtain ⟨peer, address, asked, rfl⟩ := asking ask member
    exact ⟨_, getItem_of_askable asked⟩
  have genuine : ∀ ask ∈ (peers.filter fun peer => (askable connects peer).isSome).map (fun peer =>
      (peer, (askableFirst connects split (shareOf split (addresses connects peers))).answer peer uuid)),
      DownOrDealt formatted uuid split (dealtShares split) ask.2 := by
    intro ask member
    obtain ⟨peer, address, asked, rfl⟩ := asking ask member
    have answers := @askableFirst_kept connects formatted uuid peer split (shareOf split (addresses connects peers))
    rw [AnswersKept, asked] at answers
    exact answers.imp_right fun ⟨keys, placed, delivers⟩ => ⟨keys, kept.dealt address keys placed, delivers⟩
  obtain ⟨last, contributors, held, asked, holdingLast, outcome⟩ :=
    askPeers_gathers kept.deals holding (by simp) addressed genuine
  refine ⟨last, contributors, held, asked, fun peer member => ?_, holdingLast, ?_⟩
  · have listed := (askPeers_sublist asked).subset member
    rw [List.map_map] at listed
    obtain ⟨other, chosen, rfl⟩ := List.mem_map.mp listed
    exact List.mem_of_mem_filter chosen
  cases outcome with
  | inl ready =>
    rw [holdingLast.ready] at ready
    exact of_decide_eq_true ready
  | inr collected =>
    have lower := split.tresholdLower
    have upper := split.tresholdUpper
    have inside : (List.range split.treshold.toNat).map (fun index : Nat => split.shareAt ((index : Int) + 1)) ⊆ held := by
      intro keys member
      obtain ⟨index, below, rfl⟩ := List.mem_map.mp member
      have bound := List.mem_range.mp below
      have there : index < (addresses connects peers).length := by omega
      obtain ⟨peer, listed, found⟩ := mem_addresses.mp (List.getElem_mem there)
      have first : (addresses connects peers).idxOf (addresses connects peers)[index] = index :=
        (List.nodup_dedup _).idxOf_getElem index there
      have placed : shareOf split (addresses connects peers) (addresses connects peers)[index] =
          some (split.shareAt ((index : Int) + 1)) := by
        rw [shareOf, first, if_pos ⟨List.getElem_mem there, by omega⟩]
      refine collected.2 _ (List.mem_map.mpr ⟨peer, List.mem_filter.mpr ⟨listed, ?_⟩, rfl⟩) _
        (askableFirst_delivers formatted found placed)
      rw [found]
      rfl
    have distinct : ((List.range split.treshold.toNat).map
        (fun index : Nat => split.shareAt ((index : Int) + 1))).Nodup := by
      refine List.pairwise_map.mpr (List.nodup_range.imp_of_mem ?_)
      intro left right leftMember rightMember different same
      have bound := List.mem_range.mp leftMember
      have places := shareAt_inj (by omega) (by omega) same
      omega
    have count := (distinct.subperm inside).length_le
    rw [List.length_map, List.length_range] at count
    omega

/-- One round in which everybody that can be asked answers is enough. -/
theorem completes_askableFirst {formatted : Json → String} {sha256 : Bytes → String} {key1 : String} {loop : Key1Loop}
    {split : Split} (hides : split.Hides sha256 key1) (fits : Completable connects loop)
    (name : loop.decoder.name = .str split.name) (owner : Expects loop.decoder.owner split.owner)
    (uuid : split.uuid = loop.uuid) (treshold : split.treshold = loop.decoder.treshold)
    (shares : split.shares = loop.decoder.shares) (holding : Holding split [] loop.decoder) :
    Completes formatted sha256 connects loop key1 split (dealtShares split)
      (shareOf split (addresses connects loop.peers))
      [askableFirst connects split (shareOf split (addresses connects loop.peers))] := by
  have bounded : split.shares < PRIME := shares ▸ fits.shares
  have kept := kept_shareOf bounded (addresses connects loop.peers)
  refine ⟨hides, name, owner, uuid, treshold, shares, kept, ?_, ?_⟩
  · intro round member peer _
    rw [List.mem_singleton.mp member]
    exact askableFirst_kept formatted _ peer split _
  · have waiting : loop.decoder.readyToDecode = false := holding.waiting
    have everyone : candidates [] loop.peers = .ok loop.peers := by
      rw [candidates_ok [] fits.members, List.filter_eq_self.mpr fun peer member => ?_]
      obtain ⟨found, named, _⟩ := fits.members peer member
      rw [outstanding_of_named named]
      rfl
    -- those that can be asked come to enough shares, and after them nobody is asked
    obtain ⟨last, contributors, held, asked, listed, holdingLast, enough⟩ :=
      askPeers_askable formatted (.str loop.uuid) holding bounded (treshold ▸ fits.enough)
    have ready : last.readyToDecode = true := holdingLast.ready.trans (decide_eq_true enough)
    obtain ⟨names, named⟩ := contributedNames_ok fun peer member => by
      obtain ⟨name, found, _⟩ := fits.members peer (listed peer member)
      exact ⟨name, found⟩
    have decoded := holdingLast.decode_secret enough sha256 key1 hides.chunked hides.hashed
    have passed : askPeers formatted (.str loop.uuid) loop.decoder
        ((askableFirst connects split (shareOf split (addresses connects loop.peers))).asks (.str loop.uuid) loop.peers) =
        .ok (last, contributors) := by
      have whole := askPeers_append_of_ready ((loop.peers.filter fun peer => !(askable connects peer).isSome).map
        fun peer => (peer, (askableFirst connects split (shareOf split (addresses connects loop.peers))).answer peer
          (.str loop.uuid))) asked ready
      rwa [← List.map_append] at whole
    have collected : collectRounds formatted (.str loop.uuid) loop.peers loop.decoder []
        [askableFirst connects split (shareOf split (addresses connects loop.peers))] = .ok last := by
      rw [collectRounds_cons, waiting, if_neg Bool.false_ne_true, everyone, ok_bind, passed, ok_bind]
      dsimp only
      rw [named, ok_bind, collectRounds_nil]
    rw [Key1Loop.run_eq, collected, ok_bind, ready, if_pos rfl, decoded]
    rfl

/-- What a run that comes to KEY1 shows: each share is one of an address of its own. -/
theorem completable_of_completes {formatted : Json → String} {sha256 : Bytes → String} {key1 : String}
    {loop : Key1Loop} {split : Split} {participants : List (List Point)} {share : String → Option (List Point)}
    {rounds : List Round}
    (completes : Completes formatted sha256 connects loop key1 split participants share rounds)
    (holding : Holding split [] loop.decoder) : Completable connects loop := by
  have lower := split.tresholdLower
  have upper := split.tresholdUpper
  have bounded := shares_lt_of_deals completes.kept.deals
  have run := completes.completes
  rw [Key1Loop.run_eq] at run
  obtain ⟨last, collected, finished⟩ := bind_eq_ok.mp run
  have ready : last.readyToDecode = true := by
    cases ready : last.readyToDecode with
    | true => rfl
    | false =>
      rw [ready] at finished
      cases finished
  have waiting : loop.decoder.readyToDecode = false := holding.waiting
  have members : Members loop.peers := by
    cases rounds with
    | nil =>
      cases collected
      cases ready.symm.trans waiting
    | cons round rest =>
      rw [collectRounds_cons, waiting, if_neg Bool.false_ne_true] at collected
      obtain ⟨asked, computed, _⟩ := bind_eq_ok.mp collected
      exact (candidates_eq_ok computed).2
  have steps : ∀ ask ∈ roundSteps formatted (.str loop.uuid) loop.peers loop.decoder [] rounds,
      ∀ document, retrieveShare (formatted (.str loop.uuid)) ask.reply = .ok document →
        ∃ address ∈ addresses connects loop.peers, ∃ keys, share address = some keys ∧
          Shamir.Reads document (split.record keys) := by
    intro ask member document retrieved
    obtain ⟨round, roundMember, listed, answered⟩ := mem_of_mem_roundSteps member
    have answers := completes.genuine round roundMember ask.peer listed
    rw [← answered, AnswersKept] at answers
    split at answers
    · rename_i address asked
      refine ⟨address, mem_addresses.mpr ⟨ask.peer, listed, asked⟩, ?_⟩
      rcases answers with ⟨exception, failed, _⟩ | ⟨keys, placed, other, otherRetrieved, reads⟩
      · cases failed.symm.trans retrieved
      · cases otherRetrieved.symm.trans retrieved
        exact ⟨keys, placed, reads⟩
    · rcases answers with answers | answers
      · rw [answers] at retrieved
        cases retrieved
      · rw [answers] at retrieved
        cases retrieved
  obtain ⟨all, ⟨accepted, holdingLast, placed⟩, _⟩ :=
    @collectRounds_preserves formatted (.str loop.uuid)
      (fun _ decoder => ∃ accepted, Holding split accepted decoder ∧
        ∀ keys ∈ accepted, ∃ address ∈ addresses connects loop.peers, share address = some keys)
      (fun ask => ∀ document, retrieveShare (formatted (.str loop.uuid)) ask.reply = .ok document →
        ∃ address ∈ addresses connects loop.peers, ∃ keys, share address = some keys ∧
          Shamir.Reads document (split.record keys))
      (by
        rintro contributors decoder peer reply document record ⟨accepted, held, placed⟩ genuine retrieved reads admits
        obtain ⟨address, listed, keys, kept, genuineReads⟩ := genuine document retrieved
        obtain rfl := reads.unique genuineReads
        refine ⟨accepted ++ [keys], held.accepting (completes.kept.deals.carried keys
          (completes.kept.dealt address keys kept)) ?_, ?_⟩
        · rw [← held.keys]
          exact decoder.not_collide_of_admitsPoints admits.points
        · intro other member
          rcases List.mem_append.mp member with earlier | new
          · exact placed other earlier
          · rw [List.mem_singleton.mp new]
            exact ⟨address, listed, kept⟩)
      loop.peers [] [] loop.decoder last rounds ⟨[], holding, by simp⟩ (List.nil_subperm) (by simp) steps collected
  have distinct : accepted.Nodup := holdingLast.apart.imp_of_mem fun leftMember _ apart same =>
    apart (same ▸ collide_self (holdingLast.carried _ leftMember))
  have inside : accepted ⊆ (addresses connects loop.peers).filterMap share := fun keys member =>
    List.mem_filterMap.mpr (placed keys member)
  have count := (distinct.subperm inside).length_le.trans (List.length_filterMap_le _ _)
  rw [holdingLast.ready] at ready
  have enough := of_decide_eq_true ready
  have treshold := completes.treshold
  have shares := completes.shares
  exact ⟨by omega, by omega, by omega, by omega, members, split.owner, completes.owner⟩

/-- A loop that is entered can be completed exactly when it is completable, whatever KEY1 is. -/
theorem completable_iff {formatted : Json → String} {sha256 : Bytes → String} {uuid4 : String} {hosts : Json}
    {loop : Key1Loop} (prepared : prepareKey1 lower intOf config uuid4 hosts = .ok loop) :
    Completable connects loop ↔ Ready loop ∧ ∀ key1, (encodeUtf8 key1).length ≤ MAX_SECRET_BYTES →
      ∃ split participants share rounds,
        Completes formatted sha256 connects loop key1 split participants share rounds := by
  obtain ⟨settings, entry, ownName, _, _, _, _, _, constructed, _⟩ := prepareKey1_eq_ok prepared
  obtain ⟨treshold, shares, _, _, tresholdLower, tresholdUpper, decoder⟩ := construct_eq_ok_iff.mp constructed
  constructor
  · intro fits
    obtain ⟨ownText, owned⟩ := fits.owner
    have some : (addresses connects loop.peers).length ≤ loop.peers.length :=
      (List.dedup_sublist _).length_le.trans (List.length_filterMap_le _ _)
    have enough := fits.enough
    refine ⟨⟨fits.lower, fits.upper, by omega⟩, fun key1 bounded => ?_⟩
    have name : loop.decoder.name = .str settings.name := by rw [decoder]; rfl
    have holding := holding_fresh (splitOf sha256 key1 settings.name ownText loop.uuid bounded tresholdLower
      tresholdUpper) shares treshold uuid4 (.inl rfl : Expects (.str settings.name) settings.name)
      (by rwa [decoder] at owned : Expects ownName ownText)
    rw [show ShamirSecret.fresh (.str settings.name) ownName shares treshold uuid4 = loop.decoder from decoder.symm]
      at holding
    exact ⟨_, _, _, _, completes_askableFirst (splitOf_hides bounded tresholdLower tresholdUpper) fits name owned rfl
      (by rw [decoder]; rfl) (by rw [decoder]; rfl) holding⟩
  · rintro ⟨_, completed⟩
    obtain ⟨split, participants, share, rounds, completes⟩ := completed "" (by decide)
    have name := completes.name
    have owner := completes.owner
    rw [decoder] at name owner
    refine completable_of_completes completes ?_
    rw [decoder]
    exact holding_fresh split shares treshold uuid4 (.inl name) owner

end Collecting

/-- A structural fault is reported before any peer is asked, or the loop is entered with integers
that fit and can be completed, whatever KEY1 is. -/
def EndsOrCompletes (formatted : Json → String) (sha256 : Bytes → String) (connects : String → Bool)
    (outcome : Except PyException Key1Loop) : Prop :=
  Ensures Reported (fun loop => Ready loop ∧ ∀ key1, (encodeUtf8 key1).length ≤ MAX_SECRET_BYTES →
    ∃ split participants share rounds,
      Completes formatted sha256 connects loop key1 split participants share rounds) outcome

def twoPeers : Json :=
  .dict [("hosts", .dict [("host0", .dict [("address", .str "10.0.0.1"), ("status", .str "local")]),
    ("host1", .dict [("address", .str "10.0.0.2")]), ("host2", .dict [("address", .str "10.0.0.3")])])]

/-- The record of one of the peers has no address. -/
def twoAddresses : Json :=
  .dict [("hosts", .dict [("host0", .dict [("address", .str "10.0.0.1"), ("status", .str "local")]),
    ("host1", .dict [("address", .str "10.0.0.2")]), ("host2", .dict [("address", .str "10.0.0.3")]),
    ("host3", .dict [])])]

def tresholdMissing : Dict String :=
  [("key1-name", "key1"), ("key1-uuid", "u1"), ("key1-shares", "4"), ("server-port", "3")]

def tresholdOutOfReach : Dict String :=
  [("key1-name", "key1"), ("key1-uuid", "u1"), ("key1-treshold", "3"), ("key1-shares", "4"), ("server-port", "3")]

end SecretWeb.Initiator
