import SecretWeb.Client.SecretNames
import SecretWeb.Network.Progress

/-! # Store, then get

A command records how many peers have acknowledged its shares, and these peers keep them.  So
whoever looks the record up finds enough of them to reconstruct the secret, whatever the other
peers have made of the command, and whatever has happened in between. -/

namespace SecretWeb.Network

open SecretWeb.Data SecretWeb.Python SecretWeb.Python.JsonText SecretWeb.Client SecretWeb.Server SecretWeb.Shamir
  SecretWeb.HostsData SecretWeb.Machine

/-! ## Fetching -/

section Fetching

variable {Place : Type} {site : Site Place} {ownName : String}

/-- A server takes this host for the owner of what it owns. -/
theorem Site.Certified.matches (certified : site.Certified ownName) :
    requireOwnerMatchesClientCert site.lower site.commonName (.str ownName) = .ok () := by
  obtain ⟨presented, known, same⟩ := certified.certificate
  exact (requireOwnerMatchesClientCert_eq_ok site.lower _ _).mpr ⟨presented, ownName, known, rfl, by rw [same]⟩

theorem Site.Certified.knows (certified : site.Certified ownName) {server : Server} (hosts : server.hosts = site.hosts) :
    Server.ownName server = .ok (.str ownName) := by
  obtain ⟨ownHost, entry, named⟩ := certified.entry
  rw [Server.ownName, hosts]
  simp only [entry, named, ok_bind]

/-- The reply to a lookup of a record that is there. -/
theorem Site.lookup_found (certified : site.Certified ownName) {world : World Place} {name : String} (plain : Plain name)
    (hosts : (world.servers site.own).hosts = site.hosts) {uuid : String} {treshold : Int} {successes : Nat} {now : String}
    (found : Dict.get (world.servers site.own).memory.secrets name =
      some (secretRecord (.str uuid) treshold successes now)) :
    site.lookup world name = .response 200 (.document (secretRecord (.str uuid) treshold successes now)) := by
  have arrives : routed site.decodePath "/secrets/" name = some name :=
    routed_of_plain site.decodePath site.decoded (baseCharacter_of_all (by decide)) plain
  have names : ["uuid", "treshold", "shares_saved", "last_updated"].Nodup := by decide
  have writable : Writable site.floats (secretRecord (.str uuid) treshold successes now) :=
    ⟨names, trivial, trivial, trivial, trivial, trivial⟩
  simp only [Site.lookup, getSecret, arrives, Server.getSecretMetadata, certified.knows hosts, certified.matches,
    ok_bind, found]
  exact delivered_document writable 200

/-- A peer that is out of reach is passed over. -/
theorem passedOver_outage (formatted : Json → String) (uuid : Json) (outage : Outage) :
    PassedOver formatted uuid outage.reply := by
  cases outage with
  | connection => exact ⟨.osError, rfl, rfl⟩
  | status code failed =>
    by_cases missing : code = 404
    · exact ⟨.shareNotFoundError (formatted uuid), by rw [Outage.reply, retrieveShare, if_pos missing], rfl⟩
    · exact ⟨.peerRequestError "retrieve_share" code,
        by rw [Outage.reply, retrieveShare, if_neg missing, if_pos failed.1], rfl⟩

/-- What a peer hands out under the uuid of a command. -/
theorem Progress.asked (certified : site.Certified ownName) {world : World Place} {running : Running}
    {peers : List Json} {split : Split} {participants : List (List Point)} {done accepted : List (Json × List Point)}
    (progress : Progress site ownName world.servers running peers split participants done accepted)
    (plain : Plain running.command.uuid4) {peer address : Json} (addressed : peer.getItem "address" = .ok address) :
    (Dict.get (world.servers (site.locate address)).memory.shares running.command.uuid4 = none ∧
      PassedOver site.formatted (.str running.command.uuid4) (site.ask world peer (.str running.command.uuid4))) ∨
    ∃ share ∈ done, Dict.get (world.servers (site.locate address)).memory.shares running.command.uuid4 =
        some (split.record share.2).toJson ∧
      Delivers site.formatted (.str running.command.uuid4) split share.2
        (site.ask world peer (.str running.command.uuid4)) := by
  have arrives : routed site.decodePath "/shares/" running.command.uuid4 = some running.command.uuid4 :=
    routed_of_plain site.decodePath site.decoded (baseCharacter_of_all (by decide)) plain
  simp only [Site.ask, addressed, getShare, site.formattedText, arrives, Server.getShare]
  cases found : Dict.get (world.servers (site.locate address)).memory.shares running.command.uuid4 with
  | none => exact .inl ⟨rfl, .shareNotFoundError _, rfl, rfl⟩
  | some value =>
    obtain ⟨share, member, rfl⟩ := (progress.within (site.locate address)).memory value found
    refine .inr ⟨share, member, rfl, (split.record share.2).toJson, ?_, reads_toJson _⟩
    have owner : (split.record share.2).toJson.getItem "owner" = .ok (.str ownName) :=
      congrArg (fun owner => Except.ok (Json.str owner)) progress.publishes.owner
    simp only [owner, certified.matches, ok_bind]
    have whole := delivered_document (writable_record site.floats split share.2) 200
    show retrieveShare _ (delivered site.floats (.response 200 (.document (split.record share.2).toJson))) = _
    rw [whole]
    rfl

section Statement

variable [DecidableEq Place] (site)

/-- The peer's answer comes from its server as it is at some point of these events. -/
def Site.Serves (world : World Place) (soon : List (Event Place)) (round : Round) (uuid peer : Json) : Prop :=
  ∃ part, part <+: soon ∧ round.answer peer uuid = site.ask (run site.step world part) peer uuid

/-- Each peer answers like that, or its request fails. -/
def Site.Asked (world : World Place) (soon : List (Event Place)) (round : Round) (uuid : Json) (peers : List Json) :
    Prop :=
  ∀ peer ∈ peers, (∃ outage : Outage, round.answer peer uuid = outage.reply) ∨ site.Serves world soon round uuid peer

/-- The command looks the name up in this world and asks the peers afterwards, in the order and
with the answers of the round. -/
def Site.fetch (world : World Place) (name uuid4 : String) (round : Round) : Except PyException String :=
  getSecretCmd site.formatted site.sha256 name uuid4 (site.lookup world name) site.hosts round

/-- Whatever the order and whoever is out of reach, a fetch returns the secret or reports that
too few peers answered; and it returns the secret when `treshold` of the holders answer. -/
structure Site.Retrievable (world : World Place) (soon : List (Event Place)) (peers : List Json)
    (name secret uuid : String) (treshold : Int) (holders : List Json) : Prop where
  enough : treshold ≤ holders.length
  safe : ∀ round uuid4, site.Asked world soon round (.str uuid) peers →
    site.fetch world name uuid4 round = .ok secret ∨
      ∃ message, site.fetch world name uuid4 round = .error (.clickException message)
  available : ∀ round uuid4 (answering : List Json), site.Asked world soon round (.str uuid) peers →
    answering.Sublist holders → treshold ≤ answering.length →
    (∀ peer ∈ answering, site.Serves world soon round (.str uuid) peer) →
    site.fetch world name uuid4 round = .ok secret

end Statement

section Retrieving

variable {uuids : Set String} {history : List (WorldStep Place)} {world : World Place}

/-- The command reaches its peers with a fresh decoder. -/
theorem Site.fetch_found (certified : site.Certified ownName) {peers : List Json}
    (trusted : trustedPeers site.hosts (.str ownName) = .ok peers) {name : String} (plain : Plain name)
    (hosts : (world.servers site.own).hosts = site.hosts) {uuid : String} {treshold : Int} {successes : Nat}
    {now : String} (found : Dict.get (world.servers site.own).memory.secrets name =
      some (secretRecord (.str uuid) treshold successes now))
    (lower : 2 ≤ treshold) (upper : treshold ≤ successes) (uuid4 : String) (round : Round) :
    site.fetch world name uuid4 round = reconstruct site.formatted site.sha256 treshold (.str uuid)
      (ShamirSecret.fresh (.str name) (.str ownName) successes treshold uuid4) (round.asks (.str uuid) peers) := by
  obtain ⟨ownHost, entry, named⟩ := certified.entry
  have looked := Site.lookup_found certified plain hosts found
  have built := ShamirSecret.init_of_valid (.str name) (.str ownName) uuid4 lower upper
  have fields : (secretRecord (.str uuid) treshold successes now).getItem "shares_saved" = .ok (.int successes) ∧
      (secretRecord (.str uuid) treshold successes now).getItem "treshold" = .ok (.int treshold) ∧
      (secretRecord (.str uuid) treshold successes now).getItem "uuid" = .ok (.str uuid) := ⟨rfl, rfl, rfl⟩
  have read : Client.getSecretMetadata name (site.lookup world name) =
      .ok (secretRecord (.str uuid) treshold successes now) := by
    rw [looked]
    rfl
  simp only [Site.fetch, getSecretCmd, read, ok_bind, entry, named, trusted, fields, construct, Json.asInt, built,
    Option.getD_some]

theorem Sound.retrievable [DecidableEq Place] (sound : Sound site ownName uuids history world) (certified : site.Certified ownName)
    (addressed : ∀ peers, trustedPeers site.hosts (.str ownName) = .ok peers →
      ∀ peer ∈ peers, ∃ address, peer.getItem "address" = .ok address)
    {soon : List (Event Place)} (honest : ∀ transition ∈ transitions site.step world soon, site.Honest uuids transition)
    {index : Nat} {command : StoreCommand} {publication : Publication} {outcome : Except PyException Unit} {now : String}
    (found : world.commands[index]? = some ⟨command, publication, .exited outcome⟩)
    (enough : publication.treshold ≤ (acknowledgers history index).length)
    (recorded : Dict.get (world.servers site.own).memory.secrets command.name = some (secretRecord (.str command.uuid4)
      publication.treshold (acknowledgers history index).length now)) :
    ∃ peers shares treshold, trustedPeers site.hosts (.str ownName) = .ok peers ∧
      sharesAndTreshold peers.length command.sharesOverride command.tresholdOverride = .ok (shares, treshold) ∧
      site.Retrievable world soon peers command.name command.secret command.uuid4 treshold
        (acknowledgers history index) := by
  obtain ⟨peers, split, participants, done, accepted, progress, counted⟩ := sound.progress index _ found
  obtain ⟨plainName, plainUuid, _⟩ := sound.drawn _ (List.mem_of_getElem? found)
  have publishes := progress.publishes
  have treshold : publication.treshold = split.treshold := publishes.treshold
  have lower := split.tresholdLower
  rw [treshold] at enough recorded
  have later : ∀ part, part <+: soon → Progress site ownName (Machine.run site.step world part).servers
      ⟨command, publication, .exited outcome⟩ peers split participants done accepted := by
    intro part before
    obtain ⟨rest, rfl⟩ := before
    refine sound.progress_run certified (fun transition member => honest transition ?_) found progress
    rw [transitions_append]
    exact List.mem_append_left _ member
  have inPeers : ∀ share ∈ done, share.1 ∈ peers := by
    intro share member
    exact List.mem_of_mem_take (List.of_mem_zip (progress.tried.subset member)).1
  have inParticipants : ∀ share ∈ done, share.2 ∈ participants :=
    fun share member => mem_participants publishes (progress.tried.subset member)
  have holding : ∀ uuid4, Holding split [] (ShamirSecret.fresh (.str command.name) (.str ownName)
      (acknowledgers history index).length split.treshold uuid4) := by
    intro uuid4
    apply holding_fresh
    · exact .inl (congrArg Json.str publishes.name.symm)
    · exact .inl (congrArg Json.str publishes.owner.symm)
  have reaches := fun uuid4 round => Site.fetch_found certified progress.trusted plainName sound.hosts recorded lower
    enough uuid4 round
  have listed : ∀ (round : Round) (ask : Json × Reply), ask ∈ round.asks (.str command.uuid4) peers →
      ask.1 ∈ peers ∧ ask.2 = round.answer ask.1 (.str command.uuid4) := by
    intro round ask member
    obtain ⟨peer, shuffled, rfl⟩ := List.mem_map.mp member
    exact ⟨(round.permutes peers).mem_iff.mp shuffled, rfl⟩
  have asksAddressed : ∀ round : Round, ∀ ask ∈ round.asks (.str command.uuid4) peers,
      ∃ address, ask.1.getItem "address" = .ok address :=
    fun round ask member => addressed peers progress.trusted _ (listed round ask member).1
  have genuine : ∀ round, site.Asked world soon round (.str command.uuid4) peers →
      ∀ ask ∈ round.asks (.str command.uuid4) peers,
        DownOrDealt site.formatted (.str command.uuid4) split participants ask.2 := by
    intro round asked ask member
    obtain ⟨inside, same⟩ := listed round ask member
    obtain ⟨address, located⟩ := asksAddressed round ask member
    rw [same]
    cases asked _ inside with
    | inl failed =>
      obtain ⟨outage, failed⟩ := failed
      rw [failed]
      exact .inl (passedOver_outage _ _ outage)
    | inr served =>
      obtain ⟨part, before, answered⟩ := served
      rw [answered]
      cases (later part before).asked certified plainUuid located with
      | inl absent => exact .inl absent.2
      | inr present =>
        obtain ⟨share, tried, _, delivers⟩ := present
        exact .inr ⟨share.2, inParticipants share tried, delivers⟩
  refine ⟨peers, split.shares, split.treshold, progress.trusted, publishes.agreed, enough, fun round uuid4 asked => ?_,
    fun round uuid4 answering asked among enoughAnswer serves => ?_⟩
  · rw [reaches]
    exact (reconstruct_gathers publishes.hides publishes.deals (holding uuid4) (asksAddressed round)
      (genuine round asked) split.treshold).1
  · rw [reaches]
    rw [counted] at among
    obtain ⟨chosen, sublist, rfl⟩ := List.sublist_map_iff.mp among
    have distinct := (sublist.trans (progress.counted.trans progress.tried.sublist)).map Prod.snd
    refine (reconstruct_gathers publishes.hides publishes.deals (holding uuid4) (asksAddressed round)
      (genuine round asked) split.treshold).2 (chosen.map Prod.snd)
      (distinct.nodup (assigned_nodup publishes)) (by simpa using enoughAnswer) fun keys member => ?_
    obtain ⟨share, chosenShare, rfl⟩ := List.mem_map.mp member
    have acceptedShare := sublist.subset chosenShare
    obtain ⟨part, before, answered⟩ := serves share.1 (List.mem_map_of_mem chosenShare)
    obtain ⟨address, located, kept⟩ := (later part before).kept share acceptedShare
    refine ⟨(share.1, round.answer share.1 (.str command.uuid4)), ?_, ?_⟩
    · have inside := inPeers share (progress.counted.subset acceptedShare)
      exact List.mem_map.mpr ⟨share.1, (round.permutes peers).mem_iff.mpr inside, rfl⟩
    · obtain ⟨value, stored, rfl⟩ := kept.memory
      dsimp only
      rw [answered]
      cases (later part before).asked certified plainUuid located with
      | inl absent => cases absent.1.symm.trans stored
      | inr present =>
        obtain ⟨other, _, held, delivers⟩ := present
        have records : split.record other.2 = split.record share.2 := by
          apply (reads_toJson (split.record other.2)).unique
          rw [Option.some.inj (held.symm.trans stored)]
          exact reads_toJson _
        have same : other.2 = share.2 := congrArg ParticipantData.keys records
        rwa [same] at delivers

/-- Once a command has recorded its secret under a name, whatever has happened before and
happens afterwards, whoever looks the name up finds the record of this command, or of one for
the same name that has posted its record since; and its secret can be retrieved, from any
`treshold` of the peers that acknowledged a share of it. -/
theorem store_then_get [DecidableEq Place] (site : Site Place) (ownName : String) (uuids : Set String)
    (certified : site.Certified ownName)
    (addressed : ∀ peers, trustedPeers site.hosts (.str ownName) = .ok peers →
      ∀ peer ∈ peers, ∃ address, peer.getItem "address" = .ok address)
    (world : World Place) (fresh : site.Fresh uuids world) (events soon : List (Event Place))
    (honest : ∀ transition ∈ transitions site.step world (events ++ soon), site.Honest uuids transition)
    (earlier later : List (WorldStep Place)) (stored : WorldStep Place)
    (shape : transitions site.step world events = earlier ++ stored :: later) (index : Nat) (command : StoreCommand)
    (success : stored.output = .recorded index command (.ok ())) :
    ∃ version newest peers shares treshold,
      ((version = index ∧ newest = command) ∨ ∃ transition ∈ later, Records transition version newest) ∧
      newest.name = command.name ∧ trustedPeers site.hosts (.str ownName) = .ok peers ∧
      sharesAndTreshold peers.length newest.sharesOverride newest.tresholdOverride = .ok (shares, treshold) ∧
      site.Retrievable (run site.step world events) soon peers command.name newest.secret newest.uuid4 treshold
        (acknowledgers (transitions site.step world events) version) := by
  rw [transitions_append] at honest
  have honestEvents := fun transition member => honest transition (List.mem_append_left _ member)
  have honestSoon := fun transition member => honest transition (List.mem_append_right _ member)
  obtain ⟨before, sound⟩ := (sound_fresh fresh).run certified honestEvents
  have soundStored := before earlier stored later shape
  have stepped := step_of_mem_transitions (shape ▸ List.mem_append_right earlier List.mem_cons_self)
  have storedHonest := honestEvents stored (shape ▸ List.mem_append_right earlier List.mem_cons_self)
  obtain ⟨rest, remaining, last⟩ := transitions_split shape
  obtain ⟨state, event, output, after⟩ := stored
  obtain rfl : output = .recorded index command (.ok ()) := success
  -- what this step has recorded is the newest now, and then only newer ones take its place
  have recorded := soundStored.recorded_now stepped
  have soundAfter := soundStored.step certified event
  rw [Site.transition_eq stepped] at soundAfter
  have honestRest : ∀ transition ∈ transitions site.step after rest, site.Honest uuids transition := by
    intro transition member
    apply honestEvents
    rw [shape, remaining]
    exact List.mem_append_right _ (List.mem_cons_of_mem _ member)
  have recordedLast := (soundAfter storedHonest).recorded_run certified honestRest recorded
  have history : earlier ++ [⟨state, event, .recorded index command (.ok ()), after⟩] ++
      transitions site.step after rest = transitions site.step world events := by
    rw [shape, remaining, List.append_assoc, List.singleton_append]
  rw [← last] at recordedLast
  simp only [List.nil_append] at sound recordedLast
  rw [history] at recordedLast
  obtain ⟨value, found, versioned⟩ := recordedLast.memory
  obtain ⟨version, newest, publication, outcome, now, chosen, named, ended, enough, rfl⟩ := versioned
  rw [← named] at found
  obtain ⟨peers, shares, treshold, trusted, agreed, retrievable⟩ :=
    sound.retrievable certified addressed honestSoon ended enough found
  rw [named] at retrievable
  exact ⟨version, newest, peers, shares, treshold, remaining ▸ chosen, named, trusted, agreed, retrievable⟩

end Retrieving

end Fetching

/-! ## A command that every peer answers -/

section Answered

variable {Place : Type} {site : Site Place} {ownName : String}

/-- A dealt share that fits is accepted where nothing is stored under its uuid. -/
theorem Site.postShare_new (certified : site.Certified ownName) {server : Server} {split : Split} {keys : List Point}
    {peer address : Json} (carried : split.Carries keys) (owner : split.owner = ownName) (plain : Plain split.uuid)
    (nothing : Dict.get server.memory.shares split.uuid = none)
    (fits : (encodeUtf8 (dumps site.floats (split.record keys).toJson)).length ≤ MEMFILE_MAX) :
    ∃ reply after, site.postShare server ⟨peer, address, .str split.uuid, (split.record keys).toJson⟩ true =
      (reply, after) ∧ Client.storeShare reply = .ok () := by
  obtain ⟨presented, known, same⟩ := certified.certificate
  have arrives : routed site.decodePath "/shares/" split.uuid = some split.uuid :=
    routed_of_plain site.decodePath site.decoded (baseCharacter_of_all (by decide)) plain
  have read := requestJson_fits (writable_record site.floats split keys) fits
  have checked := @checkShare_record site.lower split keys presented carried (by rw [same, owner])
  cases @storeShare_checked site.lower server split.uuid (some presented) _ _ true checked with
  | inl taken =>
    obtain ⟨existing, found, _⟩ := taken
    cases found.symm.trans nothing
  | inr stored =>
    refine ⟨_, _, rfl, ?_⟩
    simp only [site.formattedText, arrives, known, read, stored.2]
    rfl

/-- A record that fits is saved. -/
theorem Site.postSecret_new (certified : site.Certified ownName) {server : Server} (hosts : server.hosts = site.hosts)
    {name uuid : String} (plain : Plain name) {treshold : Int} {successes : Nat} (now : String)
    (fits : (encodeUtf8 (dumps site.floats (metadata (.str uuid) treshold successes))).length ≤ MEMFILE_MAX) :
    ∃ reply after, site.postSecret server name (metadata (.str uuid) treshold successes) now true = (reply, after) ∧
      Client.recorded reply = .ok () := by
  have arrives : routed site.decodePath "/secrets/" name = some name :=
    routed_of_plain site.decodePath site.decoded (baseCharacter_of_all (by decide)) plain
  have names : ["uuid", "treshold", "shares_saved"].Nodup := by decide
  have read := requestJson_fits
    (show Writable site.floats (metadata (.str uuid) treshold successes) from ⟨names, trivial, trivial, trivial, trivial⟩)
    fits
  have recordNames : ["uuid", "treshold", "shares_saved", "last_updated"].Nodup := by decide
  have whole := delivered_document
    (show Writable site.floats (secretRecord (.str uuid) treshold successes now) from
      ⟨recordNames, trivial, trivial, trivial, trivial, trivial⟩) 201
  have accepted : Accepted site.lower site.commonName server := ⟨_, certified.knows hosts, certified.matches⟩
  have checked := @checkMetadata_metadata site.lower site.intOf site.commonName server (.str uuid) treshold successes now
    accepted
  refine ⟨_, _, rfl, ?_⟩
  simp only [arrives, read, storeSecretMetadata_checked true checked]
  show Client.recorded (delivered site.floats (.response 201 (.document _))) = _
  rw [whole]
  rfl

variable [DecidableEq Place] {world : World Place} {index : Nat} {command : StoreCommand} {publication : Publication}
  {successes : Nat} {reply : Reply} {after : Server}

theorem Site.publish_answered {post : Post} {rest : List (Json × Json)}
    (found : world.commands[index]? = some ⟨command, publication, .publishing post rest successes⟩)
    (posted : site.postShare (world.servers (site.locate post.address)) post true = (reply, after))
    (accepted : Client.storeShare reply = .ok ()) :
    site.step world (.publish index (.answered true)) = (.posted index post.peer (.ok ()),
      ⟨Function.update world.servers (site.locate post.address) after, world.commands.set index
        ⟨command, publication, Phase.begin publication.treshold rest (successes + 1)⟩⟩) := by
  simp only [Site.step, found, exchange, posted, accepted, Phase.published]

theorem Site.record_answered {now : String}
    (found : world.commands[index]? = some ⟨command, publication, .recording successes⟩)
    (posted : site.postSecret (world.servers site.own) command.name
      (metadata publication.uuid publication.treshold successes) now true = (reply, after))
    (accepted : Client.recorded reply = .ok ()) :
    site.step world (.record index now (.answered true)) = (.recorded index command (.ok ()),
      ⟨Function.update world.servers site.own after, world.commands.set index
        ⟨command, publication, .exited (.ok ())⟩⟩) := by
  simp only [Site.step, found, exchange, posted, accepted]

end Answered

/-! ## Two peers -/

def pairSite : Site String where
  floats := noFloats
  lower := id
  intOf := fun _ => none
  decodePath := samplePath
  formatted := sampleFormatted
  sha256 := sampleSha256
  hosts := pairHosts
  commonName := some "host0"
  locate := sampleFormatted
  own := "127.0.0.1"
  decoded := fun text => by simp [samplePath]
  formattedText := fun _ => rfl

/-- Nothing is stored anywhere. -/
def emptyWorld : World String := ⟨fun _ => ownServer, []⟩

def pairCommand : StoreCommand :=
  ⟨"wifi", "hi", none, none, "u1", "2026-01-01T00:00:00+00:00", [⟨[5], [0, 1]⟩, ⟨[7], [2, 3]⟩]⟩

/-- Every request is answered. -/
def storing : List (Event String) :=
  [.start pairCommand, .publish 0 (.answered true), .publish 0 (.answered true),
    .record 0 "2026-01-01T00:00:01+00:00" (.answered true)]

theorem pairSite_certified : pairSite.Certified "host0" where
  entry := ⟨_, rfl, rfl⟩
  certificate := ⟨_, rfl, rfl⟩

theorem plain_wifi : Plain "wifi" := plain_of_all (by decide) (by decide)

/-- The texts of the shares are short. -/
theorem pairCommand_fits : ∃ publication, prepare sampleSha256 pairHosts pairCommand = .ok (some publication) ∧
    ∀ sent ∈ publication.deliveries, (encodeUtf8 (dumps pairSite.floats sent.2)).length ≤ MEMFILE_MAX := by
  have fits : (prepare sampleSha256 pairHosts pairCommand).toOption.join.any (fun publication =>
      publication.deliveries.all fun sent => (dumpsChars noFloats sent.2).length ≤ MEMFILE_MAX) = true := by
    decide +kernel
  obtain ⟨publication, planned, short⟩ := (Option.any_eq_true _ _).mp fits
  refine ⟨publication, ?_, fun sent member => ?_⟩
  · cases outcome : prepare sampleSha256 pairHosts pairCommand with
    | error exception =>
      rw [outcome] at planned
      cases planned
    | ok prepared =>
      rw [outcome] at planned
      exact congrArg Except.ok planned
  · rw [length_encode_dumps]
    exact of_decide_eq_true (List.all_eq_true.mp short sent member)

/-- What the command publishes, and that both peers accept it. -/
theorem pairCommand_posts : ∃ publication firstPost secondPost,
    prepare sampleSha256 pairHosts pairCommand = .ok (some publication) ∧ publication.uuid = .str "u1" ∧
    publication.treshold = 2 ∧ publication.deliveries =
      [(firstPost.peer, firstPost.participantData), (secondPost.peer, secondPost.participantData)] ∧
    Post.prepare firstPost.peer firstPost.participantData = .ok firstPost ∧
    Post.prepare secondPost.peer secondPost.participantData = .ok secondPost ∧
    firstPost.address = .str "10.0.0.2" ∧ secondPost.address = .str "10.0.0.3" ∧
    ∀ post ∈ [firstPost, secondPost], ∃ reply after, pairSite.postShare ownServer post true = (reply, after) ∧
      Client.storeShare reply = .ok () := by
  obtain ⟨publication, prepared, fits⟩ := pairCommand_fits
  obtain ⟨split, participants, publishes⟩ := @prepare_eq_ok sampleSha256 pairHosts _ "host0" pairPeers pairCommand _
    rfl rfl rfl prepared
  have agreed : (.ok (2, 2) : Except PyException (Int × Int)) = .ok (split.shares, split.treshold) := publishes.agreed
  obtain ⟨sharesTwo, tresholdTwo⟩ := Prod.mk.inj (Except.ok.inj agreed)
  have plain : Plain split.uuid := publishes.splitUuid.symm ▸ plain_u1
  have count := publishes.deals.count
  obtain ⟨first, second, rfl⟩ : ∃ first second, participants = [first, second] :=
    List.length_eq_two.mp (by omega)
  have carried := publishes.deals.carried
  have dealt : publication.deliveries = [(namedEntry "host1" [("address", .str "10.0.0.2")], (split.record first).toJson),
      (namedEntry "host2" [("address", .str "10.0.0.3")], (split.record second).toJson)] := by
    rw [publishes.deliveries, ← sharesTwo]
    rfl
  rw [dealt] at fits
  simp only [List.mem_cons, List.not_mem_nil, or_false, forall_eq_or_imp, forall_eq] at fits
  obtain ⟨fitsFirst, fitsSecond⟩ := fits
  refine ⟨publication, ⟨_, .str "10.0.0.2", .str split.uuid, (split.record first).toJson⟩,
    ⟨_, .str "10.0.0.3", .str split.uuid, (split.record second).toJson⟩, prepared, publishes.uuid,
    publishes.treshold.trans tresholdTwo.symm, dealt, rfl, rfl, rfl, rfl, fun post member => ?_⟩
  simp only [List.mem_cons, List.not_mem_nil, or_false] at member
  cases member with
  | inl isFirst =>
    rw [isFirst]
    exact Site.postShare_new pairSite_certified (carried first List.mem_cons_self) publishes.owner plain rfl fitsFirst
  | inr isSecond =>
    rw [isSecond]
    exact Site.postShare_new pairSite_certified (carried second (List.mem_cons_of_mem _ List.mem_cons_self))
      publishes.owner plain rfl fitsSecond

/-- The run ends with exit code 0. -/
theorem storing_succeeds : ∃ earlier world after, transitions pairSite.step emptyWorld storing = earlier ++
    [⟨world, .record 0 "2026-01-01T00:00:01+00:00" (.answered true), .recorded 0 pairCommand (.ok ()), after⟩] := by
  obtain ⟨publication, firstPost, secondPost, prepared, uuid, treshold, dealt, firstPrepared, secondPrepared, firstPlace,
    secondPlace, accepted⟩ := pairCommand_posts
  obtain ⟨firstReply, firstAfter, firstPosted, firstOk⟩ := accepted firstPost List.mem_cons_self
  obtain ⟨secondReply, secondAfter, secondPosted, secondOk⟩ :=
    accepted secondPost (List.mem_cons_of_mem _ List.mem_cons_self)
  have short : (encodeUtf8 (dumps pairSite.floats (metadata (.str "u1") 2 2))).length ≤ MEMFILE_MAX := by
    have count : (dumpsChars noFloats (metadata (.str "u1") 2 2)).length ≤ MEMFILE_MAX := by
      decide +kernel
    rw [length_encode_dumps]
    exact count
  obtain ⟨lastReply, lastAfter, recordPosted, lastOk⟩ := @Site.postSecret_new _ pairSite "host0" pairSite_certified
    ownServer rfl "wifi" "u1" plain_wifi 2 2 "2026-01-01T00:00:01+00:00" short
  obtain ⟨first, isFirst⟩ : ∃ world : World String, world = ⟨fun _ => ownServer,
      [⟨pairCommand, publication, .publishing firstPost [(secondPost.peer, secondPost.participantData)] 0⟩]⟩ := ⟨_, rfl⟩
  obtain ⟨second, isSecond⟩ : ∃ world : World String, world = ⟨Function.update (fun _ => ownServer) "10.0.0.2" firstAfter,
      [⟨pairCommand, publication, .publishing secondPost [] 1⟩]⟩ := ⟨_, rfl⟩
  obtain ⟨third, isThird⟩ : ∃ world : World String, world = ⟨Function.update second.servers "10.0.0.3" secondAfter,
      [⟨pairCommand, publication, .recording 2⟩]⟩ := ⟨_, rfl⟩
  have started : pairSite.step emptyWorld (.start pairCommand) = (.nothing, first) := by
    have here : prepare pairSite.sha256 pairSite.hosts pairCommand = .ok (some publication) := prepared
    simp only [Site.step, here, dealt, Phase.begin, firstPrepared, isFirst]
    rfl
  have firstStep : pairSite.step first (.publish 0 (.answered true)) = (.posted 0 firstPost.peer (.ok ()), second) := by
    have found : first.commands[0]? = some ⟨pairCommand, publication,
        .publishing firstPost [(secondPost.peer, secondPost.participantData)] 0⟩ := by rw [isFirst]; rfl
    have stepped := Site.publish_answered found (by rw [isFirst]; exact firstPosted) firstOk
    rw [stepped, isFirst, isSecond, firstPlace]
    simp only [Phase.begin, secondPrepared]
    rfl
  have secondStep : pairSite.step second (.publish 0 (.answered true)) = (.posted 0 secondPost.peer (.ok ()), third) := by
    have found : second.commands[0]? = some ⟨pairCommand, publication, .publishing secondPost [] 1⟩ := by
      rw [isSecond]
      rfl
    have untouched : second.servers (pairSite.locate secondPost.address) = ownServer := by
      rw [isSecond, secondPlace]
      rfl
    have stepped := Site.publish_answered found (by rw [untouched]; exact secondPosted) secondOk
    rw [stepped, isThird, secondPlace]
    simp only [Phase.begin, treshold, isSecond]
    rfl
  have lastStep : ∃ after, pairSite.step third (.record 0 "2026-01-01T00:00:01+00:00" (.answered true)) =
      (.recorded 0 pairCommand (.ok ()), after) := by
    have found : third.commands[0]? = some ⟨pairCommand, publication, .recording 2⟩ := by
      rw [isThird]
      rfl
    have untouched : third.servers pairSite.own = ownServer := by
      rw [isThird, isSecond]
      rfl
    exact ⟨_, Site.record_answered found (by rw [untouched, uuid, treshold]; exact recordPosted) lastOk⟩
  obtain ⟨after, lastStep⟩ := lastStep
  refine ⟨[⟨emptyWorld, .start pairCommand, .nothing, first⟩,
    ⟨first, .publish 0 (.answered true), .posted 0 firstPost.peer (.ok ()), second⟩,
    ⟨second, .publish 0 (.answered true), .posted 0 secondPost.peer (.ok ()), third⟩], third, after, ?_⟩
  simp only [storing, transitions, started, firstStep, secondStep, lastStep, List.cons_append, List.nil_append]

/-- Nobody is out of reach. -/
def everybody (world : World String) : Round where
  shuffle := id
  permutes := List.Perm.refl
  answer := pairSite.ask world

theorem Site.Retrievable.fetched_from_everybody {world : World String} {peers holders : List Json}
    {name secret uuid : String} {treshold : Int}
    (retrievable : pairSite.Retrievable world [] peers name secret uuid treshold holders) (uuid4 : String) :
    pairSite.fetch world name uuid4 (everybody world) = .ok secret := by
  have serves : ∀ peer, pairSite.Serves world [] (everybody world) (.str uuid) peer :=
    fun _ => ⟨[], List.nil_prefix, rfl⟩
  exact retrievable.available (everybody world) uuid4 holders (fun peer _ => .inr (serves peer)) (List.Sublist.refl _)
    retrievable.enough fun peer _ => serves peer

theorem storing_honest : ∀ transition ∈ transitions pairSite.step emptyWorld (storing ++ []),
    pairSite.Honest {"u1"} transition := by
  intro transition member
  rw [List.append_nil] at member
  cases List.mem_cons.mp member with
  | inl first =>
    rw [first]
    exact ⟨plain_wifi, plain_u1, rfl, by simp [emptyWorld]⟩
  | inr later =>
    have input := input_of_mem_transitions later
    simp only [List.mem_cons, List.not_mem_nil, or_false] at input
    rcases input with input | input | input
    all_goals
      rw [Site.Honest, input]
      trivial

/-- The secret is stored with two peers and fetched from both. -/
theorem store_then_get_hi :
    pairSite.fetch (run pairSite.step emptyWorld storing) pairCommand.name "u2"
      (everybody (run pairSite.step emptyWorld storing)) = .ok pairCommand.secret := by
  obtain ⟨earlier, world, after, shape⟩ := storing_succeeds
  have fresh : pairSite.Fresh {"u1"} emptyWorld :=
    ⟨rfl, rfl, fun _ _ _ => ⟨fun value found => (by cases found), fun value found => (by cases found)⟩⟩
  have addressed : ∀ peers, trustedPeers pairHosts (.str "host0") = .ok peers →
      ∀ peer ∈ peers, ∃ address, peer.getItem "address" = .ok address := by
    intro peers trusted peer member
    obtain rfl : pairPeers = peers := Except.ok.inj trusted
    simp only [pairPeers, List.mem_cons, List.not_mem_nil, or_false] at member
    cases member with
    | inl first => exact ⟨_, by rw [first]; rfl⟩
    | inr second => exact ⟨_, by rw [second]; rfl⟩
  obtain ⟨version, newest, peers, shares, treshold, chosen, _, _, _, retrievable⟩ := store_then_get pairSite "host0"
    {"u1"} pairSite_certified addressed emptyWorld fresh storing [] storing_honest earlier [] _ shape 0 pairCommand rfl
  cases chosen with
  | inr later =>
    obtain ⟨transition, member, _⟩ := later
    cases member
  | inl same =>
    obtain ⟨rfl, rfl⟩ := same
    exact retrievable.fetched_from_everybody "u2"

end SecretWeb.Network
