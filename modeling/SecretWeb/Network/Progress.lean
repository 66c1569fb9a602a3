import SecretWeb.Client.Gathering
import SecretWeb.Machine.Runs
import SecretWeb.Network.World

/-! # What a command has achieved

The servers keep every share that they have acknowledged to a command, and have no others
under its uuid, in every world that the commands of a host and the requests of others lead to.
The record of a command counts these acknowledgements. -/

namespace SecretWeb.Network

open SecretWeb.Data SecretWeb.Python SecretWeb.Python.JsonText SecretWeb.Client SecretWeb.Server SecretWeb.Shamir
  SecretWeb.HostsData SecretWeb.Machine

/-! ## Records are told apart by their points -/

theorem points_of_equals {left right : List Point}
    (same : Json.equalsItems (left.map pointJson) (right.map pointJson) = true) : left = right := by
  induction left generalizing right with
  | nil =>
    cases right with
    | nil => rfl
    | cons other others => cases same
  | cons point rest inductionHypothesis =>
    cases right with
    | nil => cases same
    | cons other others =>
      obtain ⟨x, y⟩ := point
      obtain ⟨otherX, otherY⟩ := other
      simp only [List.map_cons, Json.equalsItems, Bool.and_eq_true] at same
      obtain ⟨first, later⟩ := same
      have coordinates : x = otherX ∧ y = otherY := by
        simpa [pointJson, Json.equals, Json.equalsItems, Json.number, Json.bothNan] using first
      rw [coordinates.1, coordinates.2, inductionHypothesis later]

theorem keys_of_equals {split : Split} {left right : List Point}
    (same : (split.record left).toJson.equals (split.record right).toJson = true) : left = right := by
  obtain ⟨others, shape, _, entries⟩ := (Json.equals_dict _ _).mp same
  cases shape
  obtain ⟨other, found, equal⟩ := Json.equalsEntries_get entries List.mem_cons_self
  cases found
  obtain ⟨items, shape, equal⟩ := (Json.equals_list _ _).mp ((Json.sameMember_list _ _).mp equal)
  cases shape
  exact points_of_equals equal

/-! ## The shares of a command -/

/-- Which peer is handed which share. -/
def assigned (peers : List Json) (split : Split) (participants : List (List Point)) : List (Json × List Point) :=
  (peers.take split.shares.toNat).zip participants

def delivery (split : Split) (share : Json × List Point) : Json × Json := (share.1, (split.record share.2).toJson)

section Shares

variable {sha256 : Bytes → String} {peers : List Json} {ownName : String} {command : StoreCommand}
  {publication : Publication} {split : Split} {participants : List (List Point)}

theorem deliveries_eq (publishes : Publishes sha256 peers ownName command publication split participants) :
    publication.deliveries = (assigned peers split participants).map (delivery split) := by
  rw [publishes.deliveries, assigned, List.zip_map_right]
  rfl

theorem assigned_snd (publishes : Publishes sha256 peers ownName command publication split participants) :
    (assigned peers split participants).map Prod.snd = participants := by
  apply List.map_snd_zip
  have few := (sharesAndTreshold_eq_ok publishes.agreed).1
  have count := publishes.deals.count
  rw [List.length_take]
  omega

theorem mem_participants (publishes : Publishes sha256 peers ownName command publication split participants)
    {share : Json × List Point} (member : share ∈ assigned peers split participants) : share.2 ∈ participants := by
  rw [← assigned_snd publishes]
  exact List.mem_map_of_mem member

/-- No share goes to two peers. -/
theorem assigned_nodup (publishes : Publishes sha256 peers ownName command publication split participants) :
    ((assigned peers split participants).map Prod.snd).Nodup := by
  rw [assigned_snd publishes]
  have deals := publishes.deals
  refine deals.apart.imp_of_mem fun leftDealt _ apart same => ?_
  rw [← same] at apart
  exact apart (collide_self (deals.carried _ leftDealt))

theorem prepare_trusts {hosts ownHost : Json} (own : ownHostEntry hosts = .ok ownHost)
    (named : ownHost.getItem "name" = .ok (.str ownName))
    (prepared : prepare sha256 hosts command = .ok (some publication)) :
    ∃ peers, trustedPeers hosts (.str ownName) = .ok peers := by
  unfold prepare at prepared
  simp only [own, named, ok_bind] at prepared
  obtain ⟨peers, trusted, _⟩ := bind_eq_ok.mp prepared
  exact ⟨peers, trusted⟩

end Shares

/-! ## Assumptions and history -/

abbrev WorldStep (Place : Type) := Transition (World Place) (Event Place) Outcome

/-- The peer whose acknowledgement a command has just counted. -/
def acknowledged {Place : Type} (index : Nat) (transition : WorldStep Place) : Option Json :=
  match transition.output with
  | .posted other peer (.ok ()) => if other = index then some peer else none
  | _ => none

/-- The peers that have acknowledged the shares of a command. -/
def acknowledgers {Place : Type} (history : List (WorldStep Place)) (index : Nat) : List Json :=
  history.filterMap (acknowledged index)

namespace Site

variable {Place : Type} (site : Site Place)

/-- The host's name in `hosts.json` is the one its certificate starts with. -/
structure Certified (ownName : String) : Prop where
  entry : ∃ ownHost, ownHostEntry site.hosts = .ok ownHost ∧ ownHost.getItem "name" = .ok (.str ownName)
  certificate : ∃ presented, site.commonName = some presented ∧ hostnameFromCommonName presented = ownName

/-- Nothing has been started, and nobody has a share under a uuid that `uuid4` is going to give
to this host. -/
structure Fresh (uuids : Set String) (world : World Place) : Prop where
  hosts : (world.servers site.own).hosts = site.hosts
  commands : world.commands = []
  shares : ∀ uuid ∈ uuids, ∀ place, (shareCopies (world.servers place)).Within uuid fun _ => False

/-- Names and uuids are plain, `uuid4` gives this host only uuids of its own and none twice,
and the secrets of this host are recorded by its own commands. -/
def Honest (uuids : Set String) (transition : WorldStep Place) : Prop :=
  match transition.input with
  | .start command => Plain command.name ∧ Plain command.uuid4 ∧ command.uuid4 ∈ uuids ∧
      command.uuid4 ∉ transition.before.commands.map fun running => running.command.uuid4
  | .publish _ _ => True
  | .record _ _ _ => True
  | .other _ (.postShare shareUuid _ _ _) => shareUuid ∉ uuids
  | .other place (.postSecret _ _ _ _ _) => place ≠ site.own
  | .other _ (.getShare _ _) => True
  | .other _ (.getSecret _ _) => True
  | .other _ .restart => True

variable {site} [DecidableEq Place]

/-- The step that an event leads to. -/
def transition (site : Site Place) (world : World Place) (event : Event Place) : WorldStep Place :=
  ⟨world, event, (site.step world event).1, (site.step world event).2⟩

theorem transition_eq {world after : World Place} {event : Event Place} {output : Outcome}
    (stepped : site.step world event = (output, after)) :
    site.transition world event = ⟨world, event, output, after⟩ := by
  rw [transition, stepped]

theorem transition_other {world : World Place} {place : Place} {request : Request}
    {output : Option (Except Failure Answer)} {after : Server} (handled : handle site.lower site.intOf (world.servers place) request = (output, after)) :
    site.transition world (.other place request) =
      ⟨world, .other place request, .nothing,
        { world with servers := Function.update world.servers place after }⟩ := by
  apply transition_eq
  simp only [Site.step, handled]

end Site

/-! ## What posts do to the shares of all servers -/

/-- The maps of shares take steps that write only entries of this kind, and only where nothing
is. -/
def Written {Place : Type} (before after : Place → Server) (Entry : String → Json → Prop) : Prop :=
  ∀ place, ∃ written, Copies.Step (shareCopies (before place)) written (shareCopies (after place)) ∧
    ∀ key value, written = some (key, value) → Dict.get (before place).memory.shares key = none ∧ Entry key value

section Writing

variable {Place : Type} {before after : Place → Server} {Entry : String → Json → Prop} {place : Place}
  {key : String} {Kind : Json → Prop}

theorem Written.kept (written : Written before after Entry) (kept : (shareCopies (before place)).Kept key Kind) :
    (shareCopies (after place)).Kept key Kind := by
  obtain ⟨entry, copied, wrote⟩ := written place
  exact kept.step_of_absent copied fun other value same => (wrote other value same).1

theorem Written.within (written : Written before after Entry) (within : (shareCopies (before place)).Within key Kind)
    (kind : ∀ value, Entry key value → Kind value) : (shareCopies (after place)).Within key Kind := by
  obtain ⟨entry, copied, wrote⟩ := written place
  exact within.step copied fun value same => kind value (wrote key value same).2

theorem Written.same (servers : Place → Server) (Entry : String → Json → Prop) : Written servers servers Entry :=
  fun _ => ⟨none, .same, by simp⟩

/-- One server takes a step and the others stay as they are. -/
theorem Written.update [DecidableEq Place] {servers : Place → Server} {server : Server}
    (moved : ∃ written, Copies.Step (shareCopies (servers place)) written (shareCopies server) ∧
      ∀ key value, written = some (key, value) →
        Dict.get (servers place).memory.shares key = none ∧ Entry key value) :
    Written servers (Function.update servers place server) Entry := by
  intro other
  by_cases same : other = place
  · subst same
    rw [Function.update_self]
    exact moved
  · rw [Function.update_of_ne same]
    exact ⟨none, .same, by simp⟩

end Writing

/-! ## The invariant of one command -/

section Invariant

variable {Place : Type} {site : Site Place} {ownName : String}

/-- What is left of a command whose accepted shares are counted. -/
def Stage (running : Running) (peers : List Json) (split : Split) (participants : List (List Point))
    (done accepted : List (Json × List Point)) : Prop :=
  match running.phase with
  | .publishing post rest successes =>
    ∃ share remaining address, assigned peers split participants = done ++ share :: remaining ∧
      post = ⟨share.1, address, .str split.uuid, (split.record share.2).toJson⟩ ∧
      share.1.getItem "address" = .ok address ∧ rest = remaining.map (delivery split) ∧ successes = accepted.length
  | .recording successes => successes = accepted.length ∧ split.treshold ≤ accepted.length
  | .exited _ => True

/-- What the servers have of a command: of the shares that it has tried to hand out, these were
acknowledged and are kept, and there are no others under its uuid. -/
structure Progress (site : Site Place) (ownName : String) (servers : Place → Server) (running : Running)
    (peers : List Json) (split : Split) (participants : List (List Point)) (done accepted : List (Json × List Point)) :
    Prop where
  trusted : trustedPeers site.hosts (.str ownName) = .ok peers
  publishes : Publishes site.sha256 peers ownName running.command running.publication split participants
  tried : done <+: assigned peers split participants
  counted : accepted.Sublist done
  kept : ∀ share ∈ accepted, ∃ address, share.1.getItem "address" = .ok address ∧
    (shareCopies (servers (site.locate address))).Kept running.command.uuid4 (· = (split.record share.2).toJson)
  within : ∀ place, (shareCopies (servers place)).Within running.command.uuid4
    fun value => ∃ share ∈ done, value = (split.record share.2).toJson
  stage : Stage running peers split participants done accepted

theorem stage_begin {command : StoreCommand} {publication : Publication} {peers : List Json} {split : Split}
    {participants : List (List Point)} {done remaining accepted : List (Json × List Point)}
    (shape : assigned peers split participants = done ++ remaining) :
    Stage ⟨command, publication, Phase.begin split.treshold (remaining.map (delivery split)) accepted.length⟩ peers split
      participants done accepted := by
  cases remaining with
  | nil =>
    by_cases few : (accepted.length : Int) < split.treshold
    · simp [Stage, Phase.begin, few]
    · simp [Stage, Phase.begin, few, not_lt.mp few]
  | cons share more =>
    cases addressed : share.1.getItem "address" with
    | error exception => simp [Stage, Phase.begin, delivery, Post.prepare, addressed]
    | ok address =>
      have begun : Phase.begin split.treshold ((share :: more).map (delivery split)) accepted.length =
          .publishing ⟨share.1, address, .str split.uuid, (split.record share.2).toJson⟩ (more.map (delivery split))
            accepted.length := by
        simp only [List.map_cons, Phase.begin, delivery, Post.prepare_record addressed (split.record share.2)]
        rfl
      rw [begun]
      exact ⟨share, more, address, shape, rfl, addressed, rfl, rfl⟩

/-- Posts under other uuids. -/
theorem Progress.transport {before after : Place → Server} {Entry : String → Json → Prop} {running : Running}
    {peers : List Json} {split : Split} {participants : List (List Point)} {done accepted : List (Json × List Point)}
    (progress : Progress site ownName before running peers split participants done accepted)
    (written : Written before after Entry) (apart : ∀ value, ¬Entry running.command.uuid4 value) :
    Progress site ownName after running peers split participants done accepted where
  trusted := progress.trusted
  publishes := progress.publishes
  tried := progress.tried
  counted := progress.counted
  kept := by
    intro share member
    obtain ⟨address, addressed, kept⟩ := progress.kept share member
    exact ⟨address, addressed, written.kept kept⟩
  within := fun place => written.within (progress.within place) fun value entry => absurd entry (apart value)
  stage := progress.stage

/-- What a post under way has written. -/
def PostEntry (uuid : String) (record : Json) (key : String) (value : Json) : Prop := key = uuid ∧ value = record

theorem written_of_sent [DecidableEq Place] {servers : Place → Server} {place : Place} {after : Server} {uuid : String}
    {record : Json} {reply : Reply} (sent : ShareSent (servers place) after uuid record reply) :
    Written servers (Function.update servers place after) (PostEntry uuid record) := by
  obtain ⟨written, copied, wrote⟩ := sent.copies
  refine Written.update ⟨written, copied, fun key value same => ?_⟩
  obtain ⟨keyed, valued, absent⟩ := wrote key value same
  exact ⟨absent, keyed, valued⟩

/-- The post of a share: the peer's answer is counted exactly when the peer keeps the share. -/
theorem Progress.published [DecidableEq Place] {servers : Place → Server} {after : Server} {command : StoreCommand}
    {publication : Publication} {post : Post} {rest : List (Json × Json)} {successes : Nat} {reply : Reply}
    {peers : List Json} {split : Split} {participants : List (List Point)} {done accepted : List (Json × List Point)}
    (progress : Progress site ownName servers ⟨command, publication, .publishing post rest successes⟩ peers split
      participants done accepted)
    (sent : ShareSent (servers (site.locate post.address)) after command.uuid4 post.participantData reply) :
    ∃ nowDone nowAccepted, Progress site ownName (Function.update servers (site.locate post.address) after)
        ⟨command, publication, Phase.published publication.treshold rest successes reply⟩ peers split participants
        nowDone nowAccepted ∧
      nowAccepted.map Prod.fst = accepted.map Prod.fst ++
        (match Client.storeShare reply with
          | .ok () => [post.peer]
          | .error _ => []) := by
  obtain ⟨share, remaining, address, shape, rfl, addressed, rfl, rfl⟩ := progress.stage
  have written := written_of_sent sent
  have shapeAfter : assigned peers split participants = (done ++ [share]) ++ remaining := by
    rw [shape, List.append_assoc, List.singleton_append]
  have within : ∀ place, (shareCopies (Function.update servers (site.locate address) after place)).Within command.uuid4
      fun value => ∃ tried ∈ done ++ [share], value = (split.record tried.2).toJson := by
    intro place
    have before : (shareCopies (servers place)).Within command.uuid4
        fun value => ∃ tried ∈ done ++ [share], value = (split.record tried.2).toJson := by
      apply (progress.within place).mono
      intro value found
      obtain ⟨tried, member, same⟩ := found
      exact ⟨tried, List.mem_append_left _ member, same⟩
    exact written.within before fun value entry => ⟨share, List.mem_append_right _ List.mem_cons_self, entry.2⟩
  have kept : ∀ earlier ∈ accepted, ∃ location, earlier.1.getItem "address" = .ok location ∧
      (shareCopies (Function.update servers (site.locate address) after (site.locate location))).Kept command.uuid4
        (· = (split.record earlier.2).toJson) := by
    intro earlier member
    obtain ⟨location, found, before⟩ := progress.kept earlier member
    exact ⟨location, found, written.kept before⟩
  have moved : ∀ nowAccepted phase, nowAccepted.Sublist (done ++ [share]) →
      (∀ earlier ∈ nowAccepted, ∃ location, earlier.1.getItem "address" = .ok location ∧
        (shareCopies (Function.update servers (site.locate address) after (site.locate location))).Kept command.uuid4
          (· = (split.record earlier.2).toJson)) →
      Stage ⟨command, publication, phase⟩ peers split participants (done ++ [share]) nowAccepted →
      Progress site ownName (Function.update servers (site.locate address) after) ⟨command, publication, phase⟩ peers
        split participants (done ++ [share]) nowAccepted :=
    fun nowAccepted phase counted keptNow stage => ⟨progress.trusted, progress.publishes, ⟨remaining, shapeAfter.symm⟩,
      counted, keptNow, within, stage⟩
  have treshold : publication.treshold = split.treshold := progress.publishes.treshold
  cases answered : Client.storeShare reply with
  | ok nothing =>
    refine ⟨done ++ [share], accepted ++ [share], moved _ _ (progress.counted.append_right [share]) ?_ ?_, by simp⟩
    · intro counted member
      cases List.mem_append.mp member with
      | inl earlier => exact kept counted earlier
      | inr last =>
        obtain rfl := List.mem_singleton.mp last
        refine ⟨address, addressed, ?_⟩
        rw [Function.update_self]
        cases sent.acknowledged answered with
        | inl stored => exact stored
        | inr present =>
          -- an equal share would have been handed out before, and no share is handed out twice
          obtain ⟨existing, found, equal⟩ := present
          obtain ⟨tried, member, rfl⟩ := (progress.within (site.locate address)).memory existing found
          have same := keys_of_equals equal
          have distinct := assigned_nodup progress.publishes
          rw [shape, List.map_append, List.map_cons, List.nodup_append] at distinct
          exact absurd same (distinct.2.2 _ (List.mem_map_of_mem member) _ List.mem_cons_self)
    · have begun := @stage_begin command publication peers split participants (done ++ [share]) remaining
        (accepted ++ [share]) shapeAfter
      rw [Phase.published, answered, treshold]
      rwa [List.length_append, List.length_singleton] at begun
  | error exception =>
    refine ⟨done ++ [share], accepted, moved _ _ (progress.counted.trans (List.sublist_append_left _ _)) kept ?_,
      by simp⟩
    rw [Phase.published, answered, treshold]
    dsimp only
    split
    · exact stage_begin shapeAfter
    · exact trivial

/-! ## The invariant of a world -/

/-- Every command has made progress as far as its acknowledgements go, and uuids that no command
has are not in use. -/
structure Sound (site : Site Place) (ownName : String) (uuids : Set String) (history : List (WorldStep Place))
    (world : World Place) : Prop where
  hosts : (world.servers site.own).hosts = site.hosts
  drawn : ∀ running ∈ world.commands,
    Plain running.command.name ∧ Plain running.command.uuid4 ∧ running.command.uuid4 ∈ uuids
  distinct : (world.commands.map fun running => running.command.uuid4).Nodup
  unused : ∀ uuid ∈ uuids, (uuid ∉ world.commands.map fun running => running.command.uuid4) →
    ∀ place, (shareCopies (world.servers place)).Within uuid fun _ => False
  progress : ∀ (index : Nat) (running : Running), world.commands[index]? = some running →
    ∃ peers split participants done accepted,
      Progress site ownName world.servers running peers split participants done accepted ∧
      acknowledgers history index = accepted.map Prod.fst
  silent : ∀ index, world.commands.length ≤ index → acknowledgers history index = []

variable {uuids : Set String} {history : List (WorldStep Place)} {world : World Place}

theorem sound_fresh (fresh : site.Fresh uuids world) : Sound site ownName uuids [] world where
  hosts := fresh.hosts
  drawn := by simp [fresh.commands]
  distinct := by simp [fresh.commands]
  unused := fun uuid member _ => fresh.shares uuid member
  progress := by simp [fresh.commands]
  silent := fun _ _ => rfl

theorem acknowledgers_append (history : List (WorldStep Place)) (transition : WorldStep Place) (index : Nat) :
    acknowledgers (history ++ [transition]) index =
      acknowledgers history index ++ (acknowledged index transition).toList := by
  rw [acknowledgers, List.filterMap_append]
  cases counted : acknowledged index transition with
  | none => simp [acknowledgers, counted]
  | some peer => simp [acknowledgers, counted]

theorem acknowledgers_quiet {transition : WorldStep Place} {index : Nat}
    (quiet : acknowledged index transition = none) :
    acknowledgers (history ++ [transition]) index = acknowledgers history index := by
  rw [acknowledgers_append, quiet, Option.toList_none, List.append_nil]

/-- Two commands have different uuids. -/
theorem Sound.apart (sound : Sound site ownName uuids history world) {index other : Nat} {running following : Running}
    (found : world.commands[index]? = some running) (otherFound : world.commands[other]? = some following)
    (different : other ≠ index) : following.command.uuid4 ≠ running.command.uuid4 := by
  intro same
  have inside : other < (world.commands.map fun running => running.command.uuid4).length := by
    rw [List.length_map]
    exact (List.getElem?_eq_some_iff.mp otherFound).1
  apply different
  apply (List.getElem?_inj inside sound.distinct).mp
  rw [List.getElem?_map, List.getElem?_map, found, otherFound]
  exact congrArg some same

/-- The servers take steps that leave this host's uuids alone. -/
theorem Sound.stay (sound : Sound site ownName uuids history world) {transition : WorldStep Place}
    {servers : Place → Server} {Entry : String → Json → Prop} (quiet : ∀ index, acknowledged index transition = none)
    (hosts : (servers site.own).hosts = site.hosts) (written : Written world.servers servers Entry)
    (foreign : ∀ key value, Entry key value → key ∉ uuids) :
    Sound site ownName uuids (history ++ [transition]) ⟨servers, world.commands⟩ where
  hosts := hosts
  drawn := sound.drawn
  distinct := sound.distinct
  unused := by
    intro uuid member absent place
    exact written.within (sound.unused uuid member absent place) fun value entry => absurd member (foreign _ _ entry)
  progress := by
    intro index running found
    obtain ⟨peers, split, participants, done, accepted, progress, counted⟩ := sound.progress index running found
    have drawn := (sound.drawn running (List.mem_of_getElem? found)).2.2
    refine ⟨peers, split, participants, done, accepted, progress.transport written fun value entry => ?_, ?_⟩
    · exact foreign _ _ entry drawn
    · rw [acknowledgers_quiet (quiet index), counted]
  silent := by
    intro index outside
    rw [acknowledgers_quiet (quiet index)]
    exact sound.silent index outside

/-- A command gets on, and the servers write under no uuid but its own. -/
theorem Sound.advance (sound : Sound site ownName uuids history world) {transition : WorldStep Place} {index : Nat}
    {running next : Running} {servers : Place → Server} {Entry : String → Json → Prop}
    (found : world.commands[index]? = some running) (same : next.command = running.command)
    (quiet : ∀ other, other ≠ index → acknowledged other transition = none)
    (hosts : (servers site.own).hosts = site.hosts) (written : Written world.servers servers Entry)
    (keyed : ∀ key value, Entry key value → key = running.command.uuid4)
    (progressed : ∃ peers split participants done accepted,
      Progress site ownName servers next peers split participants done accepted ∧
      acknowledgers (history ++ [transition]) index = accepted.map Prod.fst) :
    Sound site ownName uuids (history ++ [transition]) ⟨servers, world.commands.set index next⟩ := by
  have inside : index < world.commands.length := (List.getElem?_eq_some_iff.mp found).1
  have uuidsSame : ((world.commands.set index next).map fun running => running.command.uuid4) =
      world.commands.map fun running => running.command.uuid4 := by
    apply List.ext_getElem?
    intro other
    rw [List.getElem?_map, List.getElem?_map]
    by_cases here : index = other
    · subst here
      rw [List.getElem?_set_self inside, found, Option.map_some, Option.map_some, same]
    · rw [List.getElem?_set_ne here]
  constructor
  · exact hosts
  · intro member there
    cases List.mem_or_eq_of_mem_set there with
    | inl old => exact sound.drawn member old
    | inr new =>
      rw [new, same]
      exact sound.drawn running (List.mem_of_getElem? found)
  · rw [uuidsSame]
    exact sound.distinct
  · rw [uuidsSame]
    intro uuid member absent place
    refine written.within (sound.unused uuid member absent place) fun value entry => ?_
    rw [keyed _ _ entry] at absent
    exact absent (List.mem_map_of_mem (List.mem_of_getElem? found))
  · intro other following otherFound
    by_cases here : other = index
    · subst here
      have new : some next = some following := by
        rw [← otherFound]
        exact (List.getElem?_set_self inside).symm
      rw [← Option.some.inj new]
      exact progressed
    · have old : world.commands[other]? = some following := by
        rw [← otherFound]
        exact (List.getElem?_set_ne (Ne.symm here)).symm
      obtain ⟨peers, split, participants, done, accepted, progress, counted⟩ := sound.progress other following old
      refine ⟨peers, split, participants, done, accepted, progress.transport written fun value entry => ?_, ?_⟩
      · exact sound.apart found old here (keyed _ _ entry)
      · rw [acknowledgers_quiet (quiet other here), counted]
  · intro other outside
    rw [List.length_set] at outside
    rw [acknowledgers_quiet (quiet other (by omega))]
    exact sound.silent other outside

/-! ## The steps -/

/-- A step that starts nothing and writes no share. -/
theorem Sound.idle (sound : Sound site ownName uuids history world) {transition : WorldStep Place}
    (quiet : ∀ index, acknowledged index transition = none) :
    Sound site ownName uuids (history ++ [transition]) world :=
  sound.stay quiet sound.hosts (Written.same _ fun _ _ => False) fun _ _ impossible => impossible.elim

theorem Sound.start (sound : Sound site ownName uuids history world) (certified : site.Certified ownName)
    {transition : WorldStep Place} (quiet : ∀ index, acknowledged index transition = none) {command : StoreCommand}
    {publication : Publication}
    (prepared : prepare site.sha256 site.hosts command = .ok (some publication)) (plainName : Plain command.name)
    (plainUuid : Plain command.uuid4) (drawn : command.uuid4 ∈ uuids)
    (new : command.uuid4 ∉ world.commands.map fun running => running.command.uuid4) :
    Sound site ownName uuids (history ++ [transition]) { world with commands := world.commands ++
      [⟨command, publication, Phase.begin publication.treshold publication.deliveries 0⟩] } := by
  obtain ⟨ownHost, entry, named⟩ := certified.entry
  obtain ⟨peers, trusted⟩ := prepare_trusts entry named prepared
  obtain ⟨split, participants, publishes⟩ := prepare_eq_ok entry named trusted prepared
  have stayed := sound.idle quiet
  constructor
  · exact stayed.hosts
  · intro running member
    cases List.mem_append.mp member with
    | inl old => exact stayed.drawn running old
    | inr last =>
      obtain rfl := List.mem_singleton.mp last
      exact ⟨plainName, plainUuid, drawn⟩
  · rw [List.map_append, List.map_singleton, List.nodup_append]
    refine ⟨stayed.distinct, List.nodup_singleton _, fun uuid old other last same => ?_⟩
    rw [List.mem_singleton.mp last] at same
    exact new (same ▸ old)
  · intro uuid member absent
    apply stayed.unused uuid member
    intro old
    rw [List.map_append] at absent
    exact absent (List.mem_append_left _ old)
  · intro index running found
    by_cases inside : index < world.commands.length
    · rw [List.getElem?_append_left inside] at found
      exact stayed.progress index running found
    · have last : index = world.commands.length := by
        have bound := (List.getElem?_eq_some_iff.mp found).1
        rw [List.length_append, List.length_singleton] at bound
        omega
      rw [last, List.getElem?_concat_length] at found
      cases found
      refine ⟨peers, split, participants, [], [], ⟨trusted, publishes, List.nil_prefix, List.Sublist.refl _, by simp,
        fun place => (sound.unused _ drawn new place).mono fun value => False.elim, ?_⟩, ?_⟩
      · have begun := @stage_begin command publication peers split participants [] (assigned peers split participants) []
          rfl
        rw [deliveries_eq publishes, publishes.treshold]
        exact begun
      · rw [last]
        exact stayed.silent _ (le_refl _)
  · intro index outside
    rw [List.length_append, List.length_singleton] at outside
    exact stayed.silent index (by omega)

section Steps

variable [DecidableEq Place]

/-- What the post of a share does. -/
theorem Sound.publish_cases (sound : Sound site ownName uuids history world) (index : Nat) (fate : Fate) :
    site.step world (.publish index fate) = (.nothing, world) ∨
    ∃ command publication post rest successes reply after,
      world.commands[index]? = some ⟨command, publication, .publishing post rest successes⟩ ∧
      site.step world (.publish index fate) = (.posted index post.peer (Client.storeShare reply),
        ⟨Function.update world.servers (site.locate post.address) after, world.commands.set index
          ⟨command, publication, Phase.published publication.treshold rest successes reply⟩⟩) ∧
      ShareSent (world.servers (site.locate post.address)) after command.uuid4 post.participantData reply := by
  cases found : world.commands[index]? with
  | none => exact .inl (by simp [Site.step, found])
  | some running =>
    obtain ⟨command, publication, phase⟩ := running
    cases phase with
    | recording successes => exact .inl (by simp [Site.step, found])
    | exited outcome => exact .inl (by simp [Site.step, found])
    | publishing post rest successes =>
      right
      obtain ⟨peers, split, participants, done, accepted, progress, _⟩ := sound.progress index _ found
      obtain ⟨_, plainUuid, _⟩ := sound.drawn _ (List.mem_of_getElem? found)
      obtain ⟨share, remaining, address, _, same, _, _, _⟩ := progress.stage
      have named : post.shareUuid = .str command.uuid4 := by
        rw [same]
        exact congrArg Json.str progress.publishes.splitUuid
      have writable : Writable site.floats post.participantData := by
        rw [same]
        exact writable_record site.floats split share.2
      cases exchanged : exchange fate (world.servers (site.locate post.address))
        (site.postShare (world.servers (site.locate post.address)) post) with
      | mk reply after =>
        refine ⟨command, publication, post, rest, successes, reply, after, rfl, ?_, ?_⟩
        · simp only [Site.step, found, exchanged]
        · exact .exchange (Site.postShare_sent plainUuid named writable) exchanged

/-- A server that takes a step leaves the own server's host list. -/
theorem hosts_update {place : Place} {after : Server} (own : (world.servers site.own).hosts = site.hosts)
    (hosts : after.hosts = (world.servers place).hosts) :
    (Function.update world.servers place after site.own).hosts = site.hosts := by
  by_cases here : site.own = place
  · rw [here, Function.update_self, hosts, ← here]
    exact own
  · rw [Function.update_of_ne here]
    exact own

theorem Sound.publish (sound : Sound site ownName uuids history world) (index : Nat) (fate : Fate) :
    Sound site ownName uuids
      (history ++ [site.transition world (.publish index fate)]) (site.transition world (.publish index fate)).after := by
  cases sound.publish_cases index fate with
  | inl nothing =>
    rw [Site.transition_eq nothing]
    exact sound.idle fun _ => rfl
  | inr posted =>
    obtain ⟨command, publication, post, rest, successes, reply, after, found, stepped, sent⟩ := posted
    obtain ⟨peers, split, participants, done, accepted, progress, counted⟩ := sound.progress index _ found
    obtain ⟨nowDone, nowAccepted, progressed, countedNow⟩ := progress.published sent
    rw [Site.transition_eq stepped]
    refine sound.advance found rfl (fun other different => ?_) (hosts_update sound.hosts sent.hosts)
      (written_of_sent sent) (fun key value entry => entry.1)
      ⟨peers, split, participants, nowDone, nowAccepted, progressed, ?_⟩
    · cases outcome : Client.storeShare reply with
      | ok nothing => simp [acknowledged, Ne.symm different]
      | error exception => simp [acknowledged]
    · rw [acknowledgers_append, counted, countedNow]
      cases Client.storeShare reply with
      | ok nothing => simp [acknowledged]
      | error exception => simp [acknowledged]

/-- The post of a record writes no share. -/
theorem written_of_records {servers : Place → Server} {place : Place} {after : Server} {name : String} {record : Json}
    {reply : Reply} (sent : RecordSent (servers place) after name record reply) :
    Written servers (Function.update servers place after) fun _ _ => False := by
  apply Written.update
  rw [sent.shares]
  exact ⟨none, .same, by simp⟩

/-- Somebody else's request writes no share of this host. -/
theorem written_of_request {place : Place} {request : Request} {output : Option (Except Failure Answer)}
    {after : Server} (handled : handle site.lower site.intOf (world.servers place) request = (output, after))
    (honest : ∀ shareUuid commonName body saved, request = .postShare shareUuid commonName body saved →
      shareUuid ∉ uuids) :
    Written world.servers (Function.update world.servers place after) fun key _ => key ∉ uuids := by
  obtain ⟨written, copied, wrote⟩ := handle_shares handled
  refine Written.update ⟨written, copied, fun key value same => ?_⟩
  obtain ⟨absent, commonName, saved, posted⟩ := wrote key value same
  exact ⟨absent, honest key commonName _ saved posted⟩

/-- What the post of a record does, and what it has recorded. -/
theorem Sound.record_cases (sound : Sound site ownName uuids history world) (index : Nat) (now : String) (fate : Fate) :
    site.step world (.record index now fate) = (.nothing, world) ∨
    ∃ command publication successes reply after,
      world.commands[index]? = some ⟨command, publication, .recording successes⟩ ∧
      site.step world (.record index now fate) = (.recorded index command (Client.recorded reply),
        ⟨Function.update world.servers site.own after,
          world.commands.set index ⟨command, publication, .exited (Client.recorded reply)⟩⟩) ∧
      publication.treshold ≤ (acknowledgers history index).length ∧
      RecordSent (world.servers site.own) after command.name (secretRecord (.str command.uuid4) publication.treshold
        (acknowledgers history index).length now) reply := by
  cases found : world.commands[index]? with
  | none => exact .inl (by simp [Site.step, found])
  | some running =>
    obtain ⟨command, publication, phase⟩ := running
    cases phase with
    | publishing post rest successes => exact .inl (by simp [Site.step, found])
    | exited outcome => exact .inl (by simp [Site.step, found])
    | recording successes =>
      right
      obtain ⟨peers, split, participants, done, accepted, progress, counted⟩ := sound.progress index _ found
      obtain ⟨plainName, _, _⟩ := sound.drawn _ (List.mem_of_getElem? found)
      obtain ⟨successful, enough⟩ := progress.stage
      -- the counter of the loop is the number of acknowledgements
      have length : (acknowledgers history index).length = successes := by
        rw [counted, List.length_map, successful]
      cases exchanged : exchange fate (world.servers site.own) (site.postSecret (world.servers site.own) command.name
        (metadata publication.uuid publication.treshold successes) now) with
      | mk reply after =>
        refine ⟨command, publication, successes, reply, after, rfl, ?_, ?_, ?_⟩
        · simp only [Site.step, found, exchanged]
        · rw [length, progress.publishes.treshold, successful]
          exact enough
        · rw [length]
          rw [progress.publishes.uuid] at exchanged
          exact .exchange (Site.postSecret_sent plainName) exchanged

theorem Sound.record (sound : Sound site ownName uuids history world) (index : Nat) (now : String) (fate : Fate) :
    Sound site ownName uuids
      (history ++ [site.transition world (.record index now fate)]) (site.transition world (.record index now fate)).after := by
  cases sound.record_cases index now fate with
  | inl nothing =>
    rw [Site.transition_eq nothing]
    exact sound.idle fun _ => rfl
  | inr posted =>
    obtain ⟨command, publication, successes, reply, after, found, stepped, _, sent⟩ := posted
    obtain ⟨peers, split, participants, done, accepted, progress, counted⟩ := sound.progress index _ found
    have written := written_of_records sent
    have moved := progress.transport written fun _ impossible => impossible
    rw [Site.transition_eq stepped]
    refine sound.advance found rfl (fun _ _ => rfl) ?_ written (fun _ _ impossible => impossible.elim)
      ⟨peers, split, participants, done, accepted, ⟨moved.trusted, moved.publishes, moved.tried, moved.counted,
        moved.kept, moved.within, trivial⟩, ?_⟩
    · exact hosts_update sound.hosts sent.hosts
    · rw [acknowledgers_quiet rfl, counted]

theorem Sound.other (sound : Sound site ownName uuids history world) (place : Place) (request : Request)
    (honest : ∀ shareUuid commonName body saved, request = .postShare shareUuid commonName body saved →
      shareUuid ∉ uuids) :
    Sound site ownName uuids
      (history ++ [site.transition world (.other place request)]) (site.transition world (.other place request)).after := by
  cases handled : handle site.lower site.intOf (world.servers place) request with
  | mk output after =>
    rw [Site.transition_other handled]
    exact sound.stay (fun _ => rfl) (hosts_update sound.hosts (handle_hosts handled))
      (written_of_request handled honest) fun _ _ foreign => foreign

/-- The step lemma. -/
theorem Sound.step (sound : Sound site ownName uuids history world) (certified : site.Certified ownName)
    (event : Event Place) (honest : site.Honest uuids (site.transition world event)) :
    Sound site ownName uuids (history ++ [site.transition world event]) (site.transition world event).after := by
  cases event with
  | start command =>
    obtain ⟨plainName, plainUuid, drawn, new⟩ := honest
    cases prepared : prepare site.sha256 site.hosts command with
    | error exception =>
      have stepped : site.step world (.start command) = (.nothing, world) := by simp [Site.step, prepared]
      rw [Site.transition_eq stepped]
      exact sound.idle fun _ => rfl
    | ok outcome =>
      cases outcome with
      | none =>
        have stepped : site.step world (.start command) = (.nothing, world) := by simp [Site.step, prepared]
        rw [Site.transition_eq stepped]
        exact sound.idle fun _ => rfl
      | some publication =>
        have stepped : site.step world (.start command) = (.nothing, { world with commands := world.commands ++
            [⟨command, publication, Phase.begin publication.treshold publication.deliveries 0⟩] }) := by
          simp only [Site.step, prepared]
        rw [Site.transition_eq stepped]
        exact sound.start certified (fun _ => rfl) prepared plainName plainUuid drawn new
  | publish index fate => exact sound.publish index fate
  | record index now fate => exact sound.record index now fate
  | other place request =>
    apply sound.other place request
    intro shareUuid commonName body saved posted
    subst posted
    exact honest

/-! ## The versions of a secret -/

/-- A command that has come to its end stays as it is. -/
theorem exited_step {index : Nat} {command : StoreCommand} {publication : Publication}
    {outcome : Except PyException Unit}
    (found : world.commands[index]? = some ⟨command, publication, .exited outcome⟩) (event : Event Place) :
    (site.transition world event).after.commands[index]? = some ⟨command, publication, .exited outcome⟩ ∧
      acknowledged index (site.transition world event) = none := by
  have inside : index < world.commands.length := (List.getElem?_eq_some_iff.mp found).1
  cases event with
  | start started =>
    simp only [Site.transition, Site.step]
    split
    · exact ⟨by rw [List.getElem?_append_left inside, found], rfl⟩
    · exact ⟨found, rfl⟩
  | publish other fate =>
    simp only [Site.transition, Site.step]
    split
    · rename_i following _ post _ _ otherFound
      have different : other ≠ index := by
        rintro rfl
        cases otherFound.symm.trans found
      refine ⟨by rw [List.getElem?_set_ne different, found], ?_⟩
      cases Client.storeShare (exchange fate (world.servers (site.locate post.address))
        (site.postShare (world.servers (site.locate post.address)) post)).1 with
      | ok nothing => simp [acknowledged, different]
      | error exception => simp [acknowledged]
    · exact ⟨found, rfl⟩
  | record other now fate =>
    simp only [Site.transition, Site.step]
    split
    · rename_i otherFound
      have different : other ≠ index := by
        rintro rfl
        cases otherFound.symm.trans found
      exact ⟨by rw [List.getElem?_set_ne different, found], rfl⟩
    · exact ⟨found, rfl⟩
  | other place request => exact ⟨found, rfl⟩

/-- The record of one of these commands, whose count is the number of peers that acknowledged. -/
def Versioned (world : World Place) (history : List (WorldStep Place)) (name : String)
    (Which : Nat → StoreCommand → Prop) (value : Json) : Prop :=
  ∃ index command publication outcome now, Which index command ∧ command.name = name ∧
    world.commands[index]? = some ⟨command, publication, .exited outcome⟩ ∧
    publication.treshold ≤ (acknowledgers history index).length ∧
    value = secretRecord (.str command.uuid4) publication.treshold (acknowledgers history index).length now

/-- The own server has such a record under the name, in memory and on disk. -/
def Recorded (site : Site Place) (world : World Place) (history : List (WorldStep Place)) (name : String)
    (Which : Nat → StoreCommand → Prop) : Prop :=
  (secretCopies (world.servers site.own)).Kept name (Versioned world history name Which)

theorem Versioned.step {name : String} {Which Later : Nat → StoreCommand → Prop} {value : Json}
    (versioned : Versioned world history name Which value) (more : ∀ index command, Which index command → Later index command)
    (event : Event Place) :
    Versioned (site.transition world event).after (history ++ [site.transition world event]) name Later value := by
  obtain ⟨index, command, publication, outcome, now, chosen, named, found, enough, same⟩ := versioned
  obtain ⟨stays, quiet⟩ := exited_step found event
  refine ⟨index, command, publication, outcome, now, more index command chosen, named, stays, ?_, ?_⟩
  · rwa [acknowledgers_quiet quiet]
  · rwa [acknowledgers_quiet quiet]

/-- The command at this index has posted its record in this step. -/
def Records (transition : WorldStep Place) (index : Nat) (command : StoreCommand) : Prop :=
  ∃ result, transition.output = .recorded index command result

/-- The own server's records, over one step. -/
theorem Sound.secrets_step (sound : Sound site ownName uuids history world) (event : Event Place)
    (honest : site.Honest uuids (site.transition world event)) :
    ∃ written, Copies.Step (secretCopies (world.servers site.own)) written
        (secretCopies ((site.transition world event).after.servers site.own)) ∧
      ∀ name value, written = some (name, value) → Versioned (site.transition world event).after
        (history ++ [site.transition world event]) name (Records (site.transition world event)) value := by
  cases event with
  | start command =>
    refine ⟨none, ?_, by simp⟩
    simp only [Site.transition, Site.step]
    split
    · exact .same
    · exact .same
  | publish index fate =>
    refine ⟨none, ?_, by simp⟩
    cases sound.publish_cases index fate with
    | inl nothing =>
      rw [Site.transition_eq nothing]
      exact .same
    | inr posted =>
      obtain ⟨command, publication, post, rest, successes, reply, after, found, stepped, sent⟩ := posted
      rw [Site.transition_eq stepped]
      dsimp only
      -- a share may go to the own server too, and is no record there
      by_cases here : site.own = site.locate post.address
      · rw [here, Function.update_self, sent.secrets]
        exact .same
      · rw [Function.update_of_ne here]
        exact .same
  | record index now fate =>
    cases sound.record_cases index now fate with
    | inl nothing =>
      rw [Site.transition_eq nothing]
      exact ⟨none, .same, by simp⟩
    | inr posted =>
      obtain ⟨command, publication, successes, reply, after, found, stepped, enough, sent⟩ := posted
      obtain ⟨written, copied, wrote⟩ := sent.copies
      have inside : index < world.commands.length := (List.getElem?_eq_some_iff.mp found).1
      rw [Site.transition_eq stepped]
      dsimp only
      rw [Function.update_self]
      refine ⟨written, copied, fun name value same => ?_⟩
      obtain ⟨rfl, rfl⟩ := wrote name value same
      refine ⟨index, command, publication, Client.recorded reply, now, ⟨_, rfl⟩, rfl, List.getElem?_set_self inside, ?_, ?_⟩
      · rwa [acknowledgers_quiet rfl]
      · rw [acknowledgers_quiet rfl]
  | other place request =>
    cases handled : handle site.lower site.intOf (world.servers place) request with
    | mk output after =>
      rw [Site.transition_other handled]
      dsimp only
      by_cases here : site.own = place
      · subst here
        rw [Function.update_self]
        obtain ⟨written, copied, wrote⟩ := handle_secrets handled
        refine ⟨written, copied, fun name value same => ?_⟩
        obtain ⟨commonName, body, now, saved, rfl, _⟩ := wrote name value same
        exact absurd rfl honest
      · rw [Function.update_of_ne here]
        exact ⟨none, .same, by simp⟩

theorem Sound.recorded_step (sound : Sound site ownName uuids history world) {name : String}
    {Which : Nat → StoreCommand → Prop} (recorded : Recorded site world history name Which) (event : Event Place)
    (honest : site.Honest uuids (site.transition world event)) :
    Recorded site (site.transition world event).after (history ++ [site.transition world event]) name
      fun index command => Which index command ∨ Records (site.transition world event) index command := by
  obtain ⟨written, copied, wrote⟩ := sound.secrets_step event honest
  refine (recorded.mono fun value versioned => versioned.step (fun _ _ => .inl) event).step copied fun value same => ?_
  obtain ⟨index, command, publication, outcome, now, records, version⟩ := wrote name value same
  exact ⟨index, command, publication, outcome, now, .inr records, version⟩

/-- Posts of shares go under no uuid of a command that has come to its end. -/
theorem Sound.progress_step (sound : Sound site ownName uuids history world) {index : Nat} {running : Running}
    {outcome : Except PyException Unit} (found : world.commands[index]? = some running)
    (ended : running.phase = .exited outcome) {peers : List Json} {split : Split} {participants : List (List Point)}
    {done accepted : List (Json × List Point)}
    (progress : Progress site ownName world.servers running peers split participants done accepted)
    (event : Event Place) (honest : site.Honest uuids (site.transition world event)) :
    Progress site ownName (site.transition world event).after.servers running peers split participants done
      accepted := by
  have drawn := (sound.drawn running (List.mem_of_getElem? found)).2.2
  cases event with
  | start command =>
    have same : (site.transition world (.start command)).after.servers = world.servers := by
      simp only [Site.transition, Site.step]
      split
      · rfl
      · rfl
    rwa [same]
  | publish other fate =>
    cases sound.publish_cases other fate with
    | inl nothing => rwa [Site.transition_eq nothing]
    | inr posted =>
      obtain ⟨command, publication, post, rest, successes, reply, after, otherFound, stepped, sent⟩ := posted
      rw [Site.transition_eq stepped]
      refine progress.transport (written_of_sent sent) fun value entry => ?_
      have different : index ≠ other := by
        rintro rfl
        cases found.symm.trans otherFound
        cases ended
      exact sound.apart otherFound found different entry.1
  | record other now fate =>
    cases sound.record_cases other now fate with
    | inl nothing => rwa [Site.transition_eq nothing]
    | inr posted =>
      obtain ⟨command, publication, successes, reply, after, otherFound, stepped, enough, sent⟩ := posted
      rw [Site.transition_eq stepped]
      exact progress.transport (written_of_records sent) fun _ impossible => impossible
  | other place request =>
    cases handled : handle site.lower site.intOf (world.servers place) request with
    | mk output after =>
      rw [Site.transition_other handled]
      exact progress.transport (written_of_request handled fun shareUuid commonName body saved posted => by
        subst posted
        exact honest) fun value foreign => foreign drawn

/-! ## Runs -/

/-- The invariant over a run. -/
theorem Sound.run (sound : Sound site ownName uuids history world) (certified : site.Certified ownName)
    {events : List (Event Place)} (honest : ∀ transition ∈ transitions site.step world events,
      site.Honest uuids transition) :
    (∀ earlier transition later, transitions site.step world events = earlier ++ transition :: later →
      Sound site ownName uuids (history ++ earlier) transition.before) ∧
    Sound site ownName uuids (history ++ transitions site.step world events) (Machine.run site.step world events) := by
  refine @invariant_of_history _ _ _ site.step (Sound site ownName uuids) (site.Honest uuids) history world events ?_
    sound honest
  intro history transition allowed before stepped
  obtain ⟨world, event, output, after⟩ := transition
  have next := before.step certified event
  rw [Site.transition_eq stepped] at next
  exact next allowed

/-- A command that reports success has its record at the own server. -/
theorem Sound.recorded_now (sound : Sound site ownName uuids history world) {event : Event Place} {after : World Place}
    {index : Nat} {command : StoreCommand} (stepped : site.step world event = (.recorded index command (.ok ()), after)) :
    Recorded site after (history ++ [⟨world, event, .recorded index command (.ok ()), after⟩]) command.name
      fun version newest => version = index ∧ newest = command := by
  cases event with
  | start started =>
    simp only [Site.step] at stepped
    split at stepped
    · cases stepped
    · cases stepped
  | publish other fate =>
    cases sound.publish_cases other fate with
    | inl nothing => cases nothing.symm.trans stepped
    | inr posted =>
      obtain ⟨_, _, _, _, _, _, _, _, published, _⟩ := posted
      cases published.symm.trans stepped
  | other place request => cases stepped
  | record other now fate =>
    cases sound.record_cases other now fate with
    | inl nothing => cases nothing.symm.trans stepped
    | inr posted =>
      obtain ⟨posting, publication, successes, reply, server, found, recorded, enough, sent⟩ := posted
      have same := recorded.symm.trans stepped
      obtain ⟨outcome, world⟩ := Prod.mk.inj same
      injection outcome with sameIndex sameCommand success
      subst sameIndex sameCommand world
      have inside := (List.getElem?_eq_some_iff.mp found).1
      simp only [Recorded, Function.update_self]
      refine (sent.acknowledged success).mono fun value written => ?_
      refine ⟨other, posting, publication, _, now, ⟨rfl, rfl⟩, rfl, List.getElem?_set_self inside, ?_, ?_⟩
      · rwa [acknowledgers_quiet rfl]
      · rwa [acknowledgers_quiet rfl]

/-- From then on there is its record, or that of a command that has recorded later. -/
theorem Sound.recorded_run (sound : Sound site ownName uuids history world) (certified : site.Certified ownName)
    {events : List (Event Place)} (honest : ∀ transition ∈ transitions site.step world events,
      site.Honest uuids transition)
    {name : String} {Which : Nat → StoreCommand → Prop} (recorded : Recorded site world history name Which) :
    Recorded site (Machine.run site.step world events) (history ++ transitions site.step world events) name
      fun index command => Which index command ∨
        ∃ transition ∈ transitions site.step world events, Records transition index command := by
  have invariant := (@invariant_of_history _ _ _ site.step
    (fun sofar state => Sound site ownName uuids (history ++ sofar) state ∧
      Recorded site state (history ++ sofar) name fun index command => Which index command ∨
        ∃ transition ∈ sofar, Records transition index command)
    (site.Honest uuids) [] world events
    (by
      intro sofar transition allowed before stepped
      obtain ⟨state, event, output, after⟩ := transition
      obtain ⟨soundBefore, recordedBefore⟩ := before
      have next := soundBefore.step certified event
      have recordedNext := soundBefore.recorded_step recordedBefore event
      rw [Site.transition_eq stepped] at next recordedNext
      rw [← List.append_assoc]
      refine ⟨next allowed, (recordedNext allowed).mono fun value versioned => ?_⟩
      obtain ⟨index, command, publication, outcome, now, chosen, version⟩ := versioned
      refine ⟨index, command, publication, outcome, now, ?_, version⟩
      cases chosen with
      | inl earlier =>
        cases earlier with
        | inl first => exact .inl first
        | inr later =>
          obtain ⟨transition, member, records⟩ := later
          exact .inr ⟨transition, List.mem_append_left _ member, records⟩
      | inr records => exact .inr ⟨_, List.mem_append_right _ List.mem_cons_self, records⟩)
    ⟨by rwa [List.append_nil], by
      rw [List.append_nil]
      exact recorded.mono fun value versioned => by
        obtain ⟨index, command, publication, outcome, now, chosen, version⟩ := versioned
        exact ⟨index, command, publication, outcome, now, .inl chosen, version⟩⟩ honest).2
  exact invariant.2

/-- The shares of a command that has come to its end stay where they are. -/
theorem Sound.progress_run (sound : Sound site ownName uuids history world) (certified : site.Certified ownName)
    {events : List (Event Place)} (honest : ∀ transition ∈ transitions site.step world events,
      site.Honest uuids transition)
    {index : Nat} {command : StoreCommand} {publication : Publication} {outcome : Except PyException Unit}
    (found : world.commands[index]? = some ⟨command, publication, .exited outcome⟩) {peers : List Json} {split : Split}
    {participants : List (List Point)} {done accepted : List (Json × List Point)}
    (progress : Progress site ownName world.servers ⟨command, publication, .exited outcome⟩ peers split participants
      done accepted) :
    Progress site ownName (Machine.run site.step world events).servers ⟨command, publication, .exited outcome⟩ peers
      split participants done accepted := by
  have invariant := (@invariant_of_history _ _ _ site.step
    (fun sofar state => Sound site ownName uuids (history ++ sofar) state ∧
      state.commands[index]? = some ⟨command, publication, .exited outcome⟩ ∧
      Progress site ownName state.servers ⟨command, publication, .exited outcome⟩ peers split participants done accepted)
    (site.Honest uuids) [] world events
    (by
      intro sofar transition allowed before stepped
      obtain ⟨state, event, output, after⟩ := transition
      obtain ⟨soundBefore, foundBefore, progressBefore⟩ := before
      have next := soundBefore.step certified event
      have progressNext := soundBefore.progress_step foundBefore rfl progressBefore event
      have stays : (site.transition state event).after.commands[index]? = _ := (exited_step foundBefore event).1
      rw [Site.transition_eq stepped] at next progressNext stays
      rw [← List.append_assoc]
      exact ⟨next allowed, stays, progressNext allowed⟩)
    ⟨by rwa [List.append_nil], found, progress⟩ honest).2
  exact invariant.2.2

end Steps

end Invariant

end SecretWeb.Network
