import SecretWeb.Machine.Percolation
import SecretWeb.Mesh.Calm

/-! # What comes back after an outage

A server that has gone down needs a majority of the others to get its KEY1 back, and these may
need others first.  What can be brought up again is what percolates from the servers that are
still up, and from the shares that the initiators hold already. -/

namespace SecretWeb.Mesh

open SecretWeb.Data SecretWeb.Python SecretWeb.Python.JsonText SecretWeb.HostsData SecretWeb.Shamir SecretWeb.Storage
  SecretWeb.Client SecretWeb.Network SecretWeb.Setup SecretWeb.Initiator SecretWeb.Server SecretWeb.Server.Recovery

open SecretWeb.CryptoFile (Nonce)

open SecretWeb.Machine (Percolates Reaches reaches_iff reaches_step reaches_each run)

section Helpers

variable {Place : Type} [DecidableEq Place] {platform : Platform Place} (member : Member platform)

/-- Where the hosts of these names are. -/
def Member.helpers (names : List String) : Finset Place :=
  ((member.others.filter fun host => host.name ∈ names).map platform.place).toFinset

def Member.neighbours : Finset Place := (member.others.map platform.place).toFinset

theorem Member.mem_helpers {names : List String} {place : Place} :
    place ∈ member.helpers names ↔ ∃ host ∈ member.others, host.name ∈ names ∧ platform.place host = place := by
  simp [Member.helpers, and_assoc]

theorem Member.mem_neighbours {place : Place} :
    place ∈ member.neighbours ↔ ∃ host ∈ member.others, platform.place host = place := by
  simp [Member.neighbours]

/-- The hosts of the names are as many as the names. -/
theorem Member.card_helpers {names : List String} (distinct : names.Nodup)
    (listed : ∀ name ∈ names, ∃ host ∈ member.others, host.name = name) :
    (member.helpers names).card = names.length := by
  have namesApart := member.othersApart
  have hostsApart : (member.others.filter fun host => host.name ∈ names).Nodup :=
    (List.Nodup.of_map _ namesApart).filter _
  have placesApart : ((member.others.filter fun host => host.name ∈ names).map platform.place).Nodup := by
    refine hostsApart.map_on fun first firstMember second secondMember same => ?_
    exact member.placedApart first (member.typed_of_other (List.mem_filter.mp firstMember).1) second
      (member.typed_of_other (List.mem_filter.mp secondMember).1) same
  have sameNames : ((member.others.filter fun host => host.name ∈ names).map Setup.Host.name).Perm names := by
    refine (List.perm_ext_iff_of_nodup (namesApart.sublist (List.filter_sublist.map Setup.Host.name)) distinct).mpr ?_
    intro name
    constructor
    · intro found
      obtain ⟨host, chosen, rfl⟩ := List.mem_map.mp found
      simpa using (List.mem_filter.mp chosen).2
    · intro found
      obtain ⟨host, other, rfl⟩ := listed name found
      exact List.mem_map_of_mem (List.mem_filter.mpr ⟨other, by simpa using found⟩)
  rw [Member.helpers, List.toFinset_card_of_nodup placesApart, List.length_map, ← sameNames.length_eq, List.length_map]

theorem Member.card_neighbours : member.neighbours.card = member.others.length := by
  have whole : member.neighbours = member.helpers (member.others.map Setup.Host.name) := by
    ext place
    rw [Member.mem_neighbours, Member.mem_helpers]
    constructor
    · rintro ⟨host, other, there⟩
      exact ⟨host, other, List.mem_map_of_mem other, there⟩
    · rintro ⟨host, other, _, there⟩
      exact ⟨host, other, there⟩
  rw [whole, member.card_helpers member.othersApart fun name listed => by simpa using listed, List.length_map]

end Helpers

section Outages

variable {Place : Type} {web : Web Place}

def Web.treshold (web : Web Place) (place : Place) : Nat := (web.member place).others.length / 2 + 1

/-- Whose shares the initiator of the host holds. -/
def heard (state : State web) (place : Place) : Set Place :=
  {helper | ∃ collecting, state.initiators place = some collecting ∧
    ∃ host ∈ (web.member place).others, web.platform.place host = helper ∧ Json.str host.name ∈ collecting.contributed}

/-- What an initiator has gathered, by the names of the hosts. -/
theorem Gathering.counts {state : State web} {place : Place} {collecting : Collecting}
    (gathering : Gathering state place collecting) :
    ∃ found : List String, found.Nodup ∧ (∀ name ∈ found, ∃ host ∈ (web.member place).others, host.name = name) ∧
      collecting.contributed = found.map Json.str ∧ found.length ≤ web.treshold place ∧
      (collecting.decoder.readyToDecode = true ↔ found.length = web.treshold place) := by
  obtain ⟨split, participants, publishes⟩ := (web.member place).publishes
  obtain ⟨all, gathers⟩ := gathering.gathers split participants publishes
  have treshold := ((web.member place).treshold_eq publishes).2
  refine ⟨all.map peerName, gathers.collected.distinct, ?_, ?_, ?_, ?_⟩
  · intro name found
    obtain ⟨peer, member, rfl⟩ := List.mem_map.mp found
    have listed := gathers.collected.listed peer member
    rw [gathering.peers] at listed
    obtain ⟨host, other, rfl⟩ := (web.member place).mem_peers listed
    exact ⟨host, other, ((web.member place).peerName_entry host).symm⟩
  · rw [gathers.contributed, names, List.map_map]
    rfl
  · have few := gathers.collected.few
    rw [List.length_map, Web.treshold]
    omega
  · rw [gathers.collected.ready, List.length_map, Web.treshold, treshold]
    omega

/-- A peer that has handed out its share was up. -/
theorem ready_of_answersOwn {state : State web} {helper : Place} {outage : Option Outage}
    {publication : Key1Publication} {share : Json → List Point} {commonName uuid text : String} {peer : Json}
    (answers : AnswersOwn web.platform.formatted (.str text) publication share peer
      (web.shareReply commonName uuid outage helper (state.servers helper))) : Ready state helper := by
  obtain ⟨_, _, _, _, _, retrieved, _⟩ := answers
  cases outage with
  | some outage =>
    obtain ⟨_, failed, _⟩ := @passedOver_of_fails web.platform.formatted (.str text) _ outage.fails
    cases retrieved.symm.trans failed
  | none =>
    cases process : (state.servers helper).host.process with
    | running memory => exact ⟨memory, process⟩
    | _ =>
      simp only [Web.shareReply, process] at retrieved
      cases retrieved

/-- A peer whose server waits for requests hands out its share. -/
theorem Invariant.answersOwn_ready {state : State web} (invariant : Invariant state) {place : Place}
    (recorded : state.setups place = .recorded) {host : Setup.Host} (other : host ∈ (web.member place).others)
    (ready : Ready state (web.platform.place host)) :
    AnswersOwn web.platform.formatted (.str (web.member place).uuid4) (web.member place).publication
      (web.member place).share ((web.member place).entry host)
      (web.answerOf state place (web.member place).uuid4 none ((web.member place).entry host)) := by
  obtain ⟨memory, running⟩ := ready
  rw [← (web.member place).deliveries_hosts] at other
  obtain ⟨⟨_, record⟩, dealt, rfl⟩ := List.mem_map.mp other
  obtain ⟨parcel, sent, same, _⟩ := (web.member place).parcel_of_delivery dealt
  have shipped := invariant.shipped place
  rw [recorded] at shipped
  dsimp only at running ⊢
  rw [← same] at running ⊢
  rw [answerOf_entry, shareReply_stored sent running ((shipped parcel sent).running running)]
  exact answersOwn_parcel sent

/-! ## What can be reached at most -/

section Bound

variable [DecidableEq Place]

/-- Whom a host that has recorded its KEY1 gets it back from. -/
def neighbours (state : State web) (place : Place) : Finset Place :=
  match state.setups place with
  | .recorded => (web.member place).neighbours
  | _ => ∅

/-- A majority of the others are never more than all of them. -/
theorem Web.treshold_le (web : Web Place) (place : Place) :
    web.treshold place ≤ (web.member place).neighbours.card := by
  obtain ⟨split, participants, publishes⟩ := (web.member place).publishes
  obtain ⟨shares, treshold⟩ := (web.member place).treshold_eq publishes
  have lower := split.tresholdLower
  have upper := split.tresholdUpper
  rw [Member.card_neighbours, Web.treshold]
  omega

/-- What percolates from the servers that are up. -/
def Recoverable (state : State web) : Place → Prop :=
  Percolates (neighbours state) web.treshold (heard state) {place | Up state place}

/-- Every setup has come to its end. -/
def Ended (state : State web) : Prop := ∀ place, state.setups place = .recorded ∨ state.setups place = .exited

/-- Nothing has come up, and nothing has been heard, but what percolates. -/
structure Bounded (origin state : State web) : Prop where
  invariant : Invariant state
  setups : ∀ place, state.setups place = origin.setups place
  up : ∀ place, Up state place → Recoverable origin place
  hearing : ∀ place helper, helper ∈ heard state place → helper ∈ heard origin place ∨ Recoverable origin helper

omit [DecidableEq Place] in
theorem heard_eq_empty {state : State web} {place : Place} (idle : state.initiators place = none) :
    heard state place = ∅ := by
  rw [Set.eq_empty_iff_forall_notMem]
  rintro helper ⟨collecting, initiator, _⟩
  cases idle.symm.trans initiator

theorem heard_eq_helpers {state : State web} {place : Place} {collecting : Collecting}
    (initiator : state.initiators place = some collecting) {found : List String}
    (contributed : collecting.contributed = found.map Json.str) :
    heard state place = (web.member place).helpers found := by
  ext helper
  rw [Finset.mem_coe, Member.mem_helpers]
  constructor
  · rintro ⟨other, found', host, member, there, named⟩
    cases initiator.symm.trans found'
    rw [contributed] at named
    obtain ⟨name, inside, same⟩ := List.mem_map.mp named
    cases same
    exact ⟨host, member, inside, there⟩
  · rintro ⟨host, member, inside, there⟩
    exact ⟨collecting, initiator, host, member, there, contributed ▸ List.mem_map_of_mem inside⟩

theorem helpers_subset (place : Place) (names : List String) :
    (web.member place).helpers names ⊆ (web.member place).neighbours := by
  intro helper inside
  obtain ⟨host, other, _, there⟩ := (web.member place).mem_helpers.mp inside
  exact (web.member place).mem_neighbours.mpr ⟨host, other, there⟩

theorem bounded_self {origin : State web} (invariant : Invariant origin) : Bounded origin origin where
  invariant := invariant
  setups := fun _ => rfl
  up := fun _ up => .live up
  hearing := fun _ _ hears => .inl hears

theorem Bounded.up_step {origin state : State web} (bounded : Bounded origin state) (ended : Ended origin)
    (event : Event Place web.platform.floats) {place : Place} (up : Up (web.step state event).2 place) :
    Recoverable origin place := by
  rw [Up] at up
  cases servers_step state event place with
  | same unchanged =>
    rw [unchanged] at up
    exact bounded.up place up
  | launched secretsNonce sharesNonce isLaunch setup =>
    rw [bounded.setups place] at setup
    cases ended place with
    | inl recorded => cases recorded.symm.trans setup
    | inr exited => cases exited.symm.trans setup
  | booted secretsNonce sharesNonce collecting key1 isStart initiator ready =>
    have gathering := bounded.invariant.gathering place collecting initiator
    obtain ⟨found, distinct, listed, contributed, _, full⟩ := gathering.counts
    refine .helped ((web.member place).helpers found) ?_ ?_ fun helper inside unheard => ?_
    · rw [neighbours, ← bounded.setups place, gathering.recorded]
      exact helpers_subset place found
    · rw [(web.member place).card_helpers distinct listed]
      exact (full.mp ready).ge
    · refine (bounded.hearing place helper ?_).resolve_left unheard
      rw [heard_eq_helpers initiator contributed]
      exact inside
  | posted publisher nonce parcel left post memory isPublish setup target sent waiting =>
    exact bounded.up place (by rw [Up, waiting]; simp)
  | happened happening client isServer unstarted told changed =>
    rw [changed] at up
    exact bounded.up place fun down => up (down_stays down unstarted)

/-- Whoever hands out a share is up. -/
theorem Bounded.hearing_step {origin state : State web} (bounded : Bounded origin state)
    (event : Event Place web.platform.floats) {place helper : Place} (hears : helper ∈ heard (web.step state event).2 place) :
    helper ∈ heard origin place ∨ Recoverable origin helper := by
  obtain ⟨after, initiator, host, other, there, named⟩ := hears
  have collects := initiators_step state event place
  rw [initiator] at collects
  generalize begins : some after = next at collects
  cases collects with
  | same => exact bounded.hearing place helper ⟨after, begins.symm, host, other, there, named⟩
  | gone => cases begins
  | entered uuid4 isBoot idle =>
    unfold Web.entered at begins
    split at begins
    · split at begins
      · cases begins
        cases named
      · cases begins
    · cases begins
  | begun shuffle before isRound found =>
    have gathering := bounded.invariant.gathering place before found
    obtain ⟨split, participants, publishes⟩ := (web.member place).publishes
    obtain ⟨all, gathers⟩ := gathering.gathers split participants publishes
    obtain ⟨next, begun, _, gathersNext, _⟩ :=
      gathers.nextRound (gathering.peers ▸ (web.member place).peersApart) shuffle
    rw [begun] at begins
    cases begins
    refine bounded.hearing place helper ⟨before, found, host, other, there, ?_⟩
    rwa [gathers.contributed, ← gathersNext.contributed]
  | asked outage before peer rest isAsk found left =>
    have gathering := bounded.invariant.gathering place before found
    have apart : NamedApart before.loop.peers := gathering.peers ▸ (web.member place).peersApart
    obtain ⟨split, participants, publishes⟩ := (web.member place).publishes
    obtain ⟨all, gathers⟩ := gathering.gathers split participants publishes
    have listed : peer ∈ (web.member place).peers := by
      rw [← gathering.peers]
      exact gathers.listed peer (left ▸ List.mem_cons_self)
    have genuine := bounded.invariant.answer_genuine outage listed
    rw [← gathering.uuid] at genuine
    obtain ⟨next, more, heardNext, _, gathersNext, answered⟩ := gathers.asked publishes apart left genuine
    rw [heardNext] at begins
    cases begins
    rw [gathersNext.contributed, names_append, ← gathers.contributed, List.mem_append] at named
    cases named with
    | inl earlier => exact bounded.hearing place helper ⟨before, found, host, other, there, earlier⟩
    | inr now =>
      obtain ⟨answers, rfl⟩ | rfl := answered
      · obtain ⟨asked, askedOther, rfl⟩ := (web.member place).mem_peers listed
        rw [answerOf_entry] at answers
        have ready := ready_of_answersOwn answers
        -- the names are apart, so it is this host that has been asked
        have sameName : host.name = asked.name := by
          simpa [names, (web.member place).peerName_entry] using now
        have same : host = asked :=
          List.inj_on_of_nodup_map (web.member place).othersApart other askedOther sameName
        rw [← there, same]
        exact .inr (bounded.up _ ready.up)
      · cases now

theorem Bounded.step {origin state : State web} (bounded : Bounded origin state) (ended : Ended origin)
    {event : Event Place web.platform.floats} (fair : web.Fair event) : Bounded origin (web.step state event).2 where
  invariant := bounded.invariant.step fair
  setups := by
    intro place
    rw [← bounded.setups place]
    cases ended place with
    | inl recorded =>
      have before := (bounded.setups place).trans recorded
      rw [recorded_stays state event before, before]
    | inr exited =>
      have before := (bounded.setups place).trans exited
      rw [exited_stays state event before, before]
  up := fun _ up => bounded.up_step ended event up
  hearing := fun _ _ hears => bounded.hearing_step event hears

end Bound

end Outages

end SecretWeb.Mesh
