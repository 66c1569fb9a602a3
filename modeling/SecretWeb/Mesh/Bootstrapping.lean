import SecretWeb.Mesh.Calm

/-! # Bootstrapping can always go on

As long as no server is killed and nobody gives up, the setups of all the hosts can be carried
through, whatever has happened so far and in whatever order. -/

namespace SecretWeb.Mesh

open SecretWeb.Data SecretWeb.Python SecretWeb.Python.JsonText SecretWeb.HostsData SecretWeb.Shamir SecretWeb.Storage
  SecretWeb.Client SecretWeb.Network SecretWeb.Setup SecretWeb.Initiator SecretWeb.Server SecretWeb.Server.Recovery

open SecretWeb.CryptoFile (Nonce)

open SecretWeb.Machine (run run_append Reaches reaches_iff reaches_step reaches_of_rank reaches_each)

section Bootstrapping

variable {Place : Type} (web : Web Place)

/-- No two hosts have drawn the same uuid, and every parcel is small enough for the framework. -/
structure Web.Ordinary : Prop where
  uuids : ∀ place other, (web.member place).uuid4 = (web.member other).uuid4 → place = other
  fits : ∀ place, ∀ parcel ∈ (web.member place).parcels,
    (encodeUtf8 (dumps web.platform.floats parcel.document.value)).length ≤ MEMFILE_MAX

/-- Nothing is killed, no setup gives up, and nobody else posts a share under the uuid of a KEY1. -/
def Web.Undisturbing : Event Place web.platform.floats → Prop
  | .quit _ => False
  | .server _ .kill => False
  | .server _ (.post post _) => ∀ owner commonName body, post ≠ .share (web.member owner).uuid4 commonName body
  | _ => True

/-- Under the uuid of a KEY1 there is what its setup has sent. -/
def Web.Placed (place : Place) (store : Store) : Prop :=
  ∀ owner share, Dict.get store.shares (web.member owner).uuid4 = some share →
    ∃ parcel ∈ (web.member owner).parcels, web.platform.place parcel.host = place ∧ share = parcel.document.value

/-- Whoever is still to be asked in this round is among those that remain. -/
structure Polling (remaining : Dict Setup.Host) (queue : List String) : Prop where
  apart : (remaining.map Prod.fst).Nodup
  once : queue.Nodup
  there : ∀ name ∈ queue, Dict.get remaining name ≠ none

variable {web}

/-- What holds as long as nobody disturbs. -/
structure Undisturbed (state : State web) : Prop where
  invariant : Invariant state
  alive : ∀ place, state.setups place ≠ .exited
  launched : ∀ place, Up state place ↔ state.setups place ≠ .starting
  polling : ∀ place remaining queue, state.setups place = .polling remaining queue → Polling remaining queue
  posted : ∀ place left, state.setups place = .publishing left true →
    ∃ parcel rest, left = parcel :: rest ∧ (state.servers (web.platform.place parcel.host)).client = some place
  placed : ∀ place, Guards state place (web.Placed place)

theorem undisturbing_of_quiet {event : Event Place web.platform.floats} (quiet : Quiet event) :
    web.Undisturbing event := by
  cases event with
  | quit place => exact quiet
  | server place happening =>
    cases happening with
    | kill => exact quiet
    | post post nonce => exact quiet.elim
    | _ => trivial
  | _ => trivial

theorem fair_of_undisturbing {event : Event Place web.platform.floats} (undisturbing : web.Undisturbing event) :
    web.Fair event := by
  cases event with
  | server place happening =>
    cases happening with
    | post post nonce => exact fun owner presented body isShare => absurd isShare (undisturbing owner _ body)
    | _ => trivial
  | _ => trivial

/-! ## A parcel that is posted -/

theorem equalsItems_points (points : List Point) :
    Json.equalsItems (points.map pointJson) (points.map pointJson) = true := by
  induction points with
  | nil => rfl
  | cons point rest inductionHypothesis =>
    simp [Json.equalsItems, inductionHypothesis, pointJson, Json.equals, Json.number]

theorem equals_record (split : Split) (keys : List Point) :
    (split.record keys).toJson.equals (split.record keys).toJson = true := by
  simp [Split.record, ParticipantData.toJson, Json.equals, Json.equalsEntries, Json.equalsEntry, Dict.get_cons,
    equalsItems_points, Json.number]

/-- It is taken, as nothing else can be where it goes. -/
theorem Web.Placed.acknowledges (ordinary : web.Ordinary) {owner : Place} {parcel : Parcel web.platform.floats}
    (sent : parcel ∈ (web.member owner).parcels) {post : Recovery.Post web.platform.floats}
    (posted : (web.member owner).post parcel = some post) {store : Store}
    (placed : web.Placed (web.platform.place parcel.host) store) {hosts : Json} {answer : Except Failure Answer}
    (answered : (handle web.platform.lower web.platform.intOf ⟨hosts, store, store⟩ post.request).1 = some answer) :
    Client.storeShare (delivered web.platform.floats (reply answer)) = .ok () := by
  rw [(web.member owner).post_parcel sent] at posted
  cases posted
  obtain ⟨split, _, keys, _, _, value, carried, uuid, own⟩ := (web.member owner).parcel_record sent
  have fits : arrived parcel.document = .ok parcel.document := by
    rw [arrived, if_neg (by have := ordinary.fits owner parcel sent; omega)]
  have checked : checkShare web.platform.lower (web.member owner).uuid4 (some (web.member owner).commonName)
      (.ok parcel.document.value) = .ok parcel.document.value := by
    rw [value, ← uuid]
    exact checkShare_record carried (by rw [own]; exact (web.member owner).certified)
  have routeAnswered : (Server.storeShare web.platform.lower ⟨hosts, store, store⟩ (web.member owner).uuid4
      (some (web.member owner).commonName) ((arrived parcel.document).map Document.value) true).1 = answer :=
    Option.some.inj answered
  rw [fits] at routeAnswered
  obtain ⟨existing, found, stored⟩ | ⟨_, stored⟩ :=
    @storeShare_checked web.platform.lower ⟨hosts, store, store⟩ _ _ _ _ true checked
  · obtain ⟨other, otherSent, there, rfl⟩ := placed owner existing found
    have same : other.document.value.equals parcel.document.value = true := by
      rw [parcel_unique otherSent sent there, value]
      exact equals_record split keys
    rw [show (Except.ok parcel.document).map Document.value = Except.ok parcel.document.value from rfl, stored,
      if_pos same] at routeAnswered
    subst routeAnswered
    rfl
  · rw [show (Except.ok parcel.document).map Document.value = Except.ok parcel.document.value from rfl, stored]
      at routeAnswered
    subst routeAnswered
    rfl

theorem placed_nil (place : Place) : web.Placed place ⟨[], []⟩ := by
  intro owner share found
  cases found

theorem Web.Placed.applied {place : Place} {store : Store} (placed : web.Placed place store)
    {post : Recovery.Post web.platform.floats}
    (genuine : ∀ owner commonName document, post = .share (web.member owner).uuid4 commonName (.ok document) →
      ∃ parcel ∈ (web.member owner).parcels, web.platform.place parcel.host = place ∧
        document.value = parcel.document.value) (hosts : Json) :
    web.Placed place (Recovery.applied web.platform.lower web.platform.intOf hosts store post) := by
  obtain unchanged | ⟨shareUuid, commonName, document, rfl, _, _, written⟩ :=
    @applied_shares web.platform.lower web.platform.intOf hosts _ store post
  · intro owner share found
    rw [unchanged] at found
    exact placed owner share found
  · intro owner share found
    rw [written, Dict.get_set] at found
    split at found
    · rename_i same
      cases found
      exact genuine owner commonName document (by rw [same])
    · exact placed owner share found

/-! ## One step -/

theorem Polling.erase {remaining : Dict Setup.Host} {name : String} {queue : List String}
    (polling : Polling remaining (name :: queue)) : Polling (Dict.erase remaining name) queue where
  apart := polling.apart.sublist (List.filter_sublist.map Prod.fst)
  once := (List.nodup_cons.mp polling.once).2
  there := by
    intro other member
    have different : other ≠ name := by
      rintro rfl
      exact (List.nodup_cons.mp polling.once).1 member
    rw [Dict.get_erase, if_neg different]
    exact polling.there other (List.mem_cons_of_mem _ member)

/-- A poll does not fail. -/
theorem Polling.polled {remaining : Dict Setup.Host} {queue : List String} (polling : Polling remaining queue)
    (state : State web) (place : Place) (arrives : Bool) :
    (∃ fewer rest, web.polled state place arrives (.polling remaining queue) = .polling fewer rest ∧
      Polling fewer rest) ∨
    remaining = [] ∧ web.polled state place arrives (.polling remaining queue) =
      .publishing (web.member place).parcels false := by
  cases queue with
  | nil =>
    simp only [Web.polled]
    split
    · rename_i nobody
      exact .inr ⟨nobody, rfl⟩
    · refine .inl ⟨remaining, _, rfl, polling.apart, polling.apart, fun name member absent => ?_⟩
      exact (Dict.get_eq_none_iff remaining name).mp absent member
  | cons name queue =>
    left
    simp only [Web.polled]
    split
    · split
      · exact ⟨_, _, rfl, polling.erase⟩
      · exact ⟨_, _, rfl, polling.apart, (List.nodup_cons.mp polling.once).2,
          fun other member => polling.there other (List.mem_cons_of_mem _ member)⟩
    · rename_i absent
      exact absurd absent (polling.there name List.mem_cons_self)

/-- Setup polls on, or it is not polling. -/
theorem Undisturbed.polled {state : State web} (undisturbed : Undisturbed state) (place : Place) (arrives : Bool) :
    web.polled state place arrives (state.setups place) = state.setups place ∨
    (∃ fewer rest, web.polled state place arrives (state.setups place) = .polling fewer rest ∧ Polling fewer rest) ∨
    web.polled state place arrives (state.setups place) = .publishing (web.member place).parcels false := by
  obtain ⟨unchanged, _⟩ | ⟨remaining, queue, setup, _⟩ := polled_cases state place arrives (state.setups place)
  · exact .inl unchanged
  · have polling := undisturbed.polling place remaining queue setup
    rw [setup]
    exact .inr ((polling.polled state place arrives).imp_right And.right)

/-- An answer that setup hears is the acknowledgement that it waits for. -/
theorem Undisturbed.heard (ordinary : web.Ordinary) {state : State web} (undisturbed : Undisturbed state)
    {target place : Place} (client : (state.servers target).client = some place) {memory : Store}
    {post : Recovery.Post web.platform.floats} {answer : Except Failure Answer}
    (answering : (state.servers target).host.process = .answering memory post answer) :
    ∃ parcel left, state.setups place = .publishing (parcel :: left) true ∧
      web.heardAnswer answer (state.setups place) = .publishing left false := by
  obtain exited | ⟨parcel, left, sentPost, given, setup, there, sent, current⟩ :=
    undisturbed.invariant.awaited target place client
  · exact absurd exited (undisturbed.alive place)
  · rw [answering] at current
    cases current
    subst there
    have busy : (state.servers (web.platform.place parcel.host)).host.process.current = some (post, answer) := by
      rw [answering]
      rfl
    obtain ⟨store, placed, answered⟩ := (undisturbed.placed (web.platform.place parcel.host)).answers busy
    have acknowledged := placed.acknowledges ordinary
      (undisturbed.invariant.parcels_sent setup parcel List.mem_cons_self) sent answered
    exact ⟨parcel, left, setup, by simp only [setup, Web.heardAnswer, acknowledged]⟩

variable [DecidableEq Place]

theorem Undisturbed.alive_step (ordinary : web.Ordinary) {state : State web} (undisturbed : Undisturbed state)
    {event : Event Place web.platform.floats} (undisturbing : web.Undisturbing event) (place : Place) :
    (web.step state event).2.setups place ≠ .exited := by
  cases setups_step state event place with
  | same unchanged =>
    rw [unchanged]
    exact undisturbed.alive place
  | lost unrecorded ended why =>
    cases why with
    | quitted isQuit =>
      subst isQuit
      cases undisturbing
    | hungUp target isKill =>
      subst isKill
      cases undisturbing
    | unsent nonce parcel left isPublish setup unrouted =>
      rw [(web.member place).post_parcel (undisturbed.invariant.parcels_sent setup parcel List.mem_cons_self)] at unrouted
      cases unrouted
  | launched secretsNonce sharesNonce isLaunch setup changed => simp [changed]
  | ready memory isReady setup running changed => simp [changed]
  | polled arrives isPoll changed =>
    rw [changed]
    obtain unchanged | ⟨_, _, going, _⟩ | published := undisturbed.polled place arrives
    · rw [unchanged]
      exact undisturbed.alive place
    · simp [going]
    · simp [published]
  | posted nonce parcel left post memory isPublish setup sent waiting changed => simp [changed]
  | heard target memory post answer isAnswer client answering changed =>
    obtain ⟨_, _, _, going⟩ := undisturbed.heard ordinary client answering
    simp [changed, going]
  | recorded isRecord setup changed => simp [changed]

/-- Nobody starts over. -/
theorem starting_of_step {state : State web} {event : Event Place web.platform.floats} {place : Place}
    (starting : (web.step state event).2.setups place = .starting) : state.setups place = .starting := by
  cases setups_step state event place with
  | same unchanged => exact unchanged.symm.trans starting
  | lost unrecorded ended => cases ended.symm.trans starting
  | launched secretsNonce sharesNonce isLaunch setup => exact setup
  | ready memory isReady setup running changed => cases changed.symm.trans starting
  | polled arrives isPoll changed =>
    rw [changed] at starting
    obtain ⟨unchanged, _⟩ | ⟨_, _, _, ⟨_, _, going⟩ | ended | ⟨_, published⟩⟩ :=
      polled_cases state place arrives (state.setups place)
    · exact unchanged.symm.trans starting
    · cases going.symm.trans starting
    · cases ended.symm.trans starting
    · cases published.symm.trans starting
  | posted nonce parcel left post memory isPublish setup sent waiting changed => cases changed.symm.trans starting
  | heard target memory post answer isAnswer client answering changed =>
    rw [changed] at starting
    obtain ⟨unchanged, _⟩ | ⟨_, _, _, ended | ⟨_, going⟩⟩ := heardAnswer_cases answer (state.setups place)
    · exact unchanged.symm.trans starting
    · cases ended.symm.trans starting
    · cases going.symm.trans starting
  | recorded isRecord setup changed => cases changed.symm.trans starting

/-- A setup starts when it launches its server, or ends. -/
theorem step_of_starting {state : State web} {event : Event Place web.platform.floats} {place : Place}
    (starting : state.setups place = .starting) :
    (web.step state event).2.setups place = .starting ∨ (web.step state event).2.setups place = .exited ∨
      ∃ secretsNonce sharesNonce, event = .launch place secretsNonce sharesNonce := by
  cases setups_step state event place with
  | same unchanged => exact .inl (unchanged.trans starting)
  | lost unrecorded ended => exact .inr (.inl ended)
  | launched secretsNonce sharesNonce isLaunch => exact .inr (.inr ⟨secretsNonce, sharesNonce, isLaunch⟩)
  | ready memory isReady setup => cases starting.symm.trans setup
  | polled arrives isPoll changed =>
    rw [starting] at changed
    exact .inl changed
  | posted nonce parcel left post memory isPublish setup => cases starting.symm.trans setup
  | heard target memory post answer isAnswer client answering changed =>
    rw [starting] at changed
    exact .inl changed
  | recorded isRecord setup => cases starting.symm.trans setup

theorem launch_step {state : State web} {place : Place} (setup : state.setups place = .starting)
    (down : ¬Up state place) (secretsNonce sharesNonce : Nonce) :
    (web.step state (.launch place secretsNonce sharesNonce)).2.setups place = .waiting ∧
      Up (web.step state (.launch place secretsNonce sharesNonce)).2 place := by
  rw [Up, not_not] at down
  simp only [Web.step, setup, setups_goOn, ↓reduceIte, Up, servers_goOn, servers_serve, Web.started, down, true_and]
  exact up_boots _ secretsNonce sharesNonce

theorem Undisturbed.launched_step (ordinary : web.Ordinary) {state : State web} (undisturbed : Undisturbed state)
    {event : Event Place web.platform.floats} (undisturbing : web.Undisturbing event) (place : Place) :
    Up (web.step state event).2 place ↔ (web.step state event).2.setups place ≠ .starting := by
  constructor
  · intro up starting
    have before := starting_of_step starting
    have down : (state.servers place).host.process = .down := by
      by_contra wasUp
      exact (undisturbed.launched place).mp wasUp before
    apply up
    cases servers_step state event place with
    | same unchanged => rw [unchanged, down]
    | launched secretsNonce sharesNonce isLaunch setup =>
      subst isLaunch
      rw [(launch_step setup (by simpa [Up] using down) secretsNonce sharesNonce).1] at starting
      cases starting
    | booted secretsNonce sharesNonce collecting key1 isStart initiator =>
      have recorded := (undisturbed.invariant.gathering place collecting initiator).recorded
      cases before.symm.trans recorded
    | posted publisher nonce parcel left post memory isPublish setup target sent waiting => cases down.symm.trans waiting
    | happened happening client isServer unstarted told changed =>
      rw [changed]
      exact down_stays down unstarted
  · intro going
    by_cases before : state.setups place = .starting
    · obtain starting | exited | ⟨secretsNonce, sharesNonce, isLaunch⟩ := @step_of_starting _ web _ _ event _ before
      · exact absurd starting going
      · exact absurd exited (undisturbed.alive_step ordinary undisturbing place)
      · subst isLaunch
        exact (launch_step before (fun up => (undisturbed.launched place).mp up before) secretsNonce sharesNonce).2
    · refine up_stays ((undisturbed.launched place).mpr before) ?_
      rintro rfl
      exact undisturbing

theorem Undisturbed.polling_step (ordinary : web.Ordinary) {state : State web} (undisturbed : Undisturbed state)
    (event : Event Place web.platform.floats) {place : Place} {remaining : Dict Setup.Host} {queue : List String}
    (setup : (web.step state event).2.setups place = .polling remaining queue) : Polling remaining queue := by
  cases setups_step state event place with
  | same unchanged => exact undisturbed.polling place remaining queue (unchanged.symm.trans setup)
  | lost unrecorded ended => cases ended.symm.trans setup
  | launched secretsNonce sharesNonce isLaunch before changed => cases changed.symm.trans setup
  | ready memory isReady before running changed =>
    cases changed.symm.trans setup
    have apart := (web.member place).othersApart
    rw [Dict.foldl_set_apart (web.member place).others Setup.Host.name (fun host => host) [] (by simpa using apart)]
    exact ⟨by simpa [Function.comp_def] using apart, List.nodup_nil, by simp⟩
  | polled arrives isPoll changed =>
    rw [changed] at setup
    obtain unchanged | ⟨_, _, going, polling⟩ | published := undisturbed.polled place arrives
    · exact undisturbed.polling place remaining queue (unchanged.symm.trans setup)
    · cases going.symm.trans setup
      exact polling
    · cases published.symm.trans setup
  | posted nonce parcel left post memory isPublish before sent waiting changed => cases changed.symm.trans setup
  | heard target memory post answer isAnswer client answering changed =>
    obtain ⟨_, _, _, going⟩ := undisturbed.heard ordinary client answering
    cases (changed.trans going).symm.trans setup
  | recorded isRecord before changed => cases changed.symm.trans setup

/-- The server that a setup waits for knows it, until it answers. -/
theorem Undisturbed.client_stays {state : State web} (undisturbed : Undisturbed state)
    {event : Event Place web.platform.floats} (undisturbing : web.Undisturbing event) {target place : Place}
    (client : (state.servers target).client = some place) :
    ((web.step state event).2.servers target).client = some place ∨ event = .server target .answer := by
  have busy : (state.servers target).host.process.current ≠ none := by
    obtain exited | ⟨_, _, _, _, _, _, _, current⟩ := undisturbed.invariant.awaited target place client
    · exact absurd exited (undisturbed.alive place)
    · simp [current]
  cases servers_step state event target with
  | same unchanged => exact .inl (unchanged ▸ client)
  | launched secretsNonce sharesNonce isLaunch setup down => exact absurd (by rw [down]; rfl) busy
  | booted secretsNonce sharesNonce collecting key1 isStart initiator ready decoded down =>
    exact absurd (by rw [down]; rfl) busy
  | posted publisher nonce parcel left post memory isPublish setup there sent waiting =>
    exact absurd (by rw [waiting]; rfl) busy
  | happened happening after isServer unstarted told changed =>
    obtain ⟨_, rfl | rfl⟩ | ⟨rfl, _⟩ := told
    · subst isServer
      cases undisturbing
    · exact .inr isServer
    · rw [changed]
      exact .inl client

theorem Undisturbed.posted_step (ordinary : web.Ordinary) {state : State web} (undisturbed : Undisturbed state)
    {event : Event Place web.platform.floats} (undisturbing : web.Undisturbing event) {place : Place}
    {left : List (Parcel web.platform.floats)}
    (setup : (web.step state event).2.setups place = .publishing left true) :
    ∃ parcel rest, left = parcel :: rest ∧
      ((web.step state event).2.servers (web.platform.place parcel.host)).client = some place := by
  have waits : state.setups place = .publishing left true → ∃ parcel rest, left = parcel :: rest ∧
      ((web.step state event).2.servers (web.platform.place parcel.host)).client = some place := by
    intro before
    obtain ⟨parcel, rest, rfl, client⟩ := undisturbed.posted place left before
    refine ⟨parcel, rest, rfl, ?_⟩
    obtain stays | rfl := undisturbed.client_stays undisturbing client
    · exact stays
    · -- an answer would have been heard
      obtain unchanged | ⟨memory, post, answer, answering, answered⟩ :=
        step_answer state (web.platform.place parcel.host)
      · rw [unchanged, client]
      · obtain ⟨_, _, _, heard⟩ := undisturbed.heard ordinary client answering
        rw [answered, client, setups_inform, if_pos rfl] at setup
        cases heard.symm.trans setup
  cases setups_step state event place with
  | same unchanged => exact waits (unchanged.symm.trans setup)
  | lost unrecorded ended => cases ended.symm.trans setup
  | launched secretsNonce sharesNonce isLaunch before changed => cases changed.symm.trans setup
  | ready memory isReady before running changed => cases changed.symm.trans setup
  | polled arrives isPoll changed =>
    obtain unchanged | ⟨_, _, going, _⟩ | published := undisturbed.polled place arrives
    · exact waits (unchanged.symm.trans (changed.symm.trans setup))
    · cases (changed.trans going).symm.trans setup
    · cases (changed.trans published).symm.trans setup
  | posted nonce parcel rest post memory isPublish before sent waiting changed =>
    cases changed.symm.trans setup
    subst isPublish
    refine ⟨parcel, rest, rfl, ?_⟩
    simp only [Web.step, before, Web.publishNext, waiting, sent, servers_goOn, servers_serve, ↓reduceIte]
  | heard target memory post answer isAnswer client answering changed =>
    obtain ⟨_, _, _, going⟩ := undisturbed.heard ordinary client answering
    cases (changed.trans going).symm.trans setup
  | recorded isRecord before changed => cases changed.symm.trans setup

theorem Undisturbed.placed_step (ordinary : web.Ordinary) {state : State web} (undisturbed : Undisturbed state)
    {event : Event Place web.platform.floats} (undisturbing : web.Undisturbing event) (place : Place) :
    Guards (web.step state event).2 place (web.Placed place) := by
  refine undisturbed.invariant.guards_step event place (undisturbed.placed place) fun post arrives store placed => ?_
  refine placed.applied (fun owner commonName document isShare => ?_) _
  obtain ⟨nonce, rfl⟩ | ⟨publisher, nonce, parcel, left, _, setup, there, sent⟩ := arrives
  · exact absurd isShare (undisturbing owner commonName (.ok document))
  · have member := undisturbed.invariant.parcels_sent setup parcel List.mem_cons_self
    rw [(web.member publisher).post_parcel member] at sent
    cases sent
    injection isShare with uuid _ body
    obtain rfl := ordinary.uuids _ _ uuid
    refine ⟨parcel, member, there, ?_⟩
    rw [arrived] at body
    split at body
    · cases body
    · cases body
      rfl

/-- The step lemma. -/
theorem Undisturbed.step (ordinary : web.Ordinary) {state : State web} (undisturbed : Undisturbed state)
    {event : Event Place web.platform.floats} (undisturbing : web.Undisturbing event) :
    Undisturbed (web.step state event).2 where
  invariant := undisturbed.invariant.step (fair_of_undisturbing undisturbing)
  alive := undisturbed.alive_step ordinary undisturbing
  launched := undisturbed.launched_step ordinary undisturbing
  polling := fun _ _ _ setup => undisturbed.polling_step ordinary event setup
  posted := fun _ _ setup => undisturbed.posted_step ordinary undisturbing setup
  placed := undisturbed.placed_step ordinary undisturbing

omit [DecidableEq Place] in
theorem undisturbed_initial : Undisturbed web.initial where
  invariant := invariant_initial
  alive := by
    intro place impossible
    cases impossible
  launched := fun place => ⟨fun up => absurd rfl up, fun going => absurd rfl going⟩
  polling := by
    intro place remaining queue impossible
    cases impossible
  posted := by
    intro place left impossible
    cases impossible
  placed := fun place => guards_initial place (placed_nil place)

theorem Undisturbed.quiet (ordinary : web.Ordinary) {state after : State web} (undisturbed : Undisturbed state)
    (reaches : Reaches web.step Quiet state after) : Undisturbed after :=
  reaches.kept (fun _ _ quiet before => before.step ordinary (undisturbing_of_quiet quiet)) undisturbed

/-! ## A setup gets on -/

/-- How much is left to be done of a setup. -/
def Bootstrapping.rank (web : Web Place) (place : Place) : Bootstrapping web.platform.floats → Nat
  | .starting => 0
  | .waiting => 2 * (web.member place).parcels.length + 2 * (web.member place).others.length + 5
  | .polling remaining queue =>
    2 * (web.member place).parcels.length + 2 * remaining.length + (if queue = [] then 4 else 3)
  | .publishing left awaiting => 2 * left.length + (if awaiting then 1 else 2)
  | .recorded => 0
  | .exited => 0

omit [DecidableEq Place] in
theorem rank_pos {place : Place} {setup : Bootstrapping web.platform.floats} (started : setup ≠ .starting)
    (unrecorded : setup ≠ .recorded) (alive : setup ≠ .exited) : 0 < setup.rank web place := by
  cases setup with
  | starting => exact absurd rfl started
  | waiting => simp [Bootstrapping.rank]
  | polling remaining queue =>
    simp only [Bootstrapping.rank]
    split
    · omega
    · omega
  | publishing left awaiting =>
    simp only [Bootstrapping.rank]
    split
    · omega
    · omega
  | recorded => exact absurd rfl unrecorded
  | exited => exact absurd rfl alive

/-- While the servers finish what they are at, no setup falls back. -/
theorem Undisturbed.rank_finishing (ordinary : web.Ordinary) {state : State web} (undisturbed : Undisturbed state)
    {event : Event Place web.platform.floats} (finishing : Finishing event) (place : Place) :
    ((web.step state event).2.setups place).rank web place ≤ (state.setups place).rank web place := by
  cases setups_step state event place with
  | same unchanged => rw [unchanged]
  | lost unrecorded ended => simp [ended, Bootstrapping.rank]
  | heard target memory post answer isAnswer client answering changed =>
    obtain ⟨parcel, left, setup, going⟩ := undisturbed.heard ordinary client answering
    rw [changed, going, setup]
    simp only [Bootstrapping.rank, List.length_cons, Bool.false_eq_true, ↓reduceIte]
    omega
  | launched secretsNonce sharesNonce isLaunch => subst isLaunch; cases finishing
  | ready memory isReady => subst isReady; cases finishing
  | polled arrives isPoll => subst isPoll; cases finishing
  | posted nonce parcel left post memory isPublish => subst isPublish; cases finishing
  | recorded isRecord => subst isRecord; cases finishing

/-- Where all the servers wait for requests, every setup under way gets on. -/
theorem Undisturbed.advances {state : State web} (undisturbed : Undisturbed state) (allReady : ∀ place, Ready state place)
    {place : Place} (started : state.setups place ≠ .starting) (unrecorded : state.setups place ≠ .recorded) :
    ∃ event, Quiet event ∧
      ((web.step state event).2.setups place).rank web place < (state.setups place).rank web place := by
  cases setup : state.setups place with
  | starting => exact absurd setup started
  | recorded => exact absurd setup unrecorded
  | exited => exact absurd setup (undisturbed.alive place)
  | waiting =>
    obtain ⟨memory, running⟩ := allReady place
    have apart := (web.member place).othersApart
    refine ⟨.ready place, trivial, ?_⟩
    simp only [Web.step, setup, running, setups_goOn, ↓reduceIte]
    rw [Dict.foldl_set_apart (web.member place).others Setup.Host.name (fun host => host) [] (by simpa using apart)]
    simp [Bootstrapping.rank]
  | polling remaining queue =>
    have polling := undisturbed.polling place remaining queue setup
    refine ⟨.poll place true, trivial, ?_⟩
    simp only [Web.step, setup, setups_goOn, ↓reduceIte]
    cases queue with
    | nil =>
      simp only [Web.polled]
      split
      · rename_i nobody
        simp [nobody, Bootstrapping.rank]
      · rename_i somebody
        have names : remaining.map Prod.fst ≠ [] := by simpa using somebody
        simp [Bootstrapping.rank, names]
    | cons name queue =>
      cases found : Dict.get remaining name with
      | none => exact absurd found (polling.there name List.mem_cons_self)
      | some host =>
        obtain ⟨memory, running⟩ := allReady (web.platform.place host)
        have fewer := Dict.length_erase_lt found
        simp only [Web.polled, found, Web.indexReply, running, index, isReachable, decide_true, ↓reduceIte,
          Bootstrapping.rank, reduceCtorEq]
        split
        · omega
        · omega
  | publishing left awaiting =>
    cases awaiting with
    | true =>
      -- nobody waits for a server that waits for requests
      obtain ⟨parcel, rest, rfl, client⟩ := undisturbed.posted place left setup
      obtain ⟨memory, running⟩ := allReady (web.platform.place parcel.host)
      obtain exited | ⟨_, _, _, _, _, _, _, current⟩ := undisturbed.invariant.awaited _ _ client
      · exact absurd exited (undisturbed.alive place)
      · rw [running] at current
        cases current
    | false =>
      cases left with
      | nil =>
        refine ⟨.record place, trivial, ?_⟩
        simp [Web.step, setup, Bootstrapping.rank]
      | cons parcel left =>
        obtain ⟨memory, running⟩ := allReady (web.platform.place parcel.host)
        have sent := (web.member place).post_parcel
          (undisturbed.invariant.parcels_sent setup parcel List.mem_cons_self)
        refine ⟨.publish place Storage.sampleNonce, trivial, ?_⟩
        simp [Web.step, setup, Web.publishNext, running, sent, Bootstrapping.rank]

/-- Every setup launches its server. -/
theorem Undisturbed.all_launch [Fintype Place] (ordinary : web.Ordinary) {state : State web}
    (undisturbed : Undisturbed state) :
    ∃ after, Reaches web.step Quiet state after ∧ ∀ place, after.setups place ≠ .starting := by
  have launches : ∃ after, Reaches web.step Quiet state after ∧
      ∀ place ∈ Finset.univ.toList, after.setups place ≠ .starting := by
    refine @reaches_each _ _ _ web.step Quiet state Undisturbed
      (fun _ _ quiet before => before.step ordinary (undisturbing_of_quiet quiet)) _
      (fun place (state : State web) => state.setups place ≠ .starting)
      (fun place state event _ _ started starting => started (starting_of_step starting)) _
      (fun place _ state undisturbed => ?_) undisturbed
    by_cases starting : state.setups place = .starting
    · have down : ¬Up state place := fun up => (undisturbed.launched place).mp up starting
      refine ⟨_, @reaches_step _ _ _ web.step Quiet state (.launch place Storage.sampleNonce Storage.sampleNonce)
        trivial, ?_⟩
      rw [(launch_step starting down Storage.sampleNonce Storage.sampleNonce).1]
      simp
    · exact ⟨state, .refl, starting⟩
  obtain ⟨after, reaches, started⟩ := launches
  exact ⟨after, reaches, fun place => started place (by simp)⟩

theorem Undisturbed.all_ready [Fintype Place] {state : State web} (undisturbed : Undisturbed state)
    (started : ∀ place, state.setups place ≠ .starting) :
    ∃ after, Reaches web.step Finishing state after ∧ ∀ place, Ready after place := by
  obtain ⟨after, reaches, ready⟩ := undisturbed.invariant.all_settle Finset.univ.toList
  exact ⟨after, reaches, fun place => ready place (by simp) ((undisturbed.launched place).mpr (started place))⟩

/-- A setup that has launched its server gets to its end. -/
theorem Undisturbed.records [Fintype Place] (ordinary : web.Ordinary) {state : State web}
    (undisturbed : Undisturbed state) (started : ∀ place, state.setups place ≠ .starting) (place : Place) :
    ∃ after, Reaches web.step Quiet state after ∧ after.setups place = .recorded := by
  have kept : ∀ (state : State web) event, Quiet event →
      Undisturbed state ∧ (∀ place, state.setups place ≠ .starting) →
      Undisturbed (web.step state event).2 ∧ ∀ place, (web.step state event).2.setups place ≠ .starting :=
    fun state event quiet before => ⟨before.1.step ordinary (undisturbing_of_quiet quiet),
      fun place starting => before.2 place (starting_of_step starting)⟩
  refine reaches_of_rank kept (fun state => (state.setups place).rank web place) (fun state before unrecorded => ?_)
    ⟨undisturbed, started⟩
  obtain ⟨undisturbed, started⟩ := before
  obtain ⟨middle, finished, allReady⟩ := undisturbed.all_ready started
  have quiet := finished.wider fun _ => quiet_of_finishing
  have lower : (middle.setups place).rank web place ≤ (state.setups place).rank web place := by
    have both := @Reaches.kept _ _ _ web.step Finishing _ _ (fun later => Undisturbed later ∧
      (later.setups place).rank web place ≤ (state.setups place).rank web place) finished
      (fun later event finishing holds =>
        ⟨holds.1.step ordinary (undisturbing_of_quiet (quiet_of_finishing finishing)),
          (holds.1.rank_finishing ordinary finishing place).trans holds.2⟩) ⟨undisturbed, Nat.le_refl _⟩
    exact both.2
  have middleHolds := quiet.kept kept ⟨undisturbed, started⟩
  by_cases recorded : middle.setups place = .recorded
  · refine ⟨middle, quiet, ?_⟩
    simp only [recorded, Bootstrapping.rank]
    exact rank_pos (started place) unrecorded (undisturbed.alive place)
  · obtain ⟨event, isQuiet, advanced⟩ := middleHolds.1.advances allReady (middleHolds.2 place) recorded
    exact ⟨_, quiet.trans (reaches_step middle isQuiet), lt_of_lt_of_le advanced lower⟩

/-- However far the setups have come, and whatever has been asked of the servers meanwhile: as
long as nothing has been killed and nobody has given up, they can all be carried through by
themselves, and then every host has recorded its KEY1 and every server waits for requests. -/
theorem bootstrapping_completes [Fintype Place] (web : Web Place) (ordinary : web.Ordinary)
    (events : List (Event Place web.platform.floats)) (undisturbing : ∀ event ∈ events, web.Undisturbing event) :
    ∃ later, (∀ event ∈ later, Quiet event) ∧
      let state := run web.step web.initial (events ++ later)
      (∀ place, state.setups place = .recorded) ∧ ∀ place, Ready state place := by
  have undisturbed : Undisturbed (run web.step web.initial events) := by
    have reached : Reaches web.step web.Undisturbing web.initial (run web.step web.initial events) :=
      reaches_iff.mpr ⟨events, undisturbing, rfl⟩
    exact reached.kept (fun _ _ undisturbing before => before.step ordinary undisturbing) undisturbed_initial
  obtain ⟨launched, first, started⟩ := undisturbed.all_launch ordinary
  have records : ∃ after, Reaches web.step Quiet launched after ∧
      ∀ place ∈ Finset.univ.toList, after.setups place = .recorded := by
    refine @reaches_each _ _ _ web.step Quiet launched
      (fun state => Undisturbed state ∧ ∀ place, state.setups place ≠ .starting) (fun state event quiet before => ?_) _
      (fun place (state : State web) => state.setups place = .recorded)
      (fun place state event _ _ recorded => recorded_stays state event recorded) _
      (fun place _ state before => before.1.records ordinary before.2 place) ⟨undisturbed.quiet ordinary first, started⟩
    exact ⟨before.1.step ordinary (undisturbing_of_quiet quiet),
      fun place starting => before.2 place (starting_of_step starting)⟩
  obtain ⟨recorded, second, allRecorded⟩ := records
  obtain ⟨after, third, allReady⟩ := (undisturbed.quiet ordinary (first.trans second)).all_ready fun place => by
    rw [allRecorded place (by simp)]
    simp
  obtain ⟨later, quiet, reached⟩ := reaches_iff.mp
    ((first.trans second).trans (third.wider fun _ => quiet_of_finishing))
  refine ⟨later, quiet, ?_⟩
  dsimp only
  rw [run_append, reached]
  exact ⟨fun place => recorded_reaches third (allRecorded place (by simp)), allReady⟩

end Bootstrapping

theorem ordinary_trio : trioWeb.Ordinary where
  uuids := by decide
  fits := by
    have small : ∀ place : Fin 3, (trioMember place).parcels.all fun parcel =>
        decide ((encodeUtf8 (dumps noFloats parcel.document.value)).length ≤ MEMFILE_MAX) := by
      decide +kernel
    intro place parcel sent
    exact of_decide_eq_true (List.all_eq_true.mp (small place) parcel sent)

theorem quiet_trioRun : ∀ event ∈ trioRun, Quiet event := by decide +kernel

/-- The first host has recorded its KEY1 when it is the turn of the others. -/
theorem bootstrapping_completes_trio : ∃ later, (∀ event ∈ later, Quiet event) ∧
    let state := run trioWeb.step trioWeb.initial (trioRun ++ later)
    (∀ place, state.setups place = .recorded) ∧ ∀ place, Ready state place :=
  bootstrapping_completes trioWeb ordinary_trio trioRun
    fun event member => undisturbing_of_quiet (quiet_trioRun event member)

end SecretWeb.Mesh
