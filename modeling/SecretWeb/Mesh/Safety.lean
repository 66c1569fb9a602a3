import SecretWeb.Mesh.Ownership

/-! # What holds in every run of the network

Every server has the KEY1 of its own host, what setup has been told is stored is stored, and an
initiator gathers shares of the KEY1 that it collects. -/

namespace SecretWeb.Mesh

open SecretWeb.Data SecretWeb.Python SecretWeb.Python.JsonText SecretWeb.HostsData SecretWeb.Shamir SecretWeb.Storage
  SecretWeb.Client SecretWeb.Network SecretWeb.Setup SecretWeb.Initiator SecretWeb.Server SecretWeb.Server.Recovery

open SecretWeb.CryptoFile (Nonce)

open SecretWeb.Machine (run transitions invariant_of_steps input_of_mem_transitions run_append)

section Safety

variable {Place : Type} {web : Web Place}

/-- The property holds of whatever a boot of this server may find. -/
def Guards (state : State web) (place : Place) (property : Store → Prop) : Prop :=
  Recovery.Guarded web.platform.cipher (web.member place).key1 web.platform.lower web.platform.intOf (web.member place).hosts
    property (state.servers place).host

/-- The parcel is where it was sent, and stays there. -/
def Stored (state : State web) (owner : Place) (parcel : Parcel web.platform.floats) : Prop :=
  Guards state (web.platform.place parcel.host) fun store =>
    Dict.get store.shares (web.member owner).uuid4 = some parcel.document.value

/-- What setup has sent so far is stored. -/
def Shipped (state : State web) (place : Place) : Bootstrapping web.platform.floats → Prop
  | .publishing left _ =>
    ∃ done, (web.member place).parcels = done ++ left ∧ ∀ parcel ∈ done, Stored state place parcel
  | .recorded => ∀ parcel ∈ (web.member place).parcels, Stored state place parcel
  | _ => True

/-- The server is at the post that setup waits for, unless setup has ended. -/
def Awaits (state : State web) (place client : Place) : Prop :=
  state.setups client = .exited ∨
  ∃ parcel left post answer, state.setups client = .publishing (parcel :: left) true ∧
    web.platform.place parcel.host = place ∧ (web.member client).post parcel = some post ∧
    (state.servers place).host.process.current = some (post, answer)

/-- The initiator collects the KEY1 of its host. -/
structure Gathering (state : State web) (place : Place) (collecting : Collecting) : Prop where
  recorded : state.setups place = .recorded
  uuid : collecting.loop.uuid = (web.member place).uuid4
  peers : collecting.loop.peers = (web.member place).peers
  gathers : ∀ split participants, PublishesKey1 web.platform.sha256 (web.member place).key1
      (web.member place).ownName (web.member place).uuid4 (web.member place).publication split participants →
    ∃ all, Gathers (web.member place).publication split (web.member place).share collecting all

/-- What every step keeps. -/
structure Invariant (state : State web) : Prop where
  keyed : ∀ place, (state.servers place).host.process ≠ .down →
    (state.servers place).key1 = (web.member place).key1
  owned : ∀ place, Guards state place (web.Owned place)
  untouched : ∀ place, ∀ name ∈ [HOSTS_FILENAME, SITES_FILENAME],
    Dict.get (state.servers place).host.directory name = Dict.get (web.member place).directory name
  awaited : ∀ place client, (state.servers place).client = some client → Awaits state place client
  shipped : ∀ place, Shipped state place (state.setups place)
  unrecorded : ∀ place, state.setups place ≠ .recorded → state.configs place = (web.member place).config
  recorded : ∀ place, state.setups place = .recorded → state.configs place = (web.member place).recorded
  gathering : ∀ place collecting, state.initiators place = some collecting → Gathering state place collecting

theorem guards_initial (place : Place) {property : Store → Prop} (holds : property ⟨[], []⟩) :
    Guards web.initial place property := by
  refine ⟨⟨[], []⟩, none, ⟨⟨⟨[], []⟩, .inl rfl, (web.member place).held⟩, fun _ => rfl, ?_⟩, ?_⟩
  · intro post answer busy
    cases busy
  · rintro candidate (rfl | ⟨post, impossible, _⟩)
    · exact holds
    · cases impossible

theorem invariant_initial : Invariant web.initial where
  keyed := fun place up => absurd rfl up
  owned := fun place => guards_initial place (owned_initial place)
  untouched := fun _ _ _ => rfl
  awaited := by
    intro place client waits
    cases waits
  shipped := fun place => trivial
  unrecorded := fun place _ => rfl
  recorded := by
    intro place impossible
    cases impossible
  gathering := by
    intro place collecting impossible
    cases impossible

/-! ## The key of a server -/

/-- What an initiator has collected is the KEY1 of its host. -/
theorem Invariant.key1_of_start {state : State web} (invariant : Invariant state) {place : Place}
    {collecting : Collecting} (initiator : state.initiators place = some collecting)
    (ready : collecting.decoder.readyToDecode = true) {key1 : String}
    (decoded : collecting.decoder.decode web.platform.sha256 = .ok key1) : key1 = (web.member place).key1 := by
  obtain ⟨split, participants, publishes⟩ := (web.member place).publishes
  obtain ⟨all, gathers⟩ := (invariant.gathering place collecting initiator).gathers split participants publishes
  have decodes := gathers.decode publishes ready
  rw [decodes] at decoded
  exact (Except.ok.inj decoded).symm

theorem down_stays {place : Place} {key1 : String} {host : Recovery.Host web.platform.floats}
    (down : host.process = .down) {happening : Recovery.Event web.platform.floats}
    (unstarted : ∀ secretsNonce sharesNonce, happening ≠ .start secretsNonce sharesNonce) :
    (web.serverStep place key1 host happening).2.process = .down := by
  cases happening with
  | start secretsNonce sharesNonce => exact absurd rfl (unstarted secretsNonce sharesNonce)
  | elsewhere name bytes =>
    simp only [Web.serverStep, Recovery.step]
    split
    · exact down
    · exact down
  | _ => simp only [Web.serverStep, Recovery.step, down]

variable [DecidableEq Place]

theorem Invariant.keyed_step {state : State web} (invariant : Invariant state)
    (event : Event Place web.platform.floats) (place : Place)
    (up : ((web.step state event).2.servers place).host.process ≠ .down) :
    ((web.step state event).2.servers place).key1 = (web.member place).key1 := by
  cases servers_step state event place with
  | same unchanged =>
    rw [unchanged] at up ⊢
    exact invariant.keyed place up
  | launched secretsNonce sharesNonce isLaunch setup down changed => rw [changed]
  | booted secretsNonce sharesNonce collecting key1 isStart initiator ready decoded down changed =>
    rw [changed]
    exact invariant.key1_of_start initiator ready decoded
  | posted publisher nonce parcel left post memory isPublish setup target sent waiting changed =>
    rw [changed]
    exact invariant.keyed place (by rw [waiting]; simp)
  | happened happening client isServer unstarted told changed =>
    rw [changed] at up ⊢
    refine invariant.keyed place fun down => up ?_
    exact down_stays down unstarted

omit [DecidableEq Place] in
/-- A server that goes on does so under the KEY1 of its own host, and one that is down has no use
for any. -/
theorem Invariant.serverStep_eq {state : State web} (invariant : Invariant state) {place : Place}
    {happening : Recovery.Event web.platform.floats}
    (unstarted : ∀ secretsNonce sharesNonce, happening ≠ .start secretsNonce sharesNonce) :
    web.serverStep place (state.servers place).key1 (state.servers place).host happening =
      web.serverStep place (web.member place).key1 (state.servers place).host happening := by
  by_cases down : (state.servers place).host.process = .down
  · exact step_of_down down unstarted _
  · rw [invariant.keyed place down]

/-! ## What setup has written -/

omit [DecidableEq Place] in
/-- No boot fails in its first stages. -/
theorem Invariant.boots_eq {state : State web} (invariant : Invariant state) {place : Place}
    (down : (state.servers place).host.process = .down) (secretsNonce sharesNonce : Nonce) :
    boots web.platform.cipher web.platform.floats (web.member place).key1 (state.servers place).host secretsNonce
        sharesNonce =
      (web.serverStep place (web.member place).key1 (state.servers place).host (.start secretsNonce sharesNonce)).2 := by
  have opened := (web.member place).opened
  rw [← openOwnFiles_congr (invariant.untouched place)] at opened
  exact boots_of_opened down opened secretsNonce sharesNonce

/-- A server writes to its store only. -/
theorem Invariant.untouched_step {state : State web} (invariant : Invariant state)
    (event : Event Place web.platform.floats) (place : Place) {name : String}
    (own : name ∈ [HOSTS_FILENAME, SITES_FILENAME]) :
    Dict.get ((web.step state event).2.servers place).host.directory name =
      Dict.get (web.member place).directory name := by
  rw [← invariant.untouched place name own]
  obtain ⟨apart, permanent, known⟩ : (∀ file : StoreFile, name ≠ file.path) ∧ ¬Temporary name ∧
      name ∈ DATA_FILENAMES := by
    obtain rfl | ⟨rfl, _⟩ | impossible := by simpa using own
    all_goals exact ⟨fun file => by cases file <;> decide, not_temporary (by decide), by decide⟩
  obtain ⟨store, flight, tracks, _⟩ := invariant.owned place
  cases servers_step state event place with
  | same unchanged => rw [unchanged]
  | launched secretsNonce sharesNonce isLaunch setup down changed => rw [changed, directory_boots]
  | booted secretsNonce sharesNonce collecting key1 isStart initiator ready decoded down changed =>
    rw [changed, directory_boots]
  | posted publisher nonce parcel left post memory isPublish setup target sent waiting changed =>
    rw [changed, invariant.keyed place (by rw [waiting]; simp)]
    exact tracks.get_step _ apart permanent (by simp)
  | happened happening client isServer unstarted told changed kept =>
    have stepped := tracks.get_step happening apart permanent fun bytes isElsewhere => kept name bytes isElsewhere known
    rw [changed, invariant.serverStep_eq unstarted]
    exact stepped

/-! ## Stores -/

/-- The request gets to the server in this step. -/
def Arrives (state : State web) (event : Event Place web.platform.floats) (place : Place)
    (post : Recovery.Post web.platform.floats) : Prop :=
  (∃ nonce, event = .server place (.post post nonce)) ∨
  ∃ publisher nonce parcel left, event = .publish publisher nonce ∧
    state.setups publisher = .publishing (parcel :: left) false ∧ web.platform.place parcel.host = place ∧
    (web.member publisher).post parcel = some post

/-- What requests preserve stays true of the store. -/
theorem Invariant.guards_step {state : State web} (invariant : Invariant state)
    (event : Event Place web.platform.floats) (place : Place) {property : Store → Prop}
    (guards : Guards state place property)
    (preserved : ∀ post, Arrives state event place post → ∀ store, property store →
      property (Recovery.applied web.platform.lower web.platform.intOf (web.member place).hosts store post)) :
    Guards (web.step state event).2 place property := by
  have booting : (state.servers place).host.process = .down → ∀ secretsNonce sharesNonce,
      Recovery.Guarded web.platform.cipher (web.member place).key1 web.platform.lower web.platform.intOf
        (web.member place).hosts property (boots web.platform.cipher web.platform.floats (web.member place).key1
          (state.servers place).host secretsNonce sharesNonce) := by
    intro down secretsNonce sharesNonce
    rw [invariant.boots_eq down]
    exact guards.step _ fun post nonce impossible => by cases impossible
  cases servers_step state event place with
  | same unchanged =>
    rw [Guards, unchanged]
    exact guards
  | launched secretsNonce sharesNonce isLaunch setup down changed =>
    rw [Guards, changed]
    exact booting down secretsNonce sharesNonce
  | booted secretsNonce sharesNonce collecting key1 isStart initiator ready decoded down changed =>
    rw [Guards, changed, invariant.key1_of_start initiator ready decoded]
    exact booting down secretsNonce sharesNonce
  | posted publisher nonce parcel left post memory isPublish setup target sent waiting changed =>
    rw [Guards, changed, invariant.keyed place (by rw [waiting]; simp)]
    refine guards.step _ fun other otherNonce isPost store holds => ?_
    cases isPost
    exact preserved post (.inr ⟨publisher, nonce, parcel, left, isPublish, setup, target, sent⟩) store holds
  | happened happening client isServer unstarted told changed =>
    have stepped : Recovery.Guarded web.platform.cipher (web.member place).key1 web.platform.lower web.platform.intOf
        (web.member place).hosts property (web.serverStep place (web.member place).key1 (state.servers place).host
          happening).2 := by
      refine guards.step _ fun post nonce isPost store holds => ?_
      subst isPost
      exact preserved post (.inl ⟨nonce, isServer⟩) store holds
    rw [Guards, changed, invariant.serverStep_eq unstarted]
    exact stepped

omit [DecidableEq Place] in
theorem Invariant.parcels_sent {state : State web} (invariant : Invariant state) {place : Place}
    {left : List (Parcel web.platform.floats)} {awaiting : Bool}
    (setup : state.setups place = .publishing left awaiting) :
    ∀ parcel ∈ left, parcel ∈ (web.member place).parcels := by
  have shipped := invariant.shipped place
  rw [setup] at shipped
  obtain ⟨done, whole, _⟩ := shipped
  intro parcel member
  rw [whole]
  exact List.mem_append_right done member

omit [DecidableEq Place] in
theorem Invariant.arrives_genuine {state : State web} (invariant : Invariant state)
    {event : Event Place web.platform.floats} (fair : web.Fair event) {place : Place}
    {post : Recovery.Post web.platform.floats} (arrives : Arrives state event place post) : web.Genuine place post := by
  obtain ⟨nonce, rfl⟩ | ⟨publisher, nonce, parcel, left, rfl, setup, rfl, sent⟩ := arrives
  · exact genuine_of_foreign fair
  · exact genuine_of_parcel (invariant.parcels_sent setup parcel List.mem_cons_self) sent

theorem Invariant.owned_step {state : State web} (invariant : Invariant state)
    {event : Event Place web.platform.floats} (fair : web.Fair event) (place : Place) :
    Guards (web.step state event).2 place (web.Owned place) :=
  invariant.guards_step event place (invariant.owned place) fun _ arrives _ owned =>
    owned.applied (invariant.arrives_genuine fair arrives)

theorem Invariant.stored_step {state : State web} (invariant : Invariant state)
    (event : Event Place web.platform.floats) {owner : Place} {parcel : Parcel web.platform.floats}
    (stored : Stored state owner parcel) : Stored (web.step state event).2 owner parcel :=
  invariant.guards_step event _ stored fun post _ _ => applied_keeps post

/-! ## Setups -/

theorem recorded_stays (state : State web) (event : Event Place web.platform.floats) {place : Place}
    (recorded : state.setups place = .recorded) : (web.step state event).2.setups place = .recorded := by
  cases setups_step state event place with
  | same unchanged => rw [unchanged, recorded]
  | lost unrecorded => exact absurd recorded unrecorded
  | launched secretsNonce sharesNonce isLaunch setup => cases setup.symm.trans recorded
  | ready memory isReady setup => cases setup.symm.trans recorded
  | polled arrives isPoll changed => rw [changed, recorded]; rfl
  | posted nonce parcel left post memory isPublish setup => cases setup.symm.trans recorded
  | heard target memory post answer isAnswer client answering changed => rw [changed, recorded]; rfl
  | recorded isRecord setup changed => exact changed

/-- The run lemma. -/
theorem recorded_run {state : State web} {place : Place} (recorded : state.setups place = .recorded)
    (events : List (Event Place web.platform.floats)) : (run web.step state events).setups place = .recorded := by
  induction events generalizing state with
  | nil => exact recorded
  | cons event rest inductionHypothesis => exact inductionHypothesis (recorded_stays state event recorded)

theorem exited_stays (state : State web) (event : Event Place web.platform.floats) {place : Place}
    (exited : state.setups place = .exited) : (web.step state event).2.setups place = .exited := by
  cases setups_step state event place with
  | same unchanged => rw [unchanged, exited]
  | lost unrecorded ended => exact ended
  | launched secretsNonce sharesNonce isLaunch setup => cases setup.symm.trans exited
  | ready memory isReady setup => cases setup.symm.trans exited
  | polled arrives isPoll changed => rw [changed, exited]; rfl
  | posted nonce parcel left post memory isPublish setup => cases setup.symm.trans exited
  | heard target memory post answer isAnswer client answering changed => rw [changed, exited]; rfl
  | recorded isRecord setup => cases setup.symm.trans exited

theorem Invariant.unrecorded_step {state : State web} (invariant : Invariant state)
    (event : Event Place web.platform.floats) (place : Place)
    (unrecorded : (web.step state event).2.setups place ≠ .recorded) :
    (web.step state event).2.configs place = (web.member place).config := by
  have before : state.setups place ≠ .recorded := fun recorded => unrecorded (recorded_stays state event recorded)
  obtain ⟨unchanged, _⟩ | ⟨unchanged, _⟩ | ⟨_, recorded, _⟩ := configs_step state event place
  · rw [unchanged, invariant.unrecorded place before]
  · rw [unchanged, invariant.unrecorded place before]
  · exact absurd recorded unrecorded

theorem Invariant.recorded_step {state : State web} (invariant : Invariant state)
    (event : Event Place web.platform.floats) (place : Place)
    (recorded : (web.step state event).2.setups place = .recorded) :
    (web.step state event).2.configs place = (web.member place).recorded := by
  have before : state.setups place = .recorded ∨ event = .record place ∧ state.setups place = .publishing [] false := by
    cases setups_step state event place with
    | same unchanged => exact .inl (unchanged ▸ recorded)
    | lost unrecorded ended => cases ended.symm.trans recorded
    | launched secretsNonce sharesNonce isLaunch setup changed => cases changed.symm.trans recorded
    | ready memory isReady setup running changed => cases changed.symm.trans recorded
    | polled arrives isPoll changed =>
      rw [changed] at recorded
      obtain ⟨unchanged, _⟩ | ⟨_, _, _, ⟨_, _, going⟩ | ended | ⟨_, published⟩⟩ :=
        polled_cases state place arrives (state.setups place)
      · exact .inl (unchanged.symm.trans recorded)
      · cases going.symm.trans recorded
      · cases ended.symm.trans recorded
      · cases published.symm.trans recorded
    | posted nonce parcel left post memory isPublish setup sent waiting changed => cases changed.symm.trans recorded
    | heard target memory post answer isAnswer client answering changed =>
      rw [changed] at recorded
      obtain ⟨unchanged, _⟩ | ⟨_, _, _, ended | ⟨_, going⟩⟩ := heardAnswer_cases answer (state.setups place)
      · exact .inl (unchanged.symm.trans recorded)
      · cases ended.symm.trans recorded
      · cases going.symm.trans recorded
    | recorded isRecord setup changed => exact .inr ⟨isRecord, setup⟩
  obtain ⟨unchanged, other⟩ | ⟨unchanged, sameSetups⟩ | ⟨setup, _, changed⟩ := configs_step state event place
  · cases before with
    | inl was => rw [unchanged, invariant.recorded place was]
    | inr now => exact absurd now.1 other
  · rw [sameSetups] at recorded
    rw [unchanged, invariant.recorded place recorded]
  · rw [changed, invariant.unrecorded place (by rw [setup]; simp)]
    rfl

/-! ## Posts that are under way -/

/-- As long as the server stays at the post, setup waits for it or ends. -/
theorem Invariant.awaits_stays {state : State web} (invariant : Invariant state)
    {event : Event Place web.platform.floats} {place client : Place} (awaits : Awaits state place client)
    (unanswered : event ≠ .server place .answer)
    (stays : ∀ current, (state.servers place).host.process.current = some current →
      ((web.step state event).2.servers place).host.process.current = some current) :
    Awaits (web.step state event).2 place client := by
  obtain exited | ⟨parcel, left, post, answer, setup, there, sent, current⟩ := awaits
  · exact .inl (exited_stays state event exited)
  have unchangedAwaits : (web.step state event).2.setups client = state.setups client →
      Awaits (web.step state event).2 place client :=
    fun unchanged => .inr ⟨parcel, left, post, answer, unchanged.trans setup, there, sent, stays _ current⟩
  cases setups_step state event client with
  | same unchanged => exact unchangedAwaits unchanged
  | lost unrecorded ended => exact .inl ended
  | launched secretsNonce sharesNonce isLaunch other => cases setup.symm.trans other
  | ready memory isReady other => cases setup.symm.trans other
  | polled arrives isPoll changed =>
    obtain ⟨unchanged, _⟩ | ⟨_, _, polling, _⟩ := polled_cases state client arrives (state.setups client)
    · exact unchangedAwaits (changed.trans unchanged)
    · cases setup.symm.trans polling
  | posted nonce otherParcel otherLeft otherPost memory isPublish other => cases setup.symm.trans other
  | heard target memory otherPost otherAnswer isAnswer waits answering changed =>
    -- the setup waits for one answer only, and it is not this one
    obtain exited | ⟨otherParcel, otherLeft, _, _, other, otherThere, _⟩ := invariant.awaited target client waits
    · cases setup.symm.trans exited
    · cases setup.symm.trans other
      rw [← otherThere, there] at isAnswer
      exact absurd isAnswer unanswered
  | recorded isRecord other => cases setup.symm.trans other

/-- An answer is given, or there is none to be given. -/
theorem step_answer (state : State web) (place : Place) :
    (web.step state (.server place .answer)).2 = state ∨
    ∃ memory post answer, (state.servers place).host.process = .answering memory post answer ∧
      (web.step state (.server place .answer)).2 =
        (state.serve place ⟨{ (state.servers place).host with process := .running memory },
          (state.servers place).key1, none⟩).inform (state.servers place).client (web.heardAnswer answer) := by
  cases process : (state.servers place).host.process with
  | answering memory post answer =>
    refine .inr ⟨memory, post, answer, rfl, ?_⟩
    simp only [Web.step, Web.serverEvent, Web.serverStep, Recovery.step, process]
  | _ =>
    left
    simp only [Web.step, Web.serverEvent, Web.serverStep, Recovery.step, process]

theorem Invariant.awaited_step {state : State web} (invariant : Invariant state)
    (event : Event Place web.platform.floats) {place client : Place}
    (waits : ((web.step state event).2.servers place).client = some client) :
    Awaits (web.step state event).2 place client := by
  by_cases isAnswer : event = .server place .answer
  · subst isAnswer
    obtain unchanged | ⟨memory, post, answer, _, answered⟩ := step_answer state place
    · rw [unchanged] at waits ⊢
      exact invariant.awaited place client waits
    · rw [answered] at waits
      simp at waits
  · cases servers_step state event place with
    | same unchanged =>
      rw [unchanged] at waits
      exact invariant.awaits_stays (invariant.awaited place client waits) isAnswer fun current busy => by
        rw [unchanged, busy]
    | launched secretsNonce sharesNonce isLaunch setup down changed =>
      rw [changed] at waits
      cases waits
    | booted secretsNonce sharesNonce collecting key1 isStart initiator ready decoded down changed =>
      rw [changed] at waits
      cases waits
    | posted publisher nonce parcel left post memory isPublish setup target sent waiting changed =>
      rw [changed] at waits
      cases waits
      obtain ⟨answer, busy⟩ := @current_post web.platform.cipher (state.servers place).key1 web.platform.lower
        web.platform.intOf (web.member place).hosts _ _ _ waiting post nonce
      refine .inr ⟨parcel, left, post, answer, ?_, target, sent, by rw [changed]; exact busy⟩
      subst isPublish target
      simp only [Web.step, setup, Web.publishNext, waiting, sent, setups_goOn, ↓reduceIte]
    | happened happening other isServer unstarted told changed =>
      rw [changed] at waits
      obtain ⟨rfl, _⟩ | ⟨rfl, notKill, notAnswer⟩ := told
      · cases waits
      · exact invariant.awaits_stays (invariant.awaited place client waits) isAnswer fun current busy => by
          rw [changed]
          exact current_kept busy notKill notAnswer

/-! ## What has been sent -/

theorem Invariant.shipped_step {state : State web} (invariant : Invariant state)
    (event : Event Place web.platform.floats) (place : Place) :
    Shipped (web.step state event).2 place ((web.step state event).2.setups place) := by
  have shipped := invariant.shipped place
  have unchangedShipped : Shipped (web.step state event).2 place (state.setups place) := by
    cases setup : state.setups place with
    | publishing left awaiting =>
      rw [setup] at shipped
      obtain ⟨done, whole, stored⟩ := shipped
      exact ⟨done, whole, fun parcel member => invariant.stored_step event (stored parcel member)⟩
    | recorded =>
      rw [setup] at shipped
      exact fun parcel member => invariant.stored_step event (shipped parcel member)
    | _ => trivial
  cases setups_step state event place with
  | same unchanged =>
    rw [unchanged]
    exact unchangedShipped
  | lost unrecorded ended =>
    rw [ended]
    trivial
  | launched secretsNonce sharesNonce isLaunch setup changed =>
    rw [changed]
    trivial
  | ready memory isReady setup running changed =>
    rw [changed]
    trivial
  | polled arrives isPoll changed =>
    rw [changed]
    obtain ⟨unchanged, _⟩ | ⟨_, _, _, ⟨_, _, going⟩ | ended | ⟨_, published⟩⟩ :=
      polled_cases state place arrives (state.setups place)
    · rw [unchanged]
      exact unchangedShipped
    · rw [going]
      trivial
    · rw [ended]
      trivial
    · rw [published]
      exact ⟨[], rfl, by simp⟩
  | posted nonce parcel left post memory isPublish setup sent waiting changed =>
    rw [changed]
    rw [setup] at unchangedShipped
    exact unchangedShipped
  | heard target memory post answer isAnswer waits answering changed =>
    rw [changed]
    obtain ⟨unchanged, _⟩ | ⟨parcel, left, setup, ended | ⟨acknowledged, going⟩⟩ :=
      heardAnswer_cases answer (state.setups place)
    · rw [unchanged]
      exact unchangedShipped
    · rw [ended]
      trivial
    · rw [going]
      rw [setup] at unchangedShipped
      obtain ⟨done, whole, stored⟩ := unchangedShipped
      refine ⟨done ++ [parcel], by rw [whole, List.append_assoc]; rfl, fun other member => ?_⟩
      cases List.mem_append.mp member with
      | inl earlier => exact stored other earlier
      | inr last =>
        obtain rfl := List.mem_singleton.mp last
        obtain exited | ⟨_, _, posted, reply, awaiting, there, sent, current⟩ := invariant.awaited target place waits
        · cases setup.symm.trans exited
        · cases setup.symm.trans awaiting
          rw [answering] at current
          cases current
          subst there isAnswer
          have keyed := invariant.keyed (web.platform.place other.host) (by rw [answering]; simp)
          have served : ((web.step state (.server (web.platform.place other.host) .answer)).2.servers
              (web.platform.place other.host)).host = (web.serverStep (web.platform.place other.host)
                (state.servers (web.platform.place other.host)).key1
                (state.servers (web.platform.place other.host)).host .answer).2 := by
            simp only [Web.step, Web.serverEvent, Web.serverStep, Recovery.step, answering, servers_inform,
              servers_serve, ↓reduceIte]
          rw [Stored, Guards, served, keyed]
          refine (invariant.owned (web.platform.place other.host)).acknowledge answering fun store owned answered => ?_
          exact owned.acknowledged (invariant.parcels_sent setup other List.mem_cons_self) sent answered acknowledged
  | recorded isRecord setup changed =>
    rw [changed]
    rw [setup] at unchangedShipped
    obtain ⟨done, whole, stored⟩ := unchangedShipped
    rw [List.append_nil] at whole
    rw [Shipped, whole]
    exact stored

/-! ## Initiators -/

omit [DecidableEq Place] in
/-- A peer of a host is passed over, or it hands out what it was sent. -/
theorem Invariant.answer_genuine {state : State web} (invariant : Invariant state) {place : Place}
    (outage : Option Outage) {peer : Json} (listed : peer ∈ (web.member place).peers) :
    PassedOver web.platform.formatted (.str (web.member place).uuid4)
        (web.answerOf state place (web.member place).uuid4 outage peer) ∨
      AnswersOwn web.platform.formatted (.str (web.member place).uuid4) (web.member place).publication
        (web.member place).share peer (web.answerOf state place (web.member place).uuid4 outage peer) := by
  obtain ⟨host, other, rfl⟩ := (web.member place).mem_peers listed
  rw [answerOf_entry]
  obtain passed | ⟨parcel, sent, there, answers⟩ := @shareReply_genuine _ web place (web.platform.place host) outage
    (state.servers (web.platform.place host)) fun memory running => (invariant.owned _).running running
  · exact .inl passed
  · right
    obtain ⟨record, dealt, _⟩ := (web.member place).mem_parcels sent
    have same : parcel.host = host := (web.member place).placedApart _
      ((web.member place).typed_of_other ((web.member place).other_of_delivery dealt)) _
      ((web.member place).typed_of_other other) there
    rw [answers, ← same]
    exact answersOwn_parcel sent

theorem Invariant.gathering_step {state : State web} (invariant : Invariant state)
    (event : Event Place web.platform.floats) {place : Place} {collecting : Collecting}
    (initiator : (web.step state event).2.initiators place = some collecting) :
    Gathering (web.step state event).2 place collecting := by
  have collects := initiators_step state event place
  rw [initiator] at collects
  generalize after : some collecting = next at collects
  cases collects with
  | same =>
    have before := invariant.gathering place collecting after.symm
    exact { before with recorded := recorded_stays state event before.recorded }
  | gone => cases after
  | entered uuid4 isBoot idle =>
    unfold Web.entered at after
    split at after
    · split at after
      · rename_i loop prepared
        cases after
        by_cases recorded : state.setups place = .recorded
        · rw [invariant.recorded place recorded] at prepared
          obtain ⟨other, otherPrepared, uuid, peers, fresh⟩ := (web.member place).prepared uuid4
          cases prepared.symm.trans otherPrepared
          exact
            { recorded := recorded_stays state event recorded
              uuid := uuid
              peers := peers
              gathers := fun split participants publishes =>
                ⟨[], gathers_enter (fresh split participants publishes)⟩ }
        · rw [invariant.unrecorded place recorded] at prepared
          exact absurd prepared ((web.member place).unprepared uuid4 loop)
      · cases after
    · cases after
  | begun shuffle before isRound found =>
    have gathering := invariant.gathering place before found
    have apart : NamedApart before.loop.peers := gathering.peers ▸ (web.member place).peersApart
    obtain ⟨split, participants, publishes⟩ := (web.member place).publishes
    obtain ⟨all, gathers⟩ := gathering.gathers split participants publishes
    obtain ⟨next, begun, sameLoop, _, _⟩ := gathers.nextRound apart shuffle
    rw [begun] at after
    cases after
    exact
      { recorded := recorded_stays state event gathering.recorded
        uuid := sameLoop ▸ gathering.uuid
        peers := sameLoop ▸ gathering.peers
        gathers := by
          intro other others otherPublishes
          obtain ⟨all, gathers⟩ := gathering.gathers other others otherPublishes
          obtain ⟨again, begunAgain, _, gathersNext, _⟩ := gathers.nextRound apart shuffle
          cases begun.symm.trans begunAgain
          exact ⟨all, gathersNext⟩ }
  | asked outage before peer rest isAsk found left =>
    have gathering := invariant.gathering place before found
    have apart : NamedApart before.loop.peers := gathering.peers ▸ (web.member place).peersApart
    obtain ⟨split, participants, publishes⟩ := (web.member place).publishes
    obtain ⟨all, gathers⟩ := gathering.gathers split participants publishes
    have listed : peer ∈ (web.member place).peers := by
      rw [← gathering.peers]
      exact gathers.listed peer (left ▸ List.mem_cons_self)
    have genuine := invariant.answer_genuine outage listed
    rw [← gathering.uuid] at genuine
    obtain ⟨next, _, heard, sameLoop, _⟩ := gathers.asked publishes apart left genuine
    rw [heard] at after
    cases after
    exact
      { recorded := recorded_stays state event gathering.recorded
        uuid := sameLoop ▸ gathering.uuid
        peers := sameLoop ▸ gathering.peers
        gathers := by
          intro other others otherPublishes
          obtain ⟨all, gathers⟩ := gathering.gathers other others otherPublishes
          obtain ⟨again, more, heardAgain, _, gathersNext, _⟩ := gathers.asked otherPublishes apart left genuine
          cases heard.symm.trans heardAgain
          exact ⟨all ++ more, gathersNext⟩ }

/-! ## Runs -/

/-- The step lemma. -/
theorem Invariant.step {state : State web} (invariant : Invariant state) {event : Event Place web.platform.floats}
    (fair : web.Fair event) : Invariant (web.step state event).2 where
  keyed := invariant.keyed_step event
  owned := invariant.owned_step fair
  untouched := fun place _ own => invariant.untouched_step event place own
  awaited := fun _ _ waits => invariant.awaited_step event waits
  shipped := invariant.shipped_step event
  unrecorded := invariant.unrecorded_step event
  recorded := invariant.recorded_step event
  gathering := fun _ _ initiator => invariant.gathering_step event initiator

/-- The run lemma. -/
theorem Invariant.run {state : State web} (invariant : Invariant state)
    {events : List (Event Place web.platform.floats)} (fair : ∀ event ∈ events, web.Fair event) :
    Invariant (run web.step state events) := by
  refine (@invariant_of_steps _ _ _ web.step Invariant (fun transition => web.Fair transition.input) state events ?_
    invariant fun transition member => fair _ (input_of_mem_transitions member)).2
  rintro ⟨before, event, output, after⟩ fairEvent invariantBefore stepped
  have kept := invariantBefore.step fairEvent
  rw [stepped] at kept
  exact kept

/-- Whatever order setups, initiators, servers, kills and other people's requests come in: no
boot fails, every server runs under the KEY1 of its own host, and an initiator whose decoder is
ready decodes the KEY1 of its own host. -/
theorem own_key1_everywhere (web : Web Place) (events : List (Event Place web.platform.floats))
    (fair : ∀ event ∈ events, web.Fair event) (place : Place) :
    let state := run web.step web.initial events
    (state.servers place).host.process ≠ .failed ∧
    ((state.servers place).host.process ≠ .down → (state.servers place).key1 = (web.member place).key1) ∧
    ∀ collecting, state.initiators place = some collecting → collecting.decoder.readyToDecode = true →
      collecting.decoder.decode web.platform.sha256 = .ok (web.member place).key1 := by
  intro state
  have invariant : Invariant state := invariant_initial.run fair
  refine ⟨(invariant.owned place).intact, invariant.keyed place, fun collecting initiator ready => ?_⟩
  obtain ⟨split, participants, publishes⟩ := (web.member place).publishes
  obtain ⟨all, gathers⟩ := (invariant.gathering place collecting initiator).gathers split participants publishes
  exact gathers.decode publishes ready

/-- Once a host has recorded its KEY1, every other host of its list has its share of it: at any
later time, whatever has been posted, killed and booted since, a server of theirs that waits for
requests hands out the record that was dealt. -/
theorem recorded_key1_stays (web : Web Place) (events later : List (Event Place web.platform.floats))
    (fair : ∀ event ∈ events ++ later, web.Fair event) (place : Place)
    (recorded : (run web.step web.initial events).setups place = .recorded) :
    (web.member place).publication.deliveries.map Prod.fst = (web.member place).others ∧
    ∀ host record, (host, record) ∈ (web.member place).publication.deliveries →
      let serving := (run web.step web.initial (events ++ later)).servers (web.platform.place host)
      ∀ memory, serving.host.process = .running memory →
        web.shareReply (web.member place).commonName (web.member place).uuid4 none (web.platform.place host) serving =
          .response 200 (.document record.toJson) := by
  refine ⟨(web.member place).deliveries_hosts, ?_⟩
  intro host record dealt serving memory running
  have invariant : Invariant (run web.step web.initial (events ++ later)) := invariant_initial.run fair
  have shipped := invariant.shipped place
  rw [run_append] at shipped
  rw [recorded_run recorded later, ← run_append] at shipped
  obtain ⟨parcel, sent, rfl, value⟩ := (web.member place).parcel_of_delivery dealt
  rw [shareReply_stored sent running ((shipped parcel sent).running running), value]

end Safety

/-! ## Three hosts -/

def trioHosts : List Host :=
  [⟨"host1", "10.0.0.1", [], "server"⟩, ⟨"host2", "10.0.0.2", [], "server"⟩, ⟨"host3", "10.0.0.3", [], "server"⟩]

def trioName : Fin 3 → String
  | 0 => "host1"
  | 1 => "host2"
  | 2 => "host3"

def trioUuid : Fin 3 → String
  | 0 => "u1"
  | 1 => "u2"
  | 2 => "u3"

def trioKey1 (place : Fin 3) : String := if place = 1 then "no" else "hi"

def trioInt (text : String) : Option Int :=
  match text.toList with
  | '-' :: digits => if digits.all Char.isDigit then some (-(Nat.ofDigitChars 10 digits 0 : Int)) else none
  | [] => none
  | digits => if digits.all Char.isDigit then some (Nat.ofDigitChars 10 digits 0 : Int) else none

theorem trioInt_toString (value : Int) : trioInt (toString value) = some value := by
  have digits : ∀ count : Nat, (toString count).toList.all Char.isDigit = true := by
    intro count
    rw [List.all_eq_true]
    intro c member
    refine Nat.isDigit_of_mem_toDigits (b := 10) (n := count) (by decide) (by decide) ?_
    rwa [← Nat.toList_repr]
  have read : ∀ count : Nat, Nat.ofDigitChars 10 (toString count).toList 0 = count := by
    intro count
    rw [show (toString count).toList = Nat.toDigits 10 count from Nat.toList_repr]
    exact Nat.ofDigitChars_ten_toDigits
  cases value with
  | ofNat count =>
    rw [show toString (Int.ofNat count) = toString count from rfl, trioInt]
    split
    · rename_i rest shape
      have allDigits := digits count
      rw [shape] at allDigits
      simp at allDigits
    · rename_i empty
      rw [show (toString count).toList = Nat.toDigits 10 count from Nat.toList_repr] at empty
      exact absurd empty Nat.toDigits_ne_nil
    · rw [if_pos (digits count), read]
      rfl
  | negSucc count =>
    have shape : (toString (Int.negSucc count)).toList = '-' :: (toString (count + 1)).toList := by
      show ("-" ++ toString (count + 1)).toList = _
      rw [String.toList_append]
      rfl
    simp only [trioInt, shape]
    rw [if_pos (digits (count + 1)), read]
    rfl

theorem trioPath_encodeUtf8 (text : String) : samplePath (encodeUtf8 text) = text := by
  rw [samplePath, decodeUtf8_encodeUtf8]
  rfl

def trioPlatform : Platform (Fin 3) where
  cipher := sampleCipher
  floats := noFloats
  lower := id
  intOf := trioInt
  decodePath := samplePath
  formatted := sampleText
  sha256 := sampleSha256
  locate := fun address =>
    match address with
    | .str "10.0.0.1" => 0
    | .str "10.0.0.2" => 1
    | _ => 2
  decoded := trioPath_encodeUtf8
  formattedText := fun _ => rfl
  integers := trioInt_toString

def trioPublication (place : Fin 3) : Key1Publication :=
  match dealKey1 sampleSha256 (trioKey1 place) trioHosts (trioName place) (trioUuid place) "now" sampleDraws with
  | .ok (some publication) => publication
  | _ => ⟨.null, 0, 0, []⟩

def trioConfig : Options := setInitiated (configDefaults.foldl setDefault [])

def trioMember (place : Fin 3) : Member trioPlatform where
  commonName := trioName place
  typed := trioHosts
  ownName := trioName place
  ownPort := 59222
  now := "now"
  key1 := trioKey1 place
  uuid4 := trioUuid place
  dealtAt := "now"
  draws := sampleDraws
  publication := trioPublication place
  config := trioConfig
  nonce := fun _ => Storage.sampleNonce
  before := []
  listed := by revert place; decide
  namedApart := by decide
  placedApart := by decide
  certified := by revert place; decide
  plain := plain_of_all (by revert place; decide) (by revert place; decide)
  dealt := by
    match place with
    | 0 => rfl
    | 1 => rfl
    | 2 => rfl
  isInitiated := by decide +kernel
  unrecorded := by decide
  usable := by
    match place with
    | 0 => exact ⟨_, _, rfl, rfl⟩
    | 1 => exact ⟨_, _, rfl, rfl⟩
    | 2 => exact ⟨_, _, rfl, rfl⟩
  blank := rfl

def trioWeb : Web (Fin 3) where
  platform := trioPlatform
  member := trioMember
  certificates := by decide

def Bootstrapping.isRecorded {floats : FloatText} : Bootstrapping floats → Bool
  | .recorded => true
  | _ => false

theorem recorded_of_isRecorded {floats : FloatText} {setup : Bootstrapping floats} (isRecorded : setup.isRecorded) :
    setup = .recorded := by
  cases setup with
  | recorded => rfl
  | _ => cases isRecorded

def Event.foreign {Place : Type} {floats : FloatText} : Event Place floats → Bool
  | .server _ (.post _ _) => true
  | _ => false

theorem fair_of_own {Place : Type} {web : Web Place} {events : List (Event Place web.platform.floats)}
    (own : events.any Event.foreign = false) : ∀ event ∈ events, web.Fair event := by
  intro event member
  have ownEvent := List.any_eq_false.mp own event member
  cases event with
  | server place happening =>
    cases happening with
    | post post nonce => exact absurd rfl ownEvent
    | _ => trivial
  | _ => trivial

def onServer (place : Fin 3) (happenings : List (Recovery.Event noFloats)) :
    List (Event (Fin 3) trioWeb.platform.floats) :=
  happenings.map (Event.server place)

/-- The first boot of a server. -/
def trioLaunch (place : Fin 3) : List (Event (Fin 3) trioWeb.platform.floats) :=
  .launch place Storage.sampleNonce Storage.sampleNonce :: onServer place (writeSteps "1")

def trioLaunches : List (Event (Fin 3) trioWeb.platform.floats) := (List.finRange 3).flatMap trioLaunch

/-- A server that has booted once. -/
def trioServing (place : Fin 3) : Serving (Fin 3) trioWeb.platform.floats where
  host := run (trioWeb.serverStep place (trioKey1 place)) ⟨(trioMember place).directory, .creatingShares
    defaultSecretsData (blob sampleCipher noFloats (trioKey1 place) SHARES_FILE_PURPOSE Storage.sampleNonce
      defaultSharesData) .starting⟩ (writeSteps "1")
  key1 := trioKey1 place
  client := none

def trioUp : State trioWeb where
  servers := trioServing
  setups := fun _ => .waiting
  configs := fun _ => trioConfig
  initiators := fun _ => none

theorem run_trioLaunch {state : State trioWeb} {place : Fin 3} (starting : state.setups place = .starting)
    (fresh : state.servers place = trioWeb.initial.servers place) :
    run trioWeb.step state (trioLaunch place) = (state.serve place (trioServing place)).goOn place .waiting := by
  have launched : (trioWeb.step state (.launch place Storage.sampleNonce Storage.sampleNonce)).2 =
      (state.serve place ⟨⟨(trioMember place).directory, .creatingShares defaultSecretsData (blob sampleCipher noFloats
        (trioKey1 place) SHARES_FILE_PURPOSE Storage.sampleNonce defaultSharesData) .starting⟩, trioKey1 place,
        none⟩).goOn place .waiting := by
    have first := (trioMember place).boots_first Storage.sampleNonce Storage.sampleNonce
    simp only [Web.step, starting, fresh, Web.started, Web.initial]
    exact congrArg (fun host => (state.serve place ⟨host, trioKey1 place, none⟩).goOn place .waiting) first
  have works : ∀ happening ∈ writeSteps "1", happening.Work := by
    simp [writeSteps, Recovery.Event.Work]
  have written := @run_works _ _ trioWeb (trioWeb.step state (.launch place Storage.sampleNonce Storage.sampleNonce)).2
    place (writeSteps "1") works
  rw [launched] at written
  simp only [servers_goOn, servers_serve, ↓reduceIte] at written
  rw [trioLaunch, run, launched]
  exact written.trans (congrArg (State.goOn · place .waiting) (serve_serve state place _ _))

/-- All the servers are up, and nothing has been published yet. -/
theorem run_trioLaunches : run trioWeb.step trioWeb.initial trioLaunches = trioUp := by
  have launches : trioLaunches = trioLaunch 0 ++ (trioLaunch 1 ++ trioLaunch 2) := rfl
  have first := @run_trioLaunch trioWeb.initial 0 rfl rfl
  have second := @run_trioLaunch ((trioWeb.initial.serve 0 (trioServing 0)).goOn 0 .waiting) 1 rfl rfl
  have third := @run_trioLaunch ((((trioWeb.initial.serve 0 (trioServing 0)).goOn 0 .waiting).serve 1
    (trioServing 1)).goOn 1 .waiting) 2 rfl rfl
  rw [launches, run_append, run_append, first, second, third]
  refine congrArg₂ (fun servers setups => (⟨servers, setups, fun _ => trioConfig, fun _ => none⟩ : State trioWeb)) ?_ ?_
  · funext place
    match place with
    | 0 => rfl
    | 1 => rfl
    | 2 => rfl
  · funext place
    match place with
    | 0 => rfl
    | 1 => rfl
    | 2 => rfl

def trioPublish (place target : Fin 3) : List (Event (Fin 3) trioWeb.platform.floats) :=
  .publish place Storage.sampleNonce :: onServer target (writeSteps "3" ++ [.answer])

/-- The setups launch their servers, and the first host publishes its KEY1. -/
def trioRun : List (Event (Fin 3) trioWeb.platform.floats) :=
  trioLaunches ++ ([.ready 0, .poll 0 true, .poll 0 true, .poll 0 true, .poll 0 true] ++ trioPublish 0 1 ++
    trioPublish 0 2 ++ [.record 0])

theorem fair_trioRun : ∀ event ∈ trioRun, trioWeb.Fair event := @fair_of_own _ trioWeb _ (by decide +kernel)

theorem recorded_trioRun : (run trioWeb.step trioWeb.initial trioRun).setups 0 = .recorded := by
  rw [trioRun, run_append, run_trioLaunches]
  exact recorded_of_isRecorded (by decide +kernel)

theorem own_key1_everywhere_trio : let state := run trioWeb.step trioWeb.initial trioRun
    (state.servers 1).host.process ≠ .failed ∧
    ((state.servers 1).host.process ≠ .down → (state.servers 1).key1 = "no") := by
  obtain ⟨intact, keyed, _⟩ := own_key1_everywhere trioWeb trioRun fair_trioRun 1
  exact ⟨intact, keyed⟩

/-- The second host is killed when it has acknowledged its share. -/
theorem recorded_key1_stays_trio : (trioPublication 0).deliveries.map (·.1.name) = ["host2", "host3"] ∧
    ∀ memory, ((run trioWeb.step trioWeb.initial (trioRun ++ [.server 1 .kill])).servers 2).host.process =
        .running memory →
      trioWeb.shareReply "host1" "u1" none 2
          ((run trioWeb.step trioWeb.initial (trioRun ++ [.server 1 .kill])).servers 2) =
        .response 200 (.document (sampleRecord (samplePeer "host3")).toJson) := by
  obtain ⟨hosts, handsOut⟩ := recorded_key1_stays trioWeb trioRun [.server 1 .kill]
    (@fair_of_own _ trioWeb _ (by decide +kernel)) 0 recorded_trioRun
  have dealt : (⟨"host3", "10.0.0.3", [], "server"⟩, sampleRecord (samplePeer "host3")) ∈
      (trioPublication 0).deliveries := .tail _ (.head _)
  have there : trioWeb.platform.place ⟨"host3", "10.0.0.3", [], "server"⟩ = 2 := rfl
  have named : (trioWeb.member 0).commonName = "host1" := rfl
  have identified : (trioWeb.member 0).uuid4 = "u1" := rfl
  have stays := handsOut _ _ dealt
  rw [there, named, identified] at stays
  exact ⟨rfl, stays⟩

end SecretWeb.Mesh
