import SecretWeb.Mesh.Outages

/-! # How a host comes back

Whatever percolates can be brought up: those that help get ready, and the initiator goes round
among them until it has the KEY1 of its host. -/

namespace SecretWeb.Mesh

open SecretWeb.Data SecretWeb.Python SecretWeb.Python.JsonText SecretWeb.HostsData SecretWeb.Shamir SecretWeb.Storage
  SecretWeb.Client SecretWeb.Network SecretWeb.Setup SecretWeb.Initiator SecretWeb.Server SecretWeb.Server.Recovery

open SecretWeb.CryptoFile (Nonce)

open SecretWeb.Machine (Percolates Reaches reaches_iff reaches_step reaches_each run run_append percolates_complete_of_few
  percolates_complete_of_many)

section Comeback

variable {Place : Type} [DecidableEq Place] {web : Web Place}

/-! ## A round of an initiator -/

theorem initiate_initiate (state : State web) (place : Place) (first second : Option Collecting) :
    (state.initiate place first).initiate place second = state.initiate place second := by
  simp [State.initiate, Function.update_idem]

theorem initiate_self {state : State web} {place : Place} {initiator : Option Collecting}
    (there : state.initiators place = initiator) : state.initiate place initiator = state := by
  simp [State.initiate, ← there, Function.update_eq_self]

/-- The rest of a round, as steps of the network. -/
theorem reaches_pass {state : State web} {place : Place} {collecting after : Collecting}
    (initiator : state.initiators place = some collecting) {count : Nat}
    (passed : (collecting.pass web.platform.formatted (web.answerOf state place collecting.loop.uuid none)
      count).outcome = .ok after) : Reaches web.step Quiet state (state.initiate place (some after)) := by
  induction count generalizing state collecting with
  | zero =>
    cases passed
    rw [initiate_self initiator]
  | succ count inductionHypothesis =>
    rw [Collecting.pass] at passed
    split at passed
    · cases passed
      rw [initiate_self initiator]
    · rename_i peer rest left
      rw [Logged.outcome_bind] at passed
      obtain ⟨next, heard, later⟩ := bind_eq_ok.mp passed
      change collecting.heard _ _ = _ at heard
      have asked : (web.step state (.ask place none)).2 = state.initiate place (some next) := by
        simp only [Web.step, initiator, left, heard]
        rfl
      have first : Reaches web.step Quiet state (state.initiate place (some next)) :=
        .single ⟨.ask place none, trivial, asked⟩
      rw [← loop_heard heard] at later
      have others := @inductionHypothesis (state.initiate place (some next)) next (by simp) later
      rw [initiate_initiate] at others
      exact first.trans others

def inOrder : Shuffle := ⟨id, List.Perm.refl⟩

/-- What an initiator has after the round that it is in and another one: enough, or the shares
of all the peers that are ready. -/
theorem Invariant.collects {state : State web} (invariant : Invariant state) {place : Place} {collecting : Collecting}
    (initiator : state.initiators place = some collecting) :
    ∃ last, Reaches web.step Quiet state (state.initiate place (some last)) ∧
      (last.decoder.readyToDecode = true ∨ ∀ host ∈ (web.member place).others,
        Ready state (web.platform.place host) ∨ Json.str host.name ∈ collecting.contributed →
          Json.str host.name ∈ last.contributed) := by
  have gathering := invariant.gathering place collecting initiator
  obtain ⟨split, participants, publishes⟩ := (web.member place).publishes
  obtain ⟨all, gathers⟩ := gathering.gathers split participants publishes
  have apart : NamedApart collecting.loop.peers := gathering.peers ▸ (web.member place).peersApart
  have genuine : ∀ peer ∈ collecting.loop.peers,
      PassedOver web.platform.formatted (.str collecting.loop.uuid)
          (web.answerOf state place collecting.loop.uuid none peer) ∨
        AnswersOwn web.platform.formatted (.str collecting.loop.uuid) (web.member place).publication
          (web.member place).share peer (web.answerOf state place collecting.loop.uuid none peer) := by
    intro peer listed
    rw [gathering.peers] at listed
    rw [gathering.uuid]
    exact invariant.answer_genuine none listed
  obtain ⟨middle, more, passed, sameLoop, finished, gathersMiddle, _⟩ := gathers.pass publishes apart rfl
    fun peer member => genuine peer (gathers.listed peer member)
  have first := reaches_pass initiator passed
  cases waiting : middle.decoder.readyToDecode with
  | true => exact ⟨middle, first, .inl waiting⟩
  | false =>
    obtain ⟨begun, next, begunLoop, gathersBegun, everyone⟩ := gathersMiddle.nextRound (sameLoop ▸ apart) inOrder
    have second : Reaches web.step Quiet (state.initiate place (some middle)) (state.initiate place (some begun)) := by
      refine .single ⟨.nextRound place inOrder, trivial, ?_⟩
      simp only [Web.step, initiators_initiate, ↓reduceIte, next, initiate_initiate]
      rfl
    have loops : begun.loop = collecting.loop := begunLoop.trans sameLoop
    have genuineAgain : ∀ peer ∈ begun.left,
        PassedOver web.platform.formatted (.str begun.loop.uuid) (web.answerOf state place begun.loop.uuid none peer) ∨
          AnswersOwn web.platform.formatted (.str begun.loop.uuid) (web.member place).publication
            (web.member place).share peer (web.answerOf state place begun.loop.uuid none peer) := by
      intro peer member
      rw [loops]
      exact genuine peer (loops ▸ gathersBegun.listed peer member)
    obtain ⟨last, others, passedAgain, _, _, gathersLast, complete⟩ :=
      gathersBegun.pass publishes (loops ▸ apart) rfl genuineAgain
    have third := @reaches_pass _ _ web (state.initiate place (some begun)) place begun last (by simp) _ passedAgain
    rw [initiate_initiate] at third
    refine ⟨last, (first.trans second).trans third, complete.imp_right fun complete host other offers => ?_⟩
    rw [gathersLast.contributed, names_append, List.mem_append]
    by_cases before : host.name ∈ (all ++ more).map peerName
    · left
      obtain ⟨peer, member, same⟩ := List.mem_map.mp before
      exact List.mem_map.mpr ⟨peer, member, by rw [same]⟩
    · right
      obtain ready | contributed := offers
      · have listed : (web.member place).entry host ∈ middle.loop.peers := by
          rw [sameLoop, gathering.peers]
          exact List.mem_map_of_mem other
        have asked := everyone finished waiting _ listed before
        have answers := invariant.answersOwn_ready gathering.recorded other ready
        rw [← gathering.uuid, ← loops] at answers
        obtain earlier | now := List.mem_append.mp (complete _ asked answers)
        · exact absurd (List.mem_map_of_mem earlier) before
        · exact List.mem_map_of_mem now
      · rw [gathers.contributed] at contributed
        obtain ⟨peer, member, same⟩ := List.mem_map.mp contributed
        refine absurd (List.mem_map.mpr ⟨peer, List.mem_append_left _ member, ?_⟩) before
        exact Json.str.inj same

/-! ## One host -/

/-- An initiator that has enough starts the server. -/
theorem Invariant.start_step {state : State web} (invariant : Invariant state) {place : Place} {collecting : Collecting}
    (initiator : state.initiators place = some collecting) (ready : collecting.decoder.readyToDecode = true)
    (secretsNonce sharesNonce : Nonce) : Up (web.step state (.start place secretsNonce sharesNonce)).2 place := by
  obtain ⟨split, participants, publishes⟩ := (web.member place).publishes
  obtain ⟨all, gathers⟩ := (invariant.gathering place collecting initiator).gathers split participants publishes
  have decoded := gathers.decode publishes ready
  simp only [Web.step, initiator, ready, ↓reduceIte, decoded, Up, servers_initiate, servers_serve]
  cases process : (state.servers place).host.process with
  | down =>
    simp only [Web.started, process]
    exact up_boots _ secretsNonce sharesNonce
  | _ => simp [Web.started, process]

/-- The share of a helper is not lost, unless it has done its work. -/
theorem Invariant.hearing_stays {state : State web} (invariant : Invariant state)
    {event : Event Place web.platform.floats} (quiet : Quiet event) {place helper : Place}
    (hears : helper ∈ heard state place) :
    Up (web.step state event).2 place ∨ helper ∈ heard (web.step state event).2 place := by
  obtain ⟨collecting, initiator, host, other, there, named⟩ := hears
  have collects := initiators_step state event place
  generalize after : (web.step state event).2.initiators place = next at collects
  have gathering := invariant.gathering place collecting initiator
  have apart : NamedApart collecting.loop.peers := gathering.peers ▸ (web.member place).peersApart
  obtain ⟨split, participants, publishes⟩ := (web.member place).publishes
  obtain ⟨all, gathers⟩ := gathering.gathers split participants publishes
  cases collects with
  | same => exact .inr ⟨collecting, after.trans initiator, host, other, there, named⟩
  | gone why =>
    obtain rfl | ⟨secretsNonce, sharesNonce, _, rfl, found, ready⟩ := why
    · cases quiet
    · exact .inl (invariant.start_step found ready secretsNonce sharesNonce)
  | entered uuid4 isBoot idle => cases initiator.symm.trans idle
  | begun shuffle before isRound found =>
    cases initiator.symm.trans found
    obtain ⟨next, begun, _, gathersNext, _⟩ := gathers.nextRound apart shuffle
    rw [begun] at after
    refine .inr ⟨next, after, host, other, there, ?_⟩
    rwa [gathersNext.contributed, ← gathers.contributed]
  | asked outage before peer rest isAsk found left =>
    cases initiator.symm.trans found
    have listed : peer ∈ (web.member place).peers := by
      rw [← gathering.peers]
      exact gathers.listed peer (left ▸ List.mem_cons_self)
    have genuine := invariant.answer_genuine outage listed
    rw [← gathering.uuid] at genuine
    obtain ⟨next, more, heardNext, _, gathersNext, _⟩ := gathers.asked publishes apart left genuine
    rw [heardNext] at after
    refine .inr ⟨next, after, host, other, there, ?_⟩
    rw [gathersNext.contributed, names_append, ← gathers.contributed]
    exact List.mem_append_left _ named

theorem Invariant.hearing_quiet {origin state : State web} (invariant : Invariant origin)
    (reaches : Reaches web.step Quiet origin state) {place helper : Place} (hears : helper ∈ heard origin place) :
    Up state place ∨ helper ∈ heard state place := by
  have kept := @Reaches.kept _ _ _ web.step Quiet _ _
    (fun state => Invariant state ∧ (Up state place ∨ helper ∈ heard state place)) reaches
    (fun state event quiet before => by
      refine ⟨before.1.step (fair_of_quiet quiet), ?_⟩
      obtain up | hears := before.2
      · exact .inl (up_quiet (reaches_step state quiet) up)
      · exact before.1.hearing_stays quiet hears)
    ⟨invariant, .inr hears⟩
  exact kept.2

/-- With an initiator, the one that is there or one that is started. -/
theorem Invariant.initiates {state : State web} (invariant : Invariant state) {place : Place}
    (recorded : state.setups place = .recorded) :
    ∃ collecting, Reaches web.step Quiet state (state.initiate place (some collecting)) ∧
      ∀ helper ∈ heard state place, ∃ host ∈ (web.member place).others, web.platform.place host = helper ∧
        Json.str host.name ∈ collecting.contributed := by
  cases initiator : state.initiators place with
  | some collecting =>
    refine ⟨collecting, by rw [initiate_self initiator], ?_⟩
    rintro helper ⟨other, found, offered⟩
    cases initiator.symm.trans found
    exact offered
  | none =>
    obtain ⟨loop, prepared, _⟩ := (web.member place).prepared ""
    have isInitiated : initiated (web.member place).recorded = true := by
      have before := (web.member place).isInitiated
      simp only [initiated, Member.recorded, setKey1Metadata, Dict.get_set] at before ⊢
      simpa using before
    refine ⟨loop.enter, .single ⟨.boot place "", trivial, ?_⟩, ?_⟩
    · simp only [Web.step, initiator, Web.entered, invariant.recorded place recorded, isInitiated, ↓reduceIte, prepared]
    · rw [heard_eq_empty initiator]
      rintro helper ⟨⟩

/-- Helpers that are ready, or that have been heard, are enough to bring up a server. -/
theorem Invariant.comesUp {state : State web} (invariant : Invariant state) {place : Place}
    (recorded : state.setups place = .recorded) {helpers : Finset Place} (near : helpers ⊆ (web.member place).neighbours)
    (enough : web.treshold place ≤ helpers.card)
    (help : ∀ helper ∈ helpers, Ready state helper ∨ helper ∈ heard state place) :
    ∃ after, Reaches web.step Quiet state after ∧ Up after place := by
  obtain ⟨collecting, entered, offered⟩ := invariant.initiates recorded
  have enteredInvariant := invariant.quiet entered
  obtain ⟨last, collected, offers⟩ := @Invariant.collects _ _ _ _ enteredInvariant place collecting (by simp)
  rw [initiate_initiate] at collected
  have lastInvariant := enteredInvariant.quiet collected
  have there : (state.initiate place (some last)).initiators place = some last := by simp
  obtain ⟨found, distinct, listed, contributed, few, full⟩ := (lastInvariant.gathering place last there).counts
  have ready : last.decoder.readyToDecode = true := by
    obtain ready | offers := offers
    · exact ready
    · have inside : helpers ⊆ (web.member place).helpers found := by
        intro helper member
        rw [Member.mem_helpers]
        have offer : ∃ host ∈ (web.member place).others, web.platform.place host = helper ∧
            Json.str host.name ∈ last.contributed := by
          obtain ready | hears := help helper member
          · obtain ⟨host, other, rfl⟩ := (web.member place).mem_neighbours.mp (near member)
            exact ⟨host, other, rfl, offers host other (.inl ready)⟩
          · obtain ⟨host, other, same, named⟩ := offered helper hears
            exact ⟨host, other, same, offers host other (.inr named)⟩
        obtain ⟨host, other, same, named⟩ := offer
        rw [contributed] at named
        obtain ⟨name, member, sameName⟩ := List.mem_map.mp named
        exact ⟨host, other, Json.str.inj sameName ▸ member, same⟩
      have count := Finset.card_le_card inside
      rw [(web.member place).card_helpers distinct listed] at count
      exact full.mpr (by omega)
  exact ⟨_, (entered.trans collected).tail ⟨.start place Storage.sampleNonce Storage.sampleNonce, trivial, rfl⟩,
    lastInvariant.start_step there ready Storage.sampleNonce Storage.sampleNonce⟩

/-! ## All of them -/

theorem up_kill (state : State web) (target place : Place) :
    Up (web.step state (.server target .kill)).2 place ↔ Up state place ∧ place ≠ target := by
  by_cases same : place = target
  · subst same
    simp [Up, Web.step, Web.serverEvent, Web.serverStep, Recovery.step]
  · simp [Up, Web.step, Web.serverEvent, same]

theorem run_kill (state : State web) (target : Place) :
    run web.step state ([target].map fun target => .server target .kill) = (web.step state (.server target .kill)).2 := rfl

theorem kills (state : State web) (targets : List Place) :
    (∀ place, state.setups place = .recorded →
      (run web.step state (targets.map fun target => .server target .kill)).setups place = .recorded) ∧
    (run web.step state (targets.map fun target => .server target .kill)).initiators = state.initiators ∧
    ∀ place, Up (run web.step state (targets.map fun target => .server target .kill)) place ↔
      Up state place ∧ place ∉ targets := by
  induction targets generalizing state with
  | nil => simp [run]
  | cons target rest inductionHypothesis =>
    obtain ⟨recorded, initiators, up⟩ := inductionHypothesis (web.step state (.server target .kill)).2
    refine ⟨fun place before => recorded place (recorded_stays state _ before),
      initiators.trans (initiators_server state target .kill), fun place => (up place).trans ?_⟩
    rw [up_kill, List.mem_cons, not_or, and_assoc]

/-- One server that is down can be brought up by all the others. -/
theorem recoverable_of_kill {state : State web} (recorded : ∀ place, state.setups place = .recorded)
    (up : ∀ place, Up state place) {place : Place} (apart : place ∉ (web.member place).neighbours) (other : Place) :
    Recoverable (web.step state (.server place .kill)).2 other := by
  have killed : ∀ other, other ≠ place → Up (web.step state (.server place .kill)).2 other := by
    intro other different
    refine up_stays (up other) ?_
    rintro ⟨⟩
    exact different rfl
  by_cases same : other = place
  · subst same
    refine .helped (web.member other).neighbours ?_ (web.treshold_le other) fun helper near _ => .live (killed helper ?_)
    · rw [neighbours, recorded_stays state _ (recorded other)]
    · rintro rfl
      exact apart near
  · exact .live (killed other same)

/-- Whatever percolates can be brought up, from wherever quiet steps have led meanwhile. -/
theorem Recoverable.comesBack {origin : State web} (invariant : Invariant origin) {place : Place}
    (recoverable : Recoverable origin place) :
    ∀ {state : State web}, Reaches web.step Quiet origin state →
      ∃ after, Reaches web.step Quiet state after ∧ Up after place := by
  induction recoverable with
  | live isLive => exact fun {state} reaches => ⟨state, .refl, up_quiet reaches isLive⟩
  | @helped place helpers near enough _ inductionHypothesis =>
    intro state reaches
    have recorded : origin.setups place = .recorded ∧ helpers ⊆ (web.member place).neighbours := by
      cases setup : origin.setups place with
      | recorded =>
        rw [neighbours, setup] at near
        exact ⟨rfl, near⟩
      | _ =>
        rw [neighbours, setup, Finset.subset_empty] at near
        rw [near, Finset.card_empty, Web.treshold] at enough
        omega
    have helped : ∃ after, Reaches web.step Quiet state after ∧
        ∀ helper ∈ helpers.toList, helper ∈ heard origin place ∨ Up after helper := by
      refine @reaches_each _ _ _ web.step Quiet state (fun state => Reaches web.step Quiet origin state)
        (fun state event quiet before => before.tail ⟨event, quiet, rfl⟩) _
        (fun helper (state : State web) => helper ∈ heard origin place ∨ Up state helper)
        (fun helper state event quiet _ help => help.imp_right fun up => up_quiet (reaches_step state quiet) up) _
        (fun helper member state before => ?_) reaches
      by_cases hears : helper ∈ heard origin place
      · exact ⟨state, .refl, .inl hears⟩
      · obtain ⟨after, later, up⟩ := inductionHypothesis helper (Finset.mem_toList.mp member) hears before
        exact ⟨after, later, .inr up⟩
    obtain ⟨middle, first, help⟩ := helped
    have middleInvariant := invariant.quiet (reaches.trans first)
    obtain ⟨settled, finished, ready⟩ := middleInvariant.all_settle helpers.toList
    have second := finished.wider fun _ => quiet_of_finishing
    have there := (reaches.trans first).trans second
    by_cases up : Up settled place
    · exact ⟨settled, first.trans second, up⟩
    · have offers : ∀ helper ∈ helpers, Ready settled helper ∨ helper ∈ heard settled place := by
        intro helper member
        obtain hears | wasUp := help helper (Finset.mem_toList.mpr member)
        · exact .inr ((invariant.hearing_quiet there hears).resolve_left up)
        · exact .inl (ready helper (Finset.mem_toList.mpr member) wasUp)
      obtain ⟨after, later, comesUp⟩ := (invariant.quiet there).comesUp
        (recorded_reaches there recorded.1) recorded.2 enough offers
      exact ⟨after, (first.trans second).trans later, comesUp⟩

/-- After an outage, a server can be brought into service again if and only if its host is among
those that percolate; no other order of steps gets any further. -/
theorem comes_back_iff (web : Web Place) (events : List (Event Place web.platform.floats))
    (fair : ∀ event ∈ events, web.Fair event) (ended : Ended (run web.step web.initial events)) (place : Place) :
    (∃ later, (∀ event ∈ later, web.Fair event) ∧ Ready (run web.step web.initial (events ++ later)) place) ↔
      Recoverable (run web.step web.initial events) place := by
  have invariant : Invariant (run web.step web.initial events) := invariant_initial.run fair
  constructor
  · rintro ⟨later, laterFair, ready⟩
    have reached : Reaches web.step web.Fair (run web.step web.initial events)
        (run web.step web.initial (events ++ later)) := reaches_iff.mpr ⟨later, laterFair, (run_append _ _ _).symm⟩
    have bounded : Bounded (run web.step web.initial events) (run web.step web.initial (events ++ later)) :=
      @Reaches.kept _ _ _ web.step web.Fair _ _ (Bounded (run web.step web.initial events)) reached
        (fun _ _ fairEvent before => before.step ended fairEvent) (bounded_self invariant)
    exact bounded.up place ready.up
  · intro recoverable
    obtain ⟨middle, first, up⟩ := recoverable.comesBack invariant .refl
    obtain ⟨after, finished, ready⟩ := (invariant.quiet first).settles up
    obtain ⟨later, quiet, reached⟩ := reaches_iff.mp (first.trans (finished.wider fun _ => quiet_of_finishing))
    refine ⟨later, fun event member => fair_of_quiet (quiet event member), ?_⟩
    rw [run_append, reached]
    exact ready

end Comeback

/-- A host publishes its KEY1 to the two others. -/
def trioSetup (place : Fin 3) : List (Event (Fin 3) trioWeb.platform.floats) :=
  [.ready place, .poll place true, .poll place true, .poll place true, .poll place true] ++
    ((List.finRange 3).filter (· ≠ place)).flatMap (trioPublish place) ++ [.record place]

def trioAll : List (Event (Fin 3) trioWeb.platform.floats) :=
  trioLaunches ++ (List.finRange 3).flatMap trioSetup

def Process.isRunning {floats : FloatText} : Process floats → Bool
  | .running _ => true
  | _ => false

def bootstrapped (state : State trioWeb) (place : Fin 3) : Bool :=
  (state.setups place).isRecorded && Process.isRunning (state.servers place).host.process &&
    (state.initiators place).isNone

def trioState : State trioWeb := run trioWeb.step trioUp ((List.finRange 3).flatMap trioSetup)

theorem run_trioAll : run trioWeb.step trioWeb.initial trioAll = trioState := by
  rw [trioAll, run_append, run_trioLaunches]
  rfl

theorem fair_trioAll : ∀ event ∈ trioAll, trioWeb.Fair event := @fair_of_own _ trioWeb _ (by decide +kernel)

theorem bootstrapped_trioState : ∀ place, bootstrapped trioState place = true := by decide +kernel

theorem recorded_trioState (place : Fin 3) : trioState.setups place = .recorded := by
  have done := bootstrapped_trioState place
  rw [bootstrapped, Bool.and_eq_true, Bool.and_eq_true] at done
  exact recorded_of_isRecorded done.1.1

theorem ready_trioState (place : Fin 3) : Ready trioState place := by
  have done := bootstrapped_trioState place
  rw [bootstrapped, Bool.and_eq_true, Bool.and_eq_true] at done
  have running := done.1.2
  cases process : (trioState.servers place).host.process with
  | running memory => exact ⟨memory, process⟩
  | _ =>
    rw [process] at running
    cases running

theorem nobody_trioState (place : Fin 3) : trioState.initiators place = none := by
  have done := bootstrapped_trioState place
  rw [bootstrapped, Bool.and_eq_true] at done
  exact Option.isNone_iff_eq_none.mp done.2

theorem apart_trio : ∀ place, place ∉ (trioWeb.member place).neighbours := by decide

/-- The network after some of the servers have been killed. -/
def trioKills (targets : List (Fin 3)) : List (Event (Fin 3) trioWeb.platform.floats) :=
  trioAll ++ targets.map fun target => .server target .kill

theorem fair_trioKills (targets : List (Fin 3)) : ∀ event ∈ trioKills targets, trioWeb.Fair event := by
  intro event member
  cases List.mem_append.mp member with
  | inl before => exact fair_trioAll event before
  | inr kill =>
    obtain ⟨target, -, rfl⟩ := List.mem_map.mp kill
    trivial

theorem run_trioKills (targets : List (Fin 3)) : run trioWeb.step trioWeb.initial (trioKills targets) =
    run trioWeb.step trioState (targets.map fun target => .server target .kill) := by
  rw [trioKills, run_append, run_trioAll]

theorem recorded_trioKills (targets : List (Fin 3)) (place : Fin 3) :
    (run trioWeb.step trioWeb.initial (trioKills targets)).setups place = .recorded := by
  rw [run_trioKills]
  exact (kills trioState targets).1 place (recorded_trioState place)

theorem nobody_trioKills (targets : List (Fin 3)) (place : Fin 3) :
    (run trioWeb.step trioWeb.initial (trioKills targets)).initiators place = none := by
  rw [run_trioKills, (kills trioState targets).2.1]
  exact nobody_trioState place

theorem up_trioKills (targets : List (Fin 3)) (place : Fin 3) :
    Up (run trioWeb.step trioWeb.initial (trioKills targets)) place ↔ place ∉ targets := by
  rw [run_trioKills, (kills trioState targets).2.2 place]
  exact and_iff_right (ready_trioState place).up

/-- The first host comes back when its server has been killed. -/
theorem comes_back_iff_trio : ∃ later, (∀ event ∈ later, trioWeb.Fair event) ∧
    Ready (run trioWeb.step trioWeb.initial (trioKills [0] ++ later)) 0 := by
  refine (comes_back_iff trioWeb (trioKills [0]) (fair_trioKills [0]) (fun place => .inl (recorded_trioKills [0] place))
    0).mpr ?_
  rw [run_trioKills, run_kill]
  exact recoverable_of_kill recorded_trioState (fun place => (ready_trioState place).up) (apart_trio 0) 0

end SecretWeb.Mesh
