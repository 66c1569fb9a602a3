import SecretWeb.Mesh.Members

/-! # What one step can do

To a server, to a setup, to a `config.ini` and to an initiator, each on its own.  Whatever holds
over all steps is shown from these. -/

namespace SecretWeb.Mesh

open SecretWeb.Data SecretWeb.Python SecretWeb.Python.JsonText SecretWeb.HostsData SecretWeb.Shamir SecretWeb.Storage
  SecretWeb.Client SecretWeb.Network SecretWeb.Setup SecretWeb.Initiator SecretWeb.Server SecretWeb.Server.Recovery

open SecretWeb.CryptoFile (Nonce)

open SecretWeb.Machine (run)

section Steps

variable {Place : Type} [DecidableEq Place] {web : Web Place}

/-! ## The components of a changed state -/

@[simp] theorem servers_serve (state : State web) (place other : Place)
    (serving : Serving Place web.platform.floats) :
    (state.serve place serving).servers other = if other = place then serving else state.servers other := by
  exact Function.update_apply _ _ _ _

@[simp] theorem setups_serve (state : State web) (place : Place) (serving : Serving Place web.platform.floats) :
    (state.serve place serving).setups = state.setups := rfl

@[simp] theorem configs_serve (state : State web) (place : Place) (serving : Serving Place web.platform.floats) :
    (state.serve place serving).configs = state.configs := rfl

@[simp] theorem initiators_serve (state : State web) (place : Place) (serving : Serving Place web.platform.floats) :
    (state.serve place serving).initiators = state.initiators := rfl

theorem serve_serve (state : State web) (place : Place) (first second : Serving Place web.platform.floats) :
    (state.serve place first).serve place second = state.serve place second := by
  simp [State.serve, Function.update_idem]

theorem serve_self (state : State web) (place : Place) : state.serve place (state.servers place) = state := by
  simp [State.serve, Function.update_eq_self]

@[simp] theorem servers_goOn (state : State web) (place : Place) (setup : Bootstrapping web.platform.floats) :
    (state.goOn place setup).servers = state.servers := rfl

@[simp] theorem setups_goOn (state : State web) (place other : Place) (setup : Bootstrapping web.platform.floats) :
    (state.goOn place setup).setups other = if other = place then setup else state.setups other := by
  exact Function.update_apply _ _ _ _

@[simp] theorem configs_goOn (state : State web) (place : Place) (setup : Bootstrapping web.platform.floats) :
    (state.goOn place setup).configs = state.configs := rfl

@[simp] theorem initiators_goOn (state : State web) (place : Place) (setup : Bootstrapping web.platform.floats) :
    (state.goOn place setup).initiators = state.initiators := rfl

@[simp] theorem servers_configure (state : State web) (place : Place) (config : Options) :
    (state.configure place config).servers = state.servers := rfl

@[simp] theorem setups_configure (state : State web) (place : Place) (config : Options) :
    (state.configure place config).setups = state.setups := rfl

@[simp] theorem configs_configure (state : State web) (place other : Place) (config : Options) :
    (state.configure place config).configs other = if other = place then config else state.configs other := by
  exact Function.update_apply _ _ _ _

@[simp] theorem initiators_configure (state : State web) (place : Place) (config : Options) :
    (state.configure place config).initiators = state.initiators := rfl

@[simp] theorem servers_initiate (state : State web) (place : Place) (initiator : Option Collecting) :
    (state.initiate place initiator).servers = state.servers := rfl

@[simp] theorem setups_initiate (state : State web) (place : Place) (initiator : Option Collecting) :
    (state.initiate place initiator).setups = state.setups := rfl

@[simp] theorem configs_initiate (state : State web) (place : Place) (initiator : Option Collecting) :
    (state.initiate place initiator).configs = state.configs := rfl

@[simp] theorem initiators_initiate (state : State web) (place other : Place) (initiator : Option Collecting) :
    (state.initiate place initiator).initiators other = if other = place then initiator else state.initiators other := by
  exact Function.update_apply _ _ _ _

@[simp] theorem servers_inform (state : State web) (client : Option Place)
    (hears : Bootstrapping web.platform.floats → Bootstrapping web.platform.floats) :
    (state.inform client hears).servers = state.servers := by
  cases client with
  | none => rfl
  | some place => rfl

@[simp] theorem configs_inform (state : State web) (client : Option Place)
    (hears : Bootstrapping web.platform.floats → Bootstrapping web.platform.floats) :
    (state.inform client hears).configs = state.configs := by
  cases client with
  | none => rfl
  | some place => rfl

@[simp] theorem initiators_inform (state : State web) (client : Option Place)
    (hears : Bootstrapping web.platform.floats → Bootstrapping web.platform.floats) :
    (state.inform client hears).initiators = state.initiators := by
  cases client with
  | none => rfl
  | some place => rfl

theorem setups_inform (state : State web) (client : Option Place)
    (hears : Bootstrapping web.platform.floats → Bootstrapping web.platform.floats) (other : Place) :
    (state.inform client hears).setups other =
      if client = some other then hears (state.setups other) else state.setups other := by
  cases client with
  | none => simp [State.inform]
  | some place =>
    simp only [State.inform, setups_goOn, Option.some.injEq, eq_comm (a := place)]
    split
    · rename_i same
      rw [same]
    · rfl

/-! ## A server -/

/-- What may become of a server. -/
inductive Served (state : State web) (event : Event Place web.platform.floats) (place : Place)
    (after : Serving Place web.platform.floats) : Prop
  | same (unchanged : after = state.servers place)
  | launched (secretsNonce sharesNonce : Nonce) (isLaunch : event = .launch place secretsNonce sharesNonce)
      (setup : state.setups place = .starting) (down : (state.servers place).host.process = .down)
      (changed : after = ⟨boots web.platform.cipher web.platform.floats (web.member place).key1 (state.servers place).host
        secretsNonce sharesNonce, (web.member place).key1, none⟩)
  | booted (secretsNonce sharesNonce : Nonce) (collecting : Collecting) (key1 : String)
      (isStart : event = .start place secretsNonce sharesNonce)
      (initiator : state.initiators place = some collecting) (ready : collecting.decoder.readyToDecode = true)
      (decoded : collecting.decoder.decode web.platform.sha256 = .ok key1)
      (down : (state.servers place).host.process = .down)
      (changed : after = ⟨boots web.platform.cipher web.platform.floats key1 (state.servers place).host secretsNonce
        sharesNonce, key1, none⟩)
  | posted (publisher : Place) (nonce : Nonce) (parcel : Parcel web.platform.floats)
      (left : List (Parcel web.platform.floats)) (post : Recovery.Post web.platform.floats) (memory : Store)
      (isPublish : event = .publish publisher nonce)
      (setup : state.setups publisher = .publishing (parcel :: left) false)
      (target : web.platform.place parcel.host = place) (sent : (web.member publisher).post parcel = some post)
      (waiting : (state.servers place).host.process = .running memory)
      (changed : after = ⟨(web.serverStep place (state.servers place).key1 (state.servers place).host
        (.post post nonce)).2, (state.servers place).key1, some publisher⟩)
  | happened (happening : Recovery.Event web.platform.floats) (client : Option Place)
      (isServer : event = .server place happening)
      (unstarted : ∀ secretsNonce sharesNonce, happening ≠ .start secretsNonce sharesNonce)
      (told : client = none ∧ (happening = .kill ∨ happening = .answer) ∨
        client = (state.servers place).client ∧ happening ≠ .kill ∧ happening ≠ .answer)
      (changed : after = ⟨(web.serverStep place (state.servers place).key1 (state.servers place).host happening).2,
        (state.servers place).key1, client⟩)
      (apart : ∀ name bytes, happening = .elsewhere name bytes → name ∉ DATA_FILENAMES)

omit [DecidableEq Place] in
theorem started_cases (key1 : String) (secretsNonce sharesNonce : Nonce) (serving : Serving Place web.platform.floats) :
    web.started key1 secretsNonce sharesNonce serving = serving ∨
    serving.host.process = .down ∧ web.started key1 secretsNonce sharesNonce serving =
      ⟨boots web.platform.cipher web.platform.floats key1 serving.host secretsNonce sharesNonce, key1, none⟩ := by
  unfold Web.started
  split
  · rename_i down
    exact .inr ⟨down, rfl⟩
  · exact .inl rfl

/-- What a server does by itself. -/
theorem run_works (state : State web) (place : Place) {happenings : List (Recovery.Event web.platform.floats)}
    (works : ∀ happening ∈ happenings, happening.Work) :
    run web.step state (happenings.map (Event.server place)) = state.serve place { state.servers place with
      host := run (web.serverStep place (state.servers place).key1) (state.servers place).host happenings } := by
  induction happenings generalizing state with
  | nil => exact (serve_self state place).symm
  | cons happening rest inductionHypothesis =>
    obtain ⟨writeStep, rfl⟩ := works happening List.mem_cons_self
    have stepped : (web.step state (.server place (.work writeStep))).2 = state.serve place { state.servers place with
        host := (web.serverStep place (state.servers place).key1 (state.servers place).host (.work writeStep)).2 } := rfl
    rw [List.map_cons, run, stepped, inductionHypothesis _ fun other member => works other (List.mem_cons_of_mem _ member),
      serve_serve]
    simp only [servers_serve, ↓reduceIte]
    rfl

theorem servers_serverEvent (state : State web) (place : Place) (happening : Recovery.Event web.platform.floats)
    (other : Place) : Served state (.server place happening) other ((web.serverEvent state place happening).servers
      other) := by
  by_cases same : other = place
  · subst same
    cases happening with
    | start secretsNonce sharesNonce => exact .same rfl
    | kill =>
      refine .happened .kill none rfl (by simp) (.inl ⟨rfl, .inl rfl⟩) ?_ (by simp)
      simp only [Web.serverEvent, servers_inform, servers_serve, ↓reduceIte]
    | answer =>
      cases answered : web.serverStep other (state.servers other).key1 (state.servers other).host .answer with
      | mk output host =>
        cases output with
        | none => exact .same (by simp only [Web.serverEvent, answered])
        | some answer =>
          refine .happened .answer none rfl (by simp) (.inl ⟨rfl, .inr rfl⟩) ?_ (by simp)
          simp only [Web.serverEvent, answered, servers_inform, servers_serve, ↓reduceIte]
    | work writeStep =>
      refine .happened _ _ rfl (by simp) (.inr ⟨rfl, by simp, by simp⟩) ?_ (by simp)
      simp only [Web.serverEvent, servers_serve, ↓reduceIte]
    | post post nonce =>
      refine .happened _ _ rfl (by simp) (.inr ⟨rfl, by simp, by simp⟩) ?_ (by simp)
      simp only [Web.serverEvent, servers_serve, ↓reduceIte]
    | elsewhere name bytes =>
      simp only [Web.serverEvent]
      split
      · exact .same rfl
      · rename_i apart
        refine .happened _ _ rfl (by simp) (.inr ⟨rfl, by simp, by simp⟩) ?_ (by
          rintro _ _ ⟨⟩
          exact apart)
        simp only [servers_serve, ↓reduceIte]
  · apply Served.same
    cases happening with
    | start secretsNonce sharesNonce => rfl
    | answer =>
      simp only [Web.serverEvent]
      split
      · simp only [servers_inform, servers_serve, if_neg same]
      · rfl
    | elsewhere name bytes =>
      simp only [Web.serverEvent]
      split
      · rfl
      · simp only [servers_serve, if_neg same]
    | _ => simp only [Web.serverEvent, servers_inform, servers_serve, if_neg same]

/-- The step lemma for servers. -/
theorem servers_step (state : State web) (event : Event Place web.platform.floats) (place : Place) :
    Served state event place ((web.step state event).2.servers place) := by
  cases event with
  | launch launcher secretsNonce sharesNonce =>
    simp only [Web.step]
    split
    · rename_i setup
      simp only [servers_goOn, servers_serve]
      split
      · rename_i same
        subst same
        obtain unchanged | ⟨down, changed⟩ := @started_cases _ web (web.member place).key1 secretsNonce sharesNonce
          (state.servers place)
        · exact .same unchanged
        · exact .launched secretsNonce sharesNonce rfl setup down changed
      · exact .same rfl
    · exact .same rfl
  | publish publisher nonce =>
    simp only [Web.step]
    split
    · rename_i parcel left setup
      simp only [Web.publishNext]
      split
      · rename_i memory post waiting sent
        simp only [servers_goOn, servers_serve]
        split
        · rename_i same
          subst same
          exact .posted publisher nonce parcel left post memory rfl setup rfl sent waiting rfl
        · exact .same rfl
      · exact .same rfl
      · exact .same rfl
    · exact .same rfl
  | start starter secretsNonce sharesNonce =>
    simp only [Web.step]
    split
    · rename_i collecting initiator
      split
      · rename_i ready
        split
        · rename_i key1 decoded
          simp only [servers_initiate, servers_serve]
          split
          · rename_i same
            subst same
            obtain unchanged | ⟨down, changed⟩ := @started_cases _ web key1 secretsNonce sharesNonce
              (state.servers place)
            · exact .same unchanged
            · exact .booted secretsNonce sharesNonce collecting key1 rfl initiator ready decoded down changed
          · exact .same rfl
        · exact .same rfl
      · exact .same rfl
    · exact .same rfl
  | server other happening => exact servers_serverEvent state other happening place
  | ready other =>
    simp only [Web.step]
    split
    · exact .same rfl
    · exact .same rfl
  | poll other arrives => exact .same rfl
  | record other =>
    simp only [Web.step]
    split
    · exact .same rfl
    · exact .same rfl
  | quit other => exact .same rfl
  | boot other uuid4 =>
    simp only [Web.step]
    split
    · exact .same rfl
    · exact .same rfl
  | nextRound other shuffle =>
    simp only [Web.step]
    split
    · exact .same rfl
    · exact .same rfl
  | ask other outage =>
    simp only [Web.step]
    split
    · split
      · exact .same rfl
      · exact .same rfl
    · exact .same rfl
  | stop other => exact .same rfl

/-! ## A setup -/

/-- Why a setup may end early, other than over an answer or a poll. -/
inductive Lost (state : State web) (event : Event Place web.platform.floats) (place : Place) : Prop
  | quitted (isQuit : event = .quit place)
  | hungUp (target : Place) (isKill : event = .server target .kill)
  | unsent (nonce : Nonce) (parcel : Parcel web.platform.floats) (left : List (Parcel web.platform.floats))
      (isPublish : event = .publish place nonce) (setup : state.setups place = .publishing (parcel :: left) false)
      (unrouted : (web.member place).post parcel = none)

/-- What may become of a setup. -/
inductive Went (state : State web) (event : Event Place web.platform.floats) (place : Place)
    (after : Bootstrapping web.platform.floats) : Prop
  | same (unchanged : after = state.setups place)
  | lost (unrecorded : state.setups place ≠ .recorded) (ended : after = .exited) (why : Lost state event place)
  | launched (secretsNonce sharesNonce : Nonce) (isLaunch : event = .launch place secretsNonce sharesNonce)
      (setup : state.setups place = .starting) (changed : after = .waiting)
  | ready (memory : Store) (isReady : event = .ready place) (setup : state.setups place = .waiting)
      (running : (state.servers place).host.process = .running memory)
      (changed : after = .polling ((web.member place).others.foldl (fun hosts host => Dict.set hosts host.name host) [])
        [])
  | polled (arrives : Bool) (isPoll : event = .poll place arrives)
      (changed : after = web.polled state place arrives (state.setups place))
  | posted (nonce : Nonce) (parcel : Parcel web.platform.floats) (left : List (Parcel web.platform.floats))
      (post : Recovery.Post web.platform.floats) (memory : Store) (isPublish : event = .publish place nonce)
      (setup : state.setups place = .publishing (parcel :: left) false)
      (sent : (web.member place).post parcel = some post)
      (waiting : (state.servers (web.platform.place parcel.host)).host.process = .running memory)
      (changed : after = .publishing (parcel :: left) true)
  | heard (target : Place) (memory : Store) (post : Recovery.Post web.platform.floats) (answer : Except Failure Answer)
      (isAnswer : event = .server target .answer) (client : (state.servers target).client = some place)
      (answering : (state.servers target).host.process = .answering memory post answer)
      (changed : after = web.heardAnswer answer (state.setups place))
  | recorded (isRecord : event = .record place) (setup : state.setups place = .publishing [] false)
      (changed : after = .recorded)

omit [DecidableEq Place] in
/-- A poll keeps polling, unless there is nobody left or nobody to be found. -/
theorem polled_cases (state : State web) (place : Place) (arrives : Bool)
    (setup : Bootstrapping web.platform.floats) :
    (web.polled state place arrives setup = setup ∧ ∀ remaining queue, setup ≠ .polling remaining queue) ∨
    ∃ remaining queue, setup = .polling remaining queue ∧
      ((∃ fewer rest, web.polled state place arrives setup = .polling fewer rest) ∨
        web.polled state place arrives setup = .exited ∨
        remaining = [] ∧ web.polled state place arrives setup = .publishing (web.member place).parcels false) := by
  cases setup with
  | polling remaining queue =>
    refine .inr ⟨remaining, queue, rfl, ?_⟩
    cases queue with
    | nil =>
      simp only [Web.polled]
      split
      · rename_i nobody
        exact .inr (.inr ⟨nobody, rfl⟩)
      · exact .inl ⟨_, _, rfl⟩
    | cons name queue =>
      simp only [Web.polled]
      split
      · split
        · exact .inl ⟨_, _, rfl⟩
        · exact .inl ⟨_, _, rfl⟩
      · exact .inr (.inl rfl)
  | _ => exact .inl ⟨rfl, by rintro _ _ ⟨⟩⟩

omit [DecidableEq Place] in
/-- An answer is for the parcel that has been posted: it is acknowledged, or setup ends. -/
theorem heardAnswer_cases (answer : Except Failure Answer) (setup : Bootstrapping web.platform.floats) :
    (web.heardAnswer answer setup = setup ∧ ∀ parcel left, setup ≠ .publishing (parcel :: left) true) ∨
    ∃ parcel left, setup = .publishing (parcel :: left) true ∧
      (web.heardAnswer answer setup = .exited ∨
        Client.storeShare (delivered web.platform.floats (reply answer)) = .ok () ∧
          web.heardAnswer answer setup = .publishing left false) := by
  unfold Web.heardAnswer
  split
  · rename_i parcel left
    refine .inr ⟨parcel, left, rfl, ?_⟩
    split
    · rename_i acknowledged
      exact .inr ⟨acknowledged, rfl⟩
    · exact .inl rfl
  · rename_i other
    exact .inl ⟨rfl, fun parcel left same => other parcel left same⟩

omit [DecidableEq Place] in
theorem went_hungUp (state : State web) (target place : Place) :
    Went state (.server target .kill) place (web.hungUp (state.setups place)) := by
  unfold Web.hungUp
  split
  · rename_i setup
    exact .lost (by rw [setup]; simp) rfl (.hungUp target rfl)
  · exact .same rfl

theorem setups_serverEvent (state : State web) (target : Place) (happening : Recovery.Event web.platform.floats)
    (place : Place) :
    Went state (.server target happening) place ((web.serverEvent state target happening).setups place) := by
  cases happening with
  | kill =>
    simp only [Web.serverEvent, setups_inform, setups_serve]
    split
    · exact went_hungUp state target place
    · exact .same rfl
  | answer =>
    cases serving : state.servers target with
    | mk host key1 client =>
      obtain ⟨directory, process⟩ := host
      cases process with
      | answering memory post answer =>
        simp only [Web.serverEvent, serving, Web.serverStep, Recovery.step, setups_inform, setups_serve]
        split
        · rename_i waits
          exact .heard target memory post answer rfl (by rw [serving, waits]) (by rw [serving]) rfl
        · exact .same rfl
      | _ => exact .same (by simp only [Web.serverEvent, serving, Web.serverStep, Recovery.step])
  | elsewhere name bytes =>
    simp only [Web.serverEvent]
    split
    · exact .same rfl
    · exact .same rfl
  | _ => exact .same rfl

/-- The step lemma for setups. -/
theorem setups_step (state : State web) (event : Event Place web.platform.floats) (place : Place) :
    Went state event place ((web.step state event).2.setups place) := by
  cases event with
  | launch launcher secretsNonce sharesNonce =>
    simp only [Web.step]
    split
    · rename_i setup
      simp only [setups_goOn, setups_serve]
      split
      · rename_i same
        subst same
        exact .launched secretsNonce sharesNonce rfl setup rfl
      · exact .same rfl
    · exact .same rfl
  | ready other =>
    simp only [Web.step]
    split
    · rename_i memory setup running
      simp only [setups_goOn]
      split
      · rename_i same
        subst same
        exact .ready memory rfl setup running rfl
      · exact .same rfl
    · exact .same rfl
  | poll other arrives =>
    simp only [Web.step, setups_goOn]
    split
    · rename_i same
      subst same
      exact .polled arrives rfl rfl
    · exact .same rfl
  | publish publisher nonce =>
    simp only [Web.step]
    split
    · rename_i parcel left setup
      simp only [Web.publishNext]
      split
      · rename_i memory post waiting sent
        simp only [setups_goOn, setups_serve]
        split
        · rename_i same
          subst same
          exact .posted nonce parcel left post memory rfl setup sent waiting rfl
        · exact .same rfl
      · rename_i unrouted
        simp only [setups_goOn]
        split
        · rename_i same
          subst same
          exact .lost (by rw [setup]; simp) rfl (.unsent nonce parcel left rfl setup unrouted)
        · exact .same rfl
      · exact .same rfl
    · exact .same rfl
  | record other =>
    simp only [Web.step]
    split
    · rename_i setup
      simp only [setups_configure, setups_goOn]
      split
      · rename_i same
        subst same
        exact .recorded rfl setup rfl
      · exact .same rfl
    · exact .same rfl
  | quit other =>
    simp only [Web.step, setups_goOn]
    split
    · rename_i same
      subst same
      unfold Web.quitted
      split
      · rename_i setup
        exact .same setup.symm
      · rename_i unrecorded
        exact .lost unrecorded rfl (.quitted rfl)
    · exact .same rfl
  | server target happening => exact setups_serverEvent state target happening place
  | boot other uuid4 =>
    simp only [Web.step]
    split
    · exact .same rfl
    · exact .same rfl
  | nextRound other shuffle =>
    simp only [Web.step]
    split
    · exact .same rfl
    · exact .same rfl
  | ask other outage =>
    simp only [Web.step]
    split
    · split
      · exact .same rfl
      · exact .same rfl
    · exact .same rfl
  | start other secretsNonce sharesNonce =>
    simp only [Web.step]
    split
    · split
      · split
        · exact .same rfl
        · exact .same rfl
      · exact .same rfl
    · exact .same rfl
  | stop other => exact .same rfl

/-- `config.ini` changes when a setup records its KEY1, and then only. -/
theorem configs_step (state : State web) (event : Event Place web.platform.floats) (place : Place) :
    (web.step state event).2.configs place = state.configs place ∧ event ≠ .record place ∨
    (web.step state event).2.configs place = state.configs place ∧ (web.step state event).2.setups = state.setups ∨
    state.setups place = .publishing [] false ∧ (web.step state event).2.setups place = .recorded ∧
      (web.step state event).2.configs place = setKey1Metadata (state.configs place) (web.member place).uuid4
        (web.member place).publication.treshold (web.member place).publication.shares := by
  cases event with
  | record other =>
    simp only [Web.step]
    split
    · rename_i setup
      by_cases same : place = other
      · subst same
        exact .inr (.inr ⟨setup, by simp, by simp⟩)
      · refine .inl ⟨by simp [same], fun isRecord => same ?_⟩
        cases isRecord
        rfl
    · exact .inr (.inl ⟨rfl, rfl⟩)
  | launch other secretsNonce sharesNonce =>
    left
    simp only [Web.step]
    split
    · exact ⟨rfl, by simp⟩
    · exact ⟨rfl, by simp⟩
  | ready other =>
    left
    simp only [Web.step]
    split
    · exact ⟨rfl, by simp⟩
    · exact ⟨rfl, by simp⟩
  | publish other nonce =>
    left
    simp only [Web.step, Web.publishNext]
    split
    · split
      · exact ⟨rfl, by simp⟩
      · exact ⟨rfl, by simp⟩
      · exact ⟨rfl, by simp⟩
    · exact ⟨rfl, by simp⟩
  | boot other uuid4 =>
    left
    simp only [Web.step]
    split
    · exact ⟨rfl, by simp⟩
    · exact ⟨rfl, by simp⟩
  | nextRound other shuffle =>
    left
    simp only [Web.step]
    split
    · exact ⟨rfl, by simp⟩
    · exact ⟨rfl, by simp⟩
  | ask other outage =>
    left
    simp only [Web.step]
    split
    · split
      · exact ⟨rfl, by simp⟩
      · exact ⟨rfl, by simp⟩
    · exact ⟨rfl, by simp⟩
  | start other secretsNonce sharesNonce =>
    left
    simp only [Web.step]
    split
    · split
      · split
        · exact ⟨rfl, by simp⟩
        · exact ⟨rfl, by simp⟩
      · exact ⟨rfl, by simp⟩
    · exact ⟨rfl, by simp⟩
  | server other happening =>
    left
    refine ⟨?_, by simp⟩
    cases happening with
    | answer =>
      simp only [Web.step, Web.serverEvent]
      split
      · simp only [configs_inform, configs_serve]
      · rfl
    | kill => simp only [Web.step, Web.serverEvent, configs_inform, configs_serve]
    | elsewhere name bytes =>
      simp only [Web.step, Web.serverEvent]
      split
      · rfl
      · rfl
    | _ => rfl
  | _ => exact .inl ⟨rfl, by simp⟩

/-! ## An initiator -/

/-- What may become of an initiator. -/
inductive Collects (state : State web) (event : Event Place web.platform.floats) (place : Place) :
    Option Collecting → Prop
  | same : Collects state event place (state.initiators place)
  | gone (why : event = .stop place ∨ ∃ secretsNonce sharesNonce collecting, event = .start place secretsNonce sharesNonce ∧
      state.initiators place = some collecting ∧ collecting.decoder.readyToDecode = true) : Collects state event place none
  | entered (uuid4 : String) (isBoot : event = .boot place uuid4) (idle : state.initiators place = none) :
      Collects state event place (web.entered (state.configs place) place uuid4)
  | begun (shuffle : Shuffle) (collecting : Collecting) (isRound : event = .nextRound place shuffle)
      (initiator : state.initiators place = some collecting) :
      Collects state event place (collecting.nextRound shuffle).toOption
  | asked (outage : Option Outage) (collecting : Collecting) (peer : Json) (rest : List Json)
      (isAsk : event = .ask place outage) (initiator : state.initiators place = some collecting)
      (next : collecting.left = peer :: rest) :
      Collects state event place (collecting.heard web.platform.formatted
        (web.answerOf state place collecting.loop.uuid outage peer)).toOption

/-- A server does nothing to an initiator. -/
theorem initiators_server (state : State web) (place : Place) (happening : Recovery.Event web.platform.floats) :
    (web.step state (.server place happening)).2.initiators = state.initiators := by
  cases happening with
  | answer =>
    simp only [Web.step, Web.serverEvent]
    split
    · simp only [initiators_inform, initiators_serve]
    · rfl
  | kill => simp only [Web.step, Web.serverEvent, initiators_inform, initiators_serve]
  | elsewhere name bytes =>
    simp only [Web.step, Web.serverEvent]
    split
    · rfl
    · rfl
  | _ => rfl

/-- The step lemma for initiators. -/
theorem initiators_step (state : State web) (event : Event Place web.platform.floats) (place : Place) :
    Collects state event place ((web.step state event).2.initiators place) := by
  cases event with
  | boot other uuid4 =>
    simp only [Web.step]
    split
    · rename_i idle
      simp only [initiators_initiate]
      split
      · rename_i same
        subst same
        exact .entered uuid4 rfl idle
      · exact .same
    · exact .same
  | nextRound other shuffle =>
    simp only [Web.step]
    split
    · rename_i collecting initiator
      simp only [initiators_initiate]
      split
      · rename_i same
        subst same
        exact .begun shuffle collecting rfl initiator
      · exact .same
    · exact .same
  | ask other outage =>
    simp only [Web.step]
    split
    · rename_i collecting initiator
      split
      · rename_i peer rest next
        simp only [initiators_initiate]
        split
        · rename_i same
          subst same
          exact .asked outage collecting peer rest rfl initiator next
        · exact .same
      · exact .same
    · exact .same
  | start other secretsNonce sharesNonce =>
    simp only [Web.step]
    split
    · rename_i collecting initiator
      split
      · rename_i ready
        split
        · simp only [initiators_initiate, initiators_serve]
          split
          · rename_i same
            subst same
            exact .gone (.inr ⟨secretsNonce, sharesNonce, collecting, rfl, initiator, ready⟩)
          · exact .same
        · simp only [initiators_initiate]
          split
          · rename_i same
            subst same
            exact .gone (.inr ⟨secretsNonce, sharesNonce, collecting, rfl, initiator, ready⟩)
          · exact .same
      · exact .same
    · exact .same
  | stop other =>
    simp only [Web.step, initiators_initiate]
    split
    · rename_i same
      subst same
      exact .gone (.inl rfl)
    · exact .same
  | launch other secretsNonce sharesNonce =>
    simp only [Web.step]
    split
    · exact .same
    · exact .same
  | ready other =>
    simp only [Web.step]
    split
    · exact .same
    · exact .same
  | publish other nonce =>
    simp only [Web.step, Web.publishNext]
    split
    · split
      · exact .same
      · exact .same
      · exact .same
    · exact .same
  | record other =>
    simp only [Web.step]
    split
    · exact .same
    · exact .same
  | server other happening =>
    rw [initiators_server]
    exact .same
  | poll other arrives => exact .same
  | quit other => exact .same

end Steps

end SecretWeb.Mesh
