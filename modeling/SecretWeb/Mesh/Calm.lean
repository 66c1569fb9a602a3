import SecretWeb.Mesh.Safety
import SecretWeb.Server.Settling

/-! # A network that is left alone

What the servers come to when they are only given the time to finish what they are at. -/

namespace SecretWeb.Mesh

open SecretWeb.Data SecretWeb.Python SecretWeb.Python.JsonText SecretWeb.HostsData SecretWeb.Shamir SecretWeb.Storage
  SecretWeb.Client SecretWeb.Network SecretWeb.Setup SecretWeb.Initiator SecretWeb.Server SecretWeb.Server.Recovery

open SecretWeb.CryptoFile (Nonce)

open SecretWeb.Machine (Reaches reaches_iff reaches_step reaches_each)

section Calm

variable {Place : Type} {web : Web Place}

/-- A server finishes what it is at. -/
def Finishing {floats : FloatText} : Event Place floats → Prop
  | .server _ (.work _) => True
  | .server _ .answer => True
  | _ => False

/-- A step of the hosts on their own: nothing is killed or stopped, nobody gives up, and nobody
else posts or writes. -/
def Quiet {floats : FloatText} : Event Place floats → Prop
  | .quit _ => False
  | .stop _ => False
  | .server _ .kill => False
  | .server _ (.post _ _) => False
  | .server _ (.elsewhere _ _) => False
  | _ => True

instance {floats : FloatText} : DecidablePred (@Quiet Place floats)
  | .quit _ => .isFalse id
  | .stop _ => .isFalse id
  | .server _ .kill => .isFalse id
  | .server _ (.post _ _) => .isFalse id
  | .server _ (.start _ _) => .isTrue trivial
  | .server _ (.work _) => .isTrue trivial
  | .server _ .answer => .isTrue trivial
  | .server _ (.elsewhere _ _) => .isFalse id
  | .launch _ _ _ => .isTrue trivial
  | .ready _ => .isTrue trivial
  | .poll _ _ => .isTrue trivial
  | .publish _ _ => .isTrue trivial
  | .record _ => .isTrue trivial
  | .boot _ _ => .isTrue trivial
  | .nextRound _ _ => .isTrue trivial
  | .ask _ _ => .isTrue trivial
  | .start _ _ _ => .isTrue trivial

/-- The server waits for requests. -/
def Ready (state : State web) (place : Place) : Prop :=
  ∃ memory, (state.servers place).host.process = .running memory

def Up (state : State web) (place : Place) : Prop := (state.servers place).host.process ≠ .down

theorem Ready.up {state : State web} {place : Place} (ready : Ready state place) : Up state place := by
  obtain ⟨memory, running⟩ := ready
  rw [Up, running]
  simp

theorem quiet_of_finishing {floats : FloatText} {event : Event Place floats} (finishing : Finishing event) :
    Quiet event := by
  cases event with
  | server place happening =>
    cases happening with
    | work writeStep => trivial
    | answer => trivial
    | _ => cases finishing
  | _ => cases finishing

theorem fair_of_quiet {event : Event Place web.platform.floats} (quiet : Quiet event) : web.Fair event := by
  cases event with
  | server place happening =>
    cases happening with
    | post post nonce => cases quiet
    | _ => trivial
  | _ => trivial

variable [DecidableEq Place]

theorem Invariant.quiet {state after : State web} (invariant : Invariant state)
    (reaches : Reaches web.step Quiet state after) : Invariant after :=
  reaches.kept (fun _ _ quiet before => before.step (fair_of_quiet quiet)) invariant

theorem recorded_reaches {state after : State web} {Allowed : Event Place web.platform.floats → Prop}
    (reaches : Reaches web.step Allowed state after) {place : Place} (recorded : state.setups place = .recorded) :
    after.setups place = .recorded :=
  @Reaches.kept _ _ _ web.step Allowed _ _ (fun state => state.setups place = .recorded) reaches
    (fun state event _ before => recorded_stays state event before) recorded

/-! ## Servers that stay as they are -/

/-- A server that is up is up until it is killed. -/
theorem up_stays {state : State web} {event : Event Place web.platform.floats} {place : Place} (up : Up state place)
    (notKill : event ≠ .server place .kill) : Up (web.step state event).2 place := by
  rw [Up]
  cases servers_step state event place with
  | same unchanged =>
    rw [unchanged]
    exact up
  | launched secretsNonce sharesNonce isLaunch setup down => exact absurd down up
  | booted secretsNonce sharesNonce collecting key1 isStart initiator ready decoded down => exact absurd down up
  | posted publisher nonce parcel left post memory isPublish setup target sent waiting changed =>
    rw [changed]
    exact up_step up (by simp)
  | happened happening client isServer unstarted told changed =>
    rw [changed]
    refine up_step up ?_
    rintro rfl
    exact notKill isServer

theorem up_quiet {state after : State web} (reaches : Reaches web.step Quiet state after) {place : Place}
    (up : Up state place) : Up after place := by
  refine @Reaches.kept _ _ _ web.step Quiet _ _ (fun state => Up state place) reaches
    (fun state event quiet before => ?_) up
  refine up_stays before ?_
  rintro rfl
  exact quiet

/-- Nothing is left to finish for a server that waits for requests. -/
theorem ready_stays {state : State web} {event : Event Place web.platform.floats} (finishing : Finishing event)
    {place : Place} (ready : Ready state place) : Ready (web.step state event).2 place := by
  obtain ⟨memory, running⟩ := ready
  refine ⟨memory, ?_⟩
  cases servers_step state event place with
  | same unchanged => rw [unchanged, running]
  | launched secretsNonce sharesNonce isLaunch => subst isLaunch; cases finishing
  | booted secretsNonce sharesNonce collecting key1 isStart => subst isStart; cases finishing
  | posted publisher nonce parcel left post other isPublish => subst isPublish; cases finishing
  | happened happening client isServer unstarted told changed =>
    subst isServer
    rw [changed]
    cases happening with
    | work writeStep => simp only [Web.serverStep, Recovery.step, running]
    | answer => simp only [Web.serverStep, Recovery.step, running]
    | _ => cases finishing

theorem down_finishing {state : State web} {event : Event Place web.platform.floats} (finishing : Finishing event)
    {place : Place} (down : (state.servers place).host.process = .down) :
    ((web.step state event).2.servers place).host.process = .down := by
  cases servers_step state event place with
  | same unchanged => rw [unchanged, down]
  | launched secretsNonce sharesNonce isLaunch => subst isLaunch; cases finishing
  | booted secretsNonce sharesNonce collecting key1 isStart => subst isStart; cases finishing
  | posted publisher nonce parcel left post other isPublish => subst isPublish; cases finishing
  | happened happening client isServer unstarted told changed =>
    rw [changed]
    exact down_stays down unstarted

/-! ## A server gets ready -/

/-- The works of a server on its own are steps of the network. -/
theorem reaches_works {state : State web} {place : Place} {after : Recovery.Host web.platform.floats}
    (reaches : Reaches (Recovery.step web.platform.cipher (state.servers place).key1 web.platform.lower
      web.platform.intOf (web.member place).hosts) Event.Work (state.servers place).host after) :
    Reaches web.step Finishing state (state.serve place { state.servers place with host := after }) := by
  obtain ⟨happenings, works, rfl⟩ := reaches_iff.mp reaches
  refine reaches_iff.mpr ⟨happenings.map (Event.server place), fun event member => ?_, run_works state place works⟩
  obtain ⟨happening, found, rfl⟩ := List.mem_map.mp member
  obtain ⟨writeStep, rfl⟩ := works happening found
  trivial

theorem Invariant.settles {state : State web} (invariant : Invariant state) {place : Place} (up : Up state place) :
    ∃ after, Reaches web.step Finishing state after ∧ Ready after place := by
  obtain ⟨store, flight, tracks, _⟩ := invariant.owned place
  rw [← invariant.keyed place up] at tracks
  obtain ⟨after, works, ⟨_, memory, running⟩ | ⟨memory, post, answer, _, answering⟩⟩ := tracks.settles up
  · exact ⟨_, reaches_works works, memory, by simpa using running⟩
  · refine ⟨_, (reaches_works works).tail ⟨.server place .answer, trivial, rfl⟩, memory, ?_⟩
    simp only [Web.step, Web.serverEvent, Web.serverStep, Recovery.step, servers_serve, ↓reduceIte, answering,
      servers_inform]

/-- All of them get ready, and none of them is left behind at a request. -/
theorem Invariant.all_settle {state : State web} (invariant : Invariant state) (places : List Place) :
    ∃ after, Reaches web.step Finishing state after ∧ ∀ place ∈ places, Up state place → Ready after place := by
  have settled : ∃ after, Reaches web.step Finishing state after ∧
      ∀ place ∈ places, Ready after place ∨ (after.servers place).host.process = .down := by
    refine @reaches_each _ _ _ web.step Finishing state Invariant (fun state event finishing before => ?_) _
      (fun place (state : State web) => Ready state place ∨ (state.servers place).host.process = .down)
      (fun place state event finishing _ settled => ?_) places (fun place _ state invariant => ?_) invariant
    · exact before.step (fair_of_quiet (quiet_of_finishing finishing))
    · exact settled.imp (ready_stays finishing) (down_finishing finishing)
    · by_cases down : (state.servers place).host.process = .down
      · exact ⟨state, .refl, .inr down⟩
      · obtain ⟨after, reaches, ready⟩ := invariant.settles down
        exact ⟨after, reaches, .inl ready⟩
  obtain ⟨after, reaches, settled⟩ := settled
  refine ⟨after, reaches, fun place member up => ?_⟩
  cases settled place member with
  | inl ready => exact ready
  | inr down => exact absurd down (up_quiet (reaches.wider fun _ => quiet_of_finishing) up)

end Calm

end SecretWeb.Mesh
