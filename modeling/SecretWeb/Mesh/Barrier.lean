import SecretWeb.Mesh.Safety

/-! # Nothing is published before everybody is up

Setup polls the other hosts until each of them has answered once, and only then deals.  So a
share of a KEY1 is nowhere before every host that it is dealt to has been seen. -/

namespace SecretWeb.Mesh

open SecretWeb.Data SecretWeb.Python SecretWeb.Python.JsonText SecretWeb.HostsData SecretWeb.Shamir SecretWeb.Storage
  SecretWeb.Client SecretWeb.Network SecretWeb.Setup SecretWeb.Initiator SecretWeb.Server SecretWeb.Server.Recovery

open SecretWeb.CryptoFile (Nonce)

open SecretWeb.Machine (Transition run transitions invariant_of_history input_of_mem_transitions)

section Barrier

variable {Place : Type} (web : Web Place)

abbrev History := List (Transition (State web) (Event Place web.platform.floats) Unit)

variable {web}

/-- The host's server has answered when the setup of the place polled it. -/
def Seen (history : History web) (place : Place) (host : Setup.Host) : Prop :=
  ∃ transition ∈ history, transition.input = .poll place true ∧
    (∃ remaining queue, transition.before.setups place = .polling remaining (host.name :: queue) ∧
      Dict.get remaining host.name = some host) ∧
    ∃ memory, (transition.before.servers (web.platform.place host)).host.process = .running memory

/-- Whoever is not left to be polled has been seen. -/
def Polls (history : History web) (place : Place) : Bootstrapping web.platform.floats → Prop
  | .polling remaining _ =>
    ∀ host ∈ (web.member place).others, Dict.get remaining host.name = some host ∨ Seen history place host
  | .publishing _ _ | .recorded => ∀ host ∈ (web.member place).others, Seen history place host
  | _ => True

/-- The store has no share that belongs to the KEY1 of the host. -/
def Web.Without (web : Web Place) (owner : Place) (store : Store) : Prop :=
  ∀ share text, Dict.get store.shares (web.member owner).uuid4 = some share → share.getItem "owner" = .ok (.str text) →
    web.platform.lower text ≠ web.platform.lower (web.member owner).ownName

/-- The request is not made in the name of the host. -/
def Web.Stranger (web : Web Place) (owner : Place) (post : Recovery.Post web.platform.floats) : Prop :=
  ∀ presented body, post = .share (web.member owner).uuid4 (some presented) body →
    web.platform.lower (hostnameFromCommonName presented) ≠ web.platform.lower (web.member owner).ownName

structure Behind (history : History web) (state : State web) : Prop where
  invariant : Invariant state
  polls : ∀ place, Polls history place (state.setups place)
  nowhere : ∀ place, (∀ host ∈ (web.member place).others, Seen history place host) ∨
    ∀ target, Guards state target (web.Without place)

theorem Seen.append {history : History web} {place : Place} {host : Setup.Host} (seen : Seen history place host)
    (transition : Transition (State web) (Event Place web.platform.floats) Unit) :
    Seen (history ++ [transition]) place host := by
  obtain ⟨earlier, member, answered⟩ := seen
  exact ⟨earlier, List.mem_append_left _ member, answered⟩

theorem Polls.append {history : History web} {place : Place} {setup : Bootstrapping web.platform.floats}
    (polls : Polls history place setup) (transition : Transition (State web) (Event Place web.platform.floats) Unit) :
    Polls (history ++ [transition]) place setup := by
  cases setup with
  | polling remaining queue => exact fun host other => (polls host other).imp_right (Seen.append · transition)
  | publishing left awaiting => exact fun host other => (polls host other).append transition
  | recorded => exact fun host other => (polls host other).append transition
  | _ => trivial

/-! ## The polls -/

theorem running_of_reachable {arrives : Bool} {serving : Serving Place web.platform.floats}
    (reached : isReachable (web.indexReply arrives serving) = true) :
    arrives = true ∧ ∃ memory, serving.host.process = .running memory := by
  unfold Web.indexReply at reached
  split at reached
  · rename_i memory running
    exact ⟨rfl, memory, running⟩
  · cases reached

/-- A poll takes a host off the list when its server answers. -/
theorem Polls.polled {history : History web} {state : State web} {place : Place} {arrives : Bool}
    (polls : Polls history place (state.setups place))
    {transition : Transition (State web) (Event Place web.platform.floats) Unit}
    (before : transition.before = state) (isPoll : transition.input = .poll place arrives) :
    Polls (history ++ [transition]) place (web.polled state place arrives (state.setups place)) := by
  cases setup : state.setups place with
  | polling remaining queue =>
    rw [setup] at polls
    cases queue with
    | nil =>
      simp only [Web.polled]
      split
      · rename_i nobody
        intro host other
        obtain there | seen := polls host other
        · rw [nobody] at there
          cases there
        · exact seen.append transition
      · exact Polls.append polls transition
    | cons name queue =>
      simp only [Web.polled]
      split
      · rename_i polledHost found
        split
        · rename_i reached
          intro host other
          by_cases same : host.name = name
          · -- it has just answered, or earlier
            obtain there | seen := polls host other
            · rw [same, found] at there
              cases there
              subst before
              obtain ⟨rfl, running⟩ := running_of_reachable reached
              exact .inr ⟨transition, List.mem_append_right _ List.mem_cons_self, isPoll,
                ⟨remaining, queue, by rw [setup, same], by rw [same, found]⟩, running⟩
            · exact .inr (seen.append transition)
          · obtain there | seen := polls host other
            · left
              rw [Dict.get_erase, if_neg same, there]
            · exact .inr (seen.append transition)
        · exact Polls.append polls transition
      · trivial
  | publishing left awaiting =>
    rw [setup] at polls
    exact Polls.append polls transition
  | recorded =>
    rw [setup] at polls
    exact Polls.append polls transition
  | _ => trivial

/-! ## The stores -/

theorem without_nil (owner : Place) : web.Without owner ⟨[], []⟩ := by
  intro share text found
  cases found

theorem Web.Without.applied {owner : Place} {store : Store} (without : web.Without owner store)
    {post : Recovery.Post web.platform.floats} (stranger : web.Stranger owner post) (hosts : Json) :
    web.Without owner (Recovery.applied web.platform.lower web.platform.intOf hosts store post) := by
  obtain unchanged | ⟨shareUuid, commonName, document, rfl, checked, _, written⟩ :=
    @applied_shares web.platform.lower web.platform.intOf hosts _ store post
  · intro share text found
    rw [unchanged] at found
    exact without share text found
  · intro share text found ownerRead
    rw [written, Dict.get_set] at found
    split at found
    · rename_i same
      cases found
      obtain ⟨_, _, _, presented, name, _, _, rfl, nameRead, matching⟩ := checkShare_eq_ok checked
      rw [nameRead] at ownerRead
      cases ownerRead
      rw [← matching]
      exact stranger presented (.ok document) (by rw [same])
    · exact without share text found ownerRead

theorem stranger_of_foreign {owner : Place} {post : Recovery.Post web.platform.floats} (foreign : web.Foreign post) :
    web.Stranger owner post :=
  fun presented body isShare => foreign owner presented body isShare

/-- Another setup does not post in the name of the host. -/
theorem stranger_of_other {owner publisher : Place} (different : publisher ≠ owner)
    {parcel : Parcel web.platform.floats} (sent : parcel ∈ (web.member publisher).parcels)
    {post : Recovery.Post web.platform.floats} (posted : (web.member publisher).post parcel = some post) :
    web.Stranger owner post := by
  intro presented body isShare
  rw [(web.member publisher).post_parcel sent] at posted
  cases posted
  injection isShare with _ name _
  cases name
  exact web.certificates owner publisher different.symm

/-! ## One step -/

variable [DecidableEq Place]

theorem Behind.polls_step {history : History web} {transition : Transition (State web) (Event Place web.platform.floats)
    Unit} (behind : Behind history transition.before)
    (stepped : web.step transition.before transition.input = (transition.output, transition.after)) (place : Place) :
    Polls (history ++ [transition]) place (transition.after.setups place) := by
  have polls := behind.polls place
  have went := setups_step transition.before transition.input place
  rw [stepped] at went
  cases went with
  | same unchanged =>
    rw [unchanged]
    exact polls.append transition
  | lost unrecorded ended =>
    rw [ended]
    trivial
  | launched secretsNonce sharesNonce isLaunch setup changed =>
    rw [changed]
    trivial
  | ready memory isReady setup running changed =>
    rw [changed]
    have apart := (web.member place).othersApart
    intro host other
    left
    rw [Dict.foldl_set_apart (web.member place).others Setup.Host.name (fun host => host) [] (by simpa using apart),
      List.nil_append]
    exact Dict.get_map_apart (fun host => host) apart other
  | polled arrives isPoll changed =>
    rw [changed]
    exact polls.polled rfl isPoll
  | posted nonce parcel left post memory isPublish setup sent waiting changed =>
    rw [setup] at polls
    rw [changed]
    exact Polls.append polls transition
  | heard target memory post answer isAnswer client answering changed =>
    rw [changed]
    obtain ⟨unchanged, _⟩ | ⟨parcel, left, setup, ended | ⟨_, going⟩⟩ :=
      heardAnswer_cases answer (transition.before.setups place)
    · rw [unchanged]
      exact polls.append transition
    · rw [ended]
      trivial
    · rw [setup] at polls
      rw [going]
      exact Polls.append polls transition
  | recorded isRecord setup changed =>
    rw [setup] at polls
    rw [changed]
    exact Polls.append polls transition

theorem Behind.nowhere_step {history : History web} {transition : Transition (State web)
    (Event Place web.platform.floats) Unit} (behind : Behind history transition.before)
    (fair : web.Fair transition.input)
    (stepped : web.step transition.before transition.input = (transition.output, transition.after)) (place : Place) :
    (∀ host ∈ (web.member place).others, Seen (history ++ [transition]) place host) ∨
      ∀ target, Guards transition.after target (web.Without place) := by
  obtain seen | nowhere := behind.nowhere place
  · exact .inl fun host other => (seen host other).append transition
  · by_cases published : ∀ host ∈ (web.member place).others, Seen history place host
    · exact .inl fun host other => (published host other).append transition
    · right
      intro target
      have guards := behind.invariant.guards_step transition.input target (nowhere target) fun post arrives _ without => by
        refine without.applied ?_ _
        obtain ⟨nonce, isPost⟩ | ⟨publisher, nonce, parcel, left, isPublish, setup, there, sent⟩ := arrives
        · rw [isPost] at fair
          exact stranger_of_foreign fair
        · refine stranger_of_other ?_ (behind.invariant.parcels_sent setup parcel List.mem_cons_self) sent
          rintro rfl
          have polls := behind.polls publisher
          rw [setup] at polls
          exact published polls
      rw [stepped] at guards
      exact guards

theorem Behind.step {history : History web} {transition : Transition (State web) (Event Place web.platform.floats) Unit}
    (behind : Behind history transition.before) (fair : web.Fair transition.input)
    (stepped : web.step transition.before transition.input = (transition.output, transition.after)) :
    Behind (history ++ [transition]) transition.after where
  invariant := by
    have invariant := behind.invariant.step fair
    rw [stepped] at invariant
    exact invariant
  polls := behind.polls_step stepped
  nowhere := behind.nowhere_step fair stepped

omit [DecidableEq Place] in
theorem behind_initial : Behind [] web.initial where
  invariant := invariant_initial
  polls := fun _ => trivial
  nowhere := fun place => .inr fun target => guards_initial target (without_nil place)

/-- In every run, before a host publishes, has recorded its KEY1, or has a share of it on any
server, be it on disk, in memory or on the way, every host that it deals to has been up when it
was polled. -/
theorem published_behind_barrier (web : Web Place) (events : List (Event Place web.platform.floats))
    (fair : ∀ event ∈ events, web.Fair event) (place : Place)
    (published : let state := run web.step web.initial events
      (∃ left awaiting, state.setups place = .publishing left awaiting) ∨ state.setups place = .recorded ∨
      ∃ target, ¬Guards state target (web.Without place)) :
    ∀ host ∈ (web.member place).others, Seen (transitions web.step web.initial events) place host := by
  have behind : Behind ([] ++ transitions web.step web.initial events) (run web.step web.initial events) :=
    (@invariant_of_history _ _ _ web.step Behind (fun transition => web.Fair transition.input) [] web.initial events
      (fun history transition fairTransition before stepped => before.step fairTransition stepped) behind_initial
      fun transition member => fair _ (input_of_mem_transitions member)).2
  rw [List.nil_append] at behind
  have polls := behind.polls place
  obtain ⟨left, awaiting, setup⟩ | recorded | ⟨target, somewhere⟩ := published
  · rw [setup] at polls
    exact polls
  · rw [recorded] at polls
    exact polls
  · obtain seen | nowhere := behind.nowhere place
    · exact seen
    · exact absurd (nowhere target) somewhere

end Barrier

/-- The second and the third host have both been up when the first one has recorded its KEY1. -/
theorem published_behind_barrier_trio :
    Seen (transitions trioWeb.step trioWeb.initial trioRun) 0 ⟨"host2", "10.0.0.2", [], "server"⟩ ∧
    Seen (transitions trioWeb.step trioWeb.initial trioRun) 0 ⟨"host3", "10.0.0.3", [], "server"⟩ := by
  have seen := published_behind_barrier trioWeb trioRun fair_trioRun 0 (.inr (.inl recorded_trioRun))
  exact ⟨seen _ (.head _), seen _ (.tail _ (.head _))⟩

end SecretWeb.Mesh
