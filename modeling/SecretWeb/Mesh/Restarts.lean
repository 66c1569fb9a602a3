import SecretWeb.Mesh.Comeback

/-! # Restarting the hosts

One at a time they all come back.  When too many have gone down at once, none of them does. -/

namespace SecretWeb.Mesh

open SecretWeb.Data SecretWeb.Python SecretWeb.Python.JsonText SecretWeb.HostsData SecretWeb.Shamir SecretWeb.Storage
  SecretWeb.Client SecretWeb.Network SecretWeb.Setup SecretWeb.Initiator SecretWeb.Server SecretWeb.Server.Recovery

open SecretWeb.Machine (Percolates Reaches Transition reaches_iff reaches_step reaches_each run run_append transitions
  transitions_append invariant_of_steps input_of_mem_transitions step_of_mem_transitions percolates_complete_of_few
  percolates_complete_iff)

section Restarts

variable {Place : Type} [DecidableEq Place] {web : Web Place}

/-- What percolates is up again at the same time. -/
theorem Invariant.all_come_back {origin : State web} (invariant : Invariant origin) (places : List Place)
    (recoverable : ∀ place ∈ places, Recoverable origin place) :
    ∃ after, Reaches web.step Quiet origin after ∧ ∀ place ∈ places, Ready after place := by
  have ups : ∃ after, Reaches web.step Quiet origin after ∧ ∀ place ∈ places, Up after place := by
    refine @reaches_each _ _ _ web.step Quiet origin (fun state => Reaches web.step Quiet origin state)
      (fun state event quiet before => before.tail ⟨event, quiet, rfl⟩) _
      (fun place (state : State web) => Up state place)
      (fun place state event quiet _ up => up_quiet (reaches_step state quiet) up) _
      (fun place member state before => (recoverable place member).comesBack invariant before) .refl
  obtain ⟨middle, first, up⟩ := ups
  obtain ⟨after, finished, ready⟩ := (invariant.quiet first).all_settle places
  exact ⟨after, first.trans (finished.wider fun _ => quiet_of_finishing),
    fun place member => ready place member (up place member)⟩

/-! ## All or nothing -/

/-- A network in which every host lists all the others, after an outage that has left nothing
but servers: they can all be brought into service again if and only if none has gone down or a
majority of the others of a host is still up.  With fewer, no server that is down ever comes up
again by fair steps. -/
theorem all_or_nothing [Fintype Place] (web : Web Place) (events : List (Event Place web.platform.floats))
    (fair : ∀ event ∈ events, web.Fair event)
    (recorded : ∀ place, (run web.step web.initial events).setups place = .recorded)
    (nobody : ∀ place, (run web.step web.initial events).initiators place = none)
    (everyone : ∀ place, (web.member place).neighbours = Finset.univ.erase place) (alive : Finset Place)
    (isAlive : ∀ place, place ∈ alive ↔ Up (run web.step web.initial events) place) :
    ((∃ later, (∀ event ∈ later, web.Fair event) ∧
        ∀ place, Ready (run web.step web.initial (events ++ later)) place) ↔
      (∀ place, place ∈ alive) ∨ (Fintype.card Place - 1) / 2 + 1 ≤ alive.card) ∧
    (alive.card < (Fintype.card Place - 1) / 2 + 1 → ∀ later, (∀ event ∈ later, web.Fair event) → ∀ place,
      Ready (run web.step web.initial (events ++ later)) place → place ∈ alive) := by
  have invariant : Invariant (run web.step web.initial events) := invariant_initial.run fair
  have ended : Ended (run web.step web.initial events) := fun place => .inl (recorded place)
  have uniform : Recoverable (run web.step web.initial events) =
      Percolates (fun place => Finset.univ.erase place) (fun _ => (Fintype.card Place - 1) / 2 + 1) (fun _ => ∅)
        (alive : Set Place) := by
    have near : neighbours (run web.step web.initial events) = fun place => Finset.univ.erase place := by
      funext place
      rw [neighbours, recorded place, everyone place]
    have treshold : web.treshold = fun _ => (Fintype.card Place - 1) / 2 + 1 := by
      funext place
      have count := (web.member place).card_neighbours
      rw [everyone place, Finset.card_erase_of_mem (Finset.mem_univ place), Finset.card_univ] at count
      rw [Web.treshold, ← count]
    have unheard : heard (run web.step web.initial events) = fun _ => ∅ := by
      funext place
      exact heard_eq_empty (nobody place)
    have live : {place | Up (run web.step web.initial events) place} = (alive : Set Place) := by
      ext place
      exact (isAlive place).symm
    rw [Recoverable, near, treshold, unheard, live]
  refine ⟨?_, fun few later laterFair place ready => ?_⟩
  · rw [← percolates_complete_iff, ← uniform]
    constructor
    · rintro ⟨later, laterFair, ready⟩ place
      exact (comes_back_iff web events fair ended place).mp ⟨later, laterFair, ready place⟩
    · intro recoverable
      obtain ⟨after, reaches, ready⟩ := invariant.all_come_back Finset.univ.toList fun place _ => recoverable place
      obtain ⟨later, quiet, reached⟩ := reaches_iff.mp reaches
      refine ⟨later, fun event member => fair_of_quiet (quiet event member), fun place => ?_⟩
      rw [run_append, reached]
      exact ready place (by simp)
  · have recoverable := (comes_back_iff web events fair ended place).mp ⟨later, laterFair, ready⟩
    rw [uniform] at recoverable
    exact (percolates_complete_of_few few place).mp recoverable

end Restarts

/-- Of three servers two have been killed, and the first one does not come back. -/
theorem all_or_nothing_trio : ¬∃ later, (∀ event ∈ later, trioWeb.Fair event) ∧
    Ready (run trioWeb.step trioWeb.initial (trioKills [0, 1] ++ later)) 0 := by
  have isAlive : ∀ place, place ∈ ({2} : Finset (Fin 3)) ↔
      Up (run trioWeb.step trioWeb.initial (trioKills [0, 1])) place := by
    intro place
    rw [up_trioKills [0, 1] place]
    revert place
    decide
  have alone := (all_or_nothing trioWeb (trioKills [0, 1]) (fair_trioKills [0, 1]) (recorded_trioKills [0, 1])
    (nobody_trioKills [0, 1]) (by decide) {2} isAlive).2 (by decide)
  rintro ⟨later, fair, ready⟩
  exact absurd (alone later fair 0 ready) (by decide)

section Restarts

variable {Place : Type} [DecidableEq Place] {web : Web Place}

/-! ## One at a time -/

/-- The server that is killed in this step. -/
def Event.killed {floats : FloatText} : Event Place floats → Option Place
  | .server place .kill => some place
  | _ => none

omit [DecidableEq Place] in
theorem killed_of_quiet {floats : FloatText} {event : Event Place floats} (quiet : Quiet event) :
    event.killed = none := by
  cases event with
  | server place happening =>
    cases happening with
    | kill => cases quiet
    | _ => rfl
  | _ => rfl

/-- A server that is killed while all of them wait for requests comes back. -/
theorem Invariant.restarts [Fintype Place] {state : State web} (invariant : Invariant state)
    (recorded : ∀ place, state.setups place = .recorded) (ready : ∀ place, Ready state place) {place : Place}
    (apart : place ∉ (web.member place).neighbours) :
    ∃ later, (∀ event ∈ later, web.Fair event) ∧ later.filterMap Event.killed = [place] ∧
      (∀ other, Ready (Machine.run web.step state later) other) ∧
      ∀ transition ∈ transitions web.step state later,
        (∀ dying, transition.input.killed = some dying → ∀ other, Ready transition.before other) ∧
        ∀ other, other ≠ place → Up transition.after other := by
  have up : ∀ other, Up state other := fun other => (ready other).up
  have killedInvariant := @Invariant.step _ _ _ state invariant (.server place .kill) trivial
  have killed : ∀ other, other ≠ place → Up (web.step state (.server place .kill)).2 other := by
    intro other different
    refine up_stays (up other) ?_
    rintro ⟨⟩
    exact different rfl
  obtain ⟨after, reaches, back⟩ := killedInvariant.all_come_back Finset.univ.toList fun other _ =>
    recoverable_of_kill recorded up apart other
  obtain ⟨inputs, quiet, rfl⟩ := reaches_iff.mp reaches
  refine ⟨.server place .kill :: inputs, ?_, ?_, fun other => back other (by simp), ?_⟩
  · intro event member
    cases List.mem_cons.mp member with
    | inl first =>
      subst first
      trivial
    | inr later => exact fair_of_quiet (quiet event later)
  · have none : inputs.filterMap Event.killed = [] :=
      List.filterMap_eq_nil_iff.mpr fun event member => killed_of_quiet (quiet event member)
    show place :: inputs.filterMap Event.killed = [place]
    rw [none]
  · intro transition member
    cases List.mem_cons.mp member with
    | inl first =>
      subst first
      exact ⟨fun _ _ => ready, killed⟩
    | inr later =>
      have kept := @invariant_of_steps _ _ _ web.step (fun state => ∀ other, other ≠ place → Up state other)
        (fun transition => Quiet transition.input) _ inputs (fun transition isQuiet before stepped other different => by
          have stays := up_quiet (reaches_step transition.before isQuiet) (before other different)
          rw [stepped] at stays
          exact stays) killed fun transition inside => quiet _ (input_of_mem_transitions inside)
      refine ⟨fun dying isKill => ?_, (kept.1 transition later).2⟩
      cases isKill.symm.trans (killed_of_quiet (quiet _ (input_of_mem_transitions later)))

/-- Once all the hosts have recorded their KEY1 and all the servers wait for requests, they can
be killed in any order and as often as one likes, all of them waiting for requests again before
the next is killed, so that never two are down. -/
theorem handoff_one_at_a_time [Fintype Place] (web : Web Place) (events : List (Event Place web.platform.floats))
    (fair : ∀ event ∈ events, web.Fair event)
    (recorded : ∀ place, (run web.step web.initial events).setups place = .recorded)
    (ready : ∀ place, Ready (run web.step web.initial events) place)
    (apart : ∀ place, place ∉ (web.member place).neighbours) (order : List Place) :
    ∃ later, (∀ event ∈ later, web.Fair event) ∧ later.filterMap Event.killed = order ∧
      (∀ place, Ready (run web.step web.initial (events ++ later)) place) ∧
      ∀ transition ∈ transitions web.step (run web.step web.initial events) later,
        (∀ dying, transition.input.killed = some dying → ∀ place, Ready transition.before place) ∧
        ∀ first second, ¬Up transition.after first → ¬Up transition.after second → first = second := by
  induction order generalizing events with
  | nil => exact ⟨[], by simp, rfl, by simpa using ready, by simp [transitions]⟩
  | cons place rest inductionHypothesis =>
    have invariant : Invariant (run web.step web.initial events) := invariant_initial.run fair
    obtain ⟨first, firstFair, killed, back, others⟩ :=
      invariant.restarts recorded ready (apart place)
    rw [← run_append] at back
    have recordedStill : ∀ place, (run web.step web.initial (events ++ first)).setups place = .recorded := by
      intro other
      rw [run_append]
      exact recorded_run (recorded other) first
    obtain ⟨later, laterFair, allKilled, allBack, alone⟩ := inductionHypothesis (events ++ first)
      (fun event member => (List.mem_append.mp member).elim (fair event) (firstFair event)) recordedStill back
    refine ⟨first ++ later, fun event member => (List.mem_append.mp member).elim (firstFair event) (laterFair event), ?_,
      by rwa [← List.append_assoc], ?_⟩
    · rw [List.filterMap_append, killed, allKilled, List.singleton_append]
    · rw [transitions_append, ← run_append]
      intro transition member
      cases List.mem_append.mp member with
      | inl early =>
        obtain ⟨whole, stayUp⟩ := others transition early
        have atPlace : ∀ other, ¬Up transition.after other → other = place := by
          intro other down
          by_contra different
          exact down (stayUp other different)
        refine ⟨whole, fun left right leftDown rightDown => ?_⟩
        rw [atPlace left leftDown, atPlace right rightDown]
      | inr late => exact alone transition late

end Restarts

theorem handoff_one_at_a_time_trio : ∃ later, (∀ event ∈ later, trioWeb.Fair event) ∧
    later.filterMap Event.killed = [0, 1, 2, 0] ∧
    (∀ place, Ready (run trioWeb.step trioWeb.initial (trioAll ++ later)) place) ∧
    ∀ transition ∈ transitions trioWeb.step (run trioWeb.step trioWeb.initial trioAll) later,
      (∀ dying, transition.input.killed = some dying → ∀ place, Ready transition.before place) ∧
      ∀ first second, ¬Up transition.after first → ¬Up transition.after second → first = second := by
  refine handoff_one_at_a_time trioWeb trioAll fair_trioAll ?_ ?_ apart_trio [0, 1, 2, 0]
  · rw [run_trioAll]
    exact recorded_trioState
  · rw [run_trioAll]
    exact ready_trioState

end SecretWeb.Mesh
