import Mathlib.Tactic.Common

/-! # Runs of a machine that answers

A machine takes an input in a state, gives an output and goes to another state.  A run is
determined by the inputs; its transitions are kept as a list, so that a statement about
every step of a run is a statement about every member. -/

namespace SecretWeb.Machine

universe u v w

structure Transition (σ : Type u) (ι : Type v) (ο : Type w) where
  before : σ
  input : ι
  output : ο
  after : σ

section Runs

variable {σ : Type u} {ι : Type v} {ο : Type w} (step : σ → ι → ο × σ)

def run : σ → List ι → σ
  | state, [] => state
  | state, input :: rest => run (step state input).2 rest

def transitions : σ → List ι → List (Transition σ ι ο)
  | _, [] => []
  | state, input :: rest =>
    { before := state, input := input, output := (step state input).1, after := (step state input).2 } ::
      transitions (step state input).2 rest

variable {step}

theorem run_append (state : σ) (first second : List ι) :
    run step state (first ++ second) = run step (run step state first) second := by
  induction first generalizing state with
  | nil => rfl
  | cons input rest inductionHypothesis => exact inductionHypothesis (step state input).2

theorem transitions_append (state : σ) (first second : List ι) :
    transitions step state (first ++ second) =
      transitions step state first ++ transitions step (run step state first) second := by
  induction first generalizing state with
  | nil => rfl
  | cons input rest inductionHypothesis =>
    exact congrArg (List.cons _) (inductionHypothesis (step state input).2)

/-- A member of the list is a step of the machine. -/
theorem step_of_mem_transitions {state : σ} {inputs : List ι} {transition : Transition σ ι ο}
    (member : transition ∈ transitions step state inputs) :
    step transition.before transition.input = (transition.output, transition.after) := by
  induction inputs generalizing state with
  | nil => cases member
  | cons input rest inductionHypothesis =>
    rcases List.mem_cons.mp member with rfl | later
    · rfl
    · exact inductionHypothesis later

theorem input_of_mem_transitions {state : σ} {inputs : List ι} {transition : Transition σ ι ο}
    (member : transition ∈ transitions step state inputs) : transition.input ∈ inputs := by
  induction inputs generalizing state with
  | nil => cases member
  | cons input rest inductionHypothesis =>
    rcases List.mem_cons.mp member with rfl | later
    · exact List.mem_cons_self
    · exact List.mem_cons_of_mem _ (inductionHypothesis later)

/-- What follows a transition of a run is the run of the inputs that are left. -/
theorem transitions_split {state : σ} {inputs : List ι} {earlier later : List (Transition σ ι ο)}
    {transition : Transition σ ι ο} (shape : transitions step state inputs = earlier ++ transition :: later) :
    ∃ rest, later = transitions step transition.after rest ∧
      run step state inputs = run step transition.after rest := by
  induction inputs generalizing state earlier with
  | nil => cases earlier <;> cases shape
  | cons input rest inductionHypothesis =>
    cases earlier with
    | nil =>
      obtain ⟨rfl, rfl⟩ := List.cons.inj shape
      exact ⟨rest, rfl, rfl⟩
    | cons first others => exact inductionHypothesis (List.cons.inj shape).2

/-- The invariant rule with history: the invariant may speak about the transitions made so
far, and holds of those before a step and the state they have led to. -/
theorem invariant_of_history {Invariant : List (Transition σ ι ο) → σ → Prop}
    {Allowed : Transition σ ι ο → Prop} {history : List (Transition σ ι ο)} {state : σ} {inputs : List ι}
    (kept : ∀ history transition, Allowed transition → Invariant history transition.before →
      step transition.before transition.input = (transition.output, transition.after) →
      Invariant (history ++ [transition]) transition.after)
    (start : Invariant history state)
    (allowed : ∀ transition ∈ transitions step state inputs, Allowed transition) :
    (∀ earlier transition later, transitions step state inputs = earlier ++ transition :: later →
      Invariant (history ++ earlier) transition.before) ∧
    Invariant (history ++ transitions step state inputs) (run step state inputs) := by
  induction inputs generalizing history state with
  | nil =>
    refine ⟨fun earlier transition later shape => ?_, by rwa [transitions, List.append_nil]⟩
    cases earlier <;> cases shape
  | cons input rest inductionHypothesis =>
    have next := kept history _ (allowed _ List.mem_cons_self) start rfl
    obtain ⟨within, last⟩ := inductionHypothesis next
      fun transition member => allowed transition (List.mem_cons_of_mem _ member)
    rw [List.append_assoc] at last
    refine ⟨fun earlier transition later shape => ?_, last⟩
    cases earlier with
    | nil =>
      obtain ⟨rfl, _⟩ := List.cons.inj shape
      rwa [List.append_nil]
    | cons first others =>
      obtain ⟨rfl, tail⟩ := List.cons.inj shape
      have holds := within others transition later tail
      rwa [List.append_assoc] at holds

/-- The invariant rule: what holds at the start and is kept by every step that the run is
allowed to make holds before and after every step, and at the end. -/
theorem invariant_of_steps {Invariant : σ → Prop} {Allowed : Transition σ ι ο → Prop} {state : σ}
    {inputs : List ι}
    (kept : ∀ transition, Allowed transition → Invariant transition.before →
      step transition.before transition.input = (transition.output, transition.after) →
      Invariant transition.after)
    (start : Invariant state) (allowed : ∀ transition ∈ transitions step state inputs, Allowed transition) :
    (∀ transition ∈ transitions step state inputs,
      Invariant transition.before ∧ Invariant transition.after) ∧ Invariant (run step state inputs) := by
  have forgetful := @invariant_of_history _ _ _ step (fun _ state => Invariant state) Allowed [] state inputs
    (fun _ => kept) start allowed
  refine ⟨fun transition member => ?_, forgetful.2⟩
  obtain ⟨earlier, later, shape⟩ := List.append_of_mem member
  have before := forgetful.1 earlier transition later shape
  exact ⟨before, kept transition (allowed transition member) before (step_of_mem_transitions member)⟩

/-- The rank rule: where no input lets the rank rise and the counted ones let it fall, so many
of them bring it down to zero. -/
theorem rank_run_le {rank : σ → Nat} {counted : ι → Bool}
    (falls : ∀ state input, counted input = true → rank (step state input).2 ≤ rank state - 1)
    (stays : ∀ state input, rank (step state input).2 ≤ rank state) (state : σ) (inputs : List ι) :
    rank (run step state inputs) ≤ rank state - inputs.countP counted := by
  induction inputs generalizing state with
  | nil => exact Nat.le_refl _
  | cons input rest inductionHypothesis =>
    have after := inductionHypothesis (step state input).2
    rw [run, List.countP_cons]
    by_cases counts : counted input = true
    · have fallen := falls state input counts
      rw [if_pos counts]
      omega
    · have kept := stays state input
      rw [if_neg counts]
      omega

end Runs

end SecretWeb.Machine
