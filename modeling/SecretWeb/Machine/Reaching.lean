import Mathlib.Logic.Relation
import SecretWeb.Machine.Runs

/-! # Where a machine can be brought

What can be reached with inputs of one kind, and two rules for showing that something can: a
rank that can be lowered until it is, and goals that are reached one after the other and stay. -/

namespace SecretWeb.Machine

universe u v w x

section Reaching

variable {σ : Type u} {ι : Type v} {ο : Type w}

/-- The machine gets from one state to the other with inputs that are allowed. -/
abbrev Reaches (step : σ → ι → ο × σ) (Allowed : ι → Prop) : σ → σ → Prop :=
  Relation.ReflTransGen fun before after => ∃ input, Allowed input ∧ (step before input).2 = after

variable {step : σ → ι → ο × σ} {Allowed : ι → Prop} {before after : σ}

theorem reaches_iff : Reaches step Allowed before after ↔
    ∃ inputs, (∀ input ∈ inputs, Allowed input) ∧ run step before inputs = after := by
  constructor
  · intro reaches
    induction reaches using Relation.ReflTransGen.head_induction_on with
    | refl => exact ⟨[], by simp, rfl⟩
    | head first _ inductionHypothesis =>
      obtain ⟨input, allowed, rfl⟩ := first
      obtain ⟨inputs, allAllowed, there⟩ := inductionHypothesis
      exact ⟨input :: inputs, by simpa using ⟨allowed, allAllowed⟩, there⟩
  · rintro ⟨inputs, allowed, rfl⟩
    induction inputs generalizing before with
    | nil => exact .refl
    | cons input rest inductionHypothesis =>
      simp only [List.mem_cons, forall_eq_or_imp] at allowed
      exact .head ⟨input, allowed.1, rfl⟩ (inductionHypothesis allowed.2)

theorem reaches_step (state : σ) {input : ι} (allowed : Allowed input) :
    Reaches step Allowed state (step state input).2 :=
  .single ⟨input, allowed, rfl⟩

theorem Reaches.wider {Wider : ι → Prop} (reaches : Reaches step Allowed before after)
    (wider : ∀ input, Allowed input → Wider input) : Reaches step Wider before after := by
  refine Relation.ReflTransGen.mono ?_ _ _ reaches
  rintro _ _ ⟨input, allowed, there⟩
  exact ⟨input, wider input allowed, there⟩

/-- What the allowed inputs keep is kept. -/
theorem Reaches.kept {Invariant : σ → Prop} (reaches : Reaches step Allowed before after)
    (kept : ∀ state input, Allowed input → Invariant state → Invariant (step state input).2)
    (start : Invariant before) : Invariant after := by
  induction reaches with
  | refl => exact start
  | tail _ last inductionHypothesis =>
    obtain ⟨input, allowed, rfl⟩ := last
    exact kept _ input allowed inductionHypothesis

section Rules

variable {Invariant : σ → Prop}
  (kept : ∀ state input, Allowed input → Invariant state → Invariant (step state input).2)
include kept

/-- The rank rule: as long as the goal is not reached, a lower rank is. -/
theorem reaches_of_rank {Goal : σ → Prop} (rank : σ → Nat)
    (progress : ∀ state, Invariant state → ¬Goal state → ∃ next, Reaches step Allowed state next ∧ rank next < rank state)
    (start : Invariant before) : ∃ after, Reaches step Allowed before after ∧ Goal after := by
  induction bound : rank before using Nat.strongRecOn generalizing before with
  | ind count inductionHypothesis =>
    by_cases reached : Goal before
    · exact ⟨before, .refl, reached⟩
    · obtain ⟨next, first, lower⟩ := progress before start reached
      obtain ⟨after, later, goal⟩ := inductionHypothesis _ (bound ▸ lower) (first.kept kept start) rfl
      exact ⟨after, first.trans later, goal⟩

/-- Goals that stay reached can be reached one after the other. -/
theorem reaches_each {γ : Type x} {Goal : γ → σ → Prop}
    (stays : ∀ goal state input, Allowed input → Invariant state → Goal goal state → Goal goal (step state input).2)
    {goals : List γ}
    (each : ∀ goal ∈ goals, ∀ state, Invariant state → ∃ after, Reaches step Allowed state after ∧ Goal goal after)
    (start : Invariant before) : ∃ after, Reaches step Allowed before after ∧ ∀ goal ∈ goals, Goal goal after := by
  induction goals generalizing before with
  | nil => exact ⟨before, .refl, by simp⟩
  | cons goal rest inductionHypothesis =>
    obtain ⟨middle, first, reached⟩ := each goal List.mem_cons_self before start
    have middleHolds := first.kept kept start
    obtain ⟨after, later, others⟩ :=
      inductionHypothesis (fun other member => each other (List.mem_cons_of_mem _ member)) middleHolds
    have both : Invariant after ∧ Goal goal after :=
      @Reaches.kept _ _ _ step Allowed _ _ (fun state => Invariant state ∧ Goal goal state) later
        (fun state input allowed holds =>
          ⟨kept state input allowed holds.1, stays goal state input allowed holds.1 holds.2⟩) ⟨middleHolds, reached⟩
    refine ⟨after, first.trans later, ?_⟩
    simp only [List.mem_cons, forall_eq_or_imp]
    exact ⟨both.2, others⟩

end Rules

end Reaching

end SecretWeb.Machine
