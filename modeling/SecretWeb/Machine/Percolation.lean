import Mathlib.Data.Finset.Card
import Mathlib.Data.Fintype.Card
import Mathlib.Tactic.Common

/-! # Percolation

A site is live, or comes to life when so many of its neighbours are that have been heard
already, or have come to life themselves. -/

namespace SecretWeb.Machine

universe u

section Percolation

variable {α : Type u}

inductive Percolates (neighbours : α → Finset α) (treshold : α → Nat) (heard : α → Set α) (live : Set α) : α → Prop
  | live {site : α} (isLive : site ∈ live) : Percolates neighbours treshold heard live site
  | helped {site : α} (helpers : Finset α) (near : helpers ⊆ neighbours site)
      (enough : treshold site ≤ helpers.card)
      (help : ∀ helper ∈ helpers, helper ∉ heard site → Percolates neighbours treshold heard live helper) :
      Percolates neighbours treshold heard live site

variable {neighbours : α → Finset α} {treshold : α → Nat} {heard : α → Set α} {live : Set α}

/-- The sites that come to life are the least set that is closed under the rule. -/
theorem Percolates.least {closed : α → Prop} (start : ∀ site ∈ live, closed site)
    (rule : ∀ (site : α) (helpers : Finset α), helpers ⊆ neighbours site → treshold site ≤ helpers.card →
      (∀ helper ∈ helpers, helper ∉ heard site → closed helper) → closed site)
    {site : α} (percolates : Percolates neighbours treshold heard live site) : closed site := by
  induction percolates with
  | live isLive => exact start _ isLive
  | helped helpers near enough _ inductionHypothesis => exact rule _ helpers near enough inductionHypothesis

/-- Nothing comes to life where everywhere too few neighbours are live. -/
theorem percolates_iff_live (few : ∀ site ∉ live, ∀ helpers ⊆ neighbours site,
      (∀ helper ∈ helpers, helper ∉ heard site → helper ∈ live) → helpers.card < treshold site) (site : α) :
    Percolates neighbours treshold heard live site ↔ site ∈ live := by
  refine ⟨Percolates.least (fun _ isLive => isLive) fun site helpers near enough alive => ?_, .live⟩
  by_contra dead
  have short := few site dead helpers near alive
  omega

section Complete

variable [Fintype α] [DecidableEq α] {alive : Finset α} {count : Nat}

/-- Among neighbours of all the others nothing comes to life, or everything does. -/
theorem percolates_complete_of_few (few : alive.card < count) (site : α) :
    Percolates (fun site => Finset.univ.erase site) (fun _ => count) (fun _ => ∅) (alive : Set α) site ↔
      site ∈ alive := by
  have stuck := @percolates_iff_live α (fun site => Finset.univ.erase site) (fun _ => count) (fun _ => ∅) alive
    (fun _ _ helpers _ live => by
      have inside : helpers ⊆ alive := fun helper member => live helper member (Set.notMem_empty helper)
      have smaller := Finset.card_le_card inside
      omega) site
  simpa using stuck

theorem percolates_complete_of_many (many : count ≤ alive.card) (site : α) :
    Percolates (fun site => Finset.univ.erase site) (fun _ => count) (fun _ => ∅) (alive : Set α) site := by
  by_cases isLive : site ∈ alive
  · exact .live isLive
  · refine .helped alive (fun helper member => ?_) many fun helper member _ => .live member
    refine Finset.mem_erase.mpr ⟨?_, Finset.mem_univ helper⟩
    rintro rfl
    exact isLive member

theorem percolates_complete_iff :
    (∀ site, Percolates (fun site => Finset.univ.erase site) (fun _ => count) (fun _ => ∅) (alive : Set α) site) ↔
      (∀ site, site ∈ alive) ∨ count ≤ alive.card := by
  constructor
  · intro all
    by_cases many : count ≤ alive.card
    · exact .inr many
    · exact .inl fun site => (percolates_complete_of_few (by omega) site).mp (all site)
  · rintro (everybody | many)
    · exact fun site => .live (everybody site)
    · exact percolates_complete_of_many many

end Complete

end Percolation

end SecretWeb.Machine
