import SecretWeb.Client.Collect
import SecretWeb.Shamir.Admission
import Mathlib.Data.List.Perm.Subperm

/-! # What asking peers does to a decoder

One spec lemma for the ask of one peer, and from it, by induction, what a pass and a run
of rounds preserve.  An invariant speaks about the peers that have contributed and the
decoder; a condition on the steps is a condition on the decoder before an ask and on the
reply, and has to hold for the asks that are made, not for those that are prepared. -/

namespace SecretWeb.Client

open SecretWeb.Data SecretWeb.Python SecretWeb.Shamir

section Collecting

variable {formatted : Json → String} {uuid : Json}

/-! ## One ask -/

theorem askPeer_eq_ok {decoder after : ShamirSecret} {peer : Json} {reply : Reply} {accepted : Bool}
    (asked : askPeer formatted uuid decoder peer reply = .ok (accepted, after)) :
    (accepted = false ∧ after = decoder) ∨
      (accepted = true ∧ ∃ document record, retrieveShare (formatted uuid) reply = .ok document ∧
        Reads document record ∧ decoder.Admits record ∧ after = decoder.accepting record) := by
  unfold askPeer at asked
  obtain ⟨_, _, asked⟩ := bind_eq_ok.mp asked
  cases retrieved : retrieveShare (formatted uuid) reply with
  | error exception =>
    rw [retrieved] at asked
    dsimp only at asked
    split at asked
    · cases asked
      exact .inl ⟨rfl, rfl⟩
    · cases asked
  | ok document =>
    rw [retrieved] at asked
    dsimp only at asked
    split at asked
    · rename_i needed outcome populated
      cases asked
      obtain ⟨record, read, admitted, _, adopted⟩ :=
        (decoder.populateDecoder_eq_ok document needed after).mp populated
      exact .inr ⟨rfl, document, record, rfl, read, admitted, adopted⟩
    · rename_i message outcome populated
      cases asked
      exact .inl ⟨rfl, (ShamirSecret.populateDecoder_refused populated).2⟩
    · cases asked

/-! ## One pass -/

theorem passSteps_cons_ok {decoder after : ShamirSecret} {peer : Json} {reply : Reply} {accepted : Bool}
    (rest : List (Json × Reply)) (waiting : decoder.readyToDecode = false)
    (asked : askPeer formatted uuid decoder peer reply = .ok (accepted, after)) :
    passSteps formatted uuid decoder ((peer, reply) :: rest) =
      ⟨decoder, peer, reply⟩ :: passSteps formatted uuid after rest := by
  rw [passSteps_cons peer reply rest waiting, asked]

/-- Every ask that is made was prepared. -/
theorem mem_of_mem_passSteps {decoder : ShamirSecret} {asks : List (Json × Reply)} {ask : Ask}
    (member : ask ∈ passSteps formatted uuid decoder asks) : (ask.peer, ask.reply) ∈ asks := by
  induction asks generalizing decoder with
  | nil => cases member
  | cons first rest inductionHypothesis =>
    obtain ⟨peer, reply⟩ := first
    cases waiting : decoder.readyToDecode with
    | true =>
      rw [passSteps_of_ready waiting] at member
      cases member
    | false =>
      rw [passSteps_cons peer reply rest waiting] at member
      rcases List.mem_cons.mp member with rfl | later
      · exact List.mem_cons_self
      · cases outcome : askPeer formatted uuid decoder peer reply with
        | error exception =>
          rw [outcome] at later
          cases later
        | ok result =>
          rw [outcome] at later
          exact List.mem_cons_of_mem _ (inductionHypothesis later)

/-- What holds of the contributors and the decoder before a pass, and is kept by every
accepted share that meets the condition, holds after the pass. -/
theorem askPeers_preserves {Invariant : List Json → ShamirSecret → Prop} {Meets : Ask → Prop}
    (kept : ∀ contributors decoder peer reply document record, Invariant contributors decoder →
      Meets ⟨decoder, peer, reply⟩ → retrieveShare (formatted uuid) reply = .ok document →
      Reads document record → decoder.Admits record →
      Invariant (contributors ++ [peer]) (decoder.accepting record))
    {contributors more : List Json} {decoder last : ShamirSecret} {asks : List (Json × Reply)}
    (start : Invariant contributors decoder)
    (steps : ∀ ask ∈ passSteps formatted uuid decoder asks, Meets ask)
    (asked : askPeers formatted uuid decoder asks = .ok (last, more)) :
    Invariant (contributors ++ more) last ∧ more.Sublist (asks.map Prod.fst) := by
  induction asks generalizing contributors decoder more with
  | nil =>
    cases asked
    exact ⟨by rwa [List.append_nil], List.Sublist.refl _⟩
  | cons ask rest inductionHypothesis =>
    obtain ⟨peer, reply⟩ := ask
    rw [askPeers_cons] at asked
    cases waiting : decoder.readyToDecode with
    | true =>
      rw [waiting] at asked
      cases asked
      exact ⟨by rwa [List.append_nil], List.nil_sublist _⟩
    | false =>
      rw [waiting] at asked
      rw [passSteps_cons peer reply rest waiting] at steps
      obtain ⟨⟨accepted, after⟩, askedPeer, asked⟩ := bind_eq_ok.mp asked
      obtain ⟨⟨final, others⟩, askedRest, finished⟩ := bind_eq_ok.mp asked
      cases finished
      rw [askedPeer] at steps
      have later : ∀ ask ∈ passSteps formatted uuid after rest, Meets ask :=
        fun ask member => steps ask (List.mem_cons_of_mem _ member)
      rcases askPeer_eq_ok askedPeer with ⟨rfl, rfl⟩ | ⟨rfl, document, record, retrieved, read, admitted, rfl⟩
      · obtain ⟨holds, sublist⟩ := inductionHypothesis start later askedRest
        exact ⟨holds, sublist.cons _⟩
      · have next := kept contributors decoder peer reply document record start
          (steps _ List.mem_cons_self) retrieved read admitted
        obtain ⟨holds, sublist⟩ := inductionHypothesis next later askedRest
        rw [List.append_assoc] at holds
        exact ⟨holds, sublist.cons_cons _⟩

theorem askPeers_sublist {contributors : List Json} {decoder last : ShamirSecret}
    {asks : List (Json × Reply)}
    (asked : askPeers formatted uuid decoder asks = .ok (last, contributors)) :
    contributors.Sublist (asks.map Prod.fst) := by
  -- the trivial invariant: only the list of contributors is of interest
  refine (@askPeers_preserves formatted uuid (fun _ _ => True) (fun _ => True) ?_ [] contributors
    decoder last asks trivial ?_ asked).2
  · intros
    trivial
  · intros
    trivial

/-! ## Rounds -/

/-- The peer's name is not among those that have contributed. -/
def outstanding (contributed : List Json) (peer : Json) : Bool :=
  match peer.getItem "name" with
  | .ok name => !contributed.any name.sameMember
  | .error _ => false

theorem outstanding_of_named {contributed : List Json} {peer name : Json}
    (named : peer.getItem "name" = .ok name) :
    outstanding contributed peer = !contributed.any name.sameMember := by
  rw [outstanding, named]

theorem candidates_eq_ok {contributed peers asked : List Json}
    (computed : candidates contributed peers = .ok asked) :
    asked = peers.filter (outstanding contributed) ∧
      ∀ peer ∈ peers, ∃ name, peer.getItem "name" = .ok name ∧ name.hashable = true := by
  induction peers generalizing asked with
  | nil =>
    cases computed
    exact ⟨rfl, by simp⟩
  | cons peer rest inductionHypothesis =>
    rw [candidates] at computed
    obtain ⟨name, named, computed⟩ := bind_eq_ok.mp computed
    cases hashes : name.hashable with
    | false =>
      rw [hashes] at computed
      cases computed
    | true =>
      rw [hashes] at computed
      obtain ⟨others, computedRest, computed⟩ := bind_eq_ok.mp computed
      cases computed
      obtain ⟨rfl, allNamed⟩ := inductionHypothesis computedRest
      constructor
      · rw [List.filter_cons, outstanding_of_named named]
        cases contributed.any name.sameMember with
        | true => rfl
        | false => rfl
      · intro other member
        rcases List.mem_cons.mp member with rfl | later
        · exact ⟨name, named, hashes⟩
        · exact allNamed other later

theorem candidates_ok {peers : List Json} (contributed : List Json)
    (named : ∀ peer ∈ peers, ∃ name, peer.getItem "name" = .ok name ∧ name.hashable = true) :
    candidates contributed peers = .ok (peers.filter (outstanding contributed)) := by
  induction peers with
  | nil => rfl
  | cons peer rest inductionHypothesis =>
    obtain ⟨name, found, hashes⟩ := named peer List.mem_cons_self
    rw [candidates, found, ok_bind, hashes,
      inductionHypothesis fun other member => named other (List.mem_cons_of_mem _ member)]
    rw [List.filter_cons, outstanding_of_named found]
    cases contributed.any name.sameMember with
    | true => rfl
    | false => rfl

theorem mem_of_contributedNames {contributors names : List Json}
    (computed : contributedNames contributors = .ok names) {peer : Json} (member : peer ∈ contributors) :
    ∃ name ∈ names, peer.getItem "name" = .ok name := by
  induction contributors generalizing names with
  | nil => cases member
  | cons first rest inductionHypothesis =>
    rw [contributedNames] at computed
    obtain ⟨name, named, computed⟩ := bind_eq_ok.mp computed
    obtain ⟨others, computedRest, computed⟩ := bind_eq_ok.mp computed
    cases computed
    rcases List.mem_cons.mp member with rfl | later
    · exact ⟨name, List.mem_cons_self, named⟩
    · obtain ⟨other, otherMember, found⟩ := inductionHypothesis computedRest later
      exact ⟨other, List.mem_cons_of_mem _ otherMember, found⟩

theorem Round.map_fst_asks (round : Round) (uuid : Json) (peers : List Json) :
    (round.asks uuid peers).map Prod.fst = round.shuffle peers := by
  simp [Round.asks, Function.comp_def]

theorem mem_of_mem_roundSteps {peers contributed : List Json} {decoder : ShamirSecret}
    {rounds : List Round} {ask : Ask}
    (member : ask ∈ roundSteps formatted uuid peers decoder contributed rounds) :
    ∃ round ∈ rounds, ask.peer ∈ peers ∧ ask.reply = round.answer ask.peer uuid := by
  induction rounds generalizing decoder contributed with
  | nil => cases member
  | cons round rest inductionHypothesis =>
    rw [roundSteps_cons] at member
    split at member
    · cases member
    · split at member
      · cases member
      · rename_i asked computed
        rcases List.mem_append.mp member with now | later
        · obtain ⟨peer, shuffled, same⟩ := List.mem_map.mp (mem_of_mem_passSteps now)
          obtain ⟨rfl, answered⟩ := Prod.mk.inj same
          have listed := (round.permutes asked).subset shuffled
          rw [(candidates_eq_ok computed).1] at listed
          exact ⟨round, List.mem_cons_self, List.mem_of_mem_filter listed, answered.symm⟩
        · split at later
          · cases later
          · split at later
            · cases later
            · obtain ⟨other, otherMember, facts⟩ := inductionHypothesis later
              exact ⟨other, List.mem_cons_of_mem _ otherMember, facts⟩

/-- A peer that has contributed is never asked again, so over all rounds every entry of the
host list contributes at most once. -/
theorem collectRounds_preserves {Invariant : List Json → ShamirSecret → Prop} {Meets : Ask → Prop}
    (kept : ∀ contributors decoder peer reply document record, Invariant contributors decoder →
      Meets ⟨decoder, peer, reply⟩ → retrieveShare (formatted uuid) reply = .ok document →
      Reads document record → decoder.Admits record →
      Invariant (contributors ++ [peer]) (decoder.accepting record))
    {peers contributors contributed : List Json} {decoder last : ShamirSecret} {rounds : List Round}
    (start : Invariant contributors decoder) (selected : contributors.Subperm peers)
    (recorded : ∀ peer ∈ contributors, ∃ name ∈ contributed, peer.getItem "name" = .ok name)
    (steps : ∀ ask ∈ roundSteps formatted uuid peers decoder contributed rounds, Meets ask)
    (collected : collectRounds formatted uuid peers decoder contributed rounds = .ok last) :
    ∃ all : List Json, Invariant all last ∧ all.Subperm peers := by
  induction rounds generalizing contributors contributed decoder with
  | nil =>
    cases collected
    exact ⟨contributors, start, selected⟩
  | cons round rest inductionHypothesis =>
    rw [collectRounds_cons] at collected
    rw [roundSteps_cons] at steps
    cases waiting : decoder.readyToDecode with
    | true =>
      rw [waiting] at collected
      cases collected
      exact ⟨contributors, start, selected⟩
    | false =>
      rw [waiting] at collected steps
      obtain ⟨asked, computed, pass⟩ := bind_eq_ok.mp collected
      obtain ⟨⟨after, more⟩, askedPeers, naming⟩ := bind_eq_ok.mp pass
      obtain ⟨names, namesComputed, others⟩ := bind_eq_ok.mp naming
      simp only [computed, askedPeers, namesComputed, Bool.false_eq_true, ↓reduceIte] at steps
      obtain ⟨rfl, allNamed⟩ := candidates_eq_ok computed
      obtain ⟨holds, sublist⟩ := askPeers_preserves kept start
        (fun ask member => steps ask (List.mem_append_left _ member)) askedPeers
      rw [Round.map_fst_asks] at sublist
      have moreSelected : more.Subperm (peers.filter (outstanding contributed)) :=
        sublist.subperm.trans (round.permutes _).subperm
      have done : contributors.filter (fun peer => !outstanding contributed peer) = contributors := by
        refine List.filter_eq_self.mpr fun peer member => ?_
        obtain ⟨name, nameMember, named⟩ := recorded peer member
        obtain ⟨hashName, hashNamed, hashes⟩ := allNamed peer (selected.subset member)
        obtain rfl : name = hashName := Except.ok.inj (named.symm.trans hashNamed)
        have again : contributed.any name.sameMember = true :=
          List.any_eq_true.mpr ⟨name, nameMember, Json.sameMember_refl hashes⟩
        rw [outstanding_of_named named, again]
        rfl
      have split : (contributors ++ more).Subperm peers := by
        have earlier := selected.filter fun peer => !outstanding contributed peer
        rw [done] at earlier
        exact (earlier.append moreSelected).trans (by
          have parts := List.filter_append_perm (outstanding contributed) peers
          exact (List.perm_append_comm.trans parts).subperm)
      exact inductionHypothesis holds split (by
        intro peer member
        rcases List.mem_append.mp member with earlier | later
        · obtain ⟨name, nameMember, named⟩ := recorded peer earlier
          exact ⟨name, List.mem_append_left _ nameMember, named⟩
        · obtain ⟨name, nameMember, named⟩ := mem_of_contributedNames namesComputed later
          exact ⟨name, List.mem_append_right _ nameMember, named⟩)
        (fun ask member => steps ask (List.mem_append_right _ member)) others

end Collecting

end SecretWeb.Client
