import SecretWeb.Client.Availability

/-! # Gathering genuine shares

When every peer that answers hands out a share that the dealer dealt, a pass collects each
of them once: shares that come a second time are refused, whoever sends them.  So the pass
ends with a ready decoder, or with everything that was delivered. -/

namespace SecretWeb.Client

open SecretWeb.Data SecretWeb.Python SecretWeb.Shamir SecretWeb.HostsData

section Pass

variable {formatted : Json → String} {uuid : Json} {split : Split} {participants : List (List Point)}

/-- A peer is down, or it hands out one of the shares that were dealt. -/
def DownOrDealt (formatted : Json → String) (uuid : Json) (split : Split) (participants : List (List Point))
    (reply : Reply) : Prop :=
  PassedOver formatted uuid reply ∨ ∃ keys ∈ participants, Delivers formatted uuid split keys reply

theorem collide_self {keys : List Point} (carried : split.Carries keys) : Collide keys keys := by
  have lengths := carried.length_eq
  cases keys with
  | nil => exact absurd (List.length_eq_zero_iff.mp lengths.symm) split.nonempty
  | cons point rest => exact ⟨0, point, point, rfl, rfl, rfl⟩

/-- Two shares that were dealt are one, or they share no x-coordinate in any chunk. -/
theorem not_collide_of_deals (deals : split.Deals participants) {left right : List Point}
    (leftDealt : left ∈ participants) (rightDealt : right ∈ participants) (different : left ≠ right) :
    ¬Collide left right := by
  have symmetric : Std.Symm fun left right : List Point => ¬Collide left right :=
    ⟨fun _ _ apart collide => apart collide.symm⟩
  exact deals.apart.forall leftDealt rightDealt different

/-- A share that the decoder holds already is refused. -/
theorem refused_of_held {accepted : List (List Point)} {decoder : ShamirSecret} {peer : Json} {reply : Reply}
    {keys : List Point} (holding : Holding split accepted decoder) (held : keys ∈ accepted)
    (delivers : Delivers formatted uuid split keys reply) :
    Refused formatted uuid ⟨decoder, peer, reply⟩ := by
  obtain ⟨document, retrieved, reads⟩ := delivers
  have notAdmitted : ¬decoder.Admits (split.record keys) := by
    intro admits
    refine decoder.not_mem_of_admitsPoints admits.nonempty admits.points ?_
    rw [holding.keys]
    exact held
  obtain ⟨message, invalid⟩ := decoder.checkSubmission_refuses reads notAdmitted
  exact ⟨document, message, retrieved, invalid⟩

/-- The run lemma of such a pass. -/
theorem askPeers_gathers (deals : split.Deals participants) {accepted : List (List Point)} {decoder : ShamirSecret}
    {asks : List (Json × Reply)} (holding : Holding split accepted decoder)
    (dealt : ∀ keys ∈ accepted, keys ∈ participants)
    (addressed : ∀ ask ∈ asks, ∃ address, ask.1.getItem "address" = .ok address)
    (genuine : ∀ ask ∈ asks, DownOrDealt formatted uuid split participants ask.2) :
    ∃ last contributors held, askPeers formatted uuid decoder asks = .ok (last, contributors) ∧
      Holding split held last ∧ (last.readyToDecode = true ∨
        ((∀ keys ∈ accepted, keys ∈ held) ∧
          ∀ ask ∈ asks, ∀ keys, Delivers formatted uuid split keys ask.2 → keys ∈ held)) := by
  induction asks generalizing accepted decoder with
  | nil => exact ⟨decoder, [], accepted, rfl, holding, .inr ⟨fun _ member => member, by simp⟩⟩
  | cons ask rest inductionHypothesis =>
    obtain ⟨peer, reply⟩ := ask
    cases waiting : decoder.readyToDecode with
    | true => exact ⟨decoder, [], accepted, by simp [askPeers_cons, waiting], holding, .inl waiting⟩
    | false =>
      obtain ⟨address, found⟩ := addressed _ List.mem_cons_self
      have addressedRest : ∀ ask ∈ rest, ∃ address, ask.1.getItem "address" = .ok address :=
        fun ask member => addressed ask (List.mem_cons_of_mem _ member)
      have genuineRest : ∀ ask ∈ rest, DownOrDealt formatted uuid split participants ask.2 :=
        fun ask member => genuine ask (List.mem_cons_of_mem _ member)
      have goOn : ∀ taken after nowAccepted, askPeer formatted uuid decoder peer reply = .ok (taken, after) →
          Holding split nowAccepted after → (∀ keys ∈ nowAccepted, keys ∈ participants) →
          (∀ keys ∈ accepted, keys ∈ nowAccepted) →
          (∀ keys, Delivers formatted uuid split keys reply → keys ∈ nowAccepted) →
          ∃ last contributors held,
            askPeers formatted uuid decoder ((peer, reply) :: rest) = .ok (last, contributors) ∧
            Holding split held last ∧ (last.readyToDecode = true ∨
              ((∀ keys ∈ accepted, keys ∈ held) ∧
                ∀ ask ∈ (peer, reply) :: rest, ∀ keys, Delivers formatted uuid split keys ask.2 → keys ∈ held)) := by
        intro taken after nowAccepted asked holdingAfter dealtAfter kept delivered
        obtain ⟨last, contributors, held, askedRest, holdingLast, outcome⟩ :=
          inductionHypothesis holdingAfter dealtAfter addressedRest genuineRest
        refine ⟨last, if taken then peer :: contributors else contributors, held, ?_, holdingLast, ?_⟩
        · simp only [askPeers_cons, waiting, Bool.false_eq_true, ↓reduceIte, asked, ok_bind, askedRest]
          rfl
        · cases outcome with
          | inl ready => exact .inl ready
          | inr collected =>
            refine .inr ⟨fun keys member => collected.1 keys (kept keys member), fun ask member keys delivers => ?_⟩
            cases List.mem_cons.mp member with
            | inl first =>
              rw [first] at delivers
              exact collected.1 keys (delivered keys delivers)
            | inr later => exact collected.2 ask later keys delivers
      cases genuine _ List.mem_cons_self with
      | inl passed =>
        refine goOn false decoder accepted (askPeer_passedOver found passed) holding dealt
          (fun _ member => member) ?_
        intro keys delivers
        obtain ⟨exception, failed, _⟩ := passed
        obtain ⟨document, retrieved, _⟩ := delivers
        cases failed.symm.trans retrieved
      | inr genuineShare =>
        obtain ⟨keys, keysDealt, delivers⟩ := genuineShare
        have only : ∀ others, Delivers formatted uuid split others reply → others = keys := by
          intro others delivered
          obtain ⟨document, retrieved, reads⟩ := delivers
          obtain ⟨other, otherRetrieved, otherReads⟩ := delivered
          cases retrieved.symm.trans otherRetrieved
          exact congrArg ParticipantData.keys (otherReads.unique reads)
        by_cases held : keys ∈ accepted
        · refine goOn false decoder accepted (askPeer_refused found (refused_of_held holding held delivers))
            holding dealt (fun _ member => member) ?_
          intro others delivered
          rw [only others delivered]
          exact held
        · have apart : ∀ earlier ∈ accepted, ¬Collide earlier keys := by
            intro earlier member
            refine not_collide_of_deals deals (dealt earlier member) keysDealt ?_
            rintro rfl
            exact held member
          obtain ⟨after, asked, holdingAfter⟩ :=
            askPeer_delivers holding found delivers (deals.carried keys keysDealt) apart
          refine goOn true after (accepted ++ [keys]) asked holdingAfter ?_
            (fun _ member => List.mem_append_left _ member) ?_
          · intro others member
            cases List.mem_append.mp member with
            | inl old => exact dealt others old
            | inr new =>
              rw [List.mem_singleton.mp new]
              exact keysDealt
          · intro others delivered
            rw [only others delivered]
            exact List.mem_append_right _ List.mem_cons_self

/-- Nobody is asked once the decoder is ready. -/
theorem askPeers_append_of_ready {decoder last : ShamirSecret} {contributors : List Json}
    {front : List (Json × Reply)} (back : List (Json × Reply))
    (asked : askPeers formatted uuid decoder front = .ok (last, contributors)) (ready : last.readyToDecode = true) :
    askPeers formatted uuid decoder (front ++ back) = .ok (last, contributors) := by
  induction front generalizing decoder contributors with
  | nil =>
    cases asked
    cases back with
    | nil => rfl
    | cons ask rest => rw [List.nil_append, askPeers_cons, if_pos ready]
  | cons ask rest inductionHypothesis =>
    obtain ⟨peer, reply⟩ := ask
    rw [List.cons_append, askPeers_cons]
    rw [askPeers_cons] at asked
    cases waiting : decoder.readyToDecode with
    | true =>
      rw [waiting] at asked
      exact asked
    | false =>
      rw [waiting] at asked
      obtain ⟨⟨accepted, after⟩, askedPeer, asked⟩ := bind_eq_ok.mp asked
      obtain ⟨⟨final, others⟩, askedRest, finished⟩ := bind_eq_ok.mp asked
      cases finished
      rw [if_neg Bool.false_ne_true, askedPeer, ok_bind]
      dsimp only
      rw [inductionHypothesis askedRest]
      rfl

/-- The x-coordinate of a share in the first chunk. -/
def firstX (keys : List Point) : Int := (keys[0]?.getD (0, 0)).1

theorem firstX_of_carries {keys : List Point} (carried : split.Carries keys) :
    ∃ point, keys[0]? = some point ∧ firstX keys = point.1 ∧ 0 < point.1 ∧ point.1 < (PRIME : Int) := by
  obtain ⟨point, found, range, _⟩ :=
    carried.point (List.getElem?_eq_getElem (List.length_pos_iff.mpr split.nonempty))
  exact ⟨point, found, by rw [firstX, found]; rfl, range⟩

/-- No split has more shares than there are x-coordinates. -/
theorem shares_lt_of_deals (deals : split.Deals participants) : split.shares < PRIME := by
  have distinct : (participants.map firstX).Nodup := by
    refine List.pairwise_map.mpr (deals.apart.imp_of_mem ?_)
    intro left right leftMember rightMember apart same
    obtain ⟨leftPoint, leftFound, leftFirst, _⟩ := firstX_of_carries (deals.carried left leftMember)
    obtain ⟨rightPoint, rightFound, rightFirst, _⟩ := firstX_of_carries (deals.carried right rightMember)
    exact apart ⟨0, leftPoint, rightPoint, leftFound, rightFound, leftFirst.symm.trans (same.trans rightFirst)⟩
  have inside : (participants.map firstX).toFinset ⊆ Finset.Ioo 0 (PRIME : Int) := by
    intro x member
    obtain ⟨keys, listed, rfl⟩ := List.mem_map.mp (List.mem_toFinset.mp member)
    obtain ⟨point, _, first, positive, bounded⟩ := firstX_of_carries (deals.carried keys listed)
    rw [first, Finset.mem_Ioo]
    exact ⟨positive, bounded⟩
  have few := Finset.card_le_card inside
  rw [List.toFinset_card_of_nodup distinct, List.length_map, Int.card_Ioo] at few
  have count := deals.count
  have positive : 0 < PRIME := by decide
  omega

/-- What the two commands make of such a pass: the secret, or the message that too few
peers have answered; and the secret when enough different shares were delivered. -/
theorem reconstruct_gathers {sha256 : Bytes → String} {secret : String} (hides : split.Hides sha256 secret)
    (deals : split.Deals participants) {decoder : ShamirSecret} {asks : List (Json × Reply)}
    (holding : Holding split [] decoder)
    (addressed : ∀ ask ∈ asks, ∃ address, ask.1.getItem "address" = .ok address)
    (genuine : ∀ ask ∈ asks, DownOrDealt formatted uuid split participants ask.2) (treshold : Int) :
    (reconstruct formatted sha256 treshold uuid decoder asks = .ok secret ∨
      ∃ message, reconstruct formatted sha256 treshold uuid decoder asks = .error (.clickException message)) ∧
    ∀ available : List (List Point), available.Nodup → split.treshold ≤ available.length →
      (∀ keys ∈ available, ∃ ask ∈ asks, Delivers formatted uuid split keys ask.2) →
      reconstruct formatted sha256 treshold uuid decoder asks = .ok secret := by
  obtain ⟨last, contributors, held, asked, holdingLast, outcome⟩ :=
    askPeers_gathers deals holding (by simp) addressed genuine
  have decodes : last.readyToDecode = true →
      reconstruct formatted sha256 treshold uuid decoder asks = .ok secret := by
    intro ready
    have enough : split.treshold ≤ held.length := by
      rw [holdingLast.ready] at ready
      exact of_decide_eq_true ready
    have decoded := holdingLast.decode_secret enough sha256 secret hides.chunked hides.hashed
    simp only [reconstruct, asked, ok_bind, ready, Bool.not_true, Bool.false_eq_true, ↓reduceIte, decoded]
  constructor
  · cases ready : last.readyToDecode with
    | true => exact .inl (decodes ready)
    | false =>
      right
      simp only [reconstruct, asked, ok_bind, ready, Bool.not_false, ↓reduceIte]
      exact ⟨_, rfl⟩
  · intro available distinct enough delivered
    cases outcome with
    | inl ready => exact decodes ready
    | inr collected =>
      have inside : available ⊆ held := by
        intro keys member
        obtain ⟨ask, listed, delivers⟩ := delivered keys member
        exact collected.2 ask listed keys delivers
      have count := (distinct.subperm inside).length_le
      refine decodes (holdingLast.ready.trans (decide_eq_true ?_))
      omega

end Pass

end SecretWeb.Client
