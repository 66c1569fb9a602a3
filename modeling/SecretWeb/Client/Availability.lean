import SecretWeb.Client.Asking
import SecretWeb.Shamir.Quorum
import SecretWeb.Setup.Hosts

/-! # Reconstruction in spite of failing and lying peers

A pass over peers keeps the invariant `Holding` as long as each answer that is not a
genuine share is passed over or cannot be told from one, and it then ends with a decoder
that is ready once enough peers are honest.  Any other answer of a single peer can end the
command, starve the decoder or spoil what it decodes to. -/

namespace SecretWeb.Client

open SecretWeb.Data SecretWeb.Python SecretWeb.Shamir SecretWeb.HostsData

section Answers

variable (formatted : Json → String) (uuid : Json) (split : Split)

/-- The reply carries the record that hands these points out. -/
def Delivers (keys : List Point) (reply : Reply) : Prop :=
  ∃ document, retrieveShare (formatted uuid) reply = .ok document ∧ Reads document (split.record keys)

/-- The reply ends in an exception after which the next peer is asked. -/
def PassedOver (reply : Reply) : Prop :=
  ∃ exception, retrieveShare (formatted uuid) reply = .error exception ∧ unavailable exception = true

/-- The decoder refuses the document that the reply carries. -/
def Refused (ask : Ask) : Prop :=
  ∃ document message, retrieveShare (formatted uuid) ask.reply = .ok document ∧
    ask.decoder.checkSubmission document = .error (.invalidShareError message)

/-- The reply carries a further share of the split, at x-coordinates of its own. -/
def Consistent (honestShares : List (List Point)) (ask : Ask) : Prop :=
  ∃ keys, Delivers formatted uuid split keys ask.reply ∧ split.Carries keys ∧
    (∀ earlier ∈ ask.decoder.decodingParticipantsKeys, ¬Collide earlier keys) ∧
    ∀ honest ∈ honestShares, ¬Collide keys honest

/-- What an answer must be for reconstruction not to depend on its peer. -/
def Tolerated (honestShares : List (List Point)) (ask : Ask) : Prop :=
  PassedOver formatted uuid ask.reply ∨ Refused formatted uuid ask ∨
    Consistent formatted uuid split honestShares ask

end Answers

section Pass

variable {formatted : Json → String} {uuid : Json} {split : Split}

/-! ## The outcomes of one ask -/

theorem askPeer_passedOver {decoder : ShamirSecret} {peer address : Json} {reply : Reply}
    (addressed : peer.getItem "address" = .ok address) (passed : PassedOver formatted uuid reply) :
    askPeer formatted uuid decoder peer reply = .ok (false, decoder) := by
  obtain ⟨exception, failed, caught⟩ := passed
  simp only [askPeer, addressed, ok_bind, failed, caught, ↓reduceIte]

theorem askPeer_refused {decoder : ShamirSecret} {peer address : Json} {reply : Reply}
    (addressed : peer.getItem "address" = .ok address)
    (refused : Refused formatted uuid ⟨decoder, peer, reply⟩) :
    askPeer formatted uuid decoder peer reply = .ok (false, decoder) := by
  obtain ⟨document, message, retrieved, invalid⟩ := refused
  simp only [askPeer, addressed, ok_bind, retrieved, ShamirSecret.populateDecoder, invalid]

theorem askPeer_delivers {accepted : List (List Point)} {decoder : ShamirSecret} {peer address : Json}
    {reply : Reply} {keys : List Point} (holding : Holding split accepted decoder)
    (addressed : peer.getItem "address" = .ok address) (delivers : Delivers formatted uuid split keys reply)
    (carried : split.Carries keys) (apart : ∀ earlier ∈ accepted, ¬Collide earlier keys) :
    ∃ after, askPeer formatted uuid decoder peer reply = .ok (true, after) ∧
      Holding split (accepted ++ [keys]) after := by
  obtain ⟨document, retrieved, read⟩ := delivers
  obtain ⟨after, populated, holdingAfter⟩ := holding.populateDecoder carried apart read
  refine ⟨after, ?_, holdingAfter⟩
  simp only [askPeer, addressed, ok_bind, retrieved, populated]

/-! ## A pass -/

/-- The honest peers among those to be asked, and what they hold. -/
structure Honest (formatted : Json → String) (uuid : Json) (split : Split) (bad : Json → Bool)
    (share : Json → List Point) (asks : List (Json × Reply)) : Prop where
  addressed : ∀ ask ∈ asks, ∃ address, ask.1.getItem "address" = .ok address
  delivers : ∀ ask ∈ asks, bad ask.1 = false → Delivers formatted uuid split (share ask.1) ask.2
  carried : ∀ ask ∈ asks, bad ask.1 = false → split.Carries (share ask.1)
  apart : asks.Pairwise fun left right => bad left.1 = false → bad right.1 = false →
    ¬Collide (share left.1) (share right.1)

theorem Honest.tail {bad : Json → Bool} {share : Json → List Point} {ask : Json × Reply}
    {rest : List (Json × Reply)} (honest : Honest formatted uuid split bad share (ask :: rest)) :
    Honest formatted uuid split bad share rest where
  addressed := fun other member => honest.addressed other (List.mem_cons_of_mem _ member)
  delivers := fun other member => honest.delivers other (List.mem_cons_of_mem _ member)
  carried := fun other member => honest.carried other (List.mem_cons_of_mem _ member)
  apart := (List.pairwise_cons.mp honest.apart).2

/-- The run lemma of a pass: it comes to its end, everything accepted belongs to the split,
and unless the decoder is ready every honest peer has contributed. -/
theorem askPeers_holding {bad : Json → Bool} {share : Json → List Point}
    {honestShares accepted : List (List Point)} {decoder : ShamirSecret} {asks : List (Json × Reply)}
    (holding : Holding split accepted decoder) (honest : Honest formatted uuid split bad share asks)
    (covered : ∀ ask ∈ asks, bad ask.1 = false → share ask.1 ∈ honestShares)
    (apart : ∀ earlier ∈ accepted, ∀ ask ∈ asks, bad ask.1 = false → ¬Collide earlier (share ask.1))
    (steps : ∀ ask ∈ passSteps formatted uuid decoder asks, bad ask.peer = true →
      Tolerated formatted uuid split honestShares ask) :
    ∃ last contributors held, askPeers formatted uuid decoder asks = .ok (last, contributors) ∧
      Holding split held last ∧
      (last.readyToDecode = true ∨
        accepted.length + asks.countP (fun ask => !bad ask.1) ≤ held.length) := by
  induction asks generalizing accepted decoder with
  | nil => exact ⟨decoder, [], accepted, rfl, holding, .inr (by simp)⟩
  | cons ask rest inductionHypothesis =>
    obtain ⟨peer, reply⟩ := ask
    cases waiting : decoder.readyToDecode with
    | true => exact ⟨decoder, [], accepted, by simp [askPeers_cons, waiting], holding, .inl waiting⟩
    | false =>
      rw [passSteps_cons peer reply rest waiting] at steps
      obtain ⟨address, addressed⟩ := honest.addressed _ List.mem_cons_self
      have coveredRest : ∀ ask ∈ rest, bad ask.1 = false → share ask.1 ∈ honestShares :=
        fun ask member => covered ask (List.mem_cons_of_mem _ member)
      have acceptCase : ∀ keys, Delivers formatted uuid split keys reply → split.Carries keys →
          (∀ earlier ∈ accepted, ¬Collide earlier keys) →
          (∀ ask ∈ rest, bad ask.1 = false → ¬Collide keys (share ask.1)) →
          ∃ last contributors held,
            askPeers formatted uuid decoder ((peer, reply) :: rest) = .ok (last, contributors) ∧
            Holding split held last ∧ (last.readyToDecode = true ∨
              accepted.length + 1 + rest.countP (fun ask => !bad ask.1) ≤ held.length) := by
        intro keys delivers carried earlierApart laterApart
        obtain ⟨after, askedPeer, holdingAfter⟩ :=
          askPeer_delivers holding addressed delivers carried earlierApart
        rw [askedPeer] at steps
        obtain ⟨last, contributors, held, asked, holdingLast, enough⟩ := inductionHypothesis holdingAfter
          honest.tail coveredRest
          (by
            intro earlier member ask askMember askHonest
            rcases List.mem_append.mp member with old | new
            · exact apart earlier old ask (List.mem_cons_of_mem _ askMember) askHonest
            · rw [List.mem_singleton.mp new]
              exact laterApart ask askMember askHonest)
          (fun ask member => steps ask (List.mem_cons_of_mem _ member))
        refine ⟨last, peer :: contributors, held, ?_, holdingLast, ?_⟩
        · simp only [askPeers_cons, waiting, Bool.false_eq_true, ↓reduceIte, askedPeer, ok_bind, asked]
          rfl
        · rwa [List.length_append, List.length_singleton] at enough
      have skipCase : bad peer = true →
          askPeer formatted uuid decoder peer reply = .ok (false, decoder) →
          ∃ last contributors held,
            askPeers formatted uuid decoder ((peer, reply) :: rest) = .ok (last, contributors) ∧
            Holding split held last ∧ (last.readyToDecode = true ∨
              accepted.length + rest.countP (fun ask => !bad ask.1) ≤ held.length) := by
        intro _ askedPeer
        rw [askedPeer] at steps
        obtain ⟨last, contributors, held, asked, holdingLast, enough⟩ := inductionHypothesis holding
          honest.tail coveredRest
          (fun earlier member ask askMember => apart earlier member ask (List.mem_cons_of_mem _ askMember))
          (fun ask member => steps ask (List.mem_cons_of_mem _ member))
        refine ⟨last, contributors, held, ?_, holdingLast, enough⟩
        simp only [askPeers_cons, waiting, Bool.false_eq_true, ↓reduceIte, askedPeer, ok_bind, asked]
        rfl
      cases honesty : bad peer with
      | false =>
        obtain ⟨last, contributors, held, asked, holdingLast, enough⟩ := acceptCase (share peer)
          (honest.delivers _ List.mem_cons_self honesty) (honest.carried _ List.mem_cons_self honesty)
          (fun earlier member => apart earlier member _ List.mem_cons_self honesty)
          (fun ask member askHonest =>
            (List.pairwise_cons.mp honest.apart).1 ask member honesty askHonest)
        refine ⟨last, contributors, held, asked, holdingLast, enough.imp_right fun bound => ?_⟩
        rw [List.countP_cons_of_pos (by simp [honesty])]
        omega
      | true =>
        rw [List.countP_cons_of_neg (by simp [honesty])]
        rcases steps _ List.mem_cons_self honesty with passed | refused | consistent
        · exact skipCase honesty (askPeer_passedOver addressed passed)
        · exact skipCase honesty (askPeer_refused addressed refused)
        · obtain ⟨keys, delivers, carried, earlierApart, honestApart⟩ := consistent
          obtain ⟨last, contributors, held, asked, holdingLast, enough⟩ := acceptCase keys delivers carried
            (by rwa [holding.keys] at earlierApart)
            (fun ask member askHonest => honestApart _ (coveredRest ask member askHonest))
          exact ⟨last, contributors, held, asked, holdingLast,
            enough.imp_right fun bound => by omega⟩

/-! ## The peers of a host list -/

/-- The trusted peers that hold shares of the split: `bad` ones are down or compromised, and
enough others are left. -/
structure Holders (split : Split) (bad : Json → Bool) (share : Json → List Point) (peers : List Json) :
    Prop where
  listed : ∀ peer ∈ peers, (∃ address, peer.getItem "address" = .ok address) ∧
    ∃ name, peer.getItem "name" = .ok (.str name)
  carried : ∀ peer ∈ peers, bad peer = false → split.Carries (share peer)
  apart : peers.Pairwise fun left right => bad left = false → bad right = false →
    ¬Collide (share left) (share right)
  enough : split.treshold ≤ peers.countP fun peer => !bad peer

/-- What the honest peers hold. -/
def honestShares (bad : Json → Bool) (share : Json → List Point) (peers : List Json) : List (List Point) :=
  (peers.filter fun peer => !bad peer).map share

theorem Holders.honest {bad : Json → Bool} {share : Json → List Point} {peers : List Json}
    (holders : Holders split bad share peers) (round : Round)
    (delivers : ∀ peer ∈ peers, bad peer = false →
      Delivers formatted uuid split (share peer) (round.answer peer uuid)) :
    Honest formatted uuid split bad share (round.asks uuid peers) := by
  have listed : ∀ ask ∈ round.asks uuid peers, ask.1 ∈ peers ∧ ask.2 = round.answer ask.1 uuid := by
    intro ask member
    obtain ⟨peer, shuffled, rfl⟩ := List.mem_map.mp member
    exact ⟨(round.permutes peers).subset shuffled, rfl⟩
  refine ⟨?_, ?_, ?_, ?_⟩
  · intro ask member
    exact (holders.listed ask.1 (listed ask member).1).1
  · intro ask member honest
    rw [(listed ask member).2]
    exact delivers ask.1 (listed ask member).1 honest
  · intro ask member honest
    exact holders.carried ask.1 (listed ask member).1 honest
  · refine List.pairwise_map.mpr (holders.apart.perm (round.permutes peers).symm ?_)
    intro left right apart leftHonest rightHonest collide
    exact apart rightHonest leftHonest collide.symm

/-- The pass over the peers leaves a ready decoder that decodes to the secret. -/
theorem askPeers_holders {sha256 : Bytes → String} {secret : String} (hides : split.Hides sha256 secret)
    {bad : Json → Bool} {share : Json → List Point} {peers : List Json}
    (holders : Holders split bad share peers) {round : Round}
    (delivers : ∀ peer ∈ peers, bad peer = false →
      Delivers formatted uuid split (share peer) (round.answer peer uuid))
    {decoder : ShamirSecret} (holding : Holding split [] decoder)
    (steps : ∀ ask ∈ passSteps formatted uuid decoder (round.asks uuid peers), bad ask.peer = true →
      Tolerated formatted uuid split (honestShares bad share peers) ask) :
    ∃ last contributors, askPeers formatted uuid decoder (round.asks uuid peers) =
        .ok (last, contributors) ∧
      last.readyToDecode = true ∧ last.decode sha256 = .ok secret := by
  have covered : ∀ ask ∈ round.asks uuid peers, bad ask.1 = false →
      share ask.1 ∈ honestShares bad share peers := by
    intro ask member honest
    obtain ⟨peer, shuffled, rfl⟩ := List.mem_map.mp member
    exact List.mem_map_of_mem (List.mem_filter.mpr
      ⟨(round.permutes peers).subset shuffled, by simpa using honest⟩)
  obtain ⟨last, contributors, held, asked, holdingLast, enough⟩ :=
    askPeers_holding holding (holders.honest round delivers) covered (by simp) steps
  have count : (round.asks uuid peers).countP (fun ask => !bad ask.1) =
      peers.countP fun peer => !bad peer := by
    rw [Round.asks, List.countP_map]
    exact (round.permutes peers).countP_eq _
  -- the pass stops early only when the decoder is ready
  have treshold : split.treshold ≤ held.length := by
    rcases enough with ready | all
    · rw [holdingLast.ready] at ready
      exact of_decide_eq_true ready
    · have honestEnough := holders.enough
      rw [count, List.length_nil, Nat.zero_add] at all
      omega
  exact ⟨last, contributors, asked, holdingLast.ready.trans (decide_eq_true treshold),
    holdingLast.decode_secret treshold sha256 secret hides.chunked hides.hashed⟩

end Pass

/-! ## The commands -/

section Commands

variable {formatted : Json → String} {sha256 : Bytes → String} {split : Split} {secret : String}
  {bad : Json → Bool} {share : Json → List Point} {peers : List Json} {uuid : Json}

theorem reconstruct_ok (hides : split.Hides sha256 secret) (holders : Holders split bad share peers)
    {round : Round} (delivers : ∀ peer ∈ peers, bad peer = false →
      Delivers formatted uuid split (share peer) (round.answer peer uuid))
    {decoder : ShamirSecret} (holding : Holding split [] decoder)
    (steps : ∀ ask ∈ passSteps formatted uuid decoder (round.asks uuid peers), bad ask.peer = true →
      Tolerated formatted uuid split (honestShares bad share peers) ask) (treshold : Int) :
    reconstruct formatted sha256 treshold uuid decoder (round.asks uuid peers) = .ok secret := by
  obtain ⟨last, contributors, asked, ready, decoded⟩ := askPeers_holders hides holders delivers holding steps
  simp only [reconstruct, asked, ok_bind, ready, Bool.not_true, Bool.false_eq_true, ↓reduceIte, decoded]

theorem contributedNames_ok {contributors : List Json}
    (named : ∀ peer ∈ contributors, ∃ name, peer.getItem "name" = .ok name) :
    ∃ names, contributedNames contributors = .ok names := by
  induction contributors with
  | nil => exact ⟨[], rfl⟩
  | cons peer rest inductionHypothesis =>
    obtain ⟨name, found⟩ := named peer List.mem_cons_self
    obtain ⟨names, computed⟩ := inductionHypothesis fun other member =>
      named other (List.mem_cons_of_mem _ member)
    exact ⟨name :: names, by rw [contributedNames, found, ok_bind, computed]; rfl⟩

/-- One round is enough. -/
theorem collectRounds_ok (hides : split.Hides sha256 secret) (holders : Holders split bad share peers)
    {round : Round} (delivers : ∀ peer ∈ peers, bad peer = false →
      Delivers formatted uuid split (share peer) (round.answer peer uuid))
    {decoder : ShamirSecret} (holding : Holding split [] decoder)
    (steps : ∀ ask ∈ passSteps formatted uuid decoder (round.asks uuid peers), bad ask.peer = true →
      Tolerated formatted uuid split (honestShares bad share peers) ask) (more : List Round) :
    ∃ last, collectRounds formatted uuid peers decoder [] (round :: more) = .ok last ∧
      last.readyToDecode = true ∧ last.decode sha256 = .ok secret := by
  obtain ⟨last, contributors, asked, ready, decoded⟩ := askPeers_holders hides holders delivers holding steps
  have waiting : decoder.readyToDecode = false := holding.waiting
  have everyone : candidates [] peers = .ok peers := by
    rw [candidates_ok [] fun peer member => by
      obtain ⟨name, named⟩ := (holders.listed peer member).2
      exact ⟨_, named, rfl⟩]
    refine congrArg _ (List.filter_eq_self.mpr fun peer member => ?_)
    obtain ⟨name, named⟩ := (holders.listed peer member).2
    rw [outstanding_of_named named]
    rfl
  have contributorsNamed : ∀ peer ∈ contributors, ∃ name, peer.getItem "name" = .ok (.str name) := by
    intro peer member
    have shuffled := (askPeers_sublist asked).subset member
    rw [Round.map_fst_asks] at shuffled
    exact (holders.listed peer ((round.permutes peers).subset shuffled)).2
  obtain ⟨names, named⟩ := contributedNames_ok fun peer member => (contributorsNamed peer member).imp' _ fun _ found => found
  refine ⟨last, ?_, ready, decoded⟩
  rw [collectRounds_cons, waiting]
  simp only [Bool.false_eq_true, ↓reduceIte, everyone, ok_bind, asked, named, List.nil_append]
  cases more with
  | nil => rfl
  | cons next others => simp only [collectRounds_cons, ready, ↓reduceIte]

/-- Whatever treshold the decoder is constructed with: the shares bring their own. -/
theorem collectKey1_ok {intOf : String → Option Int} {config : Dict String} {hosts ownHost : Json}
    {shares treshold : Int} (uuid4 : String) (hides : split.Hides sha256 secret)
    (holders : Holders split bad share peers) (someone : peers ≠ [])
    (own : ownHostEntry hosts = .ok ownHost) (named : ownHost.getItem "name" = .ok (.str split.owner))
    (trusted : trustedPeers hosts (.str split.owner) = .ok peers)
    (settings : key1Settings intOf .key1ReconstructionError config =
      .ok ⟨split.name, split.uuid, some treshold, some shares⟩)
    (lower : 2 ≤ treshold) (upper : treshold ≤ shares) {round : Round}
    (delivers : ∀ peer ∈ peers, bad peer = false →
      Delivers formatted (.str split.uuid) split (share peer) (round.answer peer (.str split.uuid)))
    (steps : ∀ ask ∈ passSteps formatted (.str split.uuid)
        (ShamirSecret.fresh (.str split.name) (.str split.owner) shares treshold uuid4)
        (round.asks (.str split.uuid) peers), bad ask.peer = true →
      Tolerated formatted (.str split.uuid) split (honestShares bad share peers) ask)
    (more : List Round) :
    collectKey1 formatted sha256 intOf config uuid4 hosts (round :: more) = .ok (some secret) := by
  have holding := holding_fresh split shares treshold uuid4 (.inl rfl) (.inl rfl)
  obtain ⟨last, collected, ready, decoded⟩ := collectRounds_ok hides holders delivers holding steps more
  have built : construct (.str split.name) (.str split.owner) (some shares) (some treshold) uuid4 =
      .ok (ShamirSecret.fresh (.str split.name) (.str split.owner) shares treshold uuid4) :=
    ShamirSecret.init_of_valid _ _ uuid4 lower upper
  rw [collectKey1_of_lookups (round :: more) settings own named trusted built, if_neg someone]
  simp only [collected, ok_bind, ready, ↓reduceIte, decoded]
  rfl

end Commands

/-! ## A minority of compromised hosts -/

theorem countP_good_of_minority {shares treshold : Int} {bad : Json → Bool} {peers : List Json}
    (dealt : Setup.sharesAndTreshold peers = (shares, treshold))
    (minority : (peers.countP bad : Int) ≤ shares - treshold) :
    treshold ≤ peers.countP fun peer => !bad peer := by
  have parts := List.length_eq_countP_add_countP bad (l := peers)
  simp only [Setup.sharesAndTreshold, Prod.mk.injEq] at dealt
  simp only [Bool.not_eq_true, Bool.decide_eq_false] at parts
  omega

/-- With all shares of a split dealt to the trusted peers and a minority of them bad, the
commands return the secret whenever each answer of a bad peer, in the state the decoder has
when it comes, is passed over, refused or consistent. -/
theorem minority_tolerated (formatted : Json → String) (sha256 : Bytes → String)
    (intOf : String → Option Int) (split : Split) (secret : String) (hides : split.Hides sha256 secret)
    (hosts ownHost : Json) (peers : List Json) (own : ownHostEntry hosts = .ok ownHost)
    (named : ownHost.getItem "name" = .ok (.str split.owner))
    (trusted : trustedPeers hosts (.str split.owner) = .ok peers) (size : 3 ≤ peers.length)
    (dealt : Setup.sharesAndTreshold peers = (split.shares, split.treshold))
    (bad : Json → Bool) (minority : (peers.countP bad : Int) ≤ split.shares - split.treshold)
    (share : Json → List Point)
    (listed : ∀ peer ∈ peers, (∃ address, peer.getItem "address" = .ok address) ∧
      ∃ name, peer.getItem "name" = .ok (.str name))
    (carried : ∀ peer ∈ peers, bad peer = false → split.Carries (share peer))
    (apart : peers.Pairwise fun left right => bad left = false → bad right = false →
      ¬Collide (share left) (share right))
    (round : Round)
    (delivers : ∀ peer ∈ peers, bad peer = false →
      Delivers formatted (.str split.uuid) split (share peer) (round.answer peer (.str split.uuid)))
    (uuid4 : String) :
    (∀ (config : Dict String) (more : List Round),
      key1Settings intOf .key1ReconstructionError config =
        .ok ⟨split.name, split.uuid, some split.treshold, some split.shares⟩ →
      (∀ ask ∈ passSteps formatted (.str split.uuid)
          (ShamirSecret.fresh (.str split.name) (.str split.owner) split.shares split.treshold uuid4)
          (round.asks (.str split.uuid) peers), bad ask.peer = true →
        Tolerated formatted (.str split.uuid) split (honestShares bad share peers) ask) →
      collectKey1 formatted sha256 intOf config uuid4 hosts (round :: more) = .ok (some secret)) ∧
    (∀ config : Dict String,
      key1Settings intOf .clickException config =
        .ok ⟨split.name, split.uuid, some split.treshold, some split.shares⟩ →
      (∀ ask ∈ passSteps formatted (.str split.uuid)
          (ShamirSecret.fresh (.str split.name) (.str split.owner) split.shares split.treshold uuid4)
          (round.asks (.str split.uuid) peers), bad ask.peer = true →
        Tolerated formatted (.str split.uuid) split (honestShares bad share peers) ask) →
      getKey1Cmd formatted sha256 intOf config uuid4 hosts round = .ok secret) ∧
    (∀ (lookup : Reply) (ownRecord : Json) (sharesSaved : Int),
      getSecretMetadata split.name lookup = .ok ownRecord →
      ownRecord.getItem "uuid" = .ok (.str split.uuid) →
      ownRecord.getItem "treshold" = .ok (.int split.treshold) →
      ownRecord.getItem "shares_saved" = .ok (.int sharesSaved) → split.treshold ≤ sharesSaved →
      (∀ ask ∈ passSteps formatted (.str split.uuid)
          (ShamirSecret.fresh (.str split.name) (.str split.owner) sharesSaved split.treshold uuid4)
          (round.asks (.str split.uuid) peers), bad ask.peer = true →
        Tolerated formatted (.str split.uuid) split (honestShares bad share peers) ask) →
      getSecretCmd formatted sha256 split.name uuid4 lookup hosts round = .ok secret) := by
  have holders : Holders split bad share peers :=
    ⟨listed, carried, apart, countP_good_of_minority dealt minority⟩
  have holding : ∀ shares, Holding split []
      (ShamirSecret.fresh (.str split.name) (.str split.owner) shares split.treshold uuid4) :=
    fun shares => holding_fresh split shares split.treshold uuid4 (.inl rfl) (.inl rfl)
  have built : ∀ shares : Int, split.treshold ≤ shares →
      construct (.str split.name) (.str split.owner) (some shares) (some split.treshold) uuid4 =
        .ok (ShamirSecret.fresh (.str split.name) (.str split.owner) shares split.treshold uuid4) :=
    fun shares upper => ShamirSecret.init_of_valid _ _ uuid4 split.tresholdLower upper
  have someone : peers ≠ [] := by
    rintro rfl
    simp at size
  refine ⟨?_, ?_, ?_⟩
  · intro config more settings steps
    exact collectKey1_ok uuid4 hides holders someone own named trusted settings split.tresholdLower
      split.tresholdUpper delivers steps more
  · intro config settings steps
    rw [getKey1Cmd_of_lookups round settings own named trusted (built _ split.tresholdUpper)]
    exact reconstruct_ok hides holders delivers (holding split.shares) steps _
  · intro lookup ownRecord sharesSaved looked uuid treshold saved upper steps
    rw [getSecretCmd_of_lookups round looked own named trusted saved treshold uuid (built _ upper)]
    exact reconstruct_ok hides holders delivers (holding sharesSaved) steps _

/-! ## A network of four peers -/

def sampleSplit : Split where
  chunks := (stringToIntegers "hi" 8).map fun integer => ⟨integer, [0, 1]⟩
  treshold := 3
  shares := 4
  creationDate := "2026-01-01T00:00:00+00:00"
  owner := "host0"
  name := "key1"
  uuid := "u1"
  secretHash := sampleSha256 (encodeUtf8 "hi")
  nonempty := by decide
  tresholdLower := by decide
  tresholdUpper := by decide
  reduced := by
    intro chunk member
    obtain ⟨integer, integerMember, rfl⟩ := List.mem_map.mp member
    exact stringToIntegers_reduced (by decide) integer integerMember
  degree := by
    intro chunk member
    obtain ⟨integer, _, rfl⟩ := List.mem_map.mp member
    rfl

theorem sampleSplit_hides : sampleSplit.Hides sampleSha256 "hi" := ⟨by decide, rfl⟩

def samplePeer (name : String) : Json := namedEntry name [("address", .str "10.0.0.1")]

def samplePeers : List Json := ["host1", "host2", "host3", "host4"].map samplePeer

def sampleHosts : Json :=
  .dict [("hosts", .dict [("host0", .dict [("address", .str "10.0.0.1"), ("status", .str "local")]),
    ("host1", .dict [("address", .str "10.0.0.1")]), ("host2", .dict [("address", .str "10.0.0.1")]),
    ("host3", .dict [("address", .str "10.0.0.1")]), ("host4", .dict [("address", .str "10.0.0.1")])])]

def sampleConfig : Dict String :=
  [("key1-name", "key1"), ("key1-uuid", "u1"), ("key1-treshold", "3"), ("key1-shares", "4")]

def sampleInt (text : String) : Option Int :=
  if text = "3" then some 3 else if text = "4" then some 4 else none

def sampleText : Json → String
  | .str text => text
  | _ => ""

/-- Each host's own x-coordinate. -/
def sampleX (peer : Json) : Int :=
  match peer.getItem "name" with
  | .ok (.str name) => if name = "host1" then 1 else if name = "host2" then 2 else if name = "host3" then 3 else 4
  | _ => 4

def sampleShare (peer : Json) : List Point := sampleSplit.shareAt (sampleX peer)

/-- Peers are asked in the order of the host list; `lie` is what `bad` ones answer. -/
def sampleRound (bad : Json → Bool) (lie : Json → Reply) : Round where
  shuffle := id
  permutes := fun _ => .refl _
  answer := fun peer _ =>
    if bad peer then lie peer
    else .response 200 (.document (sampleSplit.record (sampleShare peer)).toJson)

def sampleBad (peer : Json) : Bool := sampleX peer = 1

theorem sampleRound_delivers {bad : Json → Bool} (lie : Json → Reply) {peer : Json} (honest : bad peer = false) :
    Delivers sampleText (.str sampleSplit.uuid) sampleSplit (sampleShare peer)
      ((sampleRound bad lie).answer peer (.str sampleSplit.uuid)) := by
  refine ⟨_, ?_, reads_toJson _⟩
  simp [sampleRound, honest, retrieveShare, loads]

/-- One peer of four answers with bytes that are not JSON: the boot ends in an uncaught
exception, although three honest peers would do. -/
theorem minority_untolerated :
    sampleSplit.Hides sampleSha256 "hi" ∧
    trustedPeers sampleHosts (.str "host0") = .ok samplePeers ∧
    Setup.sharesAndTreshold samplePeers = (4, 3) ∧ samplePeers.countP sampleBad = 1 ∧
    (∀ peer ∈ samplePeers, sampleBad peer = false →
      Delivers sampleText (.str "u1") sampleSplit (sampleShare peer)
        ((sampleRound sampleBad fun _ => .response 200 .notJson).answer peer (.str "u1"))) ∧
    ∀ more : List Round, collectKey1 sampleText sampleSha256 sampleInt sampleConfig "u2" sampleHosts
      (sampleRound sampleBad (fun _ => .response 200 .notJson) :: more) = .error .jsonDecodeError := by
  refine ⟨sampleSplit_hides, rfl, rfl, by decide, fun peer _ honest => sampleRound_delivers _ honest, ?_⟩
  intro more
  rfl

theorem samplePeers_listed : ∀ peer ∈ samplePeers, (∃ address, peer.getItem "address" = .ok address) ∧
    ∃ name, peer.getItem "name" = .ok (.str name) := by
  intro peer member
  obtain ⟨name, _, rfl⟩ := List.mem_map.mp member
  exact ⟨⟨_, rfl⟩, ⟨_, rfl⟩⟩

theorem sampleX_range (peer : Json) : 0 < sampleX peer ∧ sampleX peer < PRIME := by
  have positions : sampleX peer = 1 ∨ sampleX peer = 2 ∨ sampleX peer = 3 ∨ sampleX peer = 4 := by
    unfold sampleX
    repeat' split
    all_goals decide
  rcases positions with x | x | x | x <;> rw [x] <;> decide

theorem samplePeers_distinct : samplePeers.Pairwise fun left right => sampleX left ≠ sampleX right := by
  decide

/-- The second peer gives its share another checksum. -/
def sampleLiar (peer : Json) : Bool := sampleX peer = 2

def lyingRecord (peer : Json) : ParticipantData := { sampleSplit.record (sampleShare peer) with secretHash := .str "0" }

def lyingReply (peer : Json) : Reply := .response 200 (.document (lyingRecord peer).toJson)

theorem sampleHolders : Holders sampleSplit sampleLiar sampleShare samplePeers where
  listed := samplePeers_listed
  carried := fun peer _ _ => sampleSplit.carries_shareAt (sampleX_range peer).1 (sampleX_range peer).2
  apart := samplePeers_distinct.imp fun different _ _ => not_collide_shareAt sampleSplit different
  enough := by decide

/-- A decoder that has the share of an honest peer refuses it. -/
theorem lyingReply_refused {accepted : List (List Point)} {decoder : ShamirSecret}
    (holding : Holding sampleSplit accepted decoder) (started : accepted ≠ []) (peer : Json) :
    Refused sampleText (.str "u1") ⟨decoder, peer, lyingReply peer⟩ := by
  have refused : ¬decoder.Admits (lyingRecord peer) := by
    intro admits
    obtain ⟨_, _, sameHash, _⟩ := admits.adopted (by rwa [holding.keys])
    rw [holding.hash started] at sameHash
    have differs : (Json.str sampleSplit.secretHash).equals (.str "0") = false := by decide
    cases differs.symm.trans sameHash
  obtain ⟨message, invalid⟩ := decoder.checkSubmission_refuses (reads_toJson _) refused
  exact ⟨_, message, rfl, invalid⟩

/-- The first peer is honest, so the answer of the second one comes too late. -/
theorem sampleLiar_refused : ∀ ask ∈ passSteps sampleText (.str "u1")
    (ShamirSecret.fresh (.str "key1") (.str "host0") 4 3 "u2")
    ((sampleRound sampleLiar lyingReply).asks (.str "u1") samplePeers), sampleLiar ask.peer = true →
      ask.reply = lyingReply ask.peer ∧ Refused sampleText (.str "u1") ask := by
  have fresh : Holding sampleSplit [] (ShamirSecret.fresh (.str "key1") (.str "host0") 4 3 "u2") :=
    holding_fresh sampleSplit 4 3 "u2" (.inl rfl) (.inl rfl)
  have addressed : ∀ name, (samplePeer name).getItem "address" = .ok (.str "10.0.0.1") := fun _ => rfl
  have honest : sampleLiar (samplePeer "host1") = false := by decide
  have delivers : Delivers sampleText (.str "u1") sampleSplit (sampleShare (samplePeer "host1"))
      ((sampleRound sampleLiar lyingReply).answer (samplePeer "host1") (.str "u1")) := sampleRound_delivers _ honest
  obtain ⟨first, firstAsked, firstHolding⟩ := askPeer_delivers fresh (addressed "host1") delivers
    (sampleHolders.carried _ List.mem_cons_self honest) (by simp)
  have waiting : first.readyToDecode = false := firstHolding.ready
  have refused := lyingReply_refused firstHolding (by simp) (samplePeer "host2")
  have asks : (sampleRound sampleLiar lyingReply).asks (.str "u1") samplePeers =
      (samplePeer "host1", (sampleRound sampleLiar lyingReply).answer (samplePeer "host1") (.str "u1")) ::
        (samplePeer "host2", lyingReply (samplePeer "host2")) ::
          (sampleRound sampleLiar lyingReply).asks (.str "u1") [samplePeer "host3", samplePeer "host4"] := rfl
  intro ask member liar
  rw [asks, passSteps_cons_ok _ rfl firstAsked, passSteps_cons_ok _ waiting (askPeer_refused (addressed "host2") refused)]
    at member
  rcases List.mem_cons.mp member with rfl | later
  · exact absurd liar (by decide)
  · rcases List.mem_cons.mp later with rfl | last
    · exact ⟨rfl, refused⟩
    · obtain ⟨peer, rest, asked⟩ := List.mem_map.mp (mem_of_mem_passSteps last)
      obtain ⟨rfl, _⟩ := Prod.mk.inj asked
      have others : ∀ peer ∈ [samplePeer "host3", samplePeer "host4"], sampleLiar peer = false := by decide
      cases (others _ rest).symm.trans liar

/-- The same network with that peer lying. -/
theorem minority_tolerated_lied :
    collectKey1 sampleText sampleSha256 sampleInt sampleConfig "u2" sampleHosts
      [sampleRound sampleLiar lyingReply] = .ok (some "hi") :=
  (minority_tolerated sampleText sampleSha256 sampleInt sampleSplit "hi" sampleSplit_hides sampleHosts
    _ samplePeers rfl rfl rfl (by decide) rfl sampleLiar (by decide) sampleShare samplePeers_listed
    sampleHolders.carried sampleHolders.apart (sampleRound sampleLiar lyingReply)
    (fun peer _ honest => sampleRound_delivers _ honest) "u2").1 sampleConfig [] rfl
    fun ask member liar => .inr (.inl (sampleLiar_refused ask member liar).2)

end SecretWeb.Client
