import SecretWeb.Client.Availability
import SecretWeb.Setup.Publication

/-! # The boot-time loop, ask by ask

When peers fail or hand out their own shares of KEY1 and nothing else, the loop accepts
one share from each peer that has answered and ends with the one that completes the
treshold.  The invariant ties the peers that have contributed to the decoder; it holds
before every ask, over all rounds. -/

namespace SecretWeb.Client

open SecretWeb.Data SecretWeb.Python SecretWeb.Shamir SecretWeb.HostsData SecretWeb.Setup

section Rounds

variable (formatted : Json → String) (uuid : Json)

/-- The ask brought a document. -/
def answered (ask : Ask) : Bool :=
  match retrieveShare (formatted uuid) ask.reply with
  | .ok _ => true
  | .error _ => false

/-- The peers that have answered, in the order of their answers. -/
def contributed (asks : List Ask) : List Json := (asks.filter (answered formatted uuid)).map Ask.peer

/-- The peer hands out a record that was published to the host of its name. -/
def AnswersOwn (publication : Key1Publication) (share : Json → List Point) (peer : Json) (reply : Reply) : Prop :=
  ∃ host record document, (host, record) ∈ publication.deliveries ∧ peer.getItem "name" = .ok (.str host.name) ∧
    retrieveShare (formatted uuid) reply = .ok document ∧ Reads document record ∧ share peer = record.keys

/-- The share of a peer was published to the host of its name. -/
def Owns (publication : Key1Publication) (share : Json → List Point) (peer : Json) : Prop :=
  ∃ host record, (host, record) ∈ publication.deliveries ∧ peer.getItem "name" = .ok (.str host.name) ∧
    share peer = record.keys

/-- The invariant: the decoder holds the share of every peer that has contributed. -/
structure Collected (publication : Key1Publication) (split : Split) (share : Json → List Point) (peers : List Json)
    (all : List Json) (decoder : ShamirSecret) : Prop where
  holding : Holding split (all.map share) decoder
  few : (all.length : Int) ≤ split.treshold
  listed : ∀ peer ∈ all, peer ∈ peers
  distinct : (all.map peerName).Nodup
  owned : ∀ peer ∈ all, Owns publication share peer

variable {formatted uuid} {sha256 : Bytes → String} {key1 ownName uuid4 : String} {publication : Key1Publication}
  {split : Split} {participants : List (List Point)} {share : Json → List Point} {peers all : List Json}
  {decoder : ShamirSecret}

theorem contributed_append (earlier later : List Ask) :
    contributed formatted uuid (earlier ++ later) =
      contributed formatted uuid earlier ++ contributed formatted uuid later := by
  simp [contributed]

theorem Collected.ready (collected : Collected publication split share peers all decoder) :
    decoder.readyToDecode = true ↔ (all.length : Int) = split.treshold := by
  have few := collected.few
  rw [collected.holding.ready, List.length_map, decide_eq_true_eq]
  omega

theorem Collected.short (collected : Collected publication split share peers all decoder)
    (waiting : decoder.readyToDecode = false) : (all.length : Int) < split.treshold := by
  have few := collected.few
  have notReady : ¬(all.length : Int) = split.treshold := by
    intro enough
    rw [collected.ready.mpr enough] at waiting
    cases waiting
  omega

/-! ## One ask -/

theorem passedOver_outcome (decoder : ShamirSecret) {peer address : Json} {reply : Reply}
    (addressed : peer.getItem "address" = .ok address)
    (passed : PassedOver formatted uuid reply) :
    answered formatted uuid ⟨decoder, peer, reply⟩ = false ∧
      askPeer formatted uuid decoder peer reply = .ok (false, decoder) := by
  refine ⟨?_, askPeer_passedOver addressed passed⟩
  obtain ⟨exception, failed, _⟩ := passed
  simp only [answered, failed]

/-- An answer of a peer that has not contributed yet is accepted. -/
theorem Collected.answers (publishes : PublishesKey1 sha256 key1 ownName uuid4 publication split participants)
    (collected : Collected publication split share peers all decoder) (waiting : decoder.readyToDecode = false)
    {peer address : Json} {reply : Reply} (listed : peer ∈ peers)
    (named : peer.getItem "name" = .ok (.str (peerName peer))) (addressed : peer.getItem "address" = .ok address)
    (new : peerName peer ∉ all.map peerName) (answers : AnswersOwn formatted uuid publication share peer reply) :
    answered formatted uuid ⟨decoder, peer, reply⟩ = true ∧
      ∃ after, askPeer formatted uuid decoder peer reply = .ok (true, after) ∧
        Collected publication split share peers (all ++ [peer]) after := by
  obtain ⟨host, record, document, delivery, hostNamed, retrieved, reads, own⟩ := answers
  obtain ⟨isRecord, carried⟩ := publishes.carried delivery
  have hostName : host.name = peerName peer := by
    have same := hostNamed.symm.trans named
    simpa using same
  have delivers : Delivers formatted uuid split record.keys reply := ⟨document, retrieved, isRecord ▸ reads⟩
  have apart : ∀ earlier ∈ all.map share, ¬Collide earlier record.keys := by
    intro earlier member
    obtain ⟨other, otherMember, rfl⟩ := List.mem_map.mp member
    obtain ⟨otherHost, otherRecord, otherDelivery, otherNamed, otherOwn⟩ := collected.owned other otherMember
    rw [otherOwn]
    refine publishes.apart otherDelivery delivery ?_
    intro sameHost
    apply new
    rw [← hostName, ← sameHost, ← peerName_eq otherNamed]
    exact List.mem_map_of_mem otherMember
  obtain ⟨after, asked, holding⟩ := askPeer_delivers collected.holding addressed delivers carried apart
  have short := collected.short waiting
  refine ⟨by simp only [answered, retrieved], after, asked, ?_⟩
  exact
    { holding := by rw [List.map_append, List.map_singleton, own]; exact holding
      few := by rw [List.length_append, List.length_singleton]; push_cast; omega
      listed := by
        intro other member
        cases List.mem_append.mp member with
        | inl earlier => exact collected.listed other earlier
        | inr last =>
          rw [List.mem_singleton.mp last]
          exact listed
      distinct := by
        rw [List.map_append, List.map_singleton, List.nodup_append]
        refine ⟨collected.distinct, List.nodup_singleton _, fun name earlier other last => ?_⟩
        rw [List.mem_singleton.mp last]
        rintro rfl
        exact new earlier
      owned := by
        intro other member
        cases List.mem_append.mp member with
        | inl earlier => exact collected.owned other earlier
        | inr last =>
          rw [List.mem_singleton.mp last]
          exact ⟨host, record, delivery, hostNamed, own⟩ }

/-! ## One pass -/

/-- Every ask of a run that starts after these contributions: the decoder before it holds
one share for each peer that has contributed and needs more, the peer is a new one, and the
peer is added to those that have contributed exactly when it answers. -/
def BeforeAsks (formatted : Json → String) (uuid : Json) (publication : Key1Publication) (split : Split)
    (share : Json → List Point) (peers all : List Json) (asks : List Ask) : Prop :=
  ∀ earlier ask later, asks = earlier ++ ask :: later →
    Collected publication split share peers (all ++ contributed formatted uuid earlier) ask.decoder ∧
    ((all ++ contributed formatted uuid earlier).length : Int) < split.treshold ∧
    peerName ask.peer ∉ (all ++ contributed formatted uuid earlier).map peerName ∧
    ∃ after, askPeer formatted uuid ask.decoder ask.peer ask.reply = .ok (answered formatted uuid ask, after)

theorem BeforeAsks.cons {ask : Ask} {asks : List Ask} {after : ShamirSecret}
    (first : Collected publication split share peers all ask.decoder)
    (waiting : (all.length : Int) < split.treshold) (new : peerName ask.peer ∉ all.map peerName)
    (outcome : askPeer formatted uuid ask.decoder ask.peer ask.reply = .ok (answered formatted uuid ask, after))
    (rest : BeforeAsks formatted uuid publication split share peers
      (all ++ contributed formatted uuid [ask]) asks) :
    BeforeAsks formatted uuid publication split share peers all (ask :: asks) := by
  intro earlier other later shape
  cases earlier with
  | nil =>
    obtain ⟨rfl, _⟩ := List.cons.inj shape
    rw [show contributed formatted uuid [] = [] from rfl, List.append_nil]
    exact ⟨first, waiting, new, after, outcome⟩
  | cons head others =>
    obtain ⟨rfl, tail⟩ := List.cons.inj shape
    have holds := rest others other later tail
    rwa [List.append_assoc, ← contributed_append] at holds

theorem BeforeAsks.append {first second : List Ask}
    (before : BeforeAsks formatted uuid publication split share peers all first)
    (after : BeforeAsks formatted uuid publication split share peers (all ++ contributed formatted uuid first) second) :
    BeforeAsks formatted uuid publication split share peers all (first ++ second) := by
  intro earlier ask later shape
  cases List.append_eq_append_iff.mp shape with
  | inl inSecond =>
    obtain ⟨more, rfl, rest⟩ := inSecond
    have holds := after more ask later rest
    rwa [List.append_assoc, ← contributed_append] at holds
  | inr inFirst =>
    obtain ⟨more, rfl, rest⟩ := inFirst
    cases more with
    | nil =>
      rw [List.append_nil] at after
      have holds := after [] ask later rest.symm
      rwa [show contributed formatted uuid [] = [] from rfl, List.append_nil] at holds
    | cons head others =>
      obtain ⟨rfl, _⟩ := List.cons.inj rest
      exact before earlier ask others rfl

/-- The pass lemma. -/
theorem askPeers_collected (publishes : PublishesKey1 sha256 key1 ownName uuid4 publication split participants)
    (apart : NamedApart peers) (asks : List (Json × Reply))
    (collected : Collected publication split share peers all decoder)
    (asked : ∀ ask ∈ asks, ask.1 ∈ peers ∧ peerName ask.1 ∉ all.map peerName)
    (once : (asks.map fun ask => peerName ask.1).Nodup)
    (genuine : ∀ ask ∈ asks, PassedOver formatted uuid ask.2 ∨
      AnswersOwn formatted uuid publication share ask.1 ask.2) :
    ∃ last, askPeers formatted uuid decoder asks =
        .ok (last, contributed formatted uuid (passSteps formatted uuid decoder asks)) ∧
      Collected publication split share peers
        (all ++ contributed formatted uuid (passSteps formatted uuid decoder asks)) last ∧
      BeforeAsks formatted uuid publication split share peers all (passSteps formatted uuid decoder asks) := by
  induction asks generalizing all decoder with
  | nil =>
    refine ⟨decoder, rfl, ?_, fun earlier ask later shape => ?_⟩
    · rw [show contributed formatted uuid (passSteps formatted uuid decoder []) = [] from rfl, List.append_nil]
      exact collected
    · simp [passSteps_nil] at shape
  | cons ask rest inductionHypothesis =>
    obtain ⟨peer, reply⟩ := ask
    cases waiting : decoder.readyToDecode with
    | true =>
      have none : passSteps formatted uuid decoder ((peer, reply) :: rest) = [] :=
        passSteps_of_ready waiting _
      rw [none]
      refine ⟨decoder, by simp [askPeers_cons, waiting, contributed], ?_, fun earlier ask later shape => ?_⟩
      · rw [show contributed formatted uuid [] = [] from rfl, List.append_nil]
        exact collected
      · simp at shape
    | false =>
      obtain ⟨listed, new⟩ := asked _ List.mem_cons_self
      obtain ⟨address, addressed⟩ := apart.addressed peer listed
      rw [List.map_cons, List.nodup_cons] at once
      have short := collected.short waiting
      cases genuine _ List.mem_cons_self with
      | inl passed =>
        obtain ⟨silent, outcome⟩ := passedOver_outcome decoder addressed passed
        obtain ⟨last, askedRest, collectedLast, before⟩ := inductionHypothesis collected
          (fun ask member => asked ask (List.mem_cons_of_mem _ member)) once.2
          (fun ask member => genuine ask (List.mem_cons_of_mem _ member))
        have nothing : contributed formatted uuid [⟨decoder, peer, reply⟩] = [] := by simp [contributed, silent]
        have steps := passSteps_cons_ok rest waiting outcome
        have same : contributed formatted uuid (passSteps formatted uuid decoder ((peer, reply) :: rest)) =
            contributed formatted uuid (passSteps formatted uuid decoder rest) := by
          rw [steps, ← List.singleton_append, contributed_append, nothing, List.nil_append]
        refine ⟨last, ?_, by rwa [same], ?_⟩
        · simp only [askPeers_cons, waiting, Bool.false_eq_true, ↓reduceIte, outcome, ok_bind, askedRest]
          rw [same]
          rfl
        · rw [steps]
          refine .cons collected short new (by rw [silent]; exact outcome) ?_
          rwa [nothing, List.append_nil]
      | inr answers =>
        obtain ⟨heard, after, outcome, collectedAfter⟩ := collected.answers publishes waiting listed
          (apart.named peer listed) addressed new answers
        obtain ⟨last, askedRest, collectedLast, before⟩ := inductionHypothesis collectedAfter
          (by
            intro other member
            obtain ⟨otherListed, otherNew⟩ := asked other (List.mem_cons_of_mem _ member)
            refine ⟨otherListed, ?_⟩
            rw [List.map_append, List.mem_append, not_or]
            refine ⟨otherNew, fun same => once.1 ?_⟩
            rw [← List.mem_singleton.mp same]
            exact List.mem_map_of_mem (f := fun ask : Json × Reply => peerName ask.1) member)
          once.2 (fun ask member => genuine ask (List.mem_cons_of_mem _ member))
        have one : contributed formatted uuid [⟨decoder, peer, reply⟩] = [peer] := by simp [contributed, heard]
        have steps := passSteps_cons_ok rest waiting outcome
        have same : contributed formatted uuid (passSteps formatted uuid decoder ((peer, reply) :: rest)) =
            peer :: contributed formatted uuid (passSteps formatted uuid after rest) := by
          rw [steps, ← List.singleton_append, contributed_append, one, List.singleton_append]
        refine ⟨last, ?_, ?_, ?_⟩
        · simp only [askPeers_cons, waiting, Bool.false_eq_true, ↓reduceIte, outcome, ok_bind, askedRest]
          rw [same]
          rfl
        · rwa [same, ← List.singleton_append, ← List.append_assoc]
        · rw [steps]
          refine .cons collected short new (by rw [heard]; exact outcome) ?_
          rwa [one]

/-! ## All rounds -/

/-- The members of `contributed`. -/
def names (all : List Json) : List Json := all.map fun peer => .str (peerName peer)

theorem names_append (all more : List Json) : names (all ++ more) = names all ++ names more := List.map_append

theorem contributedNames_named {contributors : List Json}
    (named : ∀ peer ∈ contributors, peer.getItem "name" = .ok (.str (peerName peer))) :
    contributedNames contributors = .ok (names contributors) := by
  induction contributors with
  | nil => rfl
  | cons peer rest inductionHypothesis =>
    rw [contributedNames, named peer List.mem_cons_self, ok_bind,
      inductionHypothesis fun other member => named other (List.mem_cons_of_mem _ member)]
    rfl

theorem outstanding_iff {peer : Json} (named : peer.getItem "name" = .ok (.str (peerName peer))) :
    outstanding (names all) peer = true ↔ peerName peer ∉ all.map peerName := by
  have sameName : ∀ other : Json,
      (Json.str (peerName peer)).sameMember (.str (peerName other)) = true ↔ peerName other = peerName peer := by
    intro other
    rw [Json.sameMember_str, Json.str.injEq]
  rw [outstanding_of_named named, Bool.not_eq_true', ← Bool.not_eq_true, names, List.any_map, List.any_eq_true,
    List.mem_map]
  simp only [Function.comp_apply, sameName]

theorem roundSteps_cons_ok {contributed asked contributors more : List Json} {after : ShamirSecret} {round : Round}
    (rest : List Round) (waiting : decoder.readyToDecode = false) (everyone : candidates contributed peers = .ok asked)
    (pass : askPeers formatted uuid decoder (round.asks uuid asked) = .ok (after, contributors))
    (named : contributedNames contributors = .ok more) :
    roundSteps formatted uuid peers decoder contributed (round :: rest) =
      passSteps formatted uuid decoder (round.asks uuid asked) ++
        roundSteps formatted uuid peers after (contributed ++ more) rest := by
  rw [roundSteps_cons, waiting]
  simp only [Bool.false_eq_true, ↓reduceIte, everyone, pass, named]

/-- The run lemma, over the rounds. -/
theorem collectRounds_collected (publishes : PublishesKey1 sha256 key1 ownName uuid4 publication split participants)
    (apart : NamedApart peers) {rounds : List Round}
    (collected : Collected publication split share peers all decoder)
    (genuine : ∀ round ∈ rounds, ∀ peer ∈ peers, PassedOver formatted uuid (round.answer peer uuid) ∨
      AnswersOwn formatted uuid publication share peer (round.answer peer uuid)) :
    ∃ last, collectRounds formatted uuid peers decoder (names all) rounds = .ok last ∧
      Collected publication split share peers
        (all ++ contributed formatted uuid (roundSteps formatted uuid peers decoder (names all) rounds)) last ∧
      BeforeAsks formatted uuid publication split share peers all
        (roundSteps formatted uuid peers decoder (names all) rounds) := by
  induction rounds generalizing all decoder with
  | nil =>
    refine ⟨decoder, rfl, ?_, fun earlier ask later shape => ?_⟩
    · rw [roundSteps_nil, show contributed formatted uuid [] = [] from rfl, List.append_nil]
      exact collected
    · simp [roundSteps_nil] at shape
  | cons round rest inductionHypothesis =>
    cases waiting : decoder.readyToDecode with
    | true =>
      have none : roundSteps formatted uuid peers decoder (names all) (round :: rest) = [] := by
        simp [roundSteps_cons, waiting]
      rw [none]
      refine ⟨decoder, by simp [collectRounds_cons, waiting], ?_, fun earlier ask later shape => ?_⟩
      · rw [show contributed formatted uuid [] = [] from rfl, List.append_nil]
        exact collected
      · simp at shape
    | false =>
      have everyone := candidates_ok (names all) fun peer member => ⟨_, apart.named peer member, rfl⟩
      have selected : ∀ peer ∈ round.shuffle (peers.filter (outstanding (names all))),
          peer ∈ peers ∧ peerName peer ∉ all.map peerName := by
        intro peer member
        obtain ⟨listed, open'⟩ := List.mem_filter.mp ((round.permutes _).subset member)
        exact ⟨listed, (outstanding_iff (apart.named peer listed)).mp open'⟩
      have once : ((round.shuffle (peers.filter (outstanding (names all)))).map peerName).Nodup :=
        (((round.permutes _).map peerName).nodup_iff).mpr (apart.apart.sublist (List.filter_sublist.map peerName))
      obtain ⟨after, asked, collectedAfter, before⟩ := askPeers_collected publishes apart
        (round.asks uuid (peers.filter (outstanding (names all)))) collected
        (by
          intro ask member
          obtain ⟨peer, shuffled, rfl⟩ := List.mem_map.mp member
          exact selected peer shuffled)
        (by simpa only [Round.asks, List.map_map, Function.comp_def] using once)
        (by
          intro ask member
          obtain ⟨peer, shuffled, rfl⟩ := List.mem_map.mp member
          exact genuine round List.mem_cons_self peer (selected peer shuffled).1)
      have contributors := contributedNames_named fun peer member =>
        apart.named peer (collectedAfter.listed peer (List.mem_append_right _ member))
      obtain ⟨last, collectedRest, collectedLast, beforeRest⟩ := inductionHypothesis collectedAfter
        fun other member => genuine other (List.mem_cons_of_mem _ member)
      rw [names_append] at collectedRest collectedLast beforeRest
      have steps := roundSteps_cons_ok rest waiting everyone asked contributors
      refine ⟨last, ?_, ?_, ?_⟩
      · simp only [collectRounds_cons, waiting, Bool.false_eq_true, ↓reduceIte, everyone, ok_bind, asked, contributors]
        exact collectedRest
      · rw [steps, contributed_append, ← List.append_assoc]
        exact collectedLast
      · rw [steps]
        exact before.append beforeRest

end Rounds

/-! ## The boot -/

/-- Whatever peers fail and in whichever rounds: the loop holds exactly one share of each
peer that has answered, asks only others, and asks nobody once the treshold is reached; it
then returns the KEY1 that was dealt, and until then it goes on. -/
theorem key1_collected_exactly (formatted : Json → String) (sha256 : Bytes → String) (intOf : String → Option Int)
    (key1 ownName uuid4 now decoderUuid : String) (typed : List Host) (draws : List ChunkDraws)
    (publication : Key1Publication)
    (dealt : dealKey1 sha256 key1 typed ownName uuid4 now draws = .ok (some publication))
    (hosts ownHost : Json) (peers : List Json) (listed : Listed hosts) (own : ownHostEntry hosts = .ok ownHost)
    (named : ownHost.getItem "name" = .ok (.str ownName)) (trusted : trustedPeers hosts (.str ownName) = .ok peers)
    (config : Dict String)
    (settings : key1Settings intOf .key1ReconstructionError config =
      .ok ⟨"key1", uuid4, some publication.treshold, some publication.shares⟩)
    (share : Json → List Point) (rounds : List Round)
    (genuine : ∀ round ∈ rounds, ∀ peer ∈ peers, PassedOver formatted (.str uuid4) (round.answer peer (.str uuid4)) ∨
      AnswersOwn formatted (.str uuid4) publication share peer (round.answer peer (.str uuid4))) :
    let fresh := ShamirSecret.fresh (.str "key1") (.str ownName) publication.shares publication.treshold decoderUuid
    let asks := roundSteps formatted (.str uuid4) peers fresh [] rounds
    (∀ earlier ask later, asks = earlier ++ ask :: later →
      ask.decoder.decodingParticipantsKeys = (contributed formatted (.str uuid4) earlier).map share ∧
      ((contributed formatted (.str uuid4) earlier).map peerName).Nodup ∧
      ((contributed formatted (.str uuid4) earlier).length : Int) < publication.treshold ∧
      ask.peer ∈ peers ∧ peerName ask.peer ∉ (contributed formatted (.str uuid4) earlier).map peerName ∧
      ∃ after, askPeer formatted (.str uuid4) ask.decoder ask.peer ask.reply =
        .ok (answered formatted (.str uuid4) ask, after)) ∧
    (∃ last, collectRounds formatted (.str uuid4) peers fresh [] rounds = .ok last ∧
      last.decodingParticipantsKeys = (contributed formatted (.str uuid4) asks).map share ∧
      ((contributed formatted (.str uuid4) asks).map peerName).Nodup ∧
      (last.readyToDecode = true ↔
        ((contributed formatted (.str uuid4) asks).length : Int) = publication.treshold)) ∧
    collectKey1 formatted sha256 intOf config decoderUuid hosts rounds =
      if peers = [] then .error (.key1ReconstructionError "no trusted peers in hosts.json to ask for key1 shares")
      else if ((contributed formatted (.str uuid4) asks).length : Int) = publication.treshold then .ok (some key1)
      else .ok none := by
  intro fresh asks
  obtain ⟨split, participants, publishes⟩ := dealKey1_eq_ok dealt
  have start : Collected publication split share peers [] fresh :=
    { holding := holding_fresh split publication.shares publication.treshold decoderUuid
        (.inl (by rw [publishes.name])) (.inl (by rw [publishes.owner]))
      few := by
        have lower := split.tresholdLower
        simp only [List.length_nil, Nat.cast_zero]
        omega
      listed := by simp
      distinct := by simp
      owned := by simp }
  obtain ⟨last, collected, collectedLast, before⟩ :=
    collectRounds_collected publishes (trustedPeers_named listed trusted) start genuine
  rw [List.nil_append] at collectedLast
  have complete := collectedLast.ready
  rw [← publishes.treshold] at complete
  refine ⟨?_, ⟨last, collected, collectedLast.holding.keys, collectedLast.distinct, complete⟩, ?_⟩
  · intro earlier ask later shape
    obtain ⟨holds, few, new, outcome⟩ := before earlier ask later shape
    rw [List.nil_append] at holds few new
    have member : ask ∈ asks := by
      rw [shape]
      exact List.mem_append_right earlier List.mem_cons_self
    obtain ⟨_, _, inside, _⟩ := mem_of_mem_roundSteps member
    exact ⟨holds.holding.keys, holds.distinct, by rwa [publishes.treshold], inside, new, outcome⟩
  · have built : construct (.str "key1") (.str ownName) (some publication.shares) (some publication.treshold)
        decoderUuid = .ok fresh := by
      rw [publishes.shares, publishes.treshold]
      exact (ShamirSecret.init_of_valid _ _ decoderUuid split.tresholdLower split.tresholdUpper).trans (by
        rw [← publishes.shares, ← publishes.treshold])
    rw [collectKey1_of_lookups rounds settings own named trusted built]
    by_cases nobody : peers = []
    · rw [if_pos nobody, if_pos nobody]
    · rw [if_neg nobody, if_neg nobody]
      rw [show collectRounds formatted (.str uuid4) peers fresh [] rounds = .ok last from collected]
      by_cases enough : ((contributed formatted (.str uuid4) asks).length : Int) = publication.treshold
      · have ready := complete.mpr enough
        have decoded : last.decode sha256 = .ok key1 := by
          refine collectedLast.holding.decode_secret ?_ sha256 key1 publishes.hides.chunked publishes.hides.hashed
          rw [List.length_map, ← publishes.treshold]
          exact enough.ge
        rw [if_pos enough]
        simp only [ok_bind, ready, ↓reduceIte, decoded]
        rfl
      · have waiting : last.readyToDecode = false := by
          rw [← Bool.not_eq_true, complete]
          exact enough
        rw [if_neg enough]
        simp only [ok_bind, waiting, Bool.false_eq_true, ↓reduceIte]
        rfl

/-! ## Three hosts -/

def sampleTyped : List Host := ["host1", "host2", "host3"].map fun name => ⟨name, "10.0.0.1", [], "server"⟩

def sampleDraws : List ChunkDraws := [⟨[5], [0, 0, 1]⟩, ⟨[7], [2, 3]⟩]

def samplePoints (peer : Json) : List Point :=
  if peerName peer = "host2" then [(1, 7), (3, 7523544652499124245)] else [(2, 12), (4, 7523544652499124252)]

def sampleRecord (peer : Json) : ParticipantData where
  keys := samplePoints peer
  creationDate := .str "now"
  owner := .str "host1"
  name := .str "key1"
  uuid := .str "u1"
  treshold := 2
  shares := 2
  secretHash := .str (sampleSha256 (encodeUtf8 "hi"))

/-- The peers that are up hand out what they have got. -/
def sampleTry (up : Json → Bool) : Round where
  shuffle := List.reverse
  permutes := List.reverse_perm
  answer := fun peer _ => if up peer then .response 200 (.document (sampleRecord peer).toJson) else .osError

def sampleTwo : Dict String :=
  [("key1-name", "key1"), ("key1-uuid", "u1"), ("key1-treshold", "2"), ("key1-shares", "2")]

def sampleDigit (text : String) : Option Int := if text = "2" then some 2 else none

def samplePublication : Key1Publication where
  uuid := .str "u1"
  treshold := 2
  shares := 2
  deliveries := [(⟨"host2", "10.0.0.1", [], "server"⟩, sampleRecord (samplePeer "host2")),
    (⟨"host3", "10.0.0.1", [], "server"⟩, sampleRecord (samplePeer "host3"))]

theorem samplePublication_dealt :
    dealKey1 sampleSha256 "hi" sampleTyped "host1" "u1" "now" sampleDraws = .ok (some samplePublication) := rfl

def sampleThree : Json := buildHostsData sampleTyped "host1" 59222 "now"

def sampleTrusted : List Json :=
  match trustedPeers sampleThree (.str "host1") with
  | .ok peers => peers
  | .error _ => []

def sampleUp (name : String) (peer : Json) : Bool := peerName peer = name

theorem sampleTry_genuine (up : Json → Bool) : ∀ peer ∈ sampleTrusted,
    PassedOver sampleText (.str "u1") ((sampleTry up).answer peer (.str "u1")) ∨
      AnswersOwn sampleText (.str "u1") samplePublication samplePoints peer
        ((sampleTry up).answer peer (.str "u1")) := by
  have hosts : ∀ peer ∈ sampleTrusted, ∃ host, (host, sampleRecord peer) ∈ samplePublication.deliveries ∧
      peer.getItem "name" = .ok (.str host.name) := by
    intro peer member
    have cases : peer = sampleTrusted[0] ∨ peer = sampleTrusted[1] := by
      simpa [List.mem_cons] using (show peer ∈ [sampleTrusted[0], sampleTrusted[1]] from member)
    cases cases with
    | inl first =>
      subst first
      exact ⟨_, List.mem_cons_self, rfl⟩
    | inr second =>
      subst second
      exact ⟨_, List.mem_cons_of_mem _ List.mem_cons_self, rfl⟩
  intro peer member
  obtain ⟨host, delivery, named⟩ := hosts peer member
  cases online : up peer with
  | false =>
    refine .inl ⟨.osError, ?_, rfl⟩
    simp [sampleTry, online, retrieveShare]
  | true =>
    refine .inr ⟨host, _, (sampleRecord peer).toJson, delivery, named, ?_, reads_toJson _, rfl⟩
    simp [sampleTry, online, retrieveShare, loads]

/-- One peer is up in the first round, none in the second, the other in the third. -/
theorem key1_collected_after_retry :
    dealKey1 sampleSha256 "hi" sampleTyped "host1" "u1" "now" sampleDraws = .ok (some samplePublication) ∧
    collectKey1 sampleText sampleSha256 sampleDigit sampleTwo "u2" sampleThree
      [sampleTry (sampleUp "host3"), sampleTry (sampleUp "none"), sampleTry (sampleUp "host2")] = .ok (some "hi") := by
  refine ⟨samplePublication_dealt, ?_⟩
  have exactly := (key1_collected_exactly sampleText sampleSha256 sampleDigit "hi" "host1" "u1" "now" "u2" sampleTyped
    sampleDraws samplePublication samplePublication_dealt sampleThree _ sampleTrusted
    (listed_buildHostsData _ _ _ _) rfl rfl rfl sampleTwo rfl samplePoints
    [sampleTry (sampleUp "host3"), sampleTry (sampleUp "none"), sampleTry (sampleUp "host2")]
    (by
      intro round member
      simp only [List.mem_cons, List.not_mem_nil, or_false] at member
      rcases member with rfl | rfl | rfl
      · exact sampleTry_genuine _
      · exact sampleTry_genuine _
      · exact sampleTry_genuine _)).2.2
  refine exactly.trans ?_
  rw [if_neg (by decide), if_pos (by decide +kernel)]

end SecretWeb.Client
