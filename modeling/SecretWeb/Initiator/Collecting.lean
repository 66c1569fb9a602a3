import SecretWeb.Client.Rounds
import SecretWeb.Initiator.StructuralFaults

/-! # The retry loop between two requests

`_collect_key1` may go on for hours, and between two of its requests everything else may
happen.  Here it stops after every request; put together again, the steps of a round are the
round. -/

namespace SecretWeb.Initiator

open SecretWeb.Data SecretWeb.Python SecretWeb.HostsData SecretWeb.Shamir SecretWeb.Client SecretWeb.Setup

/-- The loop where it waits: the members of `contributed`, and the candidates of the round that
have not been asked yet. -/
structure Collecting where
  loop : Key1Loop
  decoder : ShamirSecret
  contributed : List Json
  left : List Json

/-- `random.shuffle`. -/
structure Shuffle where
  order : List Json → List Json
  permutes : ∀ peers, (order peers).Perm peers

def Key1Loop.enter (loop : Key1Loop) : Collecting := ⟨loop, loop.decoder, [], []⟩

section Steps

variable (formatted : Json → String)

/-- A new round, once the last one is over. -/
def Collecting.nextRound (collecting : Collecting) (shuffle : Shuffle) : Except PyException Collecting :=
  if collecting.decoder.readyToDecode then .ok collecting
  else
    match collecting.left with
    | [] => do
      let asked ← candidates collecting.contributed collecting.loop.peers
      return { collecting with left := shuffle.order asked }
    | _ => .ok collecting

/-- The next candidate of the round, with the reply it gives when it is asked. -/
def Collecting.heardLogged (collecting : Collecting) (reply : Reply) : Logged PyException Ask Collecting :=
  match collecting.left with
  | [] => pure collecting
  | peer :: rest =>
    if collecting.decoder.readyToDecode then pure { collecting with left := [] }
    else do
      let (accepted, after) ← Logged.noted ⟨collecting.decoder, peer, reply⟩
        (askPeer formatted (.str collecting.loop.uuid) collecting.decoder peer reply)
      let names ← Logged.silent (contributedNames (if accepted then [peer] else []))
      return { collecting with decoder := after, contributed := collecting.contributed ++ names, left := rest }

def Collecting.heard (collecting : Collecting) (reply : Reply) : Except PyException Collecting :=
  (collecting.heardLogged formatted reply).outcome

/-! ## Back to whole rounds -/

/-- The rest of a round: so many of the candidates are asked. -/
def Collecting.pass (answer : Json → Reply) : (count : Nat) → Collecting → Logged PyException Ask Collecting
  | 0, collecting => pure collecting
  | count + 1, collecting =>
    match collecting.left with
    | [] => pure collecting
    | peer :: _ => do
      let after ← collecting.heardLogged formatted (answer peer)
      after.pass answer count

def Round.shuffled (round : Round) : Shuffle := ⟨round.shuffle, round.permutes⟩

/-- A round from its beginning to its end. -/
def Collecting.whole (collecting : Collecting) (round : Round) : Logged PyException Ask Collecting := do
  let begun ← Logged.silent (collecting.nextRound (Round.shuffled round))
  begun.pass formatted (round.answer · (.str collecting.loop.uuid)) begun.left.length

variable {formatted}

theorem heard_of_nobody {collecting : Collecting} (reply : Reply) (finished : collecting.left = []) :
    collecting.heard formatted reply = .ok collecting := by
  rw [Collecting.heard, Collecting.heardLogged, finished]
  rfl

theorem heard_of_ready {collecting : Collecting} {peer : Json} {rest : List Json} (reply : Reply)
    (next : collecting.left = peer :: rest) (ready : collecting.decoder.readyToDecode = true) :
    collecting.heard formatted reply = .ok { collecting with left := [] } := by
  rw [Collecting.heard, Collecting.heardLogged, next]
  dsimp only
  rw [if_pos ready]
  rfl

theorem heard_of_waiting {collecting : Collecting} {peer : Json} {rest : List Json} (reply : Reply)
    (next : collecting.left = peer :: rest) (waiting : collecting.decoder.readyToDecode = false) :
    collecting.heard formatted reply = (do
      let (accepted, after) ← askPeer formatted (.str collecting.loop.uuid) collecting.decoder peer reply
      let names ← contributedNames (if accepted then [peer] else [])
      return { collecting with decoder := after, contributed := collecting.contributed ++ names, left := rest }) := by
  rw [Collecting.heard, Collecting.heardLogged, next]
  simp only [waiting, Bool.false_eq_true, ↓reduceIte, Logged.outcome_bind, Logged.outcome_noted, Logged.outcome_silent,
    Logged.outcome_pure]
  rfl

theorem loop_heard {collecting after : Collecting} {reply : Reply}
    (heard : collecting.heard formatted reply = .ok after) : after.loop = collecting.loop := by
  cases next : collecting.left with
  | nil =>
    rw [heard_of_nobody reply next] at heard
    cases heard
    rfl
  | cons peer rest =>
    cases waiting : collecting.decoder.readyToDecode with
    | true =>
      rw [heard_of_ready reply next waiting] at heard
      cases heard
      rfl
    | false =>
      rw [heard_of_waiting reply next waiting] at heard
      obtain ⟨_, _, heard⟩ := bind_eq_ok.mp heard
      obtain ⟨_, _, heard⟩ := bind_eq_ok.mp heard
      cases heard
      rfl

theorem pass_of_nothing (collecting : Collecting) (answer : Json → Reply) (count : Nat)
    (finished : collecting.left = []) : collecting.pass formatted answer count = pure collecting := by
  cases count with
  | zero => rfl
  | succ count => rw [Collecting.pass, finished]

/-- The candidates that are left, asked one after the other, come to what the loop over them
comes to. -/
theorem pass_eq {collecting : Collecting} {answer : Json → Reply}
    (named : ∀ peer ∈ collecting.left, ∃ name, peer.getItem "name" = .ok name) :
    collecting.pass formatted answer collecting.left.length = (do
      let (after, contributors) ← askPeersLogged formatted (.str collecting.loop.uuid) collecting.decoder
        (collecting.left.map fun peer => (peer, answer peer))
      let names ← Logged.silent (contributedNames contributors)
      return { collecting with decoder := after, contributed := collecting.contributed ++ names, left := [] }) := by
  obtain ⟨loop, decoder, contributed, left⟩ := collecting
  dsimp only at named ⊢
  induction left generalizing decoder contributed with
  | nil =>
    show _ = (pure (⟨loop, decoder, contributed ++ [], []⟩ : Collecting) : Logged PyException Ask Collecting)
    rw [List.append_nil]
    rfl
  | cons peer rest inductionHypothesis =>
    rw [List.length_cons, Collecting.pass, List.map_cons, askPeersLogged]
    unfold Collecting.heardLogged
    cases waiting : decoder.readyToDecode with
    | true =>
      -- the `break`
      simp only [↓reduceIte, pure_bind]
      rw [pass_of_nothing _ _ _ rfl]
      show _ = (pure (⟨loop, decoder, contributed ++ [], []⟩ : Collecting) : Logged PyException Ask Collecting)
      rw [List.append_nil]
    | false =>
      obtain ⟨name, found⟩ := named peer List.mem_cons_self
      have restNamed : ∀ other ∈ rest, ∃ name, other.getItem "name" = .ok name :=
        fun other member => named other (List.mem_cons_of_mem _ member)
      have one : contributedNames [peer] = .ok [name] := by rw [contributedNames, found]; rfl
      have nobody : contributedNames [] = .ok [] := rfl
      simp only [Bool.false_eq_true, ↓reduceIte, LawfulMonad.bind_assoc, pure_bind]
      refine bind_congr fun asked => ?_
      obtain ⟨accepted, after⟩ := asked
      cases accepted with
      | true =>
        simp only [↓reduceIte, one, Logged.silent_bind]
        rw [inductionHypothesis _ _ restNamed]
        refine bind_congr fun asked => ?_
        obtain ⟨last, contributors⟩ := asked
        rw [contributedNames, found, ok_bind]
        cases contributedNames contributors with
        | error exception => rfl
        | ok names =>
          show pure (⟨loop, last, contributed ++ [name] ++ names, []⟩ : Collecting) = _
          rw [List.append_assoc, List.singleton_append]
          rfl
      | false =>
        simp only [Bool.false_eq_true, ↓reduceIte, nobody, Logged.silent_bind, List.append_nil]
        exact inductionHypothesis _ _ restNamed

/-- A round of the steps is a round of the loop. -/
theorem whole_eq {collecting : Collecting} (round : Round) (finished : collecting.left = []) :
    collecting.whole formatted round =
      if collecting.decoder.readyToDecode then pure collecting
      else do
        let asked ← Logged.silent (candidates collecting.contributed collecting.loop.peers)
        let (after, contributors) ← askPeersLogged formatted (.str collecting.loop.uuid) collecting.decoder
          (round.asks (.str collecting.loop.uuid) asked)
        let names ← Logged.silent (contributedNames contributors)
        return { collecting with decoder := after, contributed := collecting.contributed ++ names } := by
  obtain ⟨loop, decoder, contributed, left⟩ := collecting
  dsimp only at finished ⊢
  subst finished
  rw [Collecting.whole, Collecting.nextRound]
  cases waiting : decoder.readyToDecode with
  | true => rfl
  | false =>
    simp only [Bool.false_eq_true, ↓reduceIte]
    cases computed : candidates contributed loop.peers with
    | error exception => rfl
    | ok asked =>
      obtain ⟨chosen, allNamed⟩ := candidates_eq_ok computed
      show Collecting.pass formatted _ (round.shuffle asked).length ⟨loop, decoder, contributed, round.shuffle asked⟩ = _
      refine @pass_eq formatted ⟨loop, decoder, contributed, round.shuffle asked⟩ _ fun peer member => ?_
      have listed : peer ∈ asked := (round.permutes asked).subset member
      rw [chosen] at listed
      obtain ⟨name, found, _⟩ := allNamed peer (List.mem_filter.mp listed).1
      exact ⟨name, found⟩

/-- The stepwise loop collects what `_collect_key1` collects, from the same peers in the same
order, whatever rounds it goes through. -/
theorem steps_collect (collecting : Collecting) (finished : collecting.left = []) (rounds : List Round) :
    (do
      let last ← rounds.foldlM (Collecting.whole formatted) collecting
      return last.decoder) =
      collectRoundsLogged formatted (.str collecting.loop.uuid) collecting.loop.peers collecting.decoder
        collecting.contributed rounds := by
  induction rounds generalizing collecting with
  | nil => rfl
  | cons round rest inductionHypothesis =>
    rw [List.foldlM_cons, whole_eq round finished, collectRoundsLogged]
    cases waiting : collecting.decoder.readyToDecode with
    | true =>
      simp only [↓reduceIte, pure_bind]
      rw [inductionHypothesis collecting finished]
      cases rest with
      | nil => rfl
      | cons next others => rw [collectRoundsLogged, if_pos waiting]
    | false =>
      simp only [Bool.false_eq_true, ↓reduceIte, LawfulMonad.bind_assoc, pure_bind]
      refine bind_congr fun chosen => ?_
      refine bind_congr fun asked => ?_
      obtain ⟨after, contributors⟩ := asked
      refine bind_congr fun names => ?_
      exact inductionHypothesis { collecting with decoder := after, contributed := collecting.contributed ++ names }
        finished

/-- From its beginning on the stepwise loop does what the loop of `_collect_key1` does, whatever
is answered in whatever order: it asks the same peers in the same order with the same decoder,
raises what that raises, and comes to the same KEY1. -/
theorem stepwise_run (loop : Key1Loop) (rounds : List Round) (sha256 : Bytes → String) :
    (do
      let last ← rounds.foldlM (Collecting.whole formatted) loop.enter
      if last.decoder.readyToDecode then
        let key1 ← Logged.silent (last.decoder.decode sha256)
        return some key1
      else return none) = loop.runLogged formatted sha256 rounds := by
  have collected := @steps_collect formatted loop.enter rfl rounds
  change _ = collectRoundsLogged formatted (.str loop.uuid) loop.peers loop.decoder [] rounds at collected
  rw [Key1Loop.runLogged, ← collected, LawfulMonad.bind_assoc]
  simp only [pure_bind]

end Steps

/-! ## What the loop has gathered -/

/-- The decoder holds a share of each peer that has contributed, and those that are left to be
asked have not. -/
structure Gathers (publication : Key1Publication) (split : Split) (share : Json → List Point) (collecting : Collecting)
    (all : List Json) : Prop where
  contributed : collecting.contributed = names all
  collected : Collected publication split share collecting.loop.peers all collecting.decoder
  listed : ∀ peer ∈ collecting.left, peer ∈ collecting.loop.peers
  new : ∀ peer ∈ collecting.left, peerName peer ∉ all.map peerName
  distinct : (collecting.left.map peerName).Nodup

section Gathering

variable {formatted : Json → String} {sha256 : Bytes → String} {key1 ownName uuid4 : String}
  {publication : Key1Publication} {split : Split} {participants : List (List Point)} {share : Json → List Point}
  {collecting : Collecting} {all : List Json}

theorem gathers_enter {loop : Key1Loop} {decoderUuid : String}
    (fresh : loop.decoder = ShamirSecret.fresh (.str split.name) (.str split.owner) split.shares split.treshold
      decoderUuid) : Gathers publication split share loop.enter [] where
  contributed := rfl
  collected :=
    { holding := by
        rw [Key1Loop.enter, fresh]
        exact holding_fresh split split.shares split.treshold decoderUuid (.inl rfl) (.inl rfl)
      few := by
        have lower := split.tresholdLower
        simp only [List.length_nil, Nat.cast_zero]
        omega
      listed := by simp
      distinct := by simp
      owned := by simp }
  listed := by simp [Key1Loop.enter]
  new := by simp
  distinct := by simp [Key1Loop.enter]

/-- A round starts with those that have not contributed, each of them once. -/
theorem Gathers.nextRound (gathers : Gathers publication split share collecting all)
    (apart : NamedApart collecting.loop.peers) (shuffle : Shuffle) :
    ∃ after, collecting.nextRound shuffle = .ok after ∧ after.loop = collecting.loop ∧
      Gathers publication split share after all ∧
      (collecting.left = [] → collecting.decoder.readyToDecode = false →
        ∀ peer ∈ collecting.loop.peers, peerName peer ∉ all.map peerName → peer ∈ after.left) := by
  rw [Collecting.nextRound]
  cases waiting : collecting.decoder.readyToDecode with
  | true => exact ⟨collecting, rfl, rfl, gathers, by simp⟩
  | false =>
    rw [if_neg Bool.false_ne_true]
    cases left : collecting.left with
    | cons peer rest => exact ⟨collecting, rfl, rfl, gathers, by simp⟩
    | nil =>
      have everyone := candidates_ok (names all) fun peer member => ⟨_, apart.named peer member, rfl⟩
      rw [← gathers.contributed] at everyone
      simp only [everyone, ok_bind]
      have chosen : ∀ peer, peer ∈ shuffle.order (collecting.loop.peers.filter (outstanding collecting.contributed)) ↔
          peer ∈ collecting.loop.peers ∧ peerName peer ∉ all.map peerName := by
        intro peer
        rw [(shuffle.permutes _).mem_iff, List.mem_filter, gathers.contributed]
        exact and_congr_right fun listed => outstanding_iff (apart.named peer listed)
      refine ⟨_, rfl, rfl, ⟨gathers.contributed, gathers.collected, fun peer member => ((chosen peer).mp member).1,
        fun peer member => ((chosen peer).mp member).2, ?_⟩, fun _ _ peer listed new => (chosen peer).mpr ⟨listed, new⟩⟩
      exact (((shuffle.permutes _).map peerName).nodup_iff).mpr
        (apart.apart.sublist (List.filter_sublist.map peerName))

/-- One reply: the peer is passed over, or its own share is added. -/
theorem Gathers.heard (publishes : PublishesKey1 sha256 key1 ownName uuid4 publication split participants)
    (gathers : Gathers publication split share collecting all) (apart : NamedApart collecting.loop.peers)
    (waiting : collecting.decoder.readyToDecode = false) {peer : Json} {rest : List Json}
    (next : collecting.left = peer :: rest) {reply : Reply}
    (genuine : PassedOver formatted (.str collecting.loop.uuid) reply ∨
      AnswersOwn formatted (.str collecting.loop.uuid) publication share peer reply) :
    ∃ after more, collecting.heard formatted reply = .ok after ∧ after.loop = collecting.loop ∧ after.left = rest ∧
      Gathers publication split share after (all ++ more) ∧
      (AnswersOwn formatted (.str collecting.loop.uuid) publication share peer reply ∧ more = [peer] ∨
        ¬AnswersOwn formatted (.str collecting.loop.uuid) publication share peer reply ∧ more = []) := by
  have listed := gathers.listed peer (next ▸ List.mem_cons_self)
  have new := gathers.new peer (next ▸ List.mem_cons_self)
  have distinct := gathers.distinct
  rw [next, List.map_cons, List.nodup_cons] at distinct
  have named := apart.named peer listed
  obtain ⟨address, addressed⟩ := apart.addressed peer listed
  have listedRest : ∀ other ∈ rest, other ∈ collecting.loop.peers :=
    fun other member => gathers.listed other (next ▸ List.mem_cons_of_mem _ member)
  have newRest : ∀ other ∈ rest, peerName other ∉ all.map peerName :=
    fun other member => gathers.new other (next ▸ List.mem_cons_of_mem _ member)
  rw [heard_of_waiting reply next waiting]
  by_cases answers : AnswersOwn formatted (.str collecting.loop.uuid) publication share peer reply
  · obtain ⟨_, after, asked, collected⟩ := gathers.collected.answers publishes waiting listed named addressed new answers
    have one : contributedNames [peer] = .ok (names [peer]) :=
      contributedNames_named fun other member => by rw [List.mem_singleton.mp member]; exact named
    simp only [asked, ok_bind, ↓reduceIte, one]
    refine ⟨_, [peer], rfl, rfl, rfl, ⟨?_, collected, listedRest, ?_, distinct.2⟩,
      .inl ⟨answers, rfl⟩⟩
    · rw [names_append, gathers.contributed]
    · intro other member
      rw [List.map_append, List.mem_append, not_or]
      refine ⟨newRest other member, fun same => distinct.1 ?_⟩
      rw [← List.mem_singleton.mp same]
      exact List.mem_map_of_mem member
  · obtain passed | answered := genuine
    · have nobody : contributedNames [] = .ok [] := rfl
      simp only [askPeer_passedOver addressed passed, ok_bind, Bool.false_eq_true, ↓reduceIte, nobody, List.append_nil]
      refine ⟨_, [], rfl, rfl, rfl, ⟨?_, ?_, listedRest, ?_, distinct.2⟩, .inr ⟨answers, rfl⟩⟩
      · rw [List.append_nil]
        exact gathers.contributed
      · rw [List.append_nil]
        exact gathers.collected
      · rwa [List.append_nil]
    · exact absurd answered answers

/-- The next request of the loop; nobody is asked once there is enough. -/
theorem Gathers.asked (publishes : PublishesKey1 sha256 key1 ownName uuid4 publication split participants)
    (gathers : Gathers publication split share collecting all) (apart : NamedApart collecting.loop.peers)
    {peer : Json} {rest : List Json} (next : collecting.left = peer :: rest) {reply : Reply}
    (genuine : PassedOver formatted (.str collecting.loop.uuid) reply ∨
      AnswersOwn formatted (.str collecting.loop.uuid) publication share peer reply) :
    ∃ after more, collecting.heard formatted reply = .ok after ∧ after.loop = collecting.loop ∧
      Gathers publication split share after (all ++ more) ∧
      (AnswersOwn formatted (.str collecting.loop.uuid) publication share peer reply ∧ more = [peer] ∨ more = []) := by
  cases waiting : collecting.decoder.readyToDecode with
  | true =>
    refine ⟨{ collecting with left := [] }, [], ?_, rfl, ?_, .inr rfl⟩
    · exact heard_of_ready reply next waiting
    · rw [List.append_nil]
      exact ⟨gathers.contributed, gathers.collected, by simp, by simp, by simp⟩
  | false =>
    obtain ⟨after, more, heard, sameLoop, _, gathersAfter, added⟩ := gathers.heard publishes apart waiting next genuine
    exact ⟨after, more, heard, sameLoop, gathersAfter, added.imp_right And.right⟩

/-- The rest of a round: the decoder gets ready, or everyone who has answered has contributed. -/
theorem Gathers.pass (publishes : PublishesKey1 sha256 key1 ownName uuid4 publication split participants)
    (gathers : Gathers publication split share collecting all) (apart : NamedApart collecting.loop.peers)
    {answer : Json → Reply} {left : List Json} (leftOver : collecting.left = left)
    (genuine : ∀ peer ∈ left, PassedOver formatted (.str collecting.loop.uuid) (answer peer) ∨
      AnswersOwn formatted (.str collecting.loop.uuid) publication share peer (answer peer)) :
    ∃ after more, (collecting.pass formatted answer left.length).outcome = .ok after ∧
      after.loop = collecting.loop ∧ after.left = [] ∧ Gathers publication split share after (all ++ more) ∧
      (after.decoder.readyToDecode = true ∨ ∀ peer ∈ left,
        AnswersOwn formatted (.str collecting.loop.uuid) publication share peer (answer peer) → peer ∈ all ++ more) := by
  induction left generalizing collecting all with
  | nil => exact ⟨collecting, [], rfl, rfl, leftOver, by rwa [List.append_nil], .inr (by simp)⟩
  | cons peer rest inductionHypothesis =>
    rw [List.length_cons, Collecting.pass, leftOver]
    simp only [Logged.outcome_bind]
    cases waiting : collecting.decoder.readyToDecode with
    | true =>
      have heard := @heard_of_ready formatted _ _ _ (answer peer) leftOver waiting
      rw [Collecting.heard] at heard
      rw [heard, ok_bind, pass_of_nothing _ _ _ rfl]
      refine ⟨{ collecting with left := [] }, [], rfl, rfl, rfl, ?_, .inl waiting⟩
      rw [List.append_nil]
      exact ⟨gathers.contributed, gathers.collected, by simp, by simp, by simp⟩
    | false =>
      obtain ⟨after, more, heard, sameLoop, leftAfter, gathersAfter, added⟩ :=
        gathers.heard publishes apart waiting leftOver (genuine peer List.mem_cons_self)
      obtain ⟨last, others, passed, lastLoop, finished, gathersLast, found⟩ :=
        inductionHypothesis gathersAfter (sameLoop ▸ apart) leftAfter fun other member => by
          rw [sameLoop]
          exact genuine other (List.mem_cons_of_mem _ member)
      rw [Collecting.heard] at heard
      rw [heard, ok_bind]
      refine ⟨last, more ++ others, passed, lastLoop.trans sameLoop, finished, by rwa [← List.append_assoc], ?_⟩
      refine found.imp_right fun found other member answers => ?_
      rw [← List.append_assoc]
      cases List.mem_cons.mp member with
      | inl first =>
        subst first
        obtain ⟨_, rfl⟩ | ⟨silent, _⟩ := added
        · exact List.mem_append_left _ (List.mem_append_right _ List.mem_cons_self)
        · exact absurd answers silent
      | inr later => exact found other later (sameLoop ▸ answers)

/-- What has been gathered when the decoder is ready is KEY1. -/
theorem Gathers.decode (publishes : PublishesKey1 sha256 key1 ownName uuid4 publication split participants)
    (gathers : Gathers publication split share collecting all) (ready : collecting.decoder.readyToDecode = true) :
    collecting.decoder.decode sha256 = .ok key1 := by
  refine gathers.collected.holding.decode_secret ?_ sha256 key1 publishes.hides.chunked publishes.hides.hashed
  rw [List.length_map]
  exact (gathers.collected.ready.mp ready).ge

end Gathering

end SecretWeb.Initiator
