import SecretWeb.Client.Availability

/-! # Forged secrets and the treshold of the first share

A decoder takes its treshold from the first share it accepts.  As long as that share does
not claim less than the treshold the secret was split with, fewer compromised peers than
the treshold cannot make a command produce anything but the secret; two of them can as
soon as it claims two. -/

namespace SecretWeb.Client

open SecretWeb.Data SecretWeb.Python SecretWeb.Shamir SecretWeb.HostsData

/-! ## Decoders -/

/-- The document is not one that a blank decoder would take a lower treshold from. -/
def KeepsTreshold (bound : Int) (decoder : ShamirSecret) (document : Json) : Prop :=
  decoder.decodingParticipantsKeys = [] →
    ∀ record, Reads document record → decoder.Admits record → bound ≤ record.treshold

/-- The invariant of a decoder that has accepted so many shares and never a lower treshold. -/
structure Bounded (bound : Int) (accepted : Nat) (decoder : ShamirSecret) : Prop where
  count : decoder.decodingParticipantsKeys.length = accepted
  bound : accepted ≠ 0 → bound ≤ decoder.treshold
  ready : decoder.readyToDecode = true → accepted ≠ 0 ∧ decoder.treshold ≤ accepted

theorem bounded_fresh (bound : Int) (name owner : Json) (shares treshold : Int) (uuid4 : String) :
    Bounded bound 0 (ShamirSecret.fresh name owner shares treshold uuid4) where
  count := rfl
  bound := fun started => absurd rfl started
  ready := fun ready => by cases ready

theorem Bounded.enough {bound : Int} {accepted : Nat} {decoder : ShamirSecret}
    (bounded : Bounded bound accepted decoder) (ready : decoder.readyToDecode = true) :
    bound ≤ accepted := by
  obtain ⟨started, reached⟩ := bounded.ready ready
  exact (bounded.bound started).trans reached

theorem Bounded.accepting {bound : Int} {accepted : Nat} {decoder : ShamirSecret} {document : Json}
    {record : ParticipantData} (bounded : Bounded bound accepted decoder)
    (keeps : KeepsTreshold bound decoder document) (read : Reads document record)
    (admitted : decoder.Admits record) : Bounded bound (accepted + 1) (decoder.accepting record) where
  count := by simp [bounded.count]
  bound := by
    intro _
    show bound ≤ record.treshold
    by_cases started : decoder.decodingParticipantsKeys = []
    · exact keeps started record read admitted
    · rw [← (admitted.adopted started).2.2.2.2.2]
      refine bounded.bound fun none => started ?_
      rw [← bounded.count] at none
      exact List.length_eq_zero_iff.mp none
  ready := by
    intro ready
    refine ⟨Nat.succ_ne_zero accepted, ?_⟩
    show record.treshold ≤ ((accepted + 1 : Nat) : Int)
    simp only [ShamirSecret.accepting_readyToDecode, Bool.or_eq_true, decide_eq_true_eq, bounded.count] at ready
    rcases ready with before | now
    · obtain ⟨started, reached⟩ := bounded.ready before
      have nonempty : decoder.decodingParticipantsKeys ≠ [] := by
        intro empty
        rw [← bounded.count, empty] at started
        exact started rfl
      rw [← (admitted.adopted nonempty).2.2.2.2.2]
      push_cast
      omega
    · push_cast
      exact now

/-! ## Submissions to a decoder -/

/-- The document is an object with all the fields of a share. -/
def HasFields (document : Json) : Prop :=
  ∀ field ∈ ["keys", "creation_date", "owner", "name", "uuid", "treshold", "shares", "secret_hash"],
    ∃ value, document.getItem field = .ok value

/-- The calls of a run: the decoder before each and the document submitted. -/
def submitSteps : ShamirSecret → List Json → List (ShamirSecret × Json)
  | _, [] => []
  | decoder, document :: rest =>
    (decoder, document) :: submitSteps (decoder.populateDecoder document).2 rest

/-- The call accepted its document. -/
def returned : Except PyException Int × ShamirSecret → Bool
  | (.ok _, _) => true
  | (.error _, _) => false

@[simp] theorem returned_ok (needed : Int) (after : ShamirSecret) : returned (.ok needed, after) = true := rfl

@[simp] theorem returned_error (exception : PyException) (after : ShamirSecret) :
    returned (.error exception, after) = false := rfl

/-- With all fields there, a call that raises leaves the decoder as it was. -/
theorem populateDecoder_error_of_hasFields {decoder after : ShamirSecret} {document : Json}
    {exception : PyException} (fields : HasFields document)
    (raised : decoder.populateDecoder document = (.error exception, after)) : after = decoder := by
  unfold ShamirSecret.populateDecoder at raised
  cases checked : decoder.checkSubmission document with
  | error other =>
    rw [checked] at raised
    cases raised
    rfl
  | ok outcome =>
    rw [checked] at raised
    obtain ⟨⟨field, member, missing⟩, _⟩ := ShamirSecret.adopt_raises raised
    have listed : field ∈ ["keys", "creation_date", "owner", "name", "uuid", "treshold", "shares", "secret_hash"] := by
      simp only [List.mem_cons, List.not_mem_nil, or_false] at member
      rcases member with rfl | rfl | rfl | rfl | rfl <;> simp
    obtain ⟨value, read⟩ := fields field listed
    cases missing.symm.trans read

/-- Over a whole run, a decoder that never adopted a lower treshold is not ready on fewer
accepted shares than the treshold. -/
theorem submit_bounded {bound : Int} {accepted : Nat} {decoder : ShamirSecret} {documents : List Json}
    (bounded : Bounded bound accepted decoder) (fields : ∀ document ∈ documents, HasFields document)
    (steps : ∀ step ∈ submitSteps decoder documents, KeepsTreshold bound step.1 step.2)
    (index : Nat) (outcome : Except PyException Int × ShamirSecret)
    (found : (submit decoder documents)[index]? = some outcome)
    (ready : outcome.2.readyToDecode = true) :
    bound ≤ accepted + ((submit decoder documents).take (index + 1)).countP returned := by
  induction documents generalizing accepted decoder index with
  | nil => cases found
  | cons document rest inductionHypothesis =>
    rw [submit] at found ⊢
    simp only [List.take_succ_cons, List.countP_cons]
    have restFields : ∀ document ∈ rest, HasFields document :=
      fun other member => fields other (List.mem_cons_of_mem _ member)
    have keeps : KeepsTreshold bound decoder document := steps _ List.mem_cons_self
    have restSteps : ∀ step ∈ submitSteps (decoder.populateDecoder document).2 rest,
        KeepsTreshold bound step.1 step.2 := fun step member => steps step (List.mem_cons_of_mem _ member)
    cases populated : decoder.populateDecoder document with
    | mk result after =>
      rw [populated] at found restSteps
      cases result with
      | error exception =>
        obtain rfl := populateDecoder_error_of_hasFields (fields document List.mem_cons_self) populated
        cases index with
        | zero =>
          cases found
          have enough := bounded.enough ready
          simp only [List.take_zero, List.countP_nil]
          omega
        | succ index =>
          have enough := inductionHypothesis bounded restFields restSteps index found
          simpa using enough
      | ok needed =>
        obtain ⟨record, read, admitted, _, rfl⟩ :=
          (decoder.populateDecoder_eq_ok document needed after).mp populated
        have next := bounded.accepting keeps read admitted
        cases index with
        | zero =>
          cases found
          have enough := next.enough ready
          simp only [List.take_zero, List.countP_nil, returned_ok, ↓reduceIte]
          push_cast at enough ⊢
          omega
        | succ index =>
          have enough := inductionHypothesis next restFields restSteps index found
          simp only [returned_ok, ↓reduceIte]
          push_cast at enough ⊢
          omega

/-! ## Asking peers -/

/-- What an honest peer answers: its share of the split, or a failure. -/
def Genuine (formatted : Json → String) (uuid : Json) (split : Split) (keys : List Point) (reply : Reply) :
    Prop :=
  (∃ exception, retrieveShare (formatted uuid) reply = .error exception) ∨
    Delivers formatted uuid split keys reply

/-- The answer is not one that the decoder would take a lower treshold from. -/
def Ask.KeepsTreshold (formatted : Json → String) (uuid : Json) (bound : Int) (ask : Ask) : Prop :=
  ∀ document, retrieveShare (formatted uuid) ask.reply = .ok document →
    Client.KeepsTreshold bound ask.decoder document

/-- A step of a run against peers of which some are compromised. -/
structure Step (formatted : Json → String) (uuid : Json) (split : Split) (compromised : Json → Bool)
    (share : Json → List Point) (ask : Ask) : Prop where
  keeps : ask.KeepsTreshold formatted uuid split.treshold
  genuine : compromised ask.peer = false → Genuine formatted uuid split (share ask.peer) ask.reply

/-- The invariant of a run: once an honest peer has contributed, the checksum is the split's. -/
structure Pinned (split : Split) (compromised : Json → Bool) (contributors : List Json)
    (decoder : ShamirSecret) : Prop where
  bounded : Bounded split.treshold contributors.length decoder
  hash : ∀ peer ∈ contributors, compromised peer = false → decoder.secretHash = .str split.secretHash

section Runs

variable {formatted : Json → String} {sha256 : Bytes → String} {uuid : Json} {split : Split}
  {secret : String} {compromised : Json → Bool} {share : Json → List Point}

theorem pinned_fresh (split : Split) (compromised : Json → Bool) (name owner : Json)
    (shares treshold : Int) (uuid4 : String) :
    Pinned split compromised [] (ShamirSecret.fresh name owner shares treshold uuid4) where
  bounded := bounded_fresh split.treshold name owner shares treshold uuid4
  hash := by simp

/-- The step lemma. -/
theorem Pinned.accepting {contributors : List Json} {decoder : ShamirSecret} {peer : Json} {reply : Reply}
    {document : Json} {record : ParticipantData} (pinned : Pinned split compromised contributors decoder)
    (step : Step formatted uuid split compromised share ⟨decoder, peer, reply⟩)
    (retrieved : retrieveShare (formatted uuid) reply = .ok document) (read : Reads document record)
    (admitted : decoder.Admits record) :
    Pinned split compromised (contributors ++ [peer]) (decoder.accepting record) where
  bounded := by
    rw [List.length_append, List.length_singleton]
    exact pinned.bounded.accepting (step.keeps document retrieved) read admitted
  hash := by
    intro contributor member honest
    show record.secretHash = .str split.secretHash
    rcases List.mem_append.mp member with earlier | last
    · -- the checksum adopted with an honest share has been compared with this one
      have adopted := pinned.hash contributor earlier honest
      have started : decoder.decodingParticipantsKeys ≠ [] := by
        intro empty
        have count := pinned.bounded.count
        rw [empty, List.length_nil] at count
        exact List.ne_nil_of_mem earlier (List.length_eq_zero_iff.mp count.symm)
      have compared := (admitted.adopted started).2.2.1
      rw [adopted] at compared
      exact (Json.equals_str _ _).mp compared
    · rw [List.mem_singleton.mp last] at honest
      rcases step.genuine honest with ⟨exception, failed⟩ | ⟨honestDocument, honestRetrieved, honestRead⟩
      · cases retrieved.symm.trans failed
      · obtain rfl : document = honestDocument := Except.ok.inj (retrieved.symm.trans honestRetrieved)
        rw [read.unique honestRead]
        rfl

/-- A value that `decode` returns has the checksum the decoder holds. -/
theorem sha256_of_decode {decoder : ShamirSecret} {digest value : String}
    (ready : decoder.readyToDecode = true) (hash : decoder.secretHash = .str digest)
    (decoded : decoder.decode sha256 = .ok value) : sha256 (encodeUtf8 value) = digest := by
  unfold ShamirSecret.decode at decoded
  rw [ready] at decoded
  cases shares : decoder.decodingParticipantsKeys with
  | nil =>
    rw [shares] at decoded
    cases decoded
  | cons first rest =>
    rw [shares] at decoded
    obtain ⟨integers, _, checked⟩ := bind_eq_ok.mp decoded
    unfold ShamirSecret.checkedResult at checked
    split at checked
    · cases checked
    · cases checked
    · cases checked
    · cases checked
    · split at checked
      · cases checked
      · rename_i result converted passed
        cases checked
        simp only [hash, Bool.and_eq_true, Bool.not_eq_true', not_and, Bool.not_eq_false] at passed
        have compared := passed (by simp [Json.equals, Json.number])
        simpa using compared

/-- A ready decoder has the share of an honest peer. -/
theorem Pinned.value {contributors peers : List Json} {decoder : ShamirSecret} {value : String}
    (pinned : Pinned split compromised contributors decoder) (selected : contributors.Subperm peers)
    (few : (peers.countP compromised : Int) < split.treshold) (hides : split.Hides sha256 secret)
    (collisionFree : ∀ bytes, sha256 bytes = sha256 (encodeUtf8 secret) → bytes = encodeUtf8 secret)
    (ready : decoder.readyToDecode = true) (decoded : decoder.decode sha256 = .ok value) :
    value = secret := by
  have enough := pinned.bounded.enough ready
  have fewer := selected.countP_le (p := compromised)
  have honest : ∃ peer ∈ contributors, compromised peer = false := by
    by_contra none
    have all : ∀ peer ∈ contributors, compromised peer = true := by
      intro peer member
      by_contra honest
      exact none ⟨peer, member, by simpa using honest⟩
    have count := List.countP_eq_length.mpr all
    omega
  obtain ⟨peer, member, isHonest⟩ := honest
  have digest := sha256_of_decode ready (pinned.hash peer member isHonest) decoded
  rw [hides.hashed] at digest
  have texts := congrArg decodeUtf8 (collisionFree _ digest)
  simpa using texts

theorem construct_eq_ok {name owner : Json} {shares treshold : Option Int} {uuid4 : String}
    {decoder : ShamirSecret} (built : construct name owner shares treshold uuid4 = .ok decoder) :
    ∃ sharesValue tresholdValue, decoder = ShamirSecret.fresh name owner sharesValue tresholdValue uuid4 := by
  unfold construct at built
  split at built
  · exact ⟨_, _, (ShamirSecret.init_eq_ok.mp built).2.2⟩
  · split at built
    · cases built
    · cases built
  · cases built

theorem reconstruct_pinned {peers : List Json} {name owner : Json} {shares treshold : Option Int}
    {uuid4 value : String} {decoder : ShamirSecret} {round : Round} {needed : Int}
    (built : construct name owner shares treshold uuid4 = .ok decoder)
    (few : (peers.countP compromised : Int) < split.treshold) (hides : split.Hides sha256 secret)
    (collisionFree : ∀ bytes, sha256 bytes = sha256 (encodeUtf8 secret) → bytes = encodeUtf8 secret)
    (steps : ∀ ask ∈ passSteps formatted uuid decoder (round.asks uuid peers),
      Step formatted uuid split compromised share ask)
    (produced : reconstruct formatted sha256 needed uuid decoder (round.asks uuid peers) = .ok value) :
    value = secret := by
  obtain ⟨_, _, rfl⟩ := construct_eq_ok built
  obtain ⟨⟨last, contributors⟩, asked, finished⟩ := bind_eq_ok.mp produced
  have pass := askPeers_preserves
    (fun _ _ _ _ _ _ pinned step retrieved read admitted => pinned.accepting step retrieved read admitted)
    (pinned_fresh split compromised name owner _ _ uuid4) steps asked
  have selected : contributors.Subperm peers := by
    have sublist := pass.2
    rw [Round.map_fst_asks] at sublist
    exact sublist.subperm.trans (round.permutes peers).subperm
  dsimp only at finished
  cases ready : last.readyToDecode with
  | false =>
    rw [ready] at finished
    cases finished
  | true =>
    simp only [ready, Bool.not_true, Bool.false_eq_true, ↓reduceIte] at finished
    split at finished
    · cases finished
    · exact Pinned.value pass.1 selected few hides collisionFree ready finished

end Runs

/-! ## No forged secret -/

/-- Fewer compromised peers than the treshold cannot forge, in any run in which no answer
makes a blank decoder take a lower treshold; and a decoder is never ready on fewer accepted
shares than its treshold in any such run. -/
theorem no_forged_secret (formatted : Json → String) (sha256 : Bytes → String)
    (intOf : String → Option Int) (split : Split) (secret : String) (hides : split.Hides sha256 secret)
    (collisionFree : ∀ bytes, sha256 bytes = sha256 (encodeUtf8 secret) → bytes = encodeUtf8 secret)
    (hosts ownHost ownName : Json) (peers : List Json) (own : ownHostEntry hosts = .ok ownHost)
    (named : ownHost.getItem "name" = .ok ownName) (trusted : trustedPeers hosts ownName = .ok peers)
    (compromised : Json → Bool) (few : (peers.countP compromised : Int) < split.treshold)
    (share : Json → List Point) (uuid4 : String) :
    (∀ (config : Dict String) (settings : Key1Settings) (decoder : ShamirSecret) (rounds : List Round)
        (value : String),
      key1Settings intOf .key1ReconstructionError config = .ok settings →
      construct (.str settings.name) ownName settings.shares settings.treshold uuid4 = .ok decoder →
      (∀ ask ∈ roundSteps formatted (.str settings.uuid) peers decoder [] rounds,
        compromised ask.peer = false →
          Genuine formatted (.str settings.uuid) split (share ask.peer) ask.reply) →
      (∀ ask ∈ roundSteps formatted (.str settings.uuid) peers decoder [] rounds,
        ask.KeepsTreshold formatted (.str settings.uuid) split.treshold) →
      collectKey1 formatted sha256 intOf config uuid4 hosts rounds = .ok (some value) →
      value = secret) ∧
    (∀ (config : Dict String) (settings : Key1Settings) (decoder : ShamirSecret) (round : Round)
        (value : String),
      key1Settings intOf .clickException config = .ok settings →
      construct (.str settings.name) ownName settings.shares settings.treshold uuid4 = .ok decoder →
      (∀ ask ∈ passSteps formatted (.str settings.uuid) decoder (round.asks (.str settings.uuid) peers),
        compromised ask.peer = false →
          Genuine formatted (.str settings.uuid) split (share ask.peer) ask.reply) →
      (∀ ask ∈ passSteps formatted (.str settings.uuid) decoder (round.asks (.str settings.uuid) peers),
        ask.KeepsTreshold formatted (.str settings.uuid) split.treshold) →
      getKey1Cmd formatted sha256 intOf config uuid4 hosts round = .ok value →
      value = secret) ∧
    (∀ (name : String) (lookup : Reply) (ownRecord sharesSaved treshold uuid : Json)
        (decoder : ShamirSecret) (round : Round) (value : String),
      getSecretMetadata name lookup = .ok ownRecord →
      ownRecord.getItem "shares_saved" = .ok sharesSaved → ownRecord.getItem "treshold" = .ok treshold →
      ownRecord.getItem "uuid" = .ok uuid →
      construct (.str name) ownName sharesSaved.asInt treshold.asInt uuid4 = .ok decoder →
      (∀ ask ∈ passSteps formatted uuid decoder (round.asks uuid peers),
        compromised ask.peer = false → Genuine formatted uuid split (share ask.peer) ask.reply) →
      (∀ ask ∈ passSteps formatted uuid decoder (round.asks uuid peers),
        ask.KeepsTreshold formatted uuid split.treshold) →
      getSecretCmd formatted sha256 name uuid4 lookup hosts round = .ok value →
      value = secret) ∧
    (∀ (name owner : Json) (shares treshold : Int) (decoder : ShamirSecret) (documents : List Json),
      ShamirSecret.init name owner shares treshold uuid4 = .ok decoder →
      (∀ document ∈ documents, HasFields document) →
      (∀ step ∈ submitSteps decoder documents, KeepsTreshold treshold step.1 step.2) →
      ∀ (index : Nat) (outcome : Except PyException Int × ShamirSecret),
        (submit decoder documents)[index]? = some outcome → outcome.2.readyToDecode = true →
        treshold ≤ ((submit decoder documents).take (index + 1)).countP returned) := by
  refine ⟨?_, ?_, ?_, ?_⟩
  · intro config settings decoder rounds value configured built honest keeps produced
    rw [collectKey1_of_lookups rounds configured own named trusted built] at produced
    split at produced
    · cases produced
    · obtain ⟨last, collected, decoding⟩ := bind_eq_ok.mp produced
      obtain ⟨_, _, rfl⟩ := construct_eq_ok built
      obtain ⟨contributors, pinned, selected⟩ := collectRounds_preserves
        (fun _ _ _ _ _ _ pinned step retrieved read admitted =>
          Pinned.accepting pinned step retrieved read admitted)
        (pinned_fresh split compromised _ ownName _ _ uuid4) (List.nil_subperm) (by simp)
        (fun ask member => Step.mk (keeps ask member) (honest ask member)) collected
      split at decoding
      · rename_i ready
        obtain ⟨key1, decoded, finished⟩ := bind_eq_ok.mp decoding
        cases finished
        exact pinned.value selected few hides collisionFree ready decoded
      · cases decoding
  · intro config settings decoder round value configured built honest keeps produced
    rw [getKey1Cmd_of_lookups round configured own named trusted built] at produced
    exact reconstruct_pinned built few hides collisionFree
      (fun ask member => Step.mk (keeps ask member) (honest ask member)) produced
  · intro name lookup ownRecord sharesSaved treshold uuid decoder round value looked saved needed
      recorded built honest keeps produced
    rw [getSecretCmd_of_lookups round looked own named trusted saved needed recorded built] at produced
    exact reconstruct_pinned built few hides collisionFree
      (fun ask member => Step.mk (keeps ask member) (honest ask member)) produced
  · intro name owner shares treshold decoder documents built fields keeps index outcome found ready
    obtain ⟨_, _, rfl⟩ := ShamirSecret.init_eq_ok.mp built
    have enough := submit_bounded (bounded_fresh treshold name owner shares treshold uuid4) fields keeps
      index outcome found ready
    simpa using enough

/-- Three honest peers, and one that gives its share another checksum: the boot produces a value,
and it is KEY1. -/
theorem no_forged_secret_lied :
    ∃ value, collectKey1 sampleText sampleSha256 sampleInt sampleConfig "u2" sampleHosts
      [sampleRound sampleLiar lyingReply] = .ok (some value) ∧ value = "hi" := by
  have collisionFree : ∀ bytes, sampleSha256 bytes = sampleSha256 (encodeUtf8 "hi") →
      bytes = encodeUtf8 "hi" := by
    intro bytes same
    rw [show sampleSha256 (encodeUtf8 "hi") = _ from if_pos rfl, sampleSha256] at same
    split at same
    · assumption
    · split at same
      · exact absurd same (by decide)
      · exact absurd same (by decide)
  have delivers : ∀ ask ∈ roundSteps sampleText (.str "u1") samplePeers
      (ShamirSecret.fresh (.str "key1") (.str "host0") 4 3 "u2") [] [sampleRound sampleLiar lyingReply],
      sampleLiar ask.peer = false →
        Delivers sampleText (.str "u1") sampleSplit (sampleShare ask.peer) ask.reply := by
    intro ask member honest
    obtain ⟨round, roundMember, _, answered⟩ := mem_of_mem_roundSteps member
    rw [List.mem_singleton.mp roundMember] at answered
    rw [answered]
    exact sampleRound_delivers _ honest
  have produced : collectKey1 sampleText sampleSha256 sampleInt sampleConfig "u2" sampleHosts
      [sampleRound sampleLiar lyingReply] = .ok (some "hi") :=
    collectKey1_ok "u2" sampleSplit_hides sampleHolders (by simp [samplePeers]) rfl rfl rfl rfl (by decide)
      (by decide) (fun peer _ honest => sampleRound_delivers _ honest)
      (fun ask member liar => .inr (.inl (sampleLiar_refused ask member liar).2)) []
  refine ⟨"hi", produced, ?_⟩
  refine (no_forged_secret sampleText sampleSha256 sampleInt sampleSplit "hi" sampleSplit_hides collisionFree
    sampleHosts _ _ samplePeers rfl rfl rfl sampleLiar (by decide) sampleShare "u2").1 sampleConfig _ _ _ "hi"
    rfl rfl (fun ask member honest => .inr (delivers ask member honest)) ?_ produced
  intro ask member document retrieved _ record read _
  cases liar : sampleLiar ask.peer with
  | true =>
    obtain ⟨round, roundMember, _, answered⟩ := mem_of_mem_roundSteps member
    have lied : ask.reply = lyingReply ask.peer := by
      rw [answered, List.mem_singleton.mp roundMember]
      exact if_pos liar
    rw [lied] at retrieved
    obtain rfl : document = (lyingRecord ask.peer).toJson := (Except.ok.inj retrieved).symm
    rw [read.unique (reads_toJson _)]
    exact le_refl _
  | false =>
    obtain ⟨honestDocument, honestRetrieved, honestRead⟩ := delivers ask member liar
    obtain rfl : document = honestDocument := Except.ok.inj (retrieved.symm.trans honestRetrieved)
    rw [read.unique honestRead]
    exact le_refl _

/-- What the forgers agree on: another secret under the same name, owner and uuid, split with
treshold 2 over constant polynomials. -/
def forgedSplit : Split where
  chunks := (stringToIntegers "no" 8).map fun integer => ⟨integer, [0]⟩
  treshold := 2
  shares := 4
  creationDate := "2026-01-01T00:00:00+00:00"
  owner := "host0"
  name := "key1"
  uuid := "u1"
  secretHash := sampleSha256 (encodeUtf8 "no")
  nonempty := by decide
  tresholdLower := by decide
  tresholdUpper := by decide
  reduced := by
    intro chunk member
    obtain ⟨integer, integerMember, rfl⟩ := List.mem_map.mp member
    exact stringToIntegers_reduced (by decide) integer integerMember
  degree := by
    intro chunk member
    obtain ⟨integer, _, rfl⟩ := List.mem_map.mp member
    rfl

def sampleForger (peer : Json) : Bool := sampleX peer ≤ 2

def forgedReply (peer : Json) : Reply :=
  .response 200 (.document (forgedSplit.record (forgedSplit.shareAt (sampleX peer))).toJson)

/-- In the example the two forgers are asked first, and nobody is asked after them. -/
theorem forgers_only : ∀ ask ∈ passSteps sampleText (.str "u1")
    (ShamirSecret.fresh (.str "key1") (.str "host0") 4 3 "u2")
    ((sampleRound sampleForger forgedReply).asks (.str "u1") samplePeers), sampleForger ask.peer = true := by
  have delivers : ∀ peer, Delivers sampleText (.str "u1") forgedSplit
      (forgedSplit.shareAt (sampleX peer)) (forgedReply peer) := fun peer => ⟨_, rfl, reads_toJson _⟩
  have carried : ∀ peer, forgedSplit.Carries (forgedSplit.shareAt (sampleX peer)) := fun peer =>
    forgedSplit.carries_shareAt (sampleX_range peer).1 (sampleX_range peer).2
  have fresh : Holding forgedSplit [] (ShamirSecret.fresh (.str "key1") (.str "host0") 4 3 "u2") :=
    holding_fresh forgedSplit 4 3 "u2" (.inl rfl) (.inl rfl)
  have addressed : ∀ name, (samplePeer name).getItem "address" = .ok (.str "10.0.0.1") := fun _ => rfl
  obtain ⟨first, firstAsked, firstHolding⟩ := askPeer_delivers fresh (addressed "host1")
    (delivers (samplePeer "host1")) (carried _) (by simp)
  obtain ⟨second, secondAsked, secondHolding⟩ := askPeer_delivers firstHolding (addressed "host2")
    (delivers (samplePeer "host2")) (carried _) (by
      intro earlier member
      rw [List.mem_singleton.mp member]
      exact not_collide_shareAt forgedSplit (by decide))
  have waiting : first.readyToDecode = false := firstHolding.ready
  have ready : second.readyToDecode = true := secondHolding.ready
  have asks : (sampleRound sampleForger forgedReply).asks (.str "u1") samplePeers =
      (samplePeer "host1", forgedReply (samplePeer "host1")) ::
        (samplePeer "host2", forgedReply (samplePeer "host2")) ::
          (sampleRound sampleForger forgedReply).asks (.str "u1") [samplePeer "host3", samplePeer "host4"] := rfl
  intro ask member
  rw [asks, passSteps_cons_ok _ rfl firstAsked, passSteps_cons_ok _ waiting secondAsked] at member
  rcases List.mem_cons.mp member with rfl | later
  · show sampleForger (samplePeer "host1") = true
    decide
  · rcases List.mem_cons.mp later with rfl | last
    · show sampleForger (samplePeer "host2") = true
      decide
    · rw [passSteps_of_ready ready] at last
      cases last

/-- KEY1 was split with treshold 3; two compromised peers of four, asked first, make the boot
produce a KEY1 of their own. -/
theorem forged_secret :
    sampleSplit.Hides sampleSha256 "hi" ∧ sampleSplit.treshold = 3 ∧
    trustedPeers sampleHosts (.str "host0") = .ok samplePeers ∧ samplePeers.countP sampleForger = 2 ∧
    (∀ peer ∈ samplePeers, sampleForger peer = false →
      Genuine sampleText (.str "u1") sampleSplit (sampleShare peer)
        ((sampleRound sampleForger forgedReply).answer peer (.str "u1"))) ∧
    collectKey1 sampleText sampleSha256 sampleInt sampleConfig "u2" sampleHosts
      [sampleRound sampleForger forgedReply] = .ok (some "no") := by
  refine ⟨sampleSplit_hides, rfl, rfl, by decide, fun peer _ honest => .inr (sampleRound_delivers _ honest), ?_⟩
  have hides : forgedSplit.Hides sampleSha256 "no" := ⟨by decide, rfl⟩
  have holders : Holders forgedSplit (fun peer => !sampleForger peer)
      (fun peer => forgedSplit.shareAt (sampleX peer)) samplePeers :=
    { listed := samplePeers_listed
      carried := fun peer _ _ => forgedSplit.carries_shareAt (sampleX_range peer).1 (sampleX_range peer).2
      apart := samplePeers_distinct.imp fun different _ _ => not_collide_shareAt forgedSplit different
      enough := by decide }
  refine collectKey1_ok "u2" hides holders (by simp [samplePeers]) rfl rfl rfl rfl (by decide) (by decide)
    (fun peer _ forger => ?_) (fun ask member honest => ?_) []
  · refine ⟨_, ?_, reads_toJson _⟩
    have isForger : sampleForger peer = true := by simpa using forger
    simp [sampleRound, isForger, forgedReply, retrieveShare, loads]
  · have isForger := forgers_only ask member
    rw [isForger] at honest
    cases honest

end SecretWeb.Client
