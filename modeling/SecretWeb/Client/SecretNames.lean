import SecretWeb.Client.Recording
import SecretWeb.Machine.Runs

/-! # Secret names as keys

A store-secret command writes under the key that its name arrives as, and a lookup reads
under the key that its own name arrives as.  So the records of different names are kept
apart exactly when no two of the names in use arrive as one key. -/

namespace SecretWeb.Client

open SecretWeb.Data SecretWeb.Python SecretWeb.Shamir SecretWeb.HostsData SecretWeb.Server SecretWeb.Network
  SecretWeb.Machine

/-- One whole run of the command: what the posts of the shares come to, when the local
server handles the record, and what becomes of that request. -/
structure StoreRun where
  hosts : Json
  command : StoreCommand
  replies : List Reply
  now : String
  fate : Fate

section Commands

variable (lower : String → String) (intOf : String → Option Int) (decodePath : Bytes → String)
  (sha256 : Bytes → String) (commonName : Option String)

/-- The command against the local server; `none` as long as it has not come to its end. -/
def storeSecretCmd (server : Server) (run : StoreRun) : Option (Except PyException Unit) × Server :=
  match prepare sha256 run.hosts run.command with
  | .error exception => (some (.error exception), server)
  | .ok none => (none, server)
  | .ok (some publication) =>
    match publishAll publication.treshold (Phase.begin publication.treshold publication.deliveries 0)
      run.replies with
    | .publishing _ _ _ => (none, server)
    | .exited outcome => (some outcome, server)
    | .recording successes =>
      let (reply, after) := exchange run.fate server fun saved =>
        postSecret lower intOf decodePath server run.command.name commonName
          (metadata publication.uuid publication.treshold successes) run.now saved
      (some (recorded reply), after)

/-- The run gets as far as posting this record. -/
def Submits (run : StoreRun) (uuid : Json) (treshold : Int) (successes : Nat) : Prop :=
  ∃ deliveries, prepare sha256 run.hosts run.command = .ok (some ⟨uuid, treshold, deliveries⟩) ∧
    publishAll treshold (Phase.begin treshold deliveries 0) run.replies = .recording successes

/-- What makes names keys, for one sequence of runs: a record that a run reported as saved
is there until a later run for its name writes, and no run touches another name in use. -/
structure KeepsNames (names : Set String) (server : Server) (runs : List StoreRun) : Prop where
  kept : ∀ earlier step later,
    transitions (storeSecretCmd lower intOf decodePath sha256 commonName) server runs = earlier ++ step :: later →
    step.output = some (.ok ()) →
    (∀ other ∈ later, other.input.command.name = step.input.command.name → other.after = other.before) →
    ∃ uuid treshold successes, Submits sha256 step.input uuid treshold successes ∧
      lookup lower decodePath commonName (run (storeSecretCmd lower intOf decodePath sha256 commonName) server runs)
        step.input.command.name = .ok (secretRecord uuid treshold successes step.input.now)
  framed : ∀ step ∈ transitions (storeSecretCmd lower intOf decodePath sha256 commonName) server runs,
    ∀ other ∈ names, other ≠ step.input.command.name →
      lookup lower decodePath commonName step.after other = lookup lower decodePath commonName step.before other

/-- Different names in use arrive as different keys, if they arrive at all. -/
def KeysApart (names : Set String) : Prop :=
  ∀ left ∈ names, ∀ right ∈ names, ∀ key, routed decodePath "/secrets/" left = some key →
    routed decodePath "/secrets/" right = some key → left = right

variable {lower intOf decodePath sha256 commonName}

/-! ## One command -/

/-- The step lemma: a command changes nothing, or it writes a record under the key of its
name, and only then can it report success. -/
theorem storeSecretCmd_cases {server after : Server} {run : StoreRun} {outcome : Option (Except PyException Unit)}
    (stepped : storeSecretCmd lower intOf decodePath sha256 commonName server run = (outcome, after)) :
    (after = server ∧ outcome ≠ some (.ok ())) ∨
    ∃ key uuid treshold successes, Submits sha256 run uuid treshold successes ∧
      Accepted lower commonName server ∧ routed decodePath "/secrets/" run.command.name = some key ∧
      after.hosts = server.hosts ∧
      after.memory.secrets = Dict.set server.memory.secrets key (secretRecord uuid treshold successes run.now) := by
  unfold storeSecretCmd at stepped
  cases prepared : prepare sha256 run.hosts run.command with
  | error exception =>
    rw [prepared] at stepped
    cases stepped
    exact .inl ⟨rfl, by simp⟩
  | ok publication =>
    rw [prepared] at stepped
    cases publication with
    | none =>
      cases stepped
      exact .inl ⟨rfl, by simp⟩
    | some publication =>
      dsimp only at stepped
      cases published : publishAll publication.treshold
          (Phase.begin publication.treshold publication.deliveries 0) run.replies with
      | publishing post rest successes =>
        rw [published] at stepped
        cases stepped
        exact .inl ⟨rfl, by simp⟩
      | exited ended =>
        rw [published] at stepped
        cases stepped
        refine .inl ⟨rfl, fun success => ?_⟩
        rw [Option.some.inj success] at published
        exact publishAll_ne_ok (Phase.begin_ne_ok _ _ _) run.replies published
      | recording successes =>
        rw [published] at stepped
        dsimp only at stepped
        cases fate : run.fate with
        | undelivered outage =>
          rw [fate] at stepped
          cases stepped
          exact .inl ⟨rfl, by simp [exchange, recorded_of_fails outage.fails]⟩
        | unanswered saved outage =>
          rw [fate] at stepped
          simp only [exchange, recorded_of_fails outage.fails] at stepped
          cases stepped
          rcases postSecret_cases (Prod.eta (postSecret lower intOf decodePath server run.command.name commonName
            (metadata publication.uuid publication.treshold successes) run.now saved)).symm with
            ⟨unchanged, _⟩ | ⟨key, accepted, arrives, hosts, wrote, _⟩
          · exact .inl ⟨unchanged, by simp⟩
          · exact .inr ⟨key, _, _, successes, ⟨publication.deliveries, prepared, published⟩, accepted, arrives,
              hosts, wrote⟩
        | answered saved =>
          rw [fate] at stepped
          simp only [exchange] at stepped
          cases stepped
          rcases postSecret_cases (Prod.eta (postSecret lower intOf decodePath server run.command.name commonName
            (metadata publication.uuid publication.treshold successes) run.now saved)).symm with
            ⟨unchanged, failed⟩ | ⟨key, accepted, arrives, hosts, wrote, _⟩
          · exact .inl ⟨unchanged, fun success => failed (Option.some.inj success)⟩
          · exact .inr ⟨key, _, _, successes, ⟨publication.deliveries, prepared, published⟩, accepted, arrives,
              hosts, wrote⟩

/-! ## Sequences of commands -/

theorem hosts_kept (server : Server) (runs : List StoreRun) :
    ∀ step ∈ transitions (storeSecretCmd lower intOf decodePath sha256 commonName) server runs,
      step.before.hosts = server.hosts := by
  have invariant := (@invariant_of_steps _ _ _ (storeSecretCmd lower intOf decodePath sha256 commonName)
    (fun state => state.hosts = server.hosts) (fun _ => True) server runs
    (by
      intro step _ before stepped
      rcases storeSecretCmd_cases stepped with ⟨unchanged, _⟩ | ⟨_, _, _, _, _, _, _, hosts, _⟩
      · rw [unchanged, before]
      · rw [hosts, before])
    rfl (fun _ _ => trivial)).1
  exact fun step member => (invariant step member).1

/-- The frame lemma: a command leaves every other name in use as it was. -/
theorem lookup_framed {names : Set String} {server : Server} {runs : List StoreRun}
    (apart : Accepted lower commonName server → KeysApart decodePath names)
    (inUse : ∀ run ∈ runs, run.command.name ∈ names)
    {step : Transition Server StoreRun (Option (Except PyException Unit))}
    (member : step ∈ transitions (storeSecretCmd lower intOf decodePath sha256 commonName) server runs)
    {other : String} (used : other ∈ names) (different : other ≠ step.input.command.name) :
    lookup lower decodePath commonName step.after other = lookup lower decodePath commonName step.before other := by
  rcases storeSecretCmd_cases (step_of_mem_transitions member) with
    ⟨unchanged, _⟩ | ⟨key, _, _, _, _, accepted, arrives, hosts, wrote⟩
  · rw [unchanged]
  · refine lookup_congr hosts fun otherKey otherArrives => ?_
    have distinct : otherKey ≠ key := by
      rintro rfl
      exact different (apart (accepted_congr (hosts_kept server runs step member) accepted) other used _
        (inUse _ (input_of_mem_transitions member)) otherKey otherArrives arrives)
    rw [wrote, Dict.get_set_ne _ _ distinct]

theorem keepsNames_of_apart {names : Set String} {server : Server} {runs : List StoreRun}
    (apart : Accepted lower commonName server → KeysApart decodePath names)
    (inUse : ∀ run ∈ runs, run.command.name ∈ names) :
    KeepsNames lower intOf decodePath sha256 commonName names server runs where
  framed := fun step member other used different => lookup_framed apart inUse member used different
  kept := by
    intro earlier step later shape success untouched
    have inside : ∀ other ∈ step :: later,
        other ∈ transitions (storeSecretCmd lower intOf decodePath sha256 commonName) server runs := by
      intro other member
      rw [shape]
      exact List.mem_append_right _ member
    have member := inside step List.mem_cons_self
    rcases storeSecretCmd_cases (step_of_mem_transitions member) with
      ⟨_, failed⟩ | ⟨key, uuid, treshold, successes, submits, accepted, arrives, hosts, wrote⟩
    · exact absurd success failed
    · refine ⟨uuid, treshold, successes, submits, ?_⟩
      obtain ⟨rest, rfl, remaining⟩ := transitions_split shape
      -- the record is there after the step, and every later step keeps it
      have written : lookup lower decodePath commonName step.after step.input.command.name = .ok _ :=
        lookup_of_key (accepted_congr hosts.symm accepted) arrives (by rw [wrote, Dict.get_set_self])
      rw [remaining]
      refine (@invariant_of_steps _ _ _ (storeSecretCmd lower intOf decodePath sha256 commonName)
        (fun state => lookup lower decodePath commonName state step.input.command.name =
          .ok (secretRecord uuid treshold successes step.input.now))
        (fun other => lookup lower decodePath commonName other.after step.input.command.name =
          lookup lower decodePath commonName other.before step.input.command.name)
        step.after rest (fun other kept before _ => kept.trans before) written ?_).2
      intro other laterMember
      have otherMember := inside other (List.mem_cons_of_mem _ laterMember)
      by_cases same : other.input.command.name = step.input.command.name
      · rw [untouched other laterMember same]
      · exact lookup_framed apart inUse otherMember (inUse _ (input_of_mem_transitions member)) (Ne.symm same)

/-- Names of unreserved characters are kept apart. -/
theorem keysApart_of_plain {names : Set String} (known : ∀ text, decodePath (encodeUtf8 text) = text)
    (plain : ∀ name ∈ names, Plain name) : KeysApart decodePath names := by
  have base : ∀ char ∈ ("/secrets/" : String).toList, baseCharacter char = true := baseCharacter_of_all (by decide)
  intro left leftUsed right rightUsed key leftArrives rightArrives
  rw [routed_of_plain decodePath known base (plain left leftUsed)] at leftArrives
  rw [routed_of_plain decodePath known base (plain right rightUsed)] at rightArrives
  exact Option.some.inj (leftArrives.trans rightArrives.symm)

/-! ## A command that gets as far as recording -/

/-- Two trusted peers. -/
def pairHosts : Json :=
  .dict [("hosts", .dict [("host0", .dict [("address", .str "10.0.0.1"), ("status", .str "local")]),
    ("host1", .dict [("address", .str "10.0.0.2")]), ("host2", .dict [("address", .str "10.0.0.3")])])]

def pairPeers : List Json :=
  [namedEntry "host1" [("address", .str "10.0.0.2")], namedEntry "host2" [("address", .str "10.0.0.3")]]

/-- Both peers accept, and so does the local server. -/
def acceptedRun (name uuid4 : String) : StoreRun where
  hosts := pairHosts
  command := ⟨name, "", none, none, uuid4, "2026-01-01T00:00:00+00:00", [⟨[5], [0, 1]⟩]⟩
  replies := [.response 201 (.document .null), .response 201 (.document .null)]
  now := "2026-01-01T00:00:01+00:00"
  fate := .answered true

theorem acceptedRun_submits (sha256 : Bytes → String) (name uuid4 : String) :
    Submits sha256 (acceptedRun name uuid4) (.str uuid4) 2 2 := by
  have complete : ∀ chunkDraws ∈ (acceptedRun name uuid4).command.draws, chunkDraws.Complete 2 2 := by
    intro chunkDraws member
    obtain rfl := List.mem_singleton.mp member
    exact ⟨by decide, by decide⟩
  have small : (encodeUtf8 "").length ≤ MAX_SECRET_BYTES := by decide
  have chunks : 1 = (stringToIntegers "" 8).length := by decide
  obtain ⟨publication, prepared⟩ := @prepare_ok sha256 pairHosts _ "host0" pairPeers
    (acceptedRun name uuid4).command 2 2 rfl rfl rfl (by simp [pairPeers]) rfl small chunks complete
  obtain ⟨split, participants, publishes⟩ := @prepare_eq_ok sha256 pairHosts _ "host0" pairPeers
    (acceptedRun name uuid4).command publication rfl rfl rfl prepared
  obtain ⟨uuid, treshold, deliveries⟩ := publication
  have agreed : (.ok (2, 2) : Except PyException (Int × Int)) = .ok (split.shares, split.treshold) :=
    publishes.agreed
  obtain ⟨sharesTwo, tresholdTwo⟩ := Prod.mk.inj (Except.ok.inj agreed)
  have uuidText : uuid = .str uuid4 := publishes.uuid
  have tresholdValue : treshold = 2 := publishes.treshold.trans tresholdTwo.symm
  have dealt : deliveries = _ := publishes.deliveries
  have participantCount := publishes.deals.count
  rw [← sharesTwo] at dealt participantCount
  have count : deliveries.length = 2 := by
    rw [dealt, List.length_zip, List.length_map]
    have both : participants.length = 2 := by exact_mod_cast participantCount
    rw [both]
    rfl
  have posts : ∀ delivery ∈ deliveries, ∃ post, Post.prepare delivery.1 delivery.2 = .ok post := by
    intro delivery member
    rw [dealt] at member
    obtain ⟨peer, participantData⟩ := delivery
    obtain ⟨listed, recorded⟩ := List.of_mem_zip member
    obtain ⟨keys, _, rfl⟩ := List.mem_map.mp recorded
    have peers := List.mem_of_mem_take listed
    simp only [pairPeers, List.mem_cons, List.not_mem_nil, or_false] at peers
    cases peers with
    | inl first => exact ⟨_, Post.prepare_record (by rw [first]; rfl) _⟩
    | inr second => exact ⟨_, Post.prepare_record (by rw [second]; rfl) _⟩
  have published := @publishAll_accepted treshold deliveries 0 posts (by rw [tresholdValue, count]; decide)
    (.response 201 (.document .null)) rfl
  subst uuidText
  subst tresholdValue
  rw [count] at published
  exact ⟨deliveries, prepared, published⟩

/-- Against a server that takes the client for its own host the command reports success
and its record is found under its name. -/
theorem acceptedRun_records {server : Server} {name key : String} (uuid4 : String)
    (accepted : Accepted lower commonName server) (arrives : routed decodePath "/secrets/" name = some key) :
    ∃ after, storeSecretCmd lower intOf decodePath sha256 commonName server (acceptedRun name uuid4) =
        (some (.ok ()), after) ∧ Accepted lower commonName after ∧
      Dict.get after.memory.secrets key =
        some (secretRecord (.str uuid4) 2 2 "2026-01-01T00:00:01+00:00") := by
  obtain ⟨deliveries, prepared, published⟩ := acceptedRun_submits sha256 name uuid4
  have stepped : storeSecretCmd lower intOf decodePath sha256 commonName server (acceptedRun name uuid4) =
      (some (recorded (postSecret lower intOf decodePath server name commonName (metadata (.str uuid4) 2 2)
        "2026-01-01T00:00:01+00:00" true).1), (postSecret lower intOf decodePath server name commonName
        (metadata (.str uuid4) 2 2) "2026-01-01T00:00:01+00:00" true).2) := by
    simp only [storeSecretCmd, prepared, published]
    rfl
  have checked := @checkMetadata_metadata _ intOf _ _ (.str uuid4) 2 2 "2026-01-01T00:00:01+00:00" accepted
  rw [stepped, postSecret, arrives]
  dsimp only
  rw [storeSecretMetadata_checked true checked]
  exact ⟨_, rfl, accepted_congr rfl accepted, Dict.get_set_self _ _ _⟩

end Commands

/-! ## The names that may be in use together -/

/-- Over every sequence of commands for names in use, the names are keys exactly when no
two of them arrive as one key, or nothing can be recorded at all. -/
theorem keeps_names_iff (lower : String → String) (intOf : String → Option Int) (decodePath : Bytes → String)
    (sha256 : Bytes → String) (commonName : Option String) (server : Server) (names : Set String) :
    (∀ runs : List StoreRun, (∀ run ∈ runs, run.command.name ∈ names) →
      KeepsNames lower intOf decodePath sha256 commonName names server runs) ↔
    (Accepted lower commonName server → KeysApart decodePath names) := by
  constructor
  · intro keeps accepted left leftUsed right rightUsed key leftArrives rightArrives
    by_contra different
    -- two versions of the one secret, of which the other name sees at most one
    obtain ⟨first, firstStep, firstAccepted, firstFound⟩ :=
      @acceptedRun_records lower intOf decodePath sha256 commonName server left key "u1" accepted leftArrives
    obtain ⟨second, secondStep, secondAccepted, secondFound⟩ :=
      @acceptedRun_records lower intOf decodePath sha256 commonName first left key "u2" firstAccepted leftArrives
    have framed := (keeps [acceptedRun left "u1", acceptedRun left "u2"] (by
      intro run member
      simp only [List.mem_cons, List.not_mem_nil, or_false] at member
      cases member with
      | inl same => rw [same]; exact leftUsed
      | inr same => rw [same]; exact leftUsed)).framed
    have unchanged := framed ⟨first, acceptedRun left "u2", some (.ok ()), second⟩
      (by simp [transitions, firstStep, secondStep]) right rightUsed (Ne.symm different)
    dsimp only at unchanged
    rw [lookup_of_key secondAccepted rightArrives secondFound,
      lookup_of_key firstAccepted rightArrives firstFound] at unchanged
    simp [secretRecord] at unchanged
  · exact fun apart runs inUse => keepsNames_of_apart apart inUse

/-- What the framework makes of the bytes of a path that are UTF-8. -/
def sampleDecode (bytes : Bytes) : String := (decodeUtf8 bytes).getD ""

theorem sampleDecode_encodeUtf8 (text : String) : sampleDecode (encodeUtf8 text) = text := by
  simp [sampleDecode]

/-- A host whose own entry is `host0`, and nothing recorded yet. -/
def ownServer : Server := ⟨pairHosts, ⟨[], []⟩, ⟨[], []⟩⟩

/-- Two commands report success; the record of `a?x` has taken the place of that of `a`. -/
theorem names_collide :
    ∃ first second : Server,
      storeSecretCmd id (fun _ => none) sampleDecode sampleSha256 (some "host0") ownServer
        (acceptedRun "a" "u1") = (some (.ok ()), first) ∧
      storeSecretCmd id (fun _ => none) sampleDecode sampleSha256 (some "host0") first
        (acceptedRun "a?x" "u2") = (some (.ok ()), second) ∧
      lookup id sampleDecode (some "host0") first "a" =
        .ok (secretRecord (.str "u1") 2 2 "2026-01-01T00:00:01+00:00") ∧
      lookup id sampleDecode (some "host0") second "a" =
        .ok (secretRecord (.str "u2") 2 2 "2026-01-01T00:00:01+00:00") := by
  have plainArrives : routed sampleDecode "/secrets/" "a" = some "a" :=
    routed_of_plain sampleDecode sampleDecode_encodeUtf8 (baseCharacter_of_all (by decide))
      (plain_of_all (by decide) (by decide))
  have queryArrives : routed sampleDecode "/secrets/" "a?x" = some "a" := plainArrives
  have accepted : Accepted id (some "host0") ownServer := ⟨.str "host0", rfl, rfl⟩
  obtain ⟨first, firstStep, firstAccepted, firstFound⟩ :=
    @acceptedRun_records id (fun _ => none) sampleDecode sampleSha256 (some "host0") ownServer "a" "a" "u1"
      accepted plainArrives
  obtain ⟨second, secondStep, secondAccepted, secondFound⟩ :=
    @acceptedRun_records id (fun _ => none) sampleDecode sampleSha256 (some "host0") first "a?x" "a" "u2"
      firstAccepted queryArrives
  exact ⟨first, second, firstStep, secondStep, lookup_of_key firstAccepted plainArrives firstFound,
    lookup_of_key secondAccepted plainArrives secondFound⟩

end SecretWeb.Client
