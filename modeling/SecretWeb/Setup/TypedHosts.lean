import SecretWeb.Python.Text
import SecretWeb.Setup.Publication

/-! # The hosts the operator types in

Setup prompts for one host after another, each with its name, its addresses and its role, and
takes a blank name for the end of the list once there are enough hosts of either role.  It
counts entries; the split of KEY1 counts names. -/

namespace SecretWeb.Setup

open SecretWeb.Data SecretWeb.Python SecretWeb.Server SecretWeb.Shamir

def MIN_SERVERS : Nat := 3

def MIN_CONTROLLERS : Nat := 1

/-! ## The prompts -/

/-- `[a.strip() for a in raw.split(",") if a.strip()]`. -/
def addressesOf (raw : String) : List String :=
  (((raw.toList.splitOn ',').map strip).filter fun address => !address.isEmpty).map String.ofList

/-- What the operator is asked for next. -/
inductive Prompt where
  | name
  | addresses (name : String)
  | role (name firstAddress : String) (otherAddresses : List String)
deriving DecidableEq

deriving instance DecidableEq for Host

inductive Collection where
  | asking (hosts : List Host) (prompt : Prompt)
  | returned (hosts : List Host)
deriving DecidableEq

def tally (hosts : List Host) : Nat × Nat :=
  (hosts.countP fun host => host.role = "server", hosts.countP fun host => host.role = "controller")

/-- One line of input; an answer that is of no use is asked for again. -/
def Collection.answer : Collection → String → Collection
  | .returned hosts, _ => .returned hosts
  | .asking hosts .name, line =>
    if line = "" then
      if MIN_SERVERS ≤ (tally hosts).1 ∧ MIN_CONTROLLERS ≤ (tally hosts).2 then .returned hosts
      else .asking hosts .name
    else .asking hosts (.addresses line)
  | .asking hosts (.addresses name), line =>
    match addressesOf line with
    | [] => .asking hosts (.addresses name)
    | first :: others => .asking hosts (.role name first others)
  | .asking hosts (.role name first others), line =>
    if line = "server" ∨ line = "controller" then .asking (hosts ++ [⟨name, first, others, line⟩]) .name
    else .asking hosts (.role name first others)

def collectHosts (answers : List String) : Collection := answers.foldl Collection.answer (.asking [] .name)

/-- What has been returned meets the minimum. -/
def Collection.Enough : Collection → Prop
  | .asking _ _ => True
  | .returned hosts => MIN_SERVERS ≤ (tally hosts).1 ∧ MIN_CONTROLLERS ≤ (tally hosts).2

theorem Collection.Enough.answer {collection : Collection} (enough : collection.Enough) (line : String) :
    (collection.answer line).Enough := by
  -- only the empty line after a name prompt ends the typing
  cases collection with
  | returned hosts => exact enough
  | asking hosts prompt =>
    cases prompt with
    | name =>
      rw [Collection.answer]
      split
      · split
        · rename_i met
          exact met
        · exact trivial
      · exact trivial
    | addresses name =>
      rw [Collection.answer]
      split
      · exact trivial
      · exact trivial
    | role name first others =>
      rw [Collection.answer]
      split
      · exact trivial
      · exact trivial

theorem enough_foldl {collection : Collection} (enough : collection.Enough) (answers : List String) :
    (answers.foldl Collection.answer collection).Enough := by
  induction answers generalizing collection with
  | nil => exact enough
  | cons line rest inductionHypothesis => exact inductionHypothesis (enough.answer line)

theorem tally_le_length (hosts : List Host) : (tally hosts).1 + (tally hosts).2 ≤ hosts.length := by
  induction hosts with
  | nil => exact Nat.le_refl 0
  | cons host rest inductionHypothesis =>
    simp only [tally, List.countP_cons, List.length_cons, decide_eq_true_eq] at inductionHypothesis ⊢
    by_cases server : host.role = "server"
    · have different : host.role ≠ "controller" := by
        rw [server]
        decide
      rw [if_pos server, if_neg different]
      omega
    · rw [if_neg server]
      split
      · omega
      · omega

/-- A list that is returned has at least four entries. -/
theorem four_le_length {answers : List String} {hosts : List Host} (collected : collectHosts answers = .returned hosts) :
    4 ≤ hosts.length := by
  have enough := @enough_foldl (.asking [] .name) trivial answers
  rw [show answers.foldl Collection.answer (.asking [] .name) = .returned hosts from collected] at enough
  have bounded := tally_le_length hosts
  obtain ⟨servers, controllers⟩ := enough
  simp only [MIN_SERVERS, MIN_CONTROLLERS] at servers controllers
  omega

/-! ## The other hosts -/

def otherHosts (hosts : List Host) (ownName : String) : List Host := hosts.filter fun host => host.name ≠ ownName

theorem mem_otherHosts {hosts : List Host} {ownName : String} {host : Host} :
    host ∈ otherHosts hosts ownName ↔ host ∈ hosts ∧ host.name ≠ ownName := by
  simp [otherHosts]

theorem map_name_otherHosts (hosts : List Host) (ownName : String) :
    (otherHosts hosts ownName).map Host.name = (hosts.map Host.name).filter fun name => name ≠ ownName := by
  rw [otherHosts, List.filter_map]
  rfl

theorem length_otherHosts (hosts : List Host) (ownName : String) :
    (otherHosts hosts ownName).length + (hosts.map Host.name).count ownName = hosts.length := by
  have others : (otherHosts hosts ownName).length = hosts.countP fun host => host.name ≠ ownName := by
    rw [otherHosts, List.countP_eq_length_filter]
  have own : (hosts.map Host.name).count ownName = hosts.countP fun host => host.name = ownName := by
    rw [List.count, List.countP_map]
    rfl
  have whole := @List.length_eq_countP_add_countP _ (fun host : Host => decide (host.name = ownName)) hosts
  simp only [decide_eq_true_eq] at whole
  rw [others, own, whole, Nat.add_comm]

/-- Every other entry is dealt one share. -/
theorem dealKey1_hosts {sha256 : Bytes → String} {key1 ownName uuid4 now : String} {hosts : List Host}
    {draws : List ChunkDraws} {publication : Key1Publication}
    (dealt : dealKey1 sha256 key1 hosts ownName uuid4 now draws = .ok (some publication)) :
    publication.deliveries.map Prod.fst = otherHosts hosts ownName := by
  obtain ⟨split, participants, _, deals, _, shares, _, _, _, rfl⟩ := dealKey1_deals dealt
  have count : participants.length = (otherHosts hosts ownName).length := by
    have counted : (participants.length : Int) = (otherHosts hosts ownName).length := deals.count.trans shares
    exact_mod_cast counted
  apply List.map_fst_zip
  rw [List.length_map, count]
  exact Nat.le_refl _

/-! ## The split -/

/-- KEY1 can be split among the other hosts: there are three or more, each once and none of
them this host, so that a strict majority of at least two can be asked for, and the dealing
gives one share to each host and none to this one. -/
structure ValidSplit (sha256 : Bytes → String) (hosts : List Host) (ownName ownHostname : String) : Prop where
  enough : 3 ≤ (otherHosts hosts ownName).length
  apart : ((otherHosts hosts ownName).map Host.name).Nodup
  foreign : ∀ host ∈ otherHosts hosts ownName, hostnameFromCommonName host.name ≠ ownHostname
  majority : 2 ≤ (sharesAndTreshold (otherHosts hosts ownName)).2 ∧
    (sharesAndTreshold (otherHosts hosts ownName)).2 ≤ (sharesAndTreshold (otherHosts hosts ownName)).1 ∧
    (sharesAndTreshold (otherHosts hosts ownName)).1 < 2 * (sharesAndTreshold (otherHosts hosts ownName)).2
  constructed : ∀ uuid4, ∃ secret, ShamirSecret.init (.str "key1") (.str ownName)
    (sharesAndTreshold (otherHosts hosts ownName)).1 (sharesAndTreshold (otherHosts hosts ownName)).2 uuid4 = .ok secret
  dealt : ∀ key1 uuid4 now draws publication,
    dealKey1 sha256 key1 hosts ownName uuid4 now draws = .ok (some publication) →
    (∀ host ∈ hosts, host.name ≠ ownName →
      (publication.deliveries.countP fun delivery => delivery.1.name = host.name) = 1) ∧
    ∀ delivery ∈ publication.deliveries, hostnameFromCommonName delivery.1.name ≠ ownHostname

/-- No name but this host's own is typed twice, whatever has its hostname is spelled as it
is, and its repetitions leave three entries. -/
structure WellTyped (hosts : List Host) (ownName ownHostname : String) : Prop where
  others : ∀ name ≠ ownName, (hosts.map Host.name).count name ≤ 1
  spelled : ∀ host ∈ hosts, hostnameFromCommonName host.name = ownHostname → host.name = ownName
  repeated : (hosts.map Host.name).count ownName + 3 ≤ hosts.length

section Split

variable {sha256 : Bytes → String} {hosts : List Host} {ownName ownHostname : String}

theorem nodup_otherHosts_iff :
    ((otherHosts hosts ownName).map Host.name).Nodup ↔ ∀ name ≠ ownName, (hosts.map Host.name).count name ≤ 1 := by
  rw [map_name_otherHosts, List.nodup_iff_count_le_one]
  constructor
  · intro apart name different
    have count := apart name
    rwa [List.count_filter (by simpa using different)] at count
  · intro apart name
    by_cases own : name = ownName
    · have absent : name ∉ (hosts.map Host.name).filter fun name => name ≠ ownName := by
        simp [own]
      rw [List.count_eq_zero_of_not_mem absent]
      omega
    · rw [List.count_filter (by simpa using own)]
      exact apart name own

theorem ValidSplit.wellTyped (valid : ValidSplit sha256 hosts ownName ownHostname) :
    WellTyped hosts ownName ownHostname where
  others := nodup_otherHosts_iff.mp valid.apart
  spelled := by
    intro host member same
    by_contra different
    exact valid.foreign host (mem_otherHosts.mpr ⟨member, different⟩) same
  repeated := by
    have enough := valid.enough
    have length := length_otherHosts hosts ownName
    omega

/-- A strict majority of three or more. -/
theorem majority_of_enough {others : List Host} (enough : 3 ≤ others.length) :
    2 ≤ (sharesAndTreshold others).2 ∧ (sharesAndTreshold others).2 ≤ (sharesAndTreshold others).1 ∧
      (sharesAndTreshold others).1 < 2 * (sharesAndTreshold others).2 := by
  simp only [sharesAndTreshold]
  omega

theorem WellTyped.validSplit (wellTyped : WellTyped hosts ownName ownHostname) :
    ValidSplit sha256 hosts ownName ownHostname := by
  have enough : 3 ≤ (otherHosts hosts ownName).length := by
    have length := length_otherHosts hosts ownName
    have repeated := wellTyped.repeated
    omega
  have apart := nodup_otherHosts_iff.mpr wellTyped.others
  have foreign : ∀ host ∈ otherHosts hosts ownName, hostnameFromCommonName host.name ≠ ownHostname := by
    intro host member same
    obtain ⟨typed, different⟩ := mem_otherHosts.mp member
    exact different (wellTyped.spelled host typed same)
  have majority := majority_of_enough enough
  refine ⟨enough, apart, foreign, majority, ?_, ?_⟩
  · intro uuid4
    exact ⟨_, ShamirSecret.init_of_valid _ _ uuid4 majority.1 majority.2.1⟩
  · intro key1 uuid4 now draws publication dealt
    have dealtHosts := dealKey1_hosts dealt
    constructor
    · intro host member different
      have listed : host.name ∈ (otherHosts hosts ownName).map Host.name :=
        List.mem_map_of_mem (mem_otherHosts.mpr ⟨member, different⟩)
      have once := List.count_eq_one_of_mem apart listed
      rw [← dealtHosts, List.map_map, List.count, List.countP_map] at once
      simpa [Function.comp_def, beq_eq_decide] using once
    · intro delivery member
      apply foreign
      rw [← dealtHosts]
      exact List.mem_map_of_mem member

/-- Hostnames that differ from each other are well typed. -/
theorem wellTyped_of_nodup (enough : 4 ≤ hosts.length)
    (labels : (hosts.map fun host => hostnameFromCommonName host.name).Nodup)
    (matched : matchOwnHost hosts ownHostname = .ok ownName) : WellTyped hosts ownName ownHostname := by
  rw [matchOwnHost_eq] at matched
  cases picked : hosts.find? fun host => hostnameFromCommonName host.name = ownHostname with
  | none =>
    rw [picked] at matched
    cases matched
  | some own =>
    rw [picked] at matched
    cases matched
    have ownLabel : hostnameFromCommonName own.name = ownHostname := by
      simpa using List.find?_some picked
    have names : (hosts.map Host.name).Nodup := by
      apply List.Nodup.of_map hostnameFromCommonName
      rwa [List.map_map]
    have once := List.nodup_iff_count_le_one.mp names
    refine ⟨fun name _ => once name, ?_, ?_⟩
    · intro host member same
      have equal := List.inj_on_of_nodup_map labels member (List.mem_of_find?_eq_some picked) (same.trans ownLabel.symm)
      rw [equal]
    · have ownOnce := once own.name
      omega

end Split

/-- Whatever the operator types, the split is valid exactly when the names are well typed,
and it is when all hostnames differ.  The other hosts are told apart as they are typed: one that
is typed bare and qualified counts as two. -/
theorem split_valid_iff (sha256 : Bytes → String) (answers : List String) (hosts : List Host)
    (ownName ownHostname : String) (collected : collectHosts answers = .returned hosts)
    (matched : matchOwnHost hosts ownHostname = .ok ownName) :
    (ValidSplit sha256 hosts ownName ownHostname ↔ WellTyped hosts ownName ownHostname) ∧
    ((hosts.map fun host => hostnameFromCommonName host.name).Nodup → ValidSplit sha256 hosts ownName ownHostname) :=
  ⟨⟨ValidSplit.wellTyped, WellTyped.validSplit⟩,
    fun labels => (wellTyped_of_nodup (four_le_length collected) labels matched).validSplit⟩

/-! ## What an operator may type -/

def cleanAnswers : List String :=
  ["host1", "10.0.0.1", "server", "host2", "10.0.0.2, 10.1.0.2", "server", "host3", "", "10.0.0.3", "router", "server",
    "", "host4", "10.0.0.4", "controller", ""]

def cleanHosts : List Host :=
  [⟨"host1", "10.0.0.1", [], "server"⟩, ⟨"host2", "10.0.0.2", ["10.1.0.2"], "server"⟩,
    ⟨"host3", "10.0.0.3", [], "server"⟩, ⟨"host4", "10.0.0.4", [], "controller"⟩]

theorem split_valid_iff_clean : ValidSplit (fun _ => "") cleanHosts "host1" "host1" :=
  (split_valid_iff (fun _ => "") cleanAnswers cleanHosts "host1" "host1" (by decide +kernel) (by decide +kernel)).2
    (by decide +kernel)

/-- The own host three times and one other. -/
def repeatedAnswers : List String :=
  ["host1", "10.0.0.1", "server", "host1", "10.0.0.1", "server", "host1", "10.0.0.1", "server",
    "host4", "10.0.0.4", "controller", ""]

def repeatedHosts : List Host :=
  [⟨"host1", "10.0.0.1", [], "server"⟩, ⟨"host1", "10.0.0.1", [], "server"⟩, ⟨"host1", "10.0.0.1", [], "server"⟩,
    ⟨"host4", "10.0.0.4", [], "controller"⟩]

/-- The list is taken, and KEY1 cannot be split over the one host that is left. -/
theorem split_of_one :
    collectHosts repeatedAnswers = .returned repeatedHosts ∧
    matchOwnHost repeatedHosts "host1" = .ok "host1" ∧
    ¬ValidSplit (fun _ => "") repeatedHosts "host1" "host1" ∧
    ∀ uuid4, ShamirSecret.init (.str "key1") (.str "host1") (sharesAndTreshold (otherHosts repeatedHosts "host1")).1
      (sharesAndTreshold (otherHosts repeatedHosts "host1")).2 uuid4 =
        .error (.valueError "shares must be at least 2") := by
  refine ⟨by decide +kernel, by decide +kernel, fun valid => ?_, fun uuid4 => rfl⟩
  have enough := valid.enough
  revert enough
  decide +kernel

end SecretWeb.Setup
